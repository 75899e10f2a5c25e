import Kreg.ClusterView
import Kreg.WellFormed

namespace Kreg
open Float64 ApiServer
set_option autoImplicit true

def RIB.without (rib : RIB) (bindings : List ClusterBinding) (clusterID : String) : RIB where
  routes := others bindings clusterID rib.routes
  ipv4 r hr := rib.ipv4 r (List.mem_filter.1 hr).1
  distinct := rib.distinct.sublist (List.filter_sublist.map RIBRoute.pfx)

section Candidates

variable {F : Type}

def BackendCandidate.foreign (clusterID : String) (c : BackendCandidate F) : Bool :=
  ownerID c.clusterID != ownerID clusterID

theorem foreign_of_name {a b : BackendCandidate F} (ha : IPv4Prefix a.pfx) (hb : IPv4Prefix b.pfx)
    (hn : a.name = b.name) (clusterID : String) : a.foreign clusterID = b.foreign clusterID := by
  rw [BackendCandidate.foreign, BackendCandidate.foreign, (backendObjectName_inj ha hb hn).2]

theorem mem_settle_of_foreign {bindings : List ClusterBinding} {rib₁ rib₂ : RIB}
    {cs₁ cs₂ : List (BackendCandidate F)}
    (hp : (others bindings clusterID rib₁.routes).Perm (others bindings clusterID rib₂.routes))
    (h₁ : settle rib₁.routes bindings cm = .ok cs₁) (h₂ : settle rib₂.routes bindings cm = .ok cs₂)
    (hf : c.foreign clusterID = true) (hc : c ∈ cs₁) : c ∈ cs₂ := by
  rw [mem_settle_iff rib₁.distinct h₁] at hc
  rw [mem_settle_iff rib₂.distinct h₂]
  obtain ⟨r, hr, hn⟩ := hc
  have hid := (normalizeRoute_normalizes hn).clusterID
  rw [authorizedIn_clusterID rib₁.distinct hr] at hid
  have hA : r.attributedTo bindings clusterID = false := by
    rw [← Bool.not_eq_true]
    intro hA
    rw [cluster_of_attributedTo hA, Option.getD_some] at hid
    rw [BackendCandidate.foreign, hid, bne_self_eq_false] at hf
    cases hf
  obtain ⟨o, ho⟩ := (settle_ok_iff.1 h₁).1 r hr
  have hr₂ := (mem_others.1 (hp.mem_iff.1 (mem_others.2 ⟨hr, hA⟩))).1
  refine ⟨r, hr₂, ?_⟩
  rw [← authorizedIn_congr hp (cluster_ne_of_not_attributedTo ho hA)]
  exact hn

variable [Float64 F]

theorem Emits.of_foreign {cs₁ cs₂ : List (BackendCandidate F)}
    {prior₁ prior₂ : GoMap (PriorState F)}
    (hcs : ∀ c : BackendCandidate F, c.foreign clusterID = true → (c ∈ cs₁ ↔ c ∈ cs₂))
    (hv : ∀ c ∈ cs₂, IPv4Prefix c.pfx) (hprior : ∀ k, prior₁.lookup k = prior₂.lookup k)
    (hw : WellKeyed prior₁) (hw4 : ∀ k p, prior₁.lookup k = some p → IPv4Prefix p.candidate.pfx)
    (hf : c.foreign clusterID = true) (h : Emits now cs₁ prior₁ cfg c) :
    Emits now cs₂ prior₂ cfg c := by
  cases h with
  | passed hc hr => exact .passed ((hcs c hf).1 hc) hr
  | @evaluated c _ hc hr ht =>
    rw [hprior] at ht
    exact .evaluated ((hcs c hf).1 hc) hr ht
  | @synthesized k p _ hp hk ht =>
    refine .synthesized ((hprior k).symm.trans hp) ?_ ht
    -- a candidate of this key would be the other cluster's own, and so in the first list too
    intro hseen
    obtain ⟨c, hc, hr, hn⟩ := (mem_seen _ _).1 hseen
    have hname : c.name = p.candidate.name := hn.trans (hw k p hp).1.symm
    have hfc : c.foreign clusterID = true :=
      (foreign_of_name (hv c hc) (hw4 k p hp) hname clusterID).trans hf
    exact hk ((mem_seen _ _).2 ⟨c, (hcs c hfc).2 hc, hr, hn⟩)

end Candidates

/-- All that `Source.Snapshot` reads but the RIB, with the records as sweeps leave them. -/
structure Surroundings where
  now : Time
  peerConfigs : List (List ClusterBinding)
  cm : Option CommunityMapSpec
  stabilityConfig : Option BGPStabilityConfigSpec
  records : Records
  wellFormed : records.WellFormed

section Snapshots

variable {F : Type}

def Surroundings.bindings (e : Surroundings) : List ClusterBinding :=
  e.peerConfigs.flatten

def Surroundings.cfg (e : Surroundings) : BGPStabilityConfigSpec :=
  e.stabilityConfig.getD emptyStabilityConfig

variable [Float64 F]

/-- `Source.Snapshot` on a RIB, with every Kubernetes read succeeding. -/
def Surroundings.snapshot (e : Surroundings) (rib : RIB) (v : Visit F) :
    Except String (List (BackendCandidate F)) :=
  sourceSnapshot e.now ⟨.ok rib.routes, .ok e.peerConfigs, presence e.cm,
    presence e.stabilityConfig, .ok e.records.listManaged⟩ v.order

/-- The three outcomes are isolated from the cluster: all fail, so its routes are not why, or
both RIBs give the other clusters the same candidates. -/
def Isolated (clusterID : String) (alone one two : Except String (List (BackendCandidate F))) :
    Prop :=
  (∃ e, alone = .error e) ∧ (∃ e, one = .error e) ∧ (∃ e, two = .error e) ∨
    ∃ l l₁ l₂, alone = .ok l ∧ one = .ok l₁ ∧ two = .ok l₂ ∧
      (l₁.filter (BackendCandidate.foreign clusterID)).Perm
        (l₂.filter (BackendCandidate.foreign clusterID))

namespace Surroundings

variable (e : Surroundings)

theorem snapshot_eq (rib : RIB) (v : Visit F) :
    e.snapshot rib v = (settle rib.routes e.bindings e.cm).map fun candidates =>
      evaluate e.now candidates (v.prior e.cfg e.records) e.cfg :=
  sourceSnapshot_ok _ _ _ _ _ _ _

theorem snapshot_ok_iff {rib : RIB} {v : Visit F} {l : List (BackendCandidate F)} :
    e.snapshot rib v = .ok l ↔
      ∃ cs, settle rib.routes e.bindings e.cm = .ok cs ∧
        l = evaluate e.now cs (v.prior e.cfg e.records) e.cfg := by
  rw [snapshot_eq]
  cases settle rib.routes e.bindings e.cm with
  | error _ => simp only [Except.map, reduceCtorEq, false_and, exists_false]
  | ok cs =>
    simp only [Except.map, Except.ok.injEq, exists_eq_left']
    exact eq_comm

theorem snapshot_returns_iff (rib : RIB) (v : Visit F) :
    (∃ l, e.snapshot rib v = .ok l) ↔ Sound e.bindings e.cm rib.routes := by
  rw [← settle_ok_iff_sound (F := F) rib.distinct]
  simp only [snapshot_ok_iff]
  constructor
  · rintro ⟨_, cs, hcs, _⟩
    exact ⟨cs, hcs⟩
  · rintro ⟨cs, hcs⟩
    exact ⟨_, cs, hcs, rfl⟩

theorem snapshot_fails_iff (rib : RIB) (v : Visit F) :
    (∃ e', e.snapshot rib v = .error e') ↔ ¬ Sound e.bindings e.cm rib.routes := by
  rw [← e.snapshot_returns_iff rib v]
  cases e.snapshot rib v with
  | error e' =>
    simp only [Except.error.injEq, exists_eq', reduceCtorEq, exists_false, not_false_eq_true]
  | ok l => simp only [Except.ok.injEq, exists_eq', reduceCtorEq, exists_false, not_true_eq_false]

variable {clusterID : String} {rib₁ rib₂ : RIB} {v₁ v₂ : Visit F}

theorem mem_snapshot_of_foreign
    (hp : (others e.bindings clusterID rib₁.routes).Perm
      (others e.bindings clusterID rib₂.routes))
    (h₁ : e.snapshot rib₁ v₁ = .ok l₁) (h₂ : e.snapshot rib₂ v₂ = .ok l₂)
    (hf : c.foreign clusterID = true) (hc : c ∈ l₁) : c ∈ l₂ := by
  obtain ⟨cs₁, hs₁, rfl⟩ := e.snapshot_ok_iff.1 h₁
  obtain ⟨cs₂, hs₂, rfl⟩ := e.snapshot_ok_iff.1 h₂
  refine ((mem_evaluate hc).of_foreign (fun a ha => ?_) (rib₂.settle_ipv4 hs₂) (fun k => ?_)
    (v₁.wellKeyed e.cfg e.wellFormed)
    (fun k p hl => e.wellFormed.prior_ipv4 (Visit.prior_of_lookup hl)) hf).mem
  · exact ⟨mem_settle_of_foreign hp hs₁ hs₂ ha, mem_settle_of_foreign hp.symm hs₂ hs₁ ha⟩
  · rw [Visit.lookup_prior, Visit.lookup_prior]

theorem snapshot_nodup (h : e.snapshot rib₁ v₁ = .ok l) : l.Nodup := by
  obtain ⟨cs, hs, rfl⟩ := e.snapshot_ok_iff.1 h
  exact evaluate_nodup e.now (rib₁.settle_names_nodup hs) (v₁.wellKeyed e.cfg e.wellFormed) e.cfg

theorem snapshot_foreign_perm
    (hp : (others e.bindings clusterID rib₁.routes).Perm
      (others e.bindings clusterID rib₂.routes))
    (h₁ : e.snapshot rib₁ v₁ = .ok l₁) (h₂ : e.snapshot rib₂ v₂ = .ok l₂) :
    (l₁.filter (BackendCandidate.foreign clusterID)).Perm
      (l₂.filter (BackendCandidate.foreign clusterID)) := by
  rw [List.perm_ext_iff_of_nodup ((e.snapshot_nodup h₁).filter _) ((e.snapshot_nodup h₂).filter _)]
  intro c
  rw [List.mem_filter, List.mem_filter]
  constructor
  · rintro ⟨hc, hf⟩
    exact ⟨e.mem_snapshot_of_foreign hp h₁ h₂ hf hc, hf⟩
  · rintro ⟨hc, hf⟩
    exact ⟨e.mem_snapshot_of_foreign hp.symm h₂ h₁ hf hc, hf⟩

theorem isolated_iff_sound (v v₁ v₂ : Visit F)
    (hp : (others e.bindings clusterID rib₁.routes).Perm
      (others e.bindings clusterID rib₂.routes)) (rest : RIB) :
    Isolated clusterID (e.snapshot rest v) (e.snapshot rib₁ v₁) (e.snapshot rib₂ v₂) ↔
      ¬ Sound e.bindings e.cm rest.routes ∧ ¬ Sound e.bindings e.cm rib₁.routes ∧
          ¬ Sound e.bindings e.cm rib₂.routes ∨
        Sound e.bindings e.cm rest.routes ∧ Sound e.bindings e.cm rib₁.routes ∧
          Sound e.bindings e.cm rib₂.routes := by
  rw [Isolated, snapshot_fails_iff, snapshot_fails_iff, snapshot_fails_iff]
  apply or_congr Iff.rfl
  constructor
  · rintro ⟨l, l₁, l₂, h, h₁, h₂, _⟩
    exact ⟨(e.snapshot_returns_iff rest v).1 ⟨l, h⟩, (e.snapshot_returns_iff rib₁ v₁).1 ⟨l₁, h₁⟩,
      (e.snapshot_returns_iff rib₂ v₂).1 ⟨l₂, h₂⟩⟩
  · rintro ⟨h, h₁, h₂⟩
    obtain ⟨l, hl⟩ := (e.snapshot_returns_iff rest v).2 h
    obtain ⟨l₁, hl₁⟩ := (e.snapshot_returns_iff rib₁ v₁).2 h₁
    obtain ⟨l₂, hl₂⟩ := (e.snapshot_returns_iff rib₂ v₂).2 h₂
    exact ⟨l, l₁, l₂, hl, hl₁, hl₂, e.snapshot_foreign_perm hp hl₁ hl₂⟩

end Surroundings

end Snapshots

section Sample

def edgeAt (community : String) : RIBRoute :=
  ⟨"10.0.1.0/24", "", "192.0.2.1", ⟨"", ""⟩, 0, .made [64512], .made [community], false, ""⟩

def spokeRoute : RIBRoute :=
  ⟨"10.1.1.0/24", "", "192.0.2.1", ⟨"", ""⟩, 0, .made [64513], .made ["64512:1:50"], false, ""⟩

def spokeAlone : RIB := ⟨[spokeRoute], by decide, by decide⟩

def spokeWithEdge (community : String) : RIB where
  routes := [edgeAt community, spokeRoute]
  ipv4 := by
    have h : ∀ p ∈ ["10.0.1.0/24", "10.1.1.0/24"], IPv4Prefix p := by decide
    exact List.forall_mem_map.1 h
  distinct := by
    have h : ["10.0.1.0/24", "10.1.1.0/24"].Nodup := by decide
    exact h

/-- Two clusters that set their weight with the third part of a community. -/
def weighted : Surroundings where
  now := ⟨second⟩
  peerConfigs := [[⟨"edge", ["10.0.0.0/16"], none, ⟨"eu", "a"⟩⟩,
    ⟨"spoke", ["10.1.0.0/16"], none, ⟨"eu", "b"⟩⟩]]
  cm := some ⟨[⟨"64512:1:*", ⟨.weight, none, true⟩⟩], none, .ignore⟩
  stabilityConfig := none
  records := ∅
  wellFormed := .empty

end Sample

section Main

variable {F : Type} [Float64 F] {clusterID : String} {rib₁ rib₂ : RIB}

/-- One cluster's routes can only take the others down whole: two snapshots are isolated from it
exactly when, unless the other routes fail alone, all of its routes let through decode. -/
theorem snapshots_isolated_iff (e : Surroundings) (v v₁ v₂ : Visit F)
    (hp : (others e.bindings clusterID rib₁.routes).Perm
      (others e.bindings clusterID rib₂.routes)) :
    Isolated clusterID (e.snapshot (rib₁.without e.bindings clusterID) v) (e.snapshot rib₁ v₁)
        (e.snapshot rib₂ v₂) ↔
      (Sound e.bindings e.cm (others e.bindings clusterID rib₁.routes) →
        Legible e.bindings e.cm clusterID rib₁.routes ∧
          Legible e.bindings e.cm clusterID rib₂.routes) := by
  rw [e.isolated_iff_sound v v₁ v₂ hp]
  have h₁ := sound_iff (.refl (others e.bindings clusterID rib₁.routes)) e.cm
  have h₂ := sound_iff hp e.cm
  rw [h₁, h₂, RIB.without]
  by_cases h : Sound e.bindings e.cm (others e.bindings clusterID rib₁.routes)
  · simp only [h, not_true_eq_false, false_and, true_and, false_or, true_implies]
  · simp only [h, not_false_eq_true, false_and, and_self, true_or, false_implies]

theorem snapshots_isolated_legible :
    Isolated "edge"
      (weighted.snapshot ((spokeWithEdge "64512:1:200").without weighted.bindings "edge")
        (.asListed Rat))
      (weighted.snapshot (spokeWithEdge "64512:1:200") (.asListed Rat))
      (weighted.snapshot spokeAlone (.asListed Rat)) := by
  have hp : others weighted.bindings "edge" (spokeWithEdge "64512:1:200").routes =
      others weighted.bindings "edge" spokeAlone.routes := by decide +kernel
  refine (snapshots_isolated_iff weighted _ _ _ (.of_eq hp)).2 fun _ => ⟨?_, ?_⟩
  · have h : ∀ r ∈ (spokeWithEdge "64512:1:200").routes,
        Decodable (communityRules weighted.cm) r.largeCommunities.elems := by decide +kernel
    exact fun r hr _ _ => h r hr
  · have h : ∀ r ∈ spokeAlone.routes,
        Decodable (communityRules weighted.cm) r.largeCommunities.elems := by decide +kernel
    exact fun r hr _ _ => h r hr

/-- A weight that does not fit 32 bits, set by one cluster, takes every other one down. -/
theorem snapshots_overflow_not_isolated :
    others weighted.bindings "edge" (spokeWithEdge "64512:1:4294967295").routes =
        others weighted.bindings "edge" spokeAlone.routes ∧
      weighted.snapshot (spokeWithEdge "64512:1:4294967295") (.asListed Rat) =
        .error ("normalize: normalize 10.0.1.0/24: set weight from \"4294967295\": " ++
          "strconv.ParseInt: parsing \"4294967295\": value out of range") ∧
      (∃ c, weighted.snapshot spokeAlone (.asListed Rat) = .ok [c]) ∧
      ¬ Isolated "edge"
        (weighted.snapshot ((spokeWithEdge "64512:1:4294967295").without weighted.bindings "edge")
          (.asListed Rat))
        (weighted.snapshot (spokeWithEdge "64512:1:4294967295") (.asListed Rat))
        (weighted.snapshot spokeAlone (.asListed Rat)) := by
  have hone : weighted.snapshot (spokeWithEdge "64512:1:4294967295") (.asListed Rat) =
      .error ("normalize: normalize 10.0.1.0/24: set weight from \"4294967295\": " ++
        "strconv.ParseInt: parsing \"4294967295\": value out of range") := by rfl
  have htwo : ∃ c, weighted.snapshot spokeAlone (.asListed Rat) = .ok [c] := ⟨_, rfl⟩
  refine ⟨by decide +kernel, hone, htwo, ?_⟩
  obtain ⟨c, hc⟩ := htwo
  rw [hone, hc]
  rintro (⟨_, _, e, he⟩ | ⟨l, l₁, l₂, _, h₁, _⟩)
  · cases he
  · cases h₁

end Main

end Kreg
