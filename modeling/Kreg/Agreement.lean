import Kreg.SecondLook
import Kreg.WellFormed

namespace Kreg
open Float64 ApiServer
set_option autoImplicit true

section Offers

variable {F : Type}

def SameBackends (l l' : List (BackendCandidate F)) : Prop :=
  ∀ pfx clusterID, (∃ c ∈ l, c.pfx = pfx ∧ c.clusterID = clusterID) ↔
    ∃ c ∈ l', c.pfx = pfx ∧ c.clusterID = clusterID

structure Offer where
  pfx : String
  clusterID : String
  serviceTag : Option Int32

def BackendCandidate.offer (c : BackendCandidate F) : Offer :=
  ⟨c.pfx, c.clusterID, c.serviceTag⟩

def Offers (l : List (BackendCandidate F)) (o : Offer) : Prop :=
  ∃ c ∈ l, c.servable = true ∧ c.offer = o

theorem selectOne_of_offer {c c' : BackendCandidate F} (hs : c.servable = c'.servable)
    (ho : c.offer = c'.offer) (sel : BackendSelector) : selectOne sel c = selectOne sel c' := by
  obtain ⟨hpfx, hid, htag⟩ := Offer.mk.inj ho
  exact selectOne_congr hs hpfx hid htag sel

theorem selectOne_isOk_of_offers {l l' : List (BackendCandidate F)}
    (h : ∀ o, Offers l o → Offers l' o) (hok : ∀ c ∈ l', (selectOne sel c).isOk = true) :
    ∀ c ∈ l, (selectOne sel c).isOk = true := by
  intro c hc
  cases hs : c.servable with
  | false =>
    simp only [selectOne, hs, Bool.false_and, Bool.false_eq_true, ↓reduceIte]
    rfl
  | true =>
    obtain ⟨c', hc', hs', ho⟩ := h c.offer ⟨c, hc, hs, rfl⟩
    rw [selectOne_of_offer (hs.trans hs'.symm) ho.symm]
    exact hok c' hc'

theorem selected_of_offers {l l' : List (BackendCandidate F)}
    (h : ∀ o, Offers l o → Offers l' o)
    (hc : ∃ c ∈ l.filter (selects sel), c.pfx = pfx ∧ c.clusterID = clusterID) :
    ∃ c ∈ l'.filter (selects sel), c.pfx = pfx ∧ c.clusterID = clusterID := by
  obtain ⟨c, hm, rfl, rfl⟩ := hc
  obtain ⟨hm, hsel⟩ := List.mem_filter.1 hm
  have hs := servable_of_selects hsel
  obtain ⟨c', hm', hs', ho⟩ := h c.offer ⟨c, hm, hs, rfl⟩
  rw [selects, selectOne_of_offer (hs.trans hs'.symm) ho.symm, ← selects] at hsel
  obtain ⟨hpfx, hid, _⟩ := Offer.mk.inj ho
  exact ⟨c', List.mem_filter.2 ⟨hm', hsel⟩, hpfx, hid⟩

theorem select_alike {l l' : List (BackendCandidate F)} (h : ∀ o, Offers l o ↔ Offers l' o)
    (sel : BackendSelector) : Alike SameBackends (select l sel) (select l' sel) := by
  apply Alike.of_ok
  · intro selected hsel
    obtain ⟨hok, rfl⟩ := select_eq_ok_iff.1 hsel
    refine ⟨l'.filter (selects sel), select_eq_ok_iff.2 ⟨?_, rfl⟩, fun pfx clusterID => ?_⟩
    · exact selectOne_isOk_of_offers (fun o => (h o).2) hok
    · exact ⟨selected_of_offers fun o => (h o).1, selected_of_offers fun o => (h o).2⟩
  · intro selected hsel
    obtain ⟨hok, rfl⟩ := select_eq_ok_iff.1 hsel
    exact ⟨_, select_eq_ok_iff.2 ⟨selectOne_isOk_of_offers (fun o => (h o).1) hok, rfl⟩⟩

theorem SameBackends.symm {l l' : List (BackendCandidate F)} (h : SameBackends l l') :
    SameBackends l' l :=
  fun pfx clusterID => (h pfx clusterID).symm

theorem sameBackends_of_alike {l l' : List (BackendCandidate F)}
    (h : Alike SameBackends (select l .all) (select l' .all)) :
    SameBackends (l.filter BackendCandidate.servable) (l'.filter BackendCandidate.servable) := by
  rw [select_all, select_all] at h
  cases h with
  | returned hsame => exact hsame

theorem SameBackends.offers {l l' : List (BackendCandidate F)}
    (h : SameBackends (l.filter BackendCandidate.servable) (l'.filter BackendCandidate.servable))
    (ho : Offers l o) : ∃ o', Offers l' o' ∧ o'.pfx = o.pfx ∧ o'.clusterID = o.clusterID := by
  obtain ⟨c, hm, hs, rfl⟩ := ho
  obtain ⟨c', hm', hpfx, hid⟩ := (h c.pfx c.clusterID).1 ⟨c, List.mem_filter.2 ⟨hm, hs⟩, rfl, rfl⟩
  obtain ⟨hm', hs'⟩ := List.mem_filter.1 hm'
  exact ⟨c'.offer, ⟨c', hm', hs', rfl⟩, hpfx, hid⟩

end Offers

section Evaluations

variable {F : Type} [Float64 F]

def ServesKey (now : Time) (candidates : List (BackendCandidate F)) (prior : GoMap (PriorState F))
    (cfg : BGPStabilityConfigSpec) (k : String) : Prop :=
  Serves now cfg ((prior.lookup k).map PriorState.damping) (present candidates k).isSome

/-- What stands behind a key: its accepted candidates, or else the one its record remembers. -/
def Stands (candidates : List (BackendCandidate F)) (prior : GoMap (PriorState F)) (k : String)
    (o : Offer) : Prop :=
  (∃ c ∈ candidates, c.rejected = false ∧ c.name = k ∧ c.offer = o) ∨
    k ∉ seen candidates ∧ ∃ p, prior.lookup k = some p ∧ p.candidate.offer = o

omit [Float64 F] in
theorem present_isSome_of_mem {candidates : List (BackendCandidate F)} (hc : c ∈ candidates)
    (hr : c.rejected = false) : (present candidates c.name).isSome = true :=
  (present_isSome _ _).2 ⟨c, hc, hr, rfl⟩

omit [Float64 F] in
theorem present_isSome_of_unseen {candidates : List (BackendCandidate F)}
    (hk : k ∉ seen candidates) : (present candidates k).isSome = false := by
  rw [← Bool.not_eq_true, present_isSome, ← mem_seen]
  exact hk

omit [Float64 F] in
theorem Stands.name {candidates : List (BackendCandidate F)} {prior : GoMap (PriorState F)}
    (hw : WellKeyed prior) (h : Stands candidates prior k o) :
    backendObjectName o.pfx o.clusterID = k := by
  obtain ⟨c, _, _, hk, rfl⟩ | ⟨_, p, hp, rfl⟩ := h
  · exact hk
  · exact (hw k p hp).1

theorem ServesKey.stands {candidates : List (BackendCandidate F)} {prior : GoMap (PriorState F)}
    (h : ServesKey now candidates prior cfg k) : ∃ o, Stands candidates prior k o := by
  by_cases hk : k ∈ seen candidates
  · obtain ⟨c, hc, hr, hn⟩ := (mem_seen _ _).1 hk
    exact ⟨c.offer, .inl ⟨c, hc, hr, hn, rfl⟩⟩
  · rw [ServesKey, present_isSome_of_unseen hk] at h
    cases hp : prior.lookup k with
    | none =>
      rw [hp] at h
      exact h.elim
    | some p => exact ⟨p.candidate.offer, .inr ⟨hk, p, hp, rfl⟩⟩

omit [Float64 F] in
theorem servable_damped {c : BackendCandidate F} (hr : c.rejected = false) (d : DampingInfo F) :
    BackendCandidate.servable { c with damping := some d } = true ↔ d.Servable :=
  servable_iff (c := { c with damping := some d }) hr rfl

theorem offers_evaluate_iff {candidates : List (BackendCandidate F)}
    {prior : GoMap (PriorState F)} (hw : WellKeyed prior) :
    Offers (evaluate now candidates prior cfg) o ↔
      ∃ k, ServesKey now candidates prior cfg k ∧ Stands candidates prior k o := by
  constructor
  · rintro ⟨c, hc, hs, rfl⟩
    cases mem_evaluate hc with
    | passed _ hr =>
      rw [BackendCandidate.servable, hr] at hs
      cases hs
    | @evaluated c d hm hr ht =>
      refine ⟨c.name, ?_, .inl ⟨c, hm, hr, rfl, rfl⟩⟩
      rw [ServesKey, present_isSome_of_mem hm hr, serves_iff]
      exact ⟨d, ht.verdict_eq, (servable_damped hr d).1 hs⟩
    | @synthesized k p d hp hk ht =>
      refine ⟨k, ?_, .inr ⟨hk, p, hp, rfl⟩⟩
      have hr := (hw k p hp).2
      rw [ServesKey, present_isSome_of_unseen hk, hp, serves_iff]
      exact ⟨d, ht.verdict_eq, (servable_damped hr d).1 hs⟩
  · rintro ⟨k, hserves, ⟨c, hm, hr, rfl, rfl⟩ | ⟨hk, p, hp, rfl⟩⟩
    · rw [ServesKey, present_isSome_of_mem hm hr, serves_iff] at hserves
      obtain ⟨d, hd, hs⟩ := hserves
      refine ⟨{ c with damping := some d }, ?_, (servable_damped hr d).2 hs, rfl⟩
      exact (Emits.evaluated hm hr (verdict_transition hd)).mem
    · rw [ServesKey, present_isSome_of_unseen hk, hp, serves_iff] at hserves
      obtain ⟨d, hd, hs⟩ := hserves
      have hr := (hw k p hp).2
      refine ⟨{ p.candidate with damping := some d }, ?_, (servable_damped hr d).2 hs, rfl⟩
      exact (Emits.synthesized hp hk (verdict_transition hd)).mem

theorem ServesKey.of_same {candidates : List (BackendCandidate F)}
    {prior prior' : GoMap (PriorState F)} (hw : WellKeyed prior) (hw' : WellKeyed prior')
    (h : SameBackends ((evaluate now candidates prior cfg).filter BackendCandidate.servable)
      ((evaluate now candidates prior' cfg).filter BackendCandidate.servable))
    (hserves : ServesKey now candidates prior cfg k) : ServesKey now candidates prior' cfg k := by
  obtain ⟨o, ho⟩ := hserves.stands
  obtain ⟨o', ho', hpfx, hid⟩ := h.offers ((offers_evaluate_iff hw).2 ⟨k, hserves, ho⟩)
  obtain ⟨k', hserves', hstands⟩ := (offers_evaluate_iff hw').1 ho'
  have hk : k' = k := by
    rw [← hstands.name hw', ← ho.name hw, hpfx, hid]
  exact hk ▸ hserves'

omit [Float64 F] in
theorem stands_congr {candidates : List (BackendCandidate F)} {prior prior' : GoMap (PriorState F)}
    (h : k ∉ seen candidates → (prior.lookup k).map (fun p => p.candidate.offer) =
      (prior'.lookup k).map fun p => p.candidate.offer) (o : Offer) :
    Stands candidates prior k o ↔ Stands candidates prior' k o := by
  apply or_congr_right
  apply and_congr_right
  intro hk
  have ho := congrArg (fun x => x = some o) (h hk)
  simpa only [Option.map_eq_some_iff] using iff_of_eq ho

/-- Two evaluations of the same candidates serve the same to every selector exactly if they serve
the same keys, given that the second one remembers only what the first one did. -/
theorem select_evaluate_alike_iff {candidates : List (BackendCandidate F)}
    {prior prior' : GoMap (PriorState F)} (hw : WellKeyed prior) (hw' : WellKeyed prior')
    (hsub : ∀ k p', k ∉ seen candidates → prior'.lookup k = some p' →
      ∃ p, prior.lookup k = some p ∧ p.candidate.offer = p'.candidate.offer) :
    (∀ sel, Alike SameBackends (select (evaluate now candidates prior cfg) sel)
      (select (evaluate now candidates prior' cfg) sel)) ↔
      ∀ k, ServesKey now candidates prior cfg k ↔ ServesKey now candidates prior' cfg k := by
  constructor
  · intro h k
    have hsame := sameBackends_of_alike (h .all)
    exact ⟨.of_same hw hw' hsame, .of_same hw' hw hsame.symm⟩
  · intro h
    apply select_alike
    intro o
    rw [offers_evaluate_iff hw, offers_evaluate_iff hw']
    apply exists_congr
    intro k
    rw [h k]
    apply and_congr_right
    intro hserves
    apply stands_congr
    intro hk
    -- the second evaluation serves an absent key, so it remembers it, and so did the first
    rw [ServesKey, present_isSome_of_unseen hk] at hserves
    cases hp' : prior'.lookup k with
    | none =>
      rw [hp'] at hserves
      exact hserves.elim
    | some p' =>
      obtain ⟨p, hp, ho⟩ := hsub k p' hk hp'
      rw [hp, Option.map_some, Option.map_some, ho]

end Evaluations

section Sweeps

variable {F : Type} [Float64 F]

/-- Records as the Report stage leaves them: what the damper reads from one is named after its
own backend and dated in whole seconds. -/
structure Records.Reported (F : Type) [Float64 F] (s : Records) : Prop where
  named : ∀ k, ∀ p : PriorState F, s.prior k = some p → p.candidate.name = k
  stamped : s.RemembersSeconds F

theorem Records.prior_unrejected {s : Records} {p : PriorState F} (h : s.prior k = some p) :
    p.candidate.rejected = false := by
  obtain ⟨r, _, _, hp⟩ := (mem_prior_iff s k p).1 h
  obtain ⟨t, _, rfl⟩ := Option.map_eq_some_iff.1 hp
  rfl

theorem Records.Reported.wellKeyed {s : Records} (h : s.Reported F) (v : Visit F)
    (cfg : BGPStabilityConfigSpec) : WellKeyed (v.prior cfg s) := by
  intro k p hp
  have hprior := Visit.prior_of_lookup hp
  exact ⟨h.named k p hprior, Records.prior_unrejected hprior⟩

theorem rewritten_unmanaged {r r' : Record} (hm : r.managed = false)
    (h : rewritten stamp k (some r) l = some r') : r'.managed = false := by
  induction l generalizing r with
  | nil =>
    cases h
    exact hm
  | cons b l ih =>
    rw [rewritten_cons] at h
    split at h
    · have hw : (written stamp b (some r)).managed = false := hm
      exact ih hw h
    · exact ih hm h

theorem prior_swept_unmanaged (stamp : Time) (out : List (BackendCandidate F))
    (policies : List BGPBackendPolicy) {s : Records} (hr : s.lookup k = some r)
    (hm : r.managed = false) : (swept stamp out policies s).prior (F := F) k = none := by
  have hlater : ∀ r', (swept stamp out policies s).lookup k = some r' → r'.managed = false := by
    intro r' hr'
    rw [swept] at hr'
    by_cases hk : k ∈ out.map BackendCandidate.name
    · rw [lookup_pruned_of_mem _ hk, lookup_foldl_applied, hr] at hr'
      exact rewritten_unmanaged hm hr'
    · rw [lookup_pruned_of_notMem _ hk, lookup_foldl_applied, hr, Option.filter_eq_some_iff] at hr'
      exact rewritten_unmanaged hm hr'.1
  rw [Records.prior]
  cases hl : (swept stamp out policies s).lookup k with
  | none => rfl
  | some r' =>
    rw [Option.bind_some, hlater r' hl]
    rfl

theorem managed_of_prior_swept {s : Records} {p : PriorState F} {out : List (BackendCandidate F)}
    (h : (swept stamp out policies s).prior k = some p) : ∀ r ∈ s.lookup k, r.managed = true := by
  intro r hr
  cases hm : r.managed with
  | true => rfl
  | false =>
    rw [prior_swept_unmanaged stamp out policies hr hm] at h
    cases h

/-- A rejected candidate comes after the accepted ones of its name, and is written last. -/
def Superseded (candidates : List (BackendCandidate F)) (k : String) : Prop :=
  k ∈ seen candidates ∧
    ∃ c, (candidates.filter fun c => c.name == k).getLast? = some c ∧ c.rejected = true

variable {candidates : List (BackendCandidate F)} (hu : ∀ c ∈ candidates, c.damping = none)
include hu

section Written

variable {prior : GoMap (PriorState F)} (hw : WellKeyed prior) {s : Records}
  (hs : ∀ r ∈ s.lookup k, r.managed = true)
include hw hs

theorem prior_after (now stamp : Time) (cfg : BGPStabilityConfigSpec)
    (policies : List BGPBackendPolicy) :
    (swept stamp (evaluate now candidates prior cfg) policies s).prior k =
      ((evaluate now candidates prior cfg).filter fun c => c.name == k).getLast?.bind
        BackendCandidate.memory := by
  apply prior_swept_memory stamp policies fun _ => hs
  intro c hc
  exact (mem_evaluate hc).memorable hu fun k p hp => (hw k p hp).2

theorem prior_after_unseen (now stamp : Time) (cfg : BGPStabilityConfigSpec)
    (policies : List BGPBackendPolicy) (h : present candidates k = none) :
    (swept stamp (evaluate now candidates prior cfg) policies s).prior k =
      (emission now candidates prior cfg k).bind BackendCandidate.memory := by
  rw [prior_after hu hw hs, filter_evaluate_unseen now hw cfg h]
  apply getLast?_memory
  exact fun c hc => hu c (List.mem_filter.1 hc).1

theorem prior_after_seen (now stamp : Time) (cfg : BGPStabilityConfigSpec)
    (policies : List BGPBackendPolicy) (hk : k ∈ seen candidates)
    (hl : (candidates.filter fun c => c.name == k).getLast? = some c) :
    (swept stamp (evaluate now candidates prior cfg) policies s).prior k =
      (evaluateCandidate now prior cfg c).memory := by
  rw [prior_after hu hw hs, filter_evaluate_map now candidates hw, if_pos hk, List.append_nil,
    List.getLast?_map, hl]
  rfl

/-- A sweep writes down the verdict on a key, unless a rejected candidate comes after it. -/
theorem damping_after (now stamp : Time) (cfg : BGPStabilityConfigSpec)
    (policies : List BGPBackendPolicy) (hn : ¬ Superseded candidates k) :
    ((swept stamp (evaluate now candidates prior cfg) policies s).prior k).map
        PriorState.damping =
      (verdict now cfg ((prior.lookup k).map PriorState.damping)
        (present candidates k).isSome).bind DampingInfo.kept := by
  cases hp : present candidates k with
  | none =>
    rw [prior_after_unseen hu hw hs now stamp cfg policies hp, ← hp, ← emission_damping]
    cases emission now candidates prior cfg k with
    | none => rfl
    | some c => exact memory_damping c
  | some a =>
    obtain ⟨ha, hra, hka⟩ := present_eq_some hp
    have hk : k ∈ seen candidates := (mem_seen _ _).2 ⟨a, ha, hra, hka⟩
    have hm : a ∈ candidates.filter fun c => c.name == k :=
      List.mem_filter.2 ⟨ha, beq_iff_eq.2 hka⟩
    obtain ⟨c, hl⟩ := List.getLast?_isSome.2 (List.ne_nil_of_mem hm) |> Option.isSome_iff_exists.1
    have hname : c.name = k := beq_iff_eq.1 (List.mem_filter.1 (List.mem_of_getLast? hl)).2
    have hr : ¬ c.rejected = true := fun hr => hn ⟨hk, c, hl, hr⟩
    rw [prior_after_seen hu hw hs now stamp cfg policies hk hl, memory_damping, evaluateCandidate,
      if_neg hr, hname]
    rfl

theorem prior_after_superseded (now stamp : Time) (cfg : BGPStabilityConfigSpec)
    (policies : List BGPBackendPolicy) (h : Superseded candidates k) :
    (swept stamp (evaluate now candidates prior cfg) policies s).prior (F := F) k = none := by
  obtain ⟨hk, c, hl, hr⟩ := h
  have hc := (List.mem_filter.1 (List.mem_of_getLast? hl)).1
  rw [prior_after_seen hu hw hs now stamp cfg policies hk hl, evaluateCandidate, if_pos hr,
    BackendCandidate.memory, hu c hc]
  rfl

end Written

section Again

variable {s : Records} (hs : s.Reported F) (visit : Visit F) (now stamp : Time)
  (cfg : BGPStabilityConfigSpec) (policies : List BGPBackendPolicy)
include hs

theorem Records.Reported.wellKeyed_swept (visit' : Visit F) :
    WellKeyed (visit'.prior cfg
      (swept stamp (evaluate now candidates (visit.prior cfg s) cfg) policies s)) := by
  intro k p hp
  have hprior := Visit.prior_of_lookup hp
  have hm := managed_of_prior_swept hprior
  refine ⟨?_, Records.prior_unrejected hprior⟩
  rw [prior_after hu (hs.wellKeyed visit cfg) hm] at hprior
  obtain ⟨c, hc, hmem⟩ := Option.bind_eq_some_iff.1 hprior
  obtain ⟨d, _, rfl⟩ := Option.map_eq_some_iff.1 hmem
  exact beq_iff_eq.1 (List.mem_filter.1 (List.mem_of_getLast? hc)).2

theorem Records.Reported.offer_swept (visit' : Visit F) (k : String) (p' : PriorState F)
    (hk : k ∉ seen candidates)
    (hp' : (visit'.prior cfg
      (swept stamp (evaluate now candidates (visit.prior cfg s) cfg) policies s)).lookup k =
        some p') :
    ∃ p, (visit.prior cfg s).lookup k = some p ∧ p.candidate.offer = p'.candidate.offer := by
  have hprior := Visit.prior_of_lookup hp'
  have hm := managed_of_prior_swept hprior
  have hgone : present candidates k = none :=
    Option.not_isSome_iff_eq_none.1 (Bool.eq_false_iff.1 (present_isSome_of_unseen hk))
  rw [prior_after_unseen hu (hs.wellKeyed visit cfg) hm now stamp cfg policies hgone] at hprior
  obtain ⟨c, he, hmem⟩ := Option.bind_eq_some_iff.1 hprior
  obtain ⟨_, _, rfl⟩ := Option.map_eq_some_iff.1 hmem
  obtain ⟨d, _, _, hc⟩ := emission_cases he
  rcases hc with ⟨a, ha, _⟩ | ⟨_, p, hp, rfl⟩
  · rw [hgone] at ha
    cases ha
  · exact ⟨p, hp, rfl⟩

end Again

end Sweeps

section Twice

variable {F : Type} [Float64 F]

def Records.recalled (F : Type) [Float64 F] (s : Records) (cfg : BGPStabilityConfigSpec)
    (k : String) : Option (DampingInfo F) :=
  (if needsPriorState cfg then s.prior k else none).map PriorState.damping

/-- The verdict on the key is not there to be read again: the configuration needs no memory, there
is no instant to date it by, the record is not the Report stage's own, or a rejected candidate of
the same name is written over it. -/
def Unremembered (now : Time) (candidates : List (BackendCandidate F))
    (cfg : BGPStabilityConfigSpec) (s : Records) (k : String) : Prop :=
  needsPriorState cfg = false ∨ now.isZero = true ∨
    (∃ r, s.lookup k = some r ∧ r.managed = false) ∨ Superseded candidates k

/-- When a key is served alike before and after a sweep: a key that is not remembered is served as
a new one would be, and any other is steady. -/
def KeyAgrees (now : Time) (candidates : List (BackendCandidate F)) (cfg : BGPStabilityConfigSpec)
    (s : Records) (k : String) : Prop :=
  (Unremembered now candidates cfg s k →
    (Serves now cfg (s.recalled F cfg k) (present candidates k).isSome ↔
      Serves (F := F) now cfg none (present candidates k).isSome)) ∧
  (¬ Unremembered now candidates cfg s k →
    KeySteady now cfg (s.recalled F cfg k) (present candidates k).isSome)

theorem Visit.lookup_damping (visit : Visit F) (cfg : BGPStabilityConfigSpec) (s : Records)
    (k : String) :
    ((visit.prior cfg s).lookup k).map PriorState.damping = s.recalled F cfg k := by
  rw [visit.lookup_prior, Records.recalled]

theorem Records.Reported.recalled_stamped {s : Records} (h : s.Reported F)
    (cfg : BGPStabilityConfigSpec) (k : String) : ∀ d ∈ s.recalled F cfg k, d.Stamped := by
  intro d hd
  obtain ⟨p, hp, rfl⟩ := Option.map_eq_some_iff.1 hd
  split at hp
  · exact h.stamped k p hp
  · cases hp

theorem kept_verdict_zero (hz : now.isZero = true) (cfg : BGPStabilityConfigSpec)
    (prev : Option (DampingInfo F)) (here : Bool) :
    (verdict now cfg prev here).bind DampingInfo.kept = none := by
  cases hv : verdict now cfg prev here with
  | none => rfl
  | some d =>
    rw [Option.bind_some, DampingInfo.kept, (verdict_transition hv).lastObservedAt_eq, if_pos hz]

variable {candidates : List (BackendCandidate F)} (hu : ∀ c ∈ candidates, c.damping = none)
  {s : Records} (hs : s.Reported F)
include hu hs

theorem Records.Reported.recalled_swept (hn : needsPriorState cfg = true)
    (hm : ∀ r ∈ s.lookup k, r.managed = true) (hsup : ¬ Superseded candidates k)
    (visit : Visit F) (now stamp : Time) (policies : List BGPBackendPolicy) :
    (swept stamp (evaluate now candidates (visit.prior cfg s) cfg) policies s).recalled F cfg k =
      (verdict now cfg (s.recalled F cfg k) (present candidates k).isSome).bind
        DampingInfo.kept := by
  rw [Records.recalled, if_pos hn, ← visit.lookup_damping]
  exact damping_after hu (hs.wellKeyed visit cfg) hm now stamp cfg policies hsup

theorem Unremembered.recalled_swept (h : Unremembered now candidates cfg s k) (visit : Visit F)
    (stamp : Time) (policies : List BGPBackendPolicy) :
    (swept stamp (evaluate now candidates (visit.prior cfg s) cfg) policies s).recalled F cfg k =
      none := by
  cases hn : needsPriorState cfg with
  | false =>
    rw [Records.recalled, hn]
    rfl
  | true =>
    by_cases hm : ∃ r, s.lookup k = some r ∧ r.managed = false
    · obtain ⟨r, hr, hm⟩ := hm
      rw [Records.recalled, prior_swept_unmanaged stamp _ policies hr hm, ite_self]
      rfl
    · have hown : ∀ r ∈ s.lookup k, r.managed = true := fun r hr =>
        eq_true_of_ne_false fun hf => hm ⟨r, hr, hf⟩
      by_cases hsup : Superseded candidates k
      · rw [Records.recalled,
          prior_after_superseded hu (hs.wellKeyed visit cfg) hown now stamp cfg policies hsup,
          ite_self]
        rfl
      · rw [hs.recalled_swept hu hn hown hsup]
        rcases h with h | hz | h | h
        · cases hn.symm.trans h
        · exact kept_verdict_zero hz cfg _ _
        · exact absurd h hm
        · exact absurd h hsup

theorem keyAgrees_iff (visit : Visit F) (now stamp : Time) (policies : List BGPBackendPolicy)
    (cfg : BGPStabilityConfigSpec) (k : String) :
    KeyAgrees now candidates cfg s k ↔
      (Serves now cfg (s.recalled F cfg k) (present candidates k).isSome ↔
        Serves now cfg
          ((swept stamp (evaluate now candidates (visit.prior cfg s) cfg) policies s).recalled F
            cfg k)
          (present candidates k).isSome) := by
  by_cases h : Unremembered now candidates cfg s k
  · rw [h.recalled_swept hu hs visit stamp policies]
    exact ⟨fun ha => ha.1 h, fun ha => ⟨fun _ => ha, fun hn => absurd h hn⟩⟩
  · have hsteady : KeyAgrees now candidates cfg s k ↔
        KeySteady now cfg (s.recalled F cfg k) (present candidates k).isSome :=
      ⟨fun ha => ha.2 h, fun ha => ⟨fun hn => absurd hn h, fun _ => ha⟩⟩
    rw [Unremembered, not_or, not_or, not_or, Bool.not_eq_false, Bool.not_eq_true] at h
    obtain ⟨hn, hz, hm, hsup⟩ := h
    have hown : ∀ r ∈ s.lookup k, r.managed = true := fun r hr =>
      eq_true_of_ne_false fun hf => hm ⟨r, hr, hf⟩
    rw [hsteady, hs.recalled_swept hu hn hown hsup]
    exact keySteady_iff hz (hs.recalled_stamped cfg k) _ cfg

/-- The policies are served the same before and after the Report stage's sweep exactly if every key
agrees. -/
theorem select_swept_alike_iff (visit visit' : Visit F) (cfg : BGPStabilityConfigSpec)
    (policies : List BGPBackendPolicy)
    (hr : Returns (reconcileBackends stamp
      (.ok (evaluate now candidates (visit.prior cfg s) cfg)) policies) s () s') :
    (∀ sel, Alike SameBackends
      (select (evaluate now candidates (visit.prior cfg s) cfg) sel)
      (select (evaluate now candidates (visit'.prior cfg s') cfg) sel)) ↔
      ∀ k, KeyAgrees now candidates cfg s k := by
  obtain ⟨_, rfl⟩ := hr.functional (reconcileBackends_returns _ _ _ _)
  rw [select_evaluate_alike_iff (hs.wellKeyed visit cfg)
    (hs.wellKeyed_swept hu visit now stamp cfg policies visit')
    (hs.offer_swept hu visit now stamp cfg policies visit')]
  apply forall_congr'
  intro k
  rw [keyAgrees_iff hu hs visit now stamp policies, ServesKey, ServesKey, visit.lookup_damping,
    visit'.lookup_damping]

end Twice

def thresholdConfig : BGPStabilityConfigSpec :=
  ⟨some (.seconds 300), none, some ⟨true, none, some 1500, none, none⟩⟩

/-- A backend that was withdrawn at the first second and is held since. -/
def heldSpoke (penalty : Int32) : Record :=
  ⟨[(managedByLabel, managedByValue)],
    { (buildOne spokeCandidate []).status with
      state := .holdDown
      stability := ⟨0, penalty, some ⟨second⟩, some ⟨second⟩, none, none⟩ }⟩

def heldRecords (penalty : Int32) : Records :=
  (∅ : Records).insert "10-1-0-0-24-spoke" (heldSpoke penalty)

theorem heldRecords_of_ne (penalty : Int32) (h : k ≠ "10-1-0-0-24-spoke") :
    (heldRecords penalty).lookup k = none := by
  rw [heldRecords, AList.lookup_insert_ne h, AList.lookup_empty]

theorem heldRecords_reported (penalty : Int32) : (heldRecords penalty).Reported Rat := by
  have hheld : ∀ k, ∀ p : PriorState Rat, (heldRecords penalty).prior k = some p →
      p.candidate.name = k ∧ p.damping.Stamped := by
    intro k p hp
    obtain ⟨r, hr, _, hp⟩ := (mem_prior_iff _ k p).1 hp
    by_cases hk : k = "10-1-0-0-24-spoke"
    · subst hk
      rw [heldRecords, AList.lookup_insert] at hr
      cases hr
      cases hp
      have hname : backendObjectName "10.1.0.0/24" "spoke" = "10-1-0-0-24-spoke" := by
        decide +kernel
      have hwhole : (⟨second⟩ : Time).Whole := by decide
      refine ⟨hname, hwhole, ?_, forall_mem_none, forall_mem_none⟩
      exact fun t ht => Option.some.inj ht ▸ hwhole
    · rw [heldRecords_of_ne penalty hk] at hr
      cases hr
  exact ⟨fun k p hp => (hheld k p hp).1, fun k p hp => (hheld k p hp).2⟩

/-- The spoke comes back at second 91: what the damper makes of it, given these records. -/
def spokeReturns (s : Records) : List (BackendCandidate Rat) :=
  evaluate ⟨91 * second⟩ [spokeCandidate] ((Visit.asListed Rat).prior thresholdConfig s)
    thresholdConfig

theorem keyAgrees_held (k : String) :
    KeyAgrees ⟨91 * second⟩ [spokeCandidate] thresholdConfig (heldRecords 500) k := by
  by_cases hk : k = "10-1-0-0-24-spoke"
  · subst hk
    have hrecalled : (heldRecords 500).recalled Rat thresholdConfig "10-1-0-0-24-spoke" =
        some ⟨.holdDown, "", 500, 0, ⟨second⟩, some ⟨second⟩, none, none⟩ := by
      rfl
    have hhere : (present [spokeCandidate] "10-1-0-0-24-spoke").isSome = true := by decide +kernel
    rw [KeyAgrees, hrecalled, hhere]
    refine ⟨fun _ => iff_of_true ⟨?_, ?_⟩ ?_, fun _ => .inr fun _ => ?_⟩
    · exact fun hpending => nomatch hpending.1
    · decide +kernel
    · exact Int.le_refl 0
    · decide +kernel
  · have hrecalled : (heldRecords 500).recalled Rat thresholdConfig k = none := by
      rw [Records.recalled, Records.prior, heldRecords_of_ne 500 hk, Option.bind_none, ite_self]
      rfl
    have hunseen : k ∉ seen [spokeCandidate] := by
      have hseen : seen [spokeCandidate] = ["10-1-0-0-24-spoke"] := by decide +kernel
      rw [hseen, List.mem_singleton]
      exact hk
    rw [KeyAgrees, hrecalled, present_isSome_of_unseen hunseen]
    exact ⟨fun _ => Iff.rfl, fun _ => trivial⟩

theorem select_swept_alike_held :
    Alike SameBackends (select (spokeReturns (heldRecords 500)) .all)
      (select (spokeReturns (swept ⟨91 * second⟩ (spokeReturns (heldRecords 500)) []
        (heldRecords 500))) .all) := by
  have hu : ∀ c ∈ [spokeCandidate], c.damping = none := by
    intro c hc
    cases List.mem_singleton.1 hc
    rfl
  exact (select_swept_alike_iff hu (heldRecords_reported 500) _ _ _ []
    (reconcileBackends_returns _ _ _ _)).2 keyAgrees_held .all

/-- A score of 1499.5 is served, and stored as 1500. -/
theorem select_swept_rounded :
    ∃ s', Returns (reconcileBackends ⟨91 * second⟩ (.ok (spokeReturns (heldRecords 999))) [])
        (heldRecords 999) () s' ∧
      ¬ ∀ sel, Alike SameBackends (select (spokeReturns (heldRecords 999)) sel)
        (select (spokeReturns s') sel) := by
  refine ⟨_, reconcileBackends_returns _ _ _ _, fun h => ?_⟩
  have hfirst : ∃ c ∈ (spokeReturns (heldRecords 999)).filter BackendCandidate.servable,
      c.pfx = "10.1.0.0/24" ∧ c.clusterID = "spoke" := by
    decide +kernel
  have hsecond : ¬ ∃ c ∈ (spokeReturns (swept ⟨91 * second⟩ (spokeReturns (heldRecords 999)) []
        (heldRecords 999))).filter BackendCandidate.servable,
      c.pfx = "10.1.0.0/24" ∧ c.clusterID = "spoke" := by
    decide +kernel
  exact hsecond ((sameBackends_of_alike (h .all) _ _).1 hfirst)

end Kreg
