import Kreg.Decoding
import Kreg.Settled

namespace Kreg
open Ranking
set_option autoImplicit true

theorem countP_range_eq (l : List α) (p : Nat → Bool) (q : α → Bool)
    (h : ∀ i a, l[i]? = some a → p i = q a) :
    (List.range l.length).countP p = l.countP q := by
  induction l generalizing p with
  | nil => rfl
  | cons a l ih =>
    have htail : (List.range l.length).countP (p ∘ Nat.succ) = l.countP q :=
      ih (p ∘ Nat.succ) fun i b hb => h (i + 1) b hb
    rw [List.length_cons, List.range_succ_eq_map, List.countP_cons, List.countP_map,
      List.countP_cons, htail, h 0 a rfl]

def RIBRoute.cluster (bindings : List ClusterBinding) (r : RIBRoute) : Option String :=
  (r.owner bindings).map ClusterBinding.clusterID

def share (bindings : List ClusterBinding) (routes : List RIBRoute) (clusterID : String) :
    List RIBRoute :=
  routes.filter fun r => r.cluster bindings == some clusterID

def PastCap (own : List RIBRoute) (m : Int32) (r : RIBRoute) : Prop :=
  ¬ m < 0 ∧ ¬ Int32.ofNat own.length ≤ m ∧
    m.toInt.toNat ≤ own.countP fun a => decide (a.pfx < r.pfx)

instance (own : List RIBRoute) (m : Int32) (r : RIBRoute) : Decidable (PastCap own m r) :=
  inferInstanceAs (Decidable (_ ∧ _ ∧ _))

def capRoute (bindings : List ClusterBinding) (routes : List RIBRoute) (r acc : RIBRoute)
    (b : ClusterBinding) : RIBRoute :=
  match b.maxPrefixes with
  | none => acc
  | some m =>
    if r.cluster bindings = some b.clusterID ∧ PastCap (share bindings routes b.clusterID) m r then
      acc.overCap b.clusterID m
    else acc

/-- The verdict on a route among routes with distinct prefixes: its position does not matter. -/
def authorizedIn (bindings : List ClusterBinding) (routes : List RIBRoute) (r : RIBRoute) :
    RIBRoute :=
  bindings.foldl (capRoute bindings routes r) (r.attributed bindings)

theorem ownerAt_eq (hr : routes[i]? = some r) (bindings : List ClusterBinding) :
    ownerAt bindings routes i = r.cluster bindings := by
  rw [ownerAt, hr]
  rfl

theorem prefixAt_eq (hr : routes[i]? = some r) : prefixAt routes i = r.pfx := by
  rw [prefixAt, hr]
  rfl

theorem claimed_length (bindings : List ClusterBinding) (routes : List RIBRoute)
    (clusterID : String) :
    (claimed bindings routes clusterID).length = (share bindings routes clusterID).length := by
  rw [claimed, share, ← List.countP_eq_length_filter, ← List.countP_eq_length_filter]
  apply countP_range_eq
  intro i r hr
  rw [ownerAt_eq hr]

theorem before_iff (hd : (routes.map RIBRoute.pfx).Nodup) (hr : routes[i]? = some r)
    (ha : routes[j]? = some a) : Before (prefixAt routes) j i ↔ a.pfx < r.pfx := by
  rw [Before, prefixAt_eq hr, prefixAt_eq ha]
  constructor
  · rintro (h | ⟨he, hlt⟩)
    · exact h
    · have hne := List.nodup_iff_getElem?_ne_getElem?.1 hd j i hlt
        (by rw [List.length_map]; exact (List.getElem?_eq_some_iff.1 hr).1)
      rw [List.getElem?_map, List.getElem?_map, ha, hr, Option.map_some, Option.map_some, he] at hne
      exact (hne rfl).elim
  · exact .inl

theorem rank_eq (hd : (routes.map RIBRoute.pfx).Nodup) (hr : routes[i]? = some r)
    (bindings : List ClusterBinding) (clusterID : String) :
    rank bindings routes clusterID i =
      (share bindings routes clusterID).countP fun a => decide (a.pfx < r.pfx) := by
  rw [rank, claimed, share, List.countP_filter, List.countP_filter]
  apply countP_range_eq
  intro j a ha
  rw [ownerAt_eq ha, decide_eq_decide.2 (before_iff hd hr ha)]

theorem cut_iff (hd : (routes.map RIBRoute.pfx).Nodup) (hr : routes[i]? = some r)
    (bindings : List ClusterBinding) (b : ClusterBinding) (m : Int32) :
    Cut bindings routes b m i ↔
      r.cluster bindings = some b.clusterID ∧
        PastCap (share bindings routes b.clusterID) m r := by
  rw [Cut, PastCap, claimed_length, rank_eq hd hr, ownerAt_eq hr]
  constructor
  · rintro ⟨hneg, hle, ho, hm⟩
    exact ⟨ho, hneg, hle, hm⟩
  · rintro ⟨ho, hneg, hle, hm⟩
    exact ⟨hneg, hle, ho, hm⟩

theorem authorizedAt_eq (hd : (routes.map RIBRoute.pfx).Nodup) (hr : routes[i]? = some r)
    (bindings : List ClusterBinding) :
    authorizedAt bindings routes i r = authorizedIn bindings routes r := by
  rw [authorizedAt, authorizedIn]
  congr 1
  funext acc b
  rw [capStep, capRoute]
  cases b.maxPrefixes with
  | none => rfl
  | some m => simp only [cut_iff hd hr]

/-- The route came in unflagged, some binding allows its address and no cap cuts it off. -/
structure Passes (bindings : List ClusterBinding) (routes : List RIBRoute) (r : RIBRoute) :
    Prop where
  unflagged : r.rejected = false
  owned : (r.cluster bindings).isSome = true
  uncut : ∀ b ∈ bindings, ∀ m, b.maxPrefixes = some m → r.cluster bindings = some b.clusterID →
    ¬ PastCap (share bindings routes b.clusterID) m r

section Verdicts

variable {bindings : List ClusterBinding}

theorem authorizedIn_rejected (hd : (routes.map RIBRoute.pfx).Nodup) (hr : r ∈ routes) :
    (authorizedIn bindings routes r).rejected = false ↔ Passes bindings routes r := by
  obtain ⟨i, hi⟩ := List.mem_iff_getElem?.1 hr
  rw [← authorizedAt_eq hd hi, authorizedAt_rejected]
  have hcut := cut_iff hd hi bindings
  constructor
  · rintro ⟨b, h⟩
    refine ⟨h.unflagged, ?_, ?_⟩
    · rw [RIBRoute.cluster, h.owned]
      rfl
    · intro b' hb m hm hc hp
      exact h.uncut b' hb m hm ((hcut b' m).2 ⟨hc, hp⟩)
  · intro h
    obtain ⟨b, hb⟩ := Option.isSome_iff_exists.1 ((Option.isSome_map ..).symm.trans h.owned)
    refine ⟨b, h.unflagged, hb, ?_⟩
    intro b' hb' m hm hc
    obtain ⟨hc, hp⟩ := (hcut b' m).1 hc
    exact h.uncut b' hb' m hm hc hp

theorem authorizedIn_eq (hd : (routes.map RIBRoute.pfx).Nodup) (hr : r ∈ routes) :
    ∃ rejected reason, authorizedIn bindings routes r =
      { r.attributed bindings with rejected := rejected, reason := reason } := by
  obtain ⟨i, hi⟩ := List.mem_iff_getElem?.1 hr
  rw [← authorizedAt_eq hd hi]
  exact foldl_capStep_eq bindings routes i bindings (r.attributed bindings)

theorem authorizedIn_clusterID (hd : (routes.map RIBRoute.pfx).Nodup) (hr : r ∈ routes) :
    (authorizedIn bindings routes r).clusterID = (r.cluster bindings).getD "" := by
  obtain ⟨rejected, reason, he⟩ := authorizedIn_eq hd hr
  rw [he, RIBRoute.attributed, RIBRoute.cluster]
  cases r.owner bindings <;> rfl

theorem authorizedIn_largeCommunities (hd : (routes.map RIBRoute.pfx).Nodup) (hr : r ∈ routes) :
    (authorizedIn bindings routes r).largeCommunities = r.largeCommunities := by
  obtain ⟨i, hi⟩ := List.mem_iff_getElem?.1 hr
  rw [← authorizedAt_eq hd hi, authorizedAt_largeCommunities]

end Verdicts

theorem mapIdx_authorizedAt {routes : List RIBRoute} (hd : (routes.map RIBRoute.pfx).Nodup)
    (bindings : List ClusterBinding) :
    routes.mapIdx (authorizedAt bindings routes) = routes.map (authorizedIn bindings routes) := by
  apply List.ext_getElem?
  intro i
  rw [List.getElem?_mapIdx, List.getElem?_map]
  cases hr : routes[i]? with
  | none => rfl
  | some r => exact congrArg some (authorizedAt_eq hd hr bindings)

theorem pastCap_perm {own₁ own₂ : List RIBRoute} (h : own₁.Perm own₂) (m : Int32) (r : RIBRoute) :
    PastCap own₁ m r ↔ PastCap own₂ m r := by
  rw [PastCap, PastCap, h.length_eq, h.countP_eq]

theorem authorizedIn_of_share {routes₁ routes₂ : List RIBRoute}
    (h : ∀ k, r.cluster bindings = some k →
      (share bindings routes₁ k).Perm (share bindings routes₂ k)) :
    authorizedIn bindings routes₁ r = authorizedIn bindings routes₂ r := by
  rw [authorizedIn, authorizedIn]
  congr 1
  funext acc b
  rw [capRoute, capRoute]
  cases b.maxPrefixes with
  | none => rfl
  | some m =>
    have hcap : (r.cluster bindings = some b.clusterID ∧
          PastCap (share bindings routes₁ b.clusterID) m r) ↔
        (r.cluster bindings = some b.clusterID ∧
          PastCap (share bindings routes₂ b.clusterID) m r) := by
      apply and_congr_right
      intro hb
      exact pastCap_perm (h _ hb) m r
    simp only [hcap]

section Settle

variable {F : Type}

theorem forall₂_map_left_mem_iff {R : β → γ → Prop} {f : α → β} {l : List α}
    (hR : ∀ b c c', R b c → R b c' → c = c') (h : List.Forall₂ R (l.map f) l') (c : γ) :
    c ∈ l' ↔ ∃ a ∈ l, R (f a) c := by
  induction l generalizing l' with
  | nil =>
    cases h
    simp only [List.not_mem_nil, false_and, exists_false]
  | cons a l ih =>
    cases h with
    | @cons _ c' _ l' hc hl =>
      have hhead : c = c' ↔ R (f a) c := ⟨fun he => he ▸ hc, fun h' => hR _ _ _ h' hc⟩
      rw [List.mem_cons, ih hl, hhead]
      simp only [List.mem_cons, exists_eq_or_imp]

theorem exists_forall₂_iff {R : α → β → Prop} (l : List α) :
    (∃ l', List.Forall₂ R l l') ↔ ∀ a ∈ l, ∃ b, R a b := by
  induction l with
  | nil => exact ⟨fun _ _ ha => (List.not_mem_nil ha).elim, fun _ => ⟨[], .nil⟩⟩
  | cons a l ih =>
    rw [List.forall_mem_cons, ← ih]
    constructor
    · rintro ⟨l', h⟩
      cases h with
      | cons hb hl => exact ⟨⟨_, hb⟩, _, hl⟩
    · rintro ⟨⟨b, hb⟩, l', hl⟩
      exact ⟨b :: l', .cons hb hl⟩

theorem mem_settle_iff (hd : (routes.map RIBRoute.pfx).Nodup) {cs : List (BackendCandidate F)}
    (h : settle routes bindings cm = .ok cs) (c : BackendCandidate F) :
    c ∈ cs ↔ ∃ r ∈ routes, normalizeRoute (authorizedIn bindings routes r) cm = .ok c := by
  have hf := (settle_ok_iff.1 h).2
  rw [mapIdx_authorizedAt hd] at hf
  exact forall₂_map_left_mem_iff (fun _ _ _ h h' => Except.ok.inj (h.symm.trans h')) hf c

/-- Every route finds its binding and every one let through can be decoded. -/
structure Sound (bindings : List ClusterBinding) (cm : Option CommunityMapSpec)
    (routes : List RIBRoute) : Prop where
  matchable : Matchable bindings routes
  decodable : ∀ r ∈ routes, Passes bindings routes r →
    Decodable (communityRules cm) r.largeCommunities.elems

/-- The only two ways Authorize and Normalize fail. -/
theorem settle_ok_iff_sound (hd : (routes.map RIBRoute.pfx).Nodup)
    (bindings : List ClusterBinding) (cm : Option CommunityMapSpec) :
    (∃ cs : List (BackendCandidate F), settle routes bindings cm = .ok cs) ↔
      Sound bindings cm routes := by
  simp only [settle_ok_iff, mapIdx_authorizedAt hd, exists_and_left, exists_forall₂_iff,
    List.forall_mem_map, normalizeRoute_ok_iff]
  constructor
  · rintro ⟨hm, h⟩
    refine ⟨hm, ?_⟩
    intro r hr hp
    rw [← authorizedIn_largeCommunities hd hr]
    exact h r hr ((authorizedIn_rejected hd hr).2 hp)
  · intro h
    refine ⟨h.matchable, ?_⟩
    intro r hr hrej
    rw [authorizedIn_largeCommunities hd hr]
    exact h.decodable r hr ((authorizedIn_rejected hd hr).1 hrej)

end Settle

section Others

def RIBRoute.attributedTo (bindings : List ClusterBinding) (clusterID : String) (r : RIBRoute) :
    Bool :=
  match matchBinding r.pfx bindings with
  | .ok (some b) => b.clusterID == clusterID
  | _ => false

def others (bindings : List ClusterBinding) (clusterID : String) (routes : List RIBRoute) :
    List RIBRoute :=
  routes.filter fun r => !r.attributedTo bindings clusterID

variable {bindings : List ClusterBinding} {clusterID : String} {r : RIBRoute}

theorem mem_others {routes : List RIBRoute} :
    r ∈ others bindings clusterID routes ↔
      r ∈ routes ∧ r.attributedTo bindings clusterID = false := by
  rw [others, List.mem_filter, Bool.not_eq_true']

theorem others_others (routes : List RIBRoute) :
    others bindings clusterID (others bindings clusterID routes) =
      others bindings clusterID routes := by
  rw [others, others, List.filter_filter]
  simp only [Bool.and_self]

theorem cluster_of_attributedTo (h : r.attributedTo bindings clusterID = true) :
    r.cluster bindings = some clusterID := by
  rw [RIBRoute.attributedTo] at h
  split at h
  · next hm =>
    rw [RIBRoute.cluster, owner_of_matchBinding hm, Option.map_some, beq_iff_eq.1 h]
  · cases h

theorem cluster_ne_of_not_attributedTo (hm : matchBinding r.pfx bindings = .ok o)
    (h : r.attributedTo bindings clusterID = false) : r.cluster bindings ≠ some clusterID := by
  rw [RIBRoute.cluster, owner_of_matchBinding hm]
  intro ho
  obtain ⟨b, rfl, hb⟩ := Option.map_eq_some_iff.1 ho
  simp only [RIBRoute.attributedTo, hm, hb, beq_self_eq_true, Bool.true_eq_false] at h

theorem share_others (routes : List RIBRoute) (h : other ≠ clusterID) :
    share bindings (others bindings clusterID routes) other = share bindings routes other := by
  rw [share, others, List.filter_filter, share]
  apply List.filter_congr
  intro r _
  cases hr : r.attributedTo bindings clusterID with
  | false => rw [Bool.not_false, Bool.and_true]
  | true =>
    rw [cluster_of_attributedTo hr, Bool.not_true, Bool.and_false, eq_comm, beq_eq_false_iff_ne]
    exact fun he => h (Option.some.inj he).symm

theorem share_perm {routes₁ routes₂ : List RIBRoute}
    (hp : (others bindings clusterID routes₁).Perm (others bindings clusterID routes₂))
    (h : other ≠ clusterID) :
    (share bindings routes₁ other).Perm (share bindings routes₂ other) := by
  rw [← share_others routes₁ h, ← share_others routes₂ h]
  exact hp.filter _

theorem authorizedIn_congr {routes₁ routes₂ : List RIBRoute}
    (hp : (others bindings clusterID routes₁).Perm (others bindings clusterID routes₂))
    (hr : r.cluster bindings ≠ some clusterID) :
    authorizedIn bindings routes₁ r = authorizedIn bindings routes₂ r := by
  apply authorizedIn_of_share
  intro k hk
  have hne : k ≠ clusterID := fun he => hr (he ▸ hk)
  exact share_perm hp hne

theorem passes_congr {routes₁ routes₂ : List RIBRoute}
    (hp : (others bindings clusterID routes₁).Perm (others bindings clusterID routes₂))
    (hr : r.cluster bindings ≠ some clusterID) (h : Passes bindings routes₁ r) :
    Passes bindings routes₂ r := by
  refine ⟨h.unflagged, h.owned, ?_⟩
  intro b hb m hm hc
  have hne : b.clusterID ≠ clusterID := fun he => hr (he ▸ hc)
  rw [← pastCap_perm (share_perm hp hne)]
  exact h.uncut b hb m hm hc

/-- Every route of the cluster that Authorize lets through can be decoded. -/
def Legible (bindings : List ClusterBinding) (cm : Option CommunityMapSpec) (clusterID : String)
    (routes : List RIBRoute) : Prop :=
  ∀ r ∈ routes, r.attributedTo bindings clusterID = true → Passes bindings routes r →
    Decodable (communityRules cm) r.largeCommunities.elems

theorem sound_iff {rest routes : List RIBRoute}
    (hp : rest.Perm (others bindings clusterID routes)) (cm : Option CommunityMapSpec) :
    Sound bindings cm routes ↔
      Sound bindings cm rest ∧ Legible bindings cm clusterID routes := by
  have hp' : (others bindings clusterID rest).Perm (others bindings clusterID routes) := by
    have := hp.filter fun r => !r.attributedTo bindings clusterID
    rwa [← others, ← others, others_others] at this
  have hmem : ∀ r, r ∈ rest ↔ r ∈ routes ∧ r.attributedTo bindings clusterID = false :=
    fun r => hp.mem_iff.trans mem_others
  constructor
  · intro h
    refine ⟨⟨fun r hr => h.matchable r ((hmem r).1 hr).1, ?_⟩, fun r hr _ => h.decodable r hr⟩
    intro r hr hpass
    obtain ⟨hr, hA⟩ := (hmem r).1 hr
    obtain ⟨o, ho⟩ := h.matchable r hr
    exact h.decodable r hr (passes_congr hp' (cluster_ne_of_not_attributedTo ho hA) hpass)
  · rintro ⟨h, hleg⟩
    have hmatch : Matchable bindings routes := by
      intro r hr
      cases hA : r.attributedTo bindings clusterID with
      | false => exact h.matchable r ((hmem r).2 ⟨hr, hA⟩)
      | true =>
        rw [RIBRoute.attributedTo] at hA
        split at hA
        · next ho => exact ⟨_, ho⟩
        · cases hA
    refine ⟨hmatch, ?_⟩
    intro r hr hpass
    cases hA : r.attributedTo bindings clusterID with
    | false =>
      obtain ⟨o, ho⟩ := hmatch r hr
      exact h.decodable r ((hmem r).2 ⟨hr, hA⟩)
        (passes_congr hp'.symm (cluster_ne_of_not_attributedTo ho hA) hpass)
    | true => exact hleg r hr hA hpass

end Others

end Kreg
