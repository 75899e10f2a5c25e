import Kreg.AuthorizeSpec
import Kreg.NameKey
import Kreg.RuleUses
import Kreg.Snapshot

namespace Kreg
set_option autoImplicit true

/-- What Ingest reads: the IPv4 unicast table, one route for each destination. -/
structure RIB where
  routes : List RIBRoute
  ipv4 : ∀ r ∈ routes, IPv4Prefix r.pfx
  distinct : (routes.map RIBRoute.pfx).Nodup

section Normalize

variable {F : Type}

/-- What every stage downstream relies on: a candidate is its route, undamped. -/
structure Normalizes (r : RIBRoute) (c : BackendCandidate F) : Prop where
  pfx : c.pfx = r.pfx
  clusterID : c.clusterID = r.clusterID
  undamped : c.damping = none

theorem normalizeRoute_normalizes {c : BackendCandidate F} (h : normalizeRoute r cm = .ok c) :
    Normalizes r c := by
  cases hrej : r.rejected with
  | true =>
    rw [normalizeRoute, if_pos hrej] at h
    cases h
    exact ⟨rfl, rfl, rfl⟩
  | false =>
    have hc := normalizeRoute_decoded hrej h
    exact ⟨hc.pfx, hc.clusterID, hc.undamped⟩

theorem normalize_ok_iff {cs : List (BackendCandidate F)} :
    normalize routes cm = .ok cs ↔
      List.Forall₂ (fun r c => normalizeRoute r cm = .ok c) routes cs := by
  induction routes generalizing cs with
  | nil =>
    rw [normalize, List.forall₂_nil_left_iff, Except.ok.injEq]
    exact eq_comm
  | cons r routes ih =>
    simp only [normalize]
    constructor
    · intro h
      split at h
      · cases h
      · next c hc =>
        split at h
        · cases h
        · next rest hrest =>
          cases h
          exact .cons hc (ih.1 hrest)
    · intro h
      cases h with
      | cons hc hrest => simp only [hc, ih.2 hrest]

end Normalize

section Settle

variable {F : Type}

theorem settle_ok_iff {cs : List (BackendCandidate F)} :
    settle routes bindings cm = .ok cs ↔
      Matchable bindings routes ∧
        List.Forall₂ (fun r c => normalizeRoute r cm = .ok c)
          (routes.mapIdx (authorizedAt bindings routes)) cs := by
  rw [← normalize_ok_iff, settle]
  constructor
  · intro h
    cases ha : authorize routes bindings with
    | error e =>
      simp only [ha, readOr] at h
      cases h
    | ok authorized =>
      have hm := authorize_matchable ha
      rw [authorize_eq hm] at ha
      cases ha
      refine ⟨hm, ?_⟩
      simp only [authorize_eq hm, readOr] at h
      split at h
      · next hn =>
        cases h
        exact hn
      · cases h
  · rintro ⟨hm, hn⟩
    simp only [authorize_eq hm, hn, readOr]

theorem exists_of_forall₂ {R : α → β → Prop} (h : List.Forall₂ R l l') (hb : b ∈ l') :
    ∃ a ∈ l, R a b := by
  induction h with
  | nil => cases hb
  | cons hr _ ih =>
    rcases List.mem_cons.1 hb with he | hb
    · exact ⟨_, .head _, he ▸ hr⟩
    · obtain ⟨a, ha, hr⟩ := ih hb
      exact ⟨a, .tail _ ha, hr⟩

theorem normalize_undamped {cs : List (BackendCandidate F)}
    (h : List.Forall₂ (fun r c => normalizeRoute r cm = .ok c) routes cs) :
    ∀ c ∈ cs, c.damping = none := by
  intro c hc
  obtain ⟨r, _, hn⟩ := exists_of_forall₂ h hc
  exact (normalizeRoute_normalizes hn).undamped

theorem settle_undamped {cs : List (BackendCandidate F)}
    (h : settle routes bindings cm = .ok cs) : ∀ c ∈ cs, c.damping = none :=
  normalize_undamped (settle_ok_iff.1 h).2

theorem map_pfx_of_forall₂ {cs : List (BackendCandidate F)}
    (h : List.Forall₂ (fun r c => normalizeRoute r cm = .ok c) routes cs) :
    cs.map BackendCandidate.pfx = routes.map RIBRoute.pfx := by
  induction h with
  | nil => rfl
  | cons hn _ ih => rw [List.map_cons, List.map_cons, (normalizeRoute_normalizes hn).pfx, ih]

theorem settle_pfx {cs : List (BackendCandidate F)} (h : settle routes bindings cm = .ok cs) :
    cs.map BackendCandidate.pfx = routes.map RIBRoute.pfx := by
  rw [map_pfx_of_forall₂ (settle_ok_iff.1 h).2]
  apply List.ext_getElem?
  intro i
  simp only [List.getElem?_map, List.getElem?_mapIdx, Option.map_map, Function.comp_def,
    authorizedAt_pfx]

theorem getElem?_forall₂ {R : α → β → Prop} {l : List α} {l' : List β} {i : Nat}
    (h : List.Forall₂ R l l') (ha : l[i]? = some a) : ∃ b, l'[i]? = some b ∧ R a b := by
  induction h generalizing i with
  | nil => cases ha
  | cons hr _ ih =>
    cases i with
    | zero =>
      cases ha
      exact ⟨_, rfl, hr⟩
    | succ i => exact ih ha

theorem settle_route_at {candidates : List (BackendCandidate F)} {i : Nat}
    (h : settle routes bindings cm = .ok candidates) (hr : routes[i]? = some r) :
    ∃ c, candidates[i]? = some c ∧
      normalizeRoute (authorizedAt bindings routes i r) cm = .ok c := by
  apply getElem?_forall₂ (settle_ok_iff.1 h).2
  rw [List.getElem?_mapIdx, hr]
  rfl

theorem settle_candidate_at {candidates : List (BackendCandidate F)} {i : Nat}
    (h : settle routes bindings cm = .ok candidates) (hc : candidates[i]? = some c) :
    ∃ r, routes[i]? = some r ∧ normalizeRoute (authorizedAt bindings routes i r) cm = .ok c := by
  obtain ⟨r', hr', hn⟩ := getElem?_forall₂ (settle_ok_iff.1 h).2.flip hc
  rw [List.getElem?_mapIdx] at hr'
  obtain ⟨r, hr, rfl⟩ := Option.map_eq_some_iff.1 hr'
  exact ⟨r, hr, hn⟩

theorem Admitted.name {c : BackendCandidate F} (ha : Admitted bindings routes i r b)
    (h : normalizeRoute (authorizedAt bindings routes i r) cm = .ok c) :
    c.name = backendObjectName r.pfx b.clusterID := by
  have hc := normalizeRoute_normalizes h
  rw [BackendCandidate.name, hc.pfx, hc.clusterID, authorizedAt_pfx, ha.clusterID]

theorem RIB.settle_ipv4 (rib : RIB) {cs : List (BackendCandidate F)}
    (h : settle rib.routes bindings cm = .ok cs) : ∀ c ∈ cs, IPv4Prefix c.pfx := by
  intro c hc
  have hm : c.pfx ∈ rib.routes.map RIBRoute.pfx := by
    rw [← settle_pfx h]
    exact List.mem_map_of_mem hc
  obtain ⟨r, hr, he⟩ := List.mem_map.1 hm
  exact he ▸ rib.ipv4 r hr

/-- The candidates of one RIB never share an `AdvertisedBackend`. -/
theorem RIB.settle_names_nodup (rib : RIB) {cs : List (BackendCandidate F)}
    (h : settle rib.routes bindings cm = .ok cs) : (cs.map BackendCandidate.name).Nodup := by
  have hn : (cs.map BackendCandidate.pfx).Nodup := by
    rw [settle_pfx h]
    exact rib.distinct
  have hv4 := rib.settle_ipv4 h
  rw [List.Nodup, List.pairwise_map] at hn ⊢
  refine hn.imp_of_mem ?_
  intro a b ha hb hne he
  exact hne (backendObjectName_inj (hv4 a ha) (hv4 b hb) he).1

end Settle

end Kreg
