import Kreg.Select
import Kreg.TrustBoundary

namespace Kreg
set_option autoImplicit true

def RIBRoute.verdict (r : RIBRoute) : String × Locality × Bool :=
  (r.clusterID, r.locality, r.rejected)

def RIBRoute.attribution (bindings : List ClusterBinding) (r : RIBRoute) :
    Option (String × Locality) :=
  (r.owner bindings).map fun b => (b.clusterID, b.locality)

section SameAttribution

variable {bindings bindings' : List ClusterBinding} {routes : List RIBRoute}
  (hown : ∀ r ∈ routes, r.attribution bindings = r.attribution bindings')
include hown

theorem ownerAt_congr : ownerAt bindings routes = ownerAt bindings' routes := by
  funext i
  have hcluster : ∀ r : RIBRoute, r.attribution bindings = r.attribution bindings' →
      (r.owner bindings).map ClusterBinding.clusterID =
        (r.owner bindings').map ClusterBinding.clusterID := by
    intro r hr
    have hfst := congrArg (Option.map Prod.fst) hr
    simp only [RIBRoute.attribution, Option.map_map] at hfst
    exact hfst
  rw [ownerAt, ownerAt]
  cases hr : routes[i]? with
  | none => rfl
  | some r => exact hcluster r (hown r (List.mem_of_getElem? hr))

theorem cut_congr : Cut bindings routes = Cut bindings' routes := by
  funext b m i
  simp only [Cut, rank, claimed, ownerAt_congr hown]

theorem authorizedAt_rejected_congr (hmem : ∀ b, b ∈ bindings ↔ b ∈ bindings') (hr : r ∈ routes)
    (i : Nat) :
    (authorizedAt bindings routes i r).rejected = (authorizedAt bindings' routes i r).rejected := by
  have hsome : (∃ b, r.owner bindings = some b) ↔ ∃ b, r.owner bindings' = some b := by
    have he := congrArg Option.isSome (hown r hr)
    simp only [RIBRoute.attribution, Option.isSome_map] at he
    rw [← Option.isSome_iff_exists, ← Option.isSome_iff_exists, he]
  rw [Bool.eq_iff_iff, ← not_iff_not, Bool.not_eq_true, Bool.not_eq_true, authorizedAt,
    authorizedAt, foldl_capStep_rejected, foldl_capStep_rejected, attributed_rejected,
    attributed_rejected, hsome, cut_congr hown]
  simp only [hmem]

end SameAttribution

theorem authorizedAt_attribution (bindings : List ClusterBinding) (routes : List RIBRoute)
    (i : Nat) (r : RIBRoute) :
    ((authorizedAt bindings routes i r).clusterID, (authorizedAt bindings routes i r).locality) =
      (r.attribution bindings).getD ("", ⟨"", ""⟩) := by
  obtain ⟨rejected, reason, he⟩ := foldl_capStep_eq bindings routes i bindings
    (r.attributed bindings)
  rw [authorizedAt, he, RIBRoute.attribution]
  simp only [RIBRoute.attributed]
  cases r.owner bindings <;> rfl

theorem authorizedAt_verdict_congr
    (hown : ∀ r ∈ routes, r.attribution bindings = r.attribution bindings')
    (hmem : ∀ b, b ∈ bindings ↔ b ∈ bindings') (hr : r ∈ routes) (i : Nat) :
    (authorizedAt bindings routes i r).verdict = (authorizedAt bindings' routes i r).verdict := by
  have hatt : (authorizedAt bindings routes i r).clusterID =
        (authorizedAt bindings' routes i r).clusterID ∧
      (authorizedAt bindings routes i r).locality =
        (authorizedAt bindings' routes i r).locality := by
    rw [← Prod.mk.injEq, authorizedAt_attribution, authorizedAt_attribution, hown r hr]
  rw [RIBRoute.verdict, RIBRoute.verdict, hatt.1, hatt.2,
    authorizedAt_rejected_congr hown hmem hr]

theorem owner_flatten (r : RIBRoute) (configs : List (List ClusterBinding)) :
    r.owner configs.flatten = configs.findSome? r.owner := by
  cases h : parseCIDR r.pfx with
  | error e =>
    have hnone : ∀ bindings, r.owner bindings = none := by
      intro bindings
      rw [RIBRoute.owner, h]
    rw [hnone, funext hnone]
    exact (List.findSome?_eq_none_iff.2 fun _ _ => rfl).symm
  | ok c =>
    have hfind : ∀ bindings, r.owner bindings = bindings.find? (ClusterBinding.allows c.ip) := by
      intro bindings
      rw [RIBRoute.owner, h]
    rw [hfind, funext hfind]
    exact List.find?_flatten

theorem findSome?_map_congr {l l' : List α} {f : α → Option β} {g : β → γ}
    (hmem : ∀ a, a ∈ l ↔ a ∈ l')
    (h : ∀ a ∈ l, ∀ a' ∈ l, ∀ b ∈ f a, ∀ b' ∈ f a', g b = g b') :
    (l.findSome? f).map g = (l'.findSome? f).map g := by
  cases hl : l.findSome? f with
  | none =>
    have hnone : l'.findSome? f = none := by
      rw [List.findSome?_eq_none_iff] at hl ⊢
      exact fun a ha => hl a ((hmem a).2 ha)
    rw [hnone]
  | some b =>
    obtain ⟨a, ha, hb⟩ := List.exists_of_findSome?_eq_some hl
    cases hl' : l'.findSome? f with
    | none =>
      rw [List.findSome?_eq_none_iff.1 hl' a ((hmem a).1 ha)] at hb
      cases hb
    | some b' =>
      obtain ⟨a', ha', hb'⟩ := List.exists_of_findSome?_eq_some hl'
      exact congrArg some (h a ha a' ((hmem a').2 ha') b hb b' hb')

/-- All objects with a binding for the route attribute it alike. -/
def Unambiguous (configs : List (List ClusterBinding)) (r : RIBRoute) : Prop :=
  ∀ config ∈ configs, ∀ config' ∈ configs, ∀ b ∈ r.owner config, ∀ b' ∈ r.owner config',
    b.clusterID = b'.clusterID ∧ b.locality = b'.locality

theorem Unambiguous.attribution_eq (h : Unambiguous configs r) (hp : configs.Perm configs') :
    r.attribution configs.flatten = r.attribution configs'.flatten := by
  rw [RIBRoute.attribution, RIBRoute.attribution, owner_flatten, owner_flatten]
  apply findSome?_map_congr fun a => hp.mem_iff
  intro config hc config' hc' b hb b' hb'
  rw [Prod.mk.injEq]
  exact h config hc config' hc' b hb b' hb'

theorem attribution_cons {r : RIBRoute} (hb : r.owner config = some b)
    (configs : List (List ClusterBinding)) :
    r.attribution (config :: configs).flatten = some (b.clusterID, b.locality) := by
  rw [RIBRoute.attribution, owner_flatten, List.findSome?_cons, hb]
  rfl

theorem parseable_flatten {configs : List (List ClusterBinding)}
    (h : ∀ config ∈ configs, Parseable config) :
    Parseable configs.flatten := by
  intro b hb
  obtain ⟨config, hc, hb⟩ := List.mem_flatten.1 hb
  exact h config hc b hb

theorem verdict_mem_of_alike {routes : List RIBRoute} (hm : Matchable bindings routes)
    (hm' : Matchable bindings' routes)
    (h : Alike (fun out out' => out.map RIBRoute.verdict = out'.map RIBRoute.verdict)
      (authorize routes bindings) (authorize routes bindings'))
    (hr : routes[i]? = some r) :
    (authorizedAt bindings routes i r).verdict = (authorizedAt bindings' routes i r).verdict := by
  rw [authorize_eq hm, authorize_eq hm'] at h
  cases h with
  | returned h =>
    have hi := congrArg (fun l => l[i]?) h
    simp only [List.getElem?_map, List.getElem?_mapIdx, hr, Option.map_some,
      Option.some.injEq] at hi
    exact hi

theorem authorize_fails (hpar : Parseable bindings)
    (h : ¬ ∀ r ∈ routes, ∃ c, parseCIDR r.pfx = .ok c) (out : List RIBRoute) :
    authorize routes bindings ≠ .ok out :=
  fun ho => h ((matchable_iff hpar).1 (authorize_matchable ho))

theorem authorize_alike (hpar : Parseable configs.flatten) (hp : configs.Perm configs')
    (hroutes : ∀ r ∈ routes, ∃ c, parseCIDR r.pfx = .ok c)
    (h : ∀ r ∈ routes, Unambiguous configs r) :
    Alike (fun out out' => out.map RIBRoute.verdict = out'.map RIBRoute.verdict)
      (authorize routes configs.flatten) (authorize routes configs'.flatten) := by
  have hmem : ∀ b, b ∈ configs.flatten ↔ b ∈ configs'.flatten := fun b => hp.flatten.mem_iff
  have hpar' : Parseable configs'.flatten := fun b hb => hpar b ((hmem b).2 hb)
  have hown : ∀ r ∈ routes, r.attribution configs.flatten = r.attribution configs'.flatten :=
    fun r hr => (h r hr).attribution_eq hp
  rw [authorize_eq ((matchable_iff hpar).2 hroutes), authorize_eq ((matchable_iff hpar').2 hroutes)]
  apply Alike.returned
  apply List.ext_getElem?
  intro i
  rw [List.getElem?_map, List.getElem?_map, List.getElem?_mapIdx, List.getElem?_mapIdx]
  cases hi : routes[i]? with
  | none => simp only [Option.map_none]
  | some r =>
    rw [Option.map_some, Option.map_some, Option.map_some, Option.map_some,
      authorizedAt_verdict_congr hown hmem (List.mem_of_getElem? hi)]

theorem attribution_of_alike {configs : List (List ClusterBinding)} {routes : List RIBRoute}
    (hpar : Parseable configs.flatten)
    (hroutes : ∀ r ∈ routes, ∃ c, parseCIDR r.pfx = .ok c)
    (h : ∀ configs', configs.Perm configs' →
      Alike (fun out out' => out.map RIBRoute.verdict = out'.map RIBRoute.verdict)
        (authorize routes configs.flatten) (authorize routes configs'.flatten))
    (hc : config ∈ configs) (hi : routes[i]? = some r) (hb : r.owner config = some b) :
    (authorizedAt configs.flatten routes i r).clusterID = b.clusterID ∧
      (authorizedAt configs.flatten routes i r).locality = b.locality := by
  have hp := List.perm_cons_erase hc
  have hpar' : Parseable (config :: configs.erase config).flatten := fun b hb =>
    hpar b (hp.flatten.mem_iff.2 hb)
  have hv := verdict_mem_of_alike ((matchable_iff hpar).2 hroutes)
    ((matchable_iff hpar').2 hroutes) (h _ hp) hi
  have hatt := authorizedAt_attribution (config :: configs.erase config).flatten routes i r
  rw [attribution_cons hb, Option.getD_some, Prod.mk.injEq] at hatt
  rw [RIBRoute.verdict, RIBRoute.verdict, Prod.mk.injEq, Prod.mk.injEq] at hv
  exact ⟨hv.1.trans hatt.1, hv.2.1.trans hatt.2⟩

/-- Authorize does not depend on the order of the objects its bindings come from exactly when
no two objects disagree about a route. -/
theorem authorize_order_free_iff (hpar : ∀ config ∈ configs, Parseable config)
    (routes : List RIBRoute) :
    (∀ configs', configs.Perm configs' →
      Alike (fun out out' => out.map RIBRoute.verdict = out'.map RIBRoute.verdict)
        (authorize routes configs.flatten) (authorize routes configs'.flatten)) ↔
      ((∀ r ∈ routes, ∃ c, parseCIDR r.pfx = .ok c) → ∀ r ∈ routes, Unambiguous configs r) := by
  have hpar := parseable_flatten hpar
  constructor
  · intro h hroutes r hr config hc config' hc' b hb b' hb'
    obtain ⟨i, hi⟩ := List.mem_iff_getElem?.1 hr
    obtain ⟨hid, hloc⟩ := attribution_of_alike hpar hroutes h hc hi hb
    obtain ⟨hid', hloc'⟩ := attribution_of_alike hpar hroutes h hc' hi hb'
    exact ⟨hid.symm.trans hid', hloc.symm.trans hloc'⟩
  · intro h configs' hp
    by_cases hroutes : ∀ r ∈ routes, ∃ c, parseCIDR r.pfx = .ok c
    · exact authorize_alike hpar hp hroutes (h hroutes)
    · have hpar' : Parseable configs'.flatten := fun b hb => hpar b (hp.flatten.mem_iff.2 hb)
      apply Alike.of_ok
      · exact fun out ho => (authorize_fails hpar hroutes out ho).elim
      · exact fun out ho => (authorize_fails hpar' hroutes out ho).elim

def metroBinding : ClusterBinding := ⟨"metro", ["10.1.0.0/16"], none, ⟨"eu", "b"⟩⟩

theorem authorize_order_free_disjoint :
    Alike (fun out out' => out.map RIBRoute.verdict = out'.map RIBRoute.verdict)
      (authorize [edgeRoute "10.0.1.0/24"] [[edgeBinding], [metroBinding]].flatten)
      (authorize [edgeRoute "10.0.1.0/24"] [[metroBinding], [edgeBinding]].flatten) := by
  have hpar : ∀ config ∈ [[edgeBinding], [metroBinding]], Parseable config := by
    simp only [List.forall_mem_cons, List.not_mem_nil, false_implies, implies_true, and_true,
      Parseable, edgeBinding, metroBinding]
    exact ⟨⟨_, rfl⟩, ⟨_, rfl⟩⟩
  apply (authorize_order_free_iff hpar _).2 _ _ (.swap _ _ _)
  intro _ r hr
  rw [List.mem_singleton.1 hr]
  have hedge : (edgeRoute "10.0.1.0/24").owner [edgeBinding] = some edgeBinding := rfl
  have hmetro : (edgeRoute "10.0.1.0/24").owner [metroBinding] = none := rfl
  simp only [Unambiguous, List.forall_mem_cons, List.not_mem_nil, false_implies, implies_true,
    and_true, hedge, hmetro, Option.mem_def, Option.some.injEq, forall_eq', reduceCtorEq, and_self]

/-- Covers what `edgeBinding` allows, for another cluster. -/
def wideBinding : ClusterBinding := ⟨"wide", ["10.0.0.0/8"], none, ⟨"us", "c"⟩⟩

theorem authorize_order_dependent :
    (∀ config ∈ [[edgeBinding], [wideBinding]], Parseable config) ∧
      [[edgeBinding], [wideBinding]].Perm [[wideBinding], [edgeBinding]] ∧
      ¬ Alike (fun out out' => out.map RIBRoute.verdict = out'.map RIBRoute.verdict)
        (authorize [edgeRoute "10.0.1.0/24"] [[edgeBinding], [wideBinding]].flatten)
        (authorize [edgeRoute "10.0.1.0/24"] [[wideBinding], [edgeBinding]].flatten) := by
  refine ⟨?_, .swap _ _ _, ?_⟩
  · simp only [List.forall_mem_cons, List.not_mem_nil, false_implies, implies_true, and_true,
      Parseable, edgeBinding, wideBinding]
    exact ⟨⟨_, rfl⟩, ⟨_, rfl⟩⟩
  · have hedge : authorize [edgeRoute "10.0.1.0/24"] [[edgeBinding], [wideBinding]].flatten =
        .ok [(edgeRoute "10.0.1.0/24").attribute edgeBinding] := rfl
    have hwide : authorize [edgeRoute "10.0.1.0/24"] [[wideBinding], [edgeBinding]].flatten =
        .ok [(edgeRoute "10.0.1.0/24").attribute wideBinding] := rfl
    rw [hedge, hwide]
    intro h
    cases h with
    | returned h => exact absurd h (by decide)

end Kreg
