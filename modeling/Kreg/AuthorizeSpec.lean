import Kreg.Attribution
import Kreg.Ranking

namespace Kreg
open Ranking
set_option autoImplicit true

def rank (bindings : List ClusterBinding) (routes : List RIBRoute) (clusterID : String)
    (i : Nat) : Nat :=
  (claimed bindings routes clusterID).countP fun j => Before (prefixAt routes) j i

/-- The cap `m` of `b` is in force and the route at `i` is past it. -/
def Cut (bindings : List ClusterBinding) (routes : List RIBRoute) (b : ClusterBinding) (m : Int32)
    (i : Nat) : Prop :=
  ¬ m < 0 ∧ ¬ Int32.ofNat (claimed bindings routes b.clusterID).length ≤ m ∧
    ownerAt bindings routes i = some b.clusterID ∧
      m.toInt.toNat ≤ rank bindings routes b.clusterID i

instance (bindings : List ClusterBinding) (routes : List RIBRoute) (b : ClusterBinding) (m : Int32)
    (i : Nat) : Decidable (Cut bindings routes b m i) :=
  inferInstanceAs (Decidable (_ ∧ _ ∧ _ ∧ _))

def capStep (bindings : List ClusterBinding) (routes : List RIBRoute) (i : Nat) (r : RIBRoute)
    (b : ClusterBinding) : RIBRoute :=
  match b.maxPrefixes with
  | none => r
  | some m => if Cut bindings routes b m i then r.overCap b.clusterID m else r

def authorizedAt (bindings : List ClusterBinding) (routes : List RIBRoute) (i : Nat)
    (r : RIBRoute) : RIBRoute :=
  bindings.foldl (capStep bindings routes i) (r.attributed bindings)

theorem prefixAt_of_map_pfx {routes authorized : List RIBRoute}
    (h : authorized.map RIBRoute.pfx = routes.map RIBRoute.pfx) :
    prefixAt authorized = prefixAt routes := by
  funext i
  rw [prefixAt, prefixAt, ← List.getElem?_map, ← List.getElem?_map, h]

theorem getElem?_foldl_modify (f : α → α) (indices : List Nat) (hn : indices.Nodup) (l : List α)
    (i : Nat) :
    (indices.foldl (fun a j => a.modify j f) l)[i]? =
      l[i]?.map fun x => if i ∈ indices then f x else x := by
  induction indices generalizing l with
  | nil =>
    simp only [List.foldl_nil, List.not_mem_nil, ↓reduceIte, Option.map_id_fun', id]
  | cons j indices ih =>
    obtain ⟨hj, hn⟩ := List.nodup_cons.1 hn
    rw [List.foldl_cons, ih hn, List.getElem?_modify]
    simp only [Option.map_eq_map, Option.map_map, List.mem_cons]
    congr 1
    funext x
    by_cases he : j = i
    · subst he
      simp only [Function.comp, hj, ↓reduceIte, or_false]
    · simp only [Function.comp, he, Ne.symm he, ↓reduceIte, false_or]

/-- The cap loop may have sorted a cluster's positions, and does nothing else to them. -/
def Sorted (bindings : List ClusterBinding) (routes : List RIBRoute) (matched : Matched) : Prop :=
  ∀ clusterID,
    sortByPrefix routes (matched.indices clusterID) =
        sortByPrefix routes (claimed bindings routes clusterID) ∧
      (matched.indices clusterID).length = (claimed bindings routes clusterID).length

theorem Tracks.sorted (h : Tracks bindings routes matched) : Sorted bindings routes matched := by
  intro clusterID
  rw [h clusterID]
  exact ⟨rfl, rfl⟩

theorem sortByPrefix_idem (routes : List RIBRoute) (indices : List Nat) :
    sortByPrefix routes (sortByPrefix routes indices) = sortByPrefix routes indices := by
  apply List.Pairwise.insertionSort_eq
  have hs := List.pairwise_insertionSort
    (fun a b => prefixAt routes a ≤ prefixAt routes b) indices
  exact hs

theorem Sorted.insert (h : Sorted bindings routes matched) (clusterID : String) :
    Sorted bindings routes
      (matched.insert clusterID (sortByPrefix routes (matched.indices clusterID))) := by
  intro other
  rw [Matched.indices]
  by_cases he : other = clusterID
  · subst he
    rw [AList.lookup_insert, Option.getD_some, sortByPrefix_idem, sortByPrefix,
      List.length_insertionSort]
    exact h other
  · rw [AList.lookup_insert_ne he]
    exact h other

@[simp] theorem capStep_pfx (bindings : List ClusterBinding) (routes : List RIBRoute) (i : Nat)
    (r : RIBRoute) (b : ClusterBinding) : (capStep bindings routes i r b).pfx = r.pfx := by
  rw [capStep]
  split
  · rfl
  · split <;> rfl

/-- What one round of the cap loop does: nothing but `capStep` at every position. -/
structure RoundResult (bindings : List ClusterBinding) (routes : List RIBRoute)
    (b : ClusterBinding) (before : List RIBRoute) (after : List RIBRoute × Matched) : Prop where
  at_index : ∀ i, after.1[i]? = before[i]?.map fun r => capStep bindings routes i r b
  sorted : Sorted bindings routes after.2

theorem RoundResult.map_pfx {before : List RIBRoute} {after : List RIBRoute × Matched}
    (h : RoundResult bindings routes b before after) :
    after.1.map RIBRoute.pfx = before.map RIBRoute.pfx := by
  apply List.ext_getElem?
  intro i
  rw [List.getElem?_map, List.getElem?_map, h.at_index, Option.map_map]
  congr 1
  funext r
  exact capStep_pfx _ _ _ _ _

theorem nodup_drop_sortByPrefix (bindings : List ClusterBinding) (routes : List RIBRoute)
    (clusterID : String) (n : Nat) :
    ((sortByPrefix routes (claimed bindings routes clusterID)).drop n).Nodup := by
  have hc : (claimed bindings routes clusterID).Nodup :=
    (claimed_pairwise bindings routes clusterID).imp fun h => h.ne
  have hs := (List.perm_insertionSort
    (fun a b => prefixAt routes a ≤ prefixAt routes b) _).nodup_iff.2 hc
  exact hs.sublist (List.drop_sublist n _)

theorem mem_drop_sortByPrefix (bindings : List ClusterBinding) (routes : List RIBRoute)
    {b : ClusterBinding} {m : Int32} (hneg : ¬ m < 0)
    (hle : ¬ Int32.ofNat (claimed bindings routes b.clusterID).length ≤ m) (i : Nat) :
    i ∈ (sortByPrefix routes (claimed bindings routes b.clusterID)).drop m.toInt.toNat ↔
      Cut bindings routes b m i := by
  rw [sortByPrefix, mem_drop_insertionSort _ (claimed_pairwise bindings routes b.clusterID),
    mem_claimed_iff, Cut, rank]
  simp only [hneg, hle, not_false_eq_true, true_and]

theorem capRound_result {authorized : List RIBRoute}
    (hp : authorized.map RIBRoute.pfx = routes.map RIBRoute.pfx)
    (hs : Sorted bindings routes matched) (b : ClusterBinding) :
    RoundResult bindings routes b authorized (capRound authorized matched b) := by
  have hsort : sortByPrefix authorized = sortByPrefix routes := by
    funext indices
    simp only [sortByPrefix, prefixAt_of_map_pfx hp]
  have hid : ∀ i, (∀ r, capStep bindings routes i r b = r) →
      authorized[i]? = authorized[i]?.map fun r => capStep bindings routes i r b := by
    intro i hi
    simp only [hi, Option.map_id_fun', id]
  rw [capRound]
  cases hm : b.maxPrefixes with
  | none => exact ⟨fun i => hid i fun r => by simp only [capStep, hm], hs⟩
  | some m =>
    simp only [hsort, (hs b.clusterID).2]
    split
    · next hneg =>
      refine ⟨fun i => hid i fun r => ?_, hs⟩
      simp only [capStep, hm, Cut, hneg, not_true_eq_false, false_and, ↓reduceIte]
    · next hneg =>
      split
      · next hle =>
        refine ⟨fun i => hid i fun r => ?_, hs⟩
        simp only [capStep, hm, Cut, hle, not_true_eq_false, false_and, and_false, ↓reduceIte]
      · next hle =>
        refine ⟨fun i => ?_, hs.insert b.clusterID⟩
        rw [(hs b.clusterID).1,
          getElem?_foldl_modify _ _ (nodup_drop_sortByPrefix bindings routes b.clusterID _)]
        simp only [mem_drop_sortByPrefix bindings routes hneg hle, capStep, hm]

theorem capLoop_getElem? {authorized : List RIBRoute}
    (hp : authorized.map RIBRoute.pfx = routes.map RIBRoute.pfx)
    (hs : Sorted bindings routes matched) (rounds : List ClusterBinding) (i : Nat) :
    (rounds.foldl (fun s b => capRound s.1 s.2 b) (authorized, matched)).1[i]? =
      authorized[i]?.map fun r => rounds.foldl (capStep bindings routes i) r := by
  induction rounds generalizing authorized matched with
  | nil => simp only [List.foldl_nil, Option.map_id_fun', id]
  | cons b rounds ih =>
    have hround := capRound_result hp hs b
    rw [List.foldl_cons, ih (hround.map_pfx.trans hp) hround.sorted, hround.at_index,
      Option.map_map]
    rfl

/-- Authorize succeeds on matchable routes and decides every position by itself. -/
theorem authorize_eq (h : Matchable bindings routes) :
    authorize routes bindings = .ok (routes.mapIdx (authorizedAt bindings routes)) := by
  have hstart : Tracks bindings [] (∅ : Matched) := fun _ => rfl
  obtain ⟨matched, he, ht⟩ := attributeLoop_ok h hstart
  rw [List.nil_append] at he ht
  rw [List.map_nil] at he
  rw [authorize, he]
  have hp : (routes.map (RIBRoute.attributed bindings)).map RIBRoute.pfx =
      routes.map RIBRoute.pfx := by
    rw [List.map_map]
    exact List.map_congr_left fun r _ => attributed_pfx bindings r
  apply congrArg Except.ok
  apply List.ext_getElem?
  intro i
  rw [capLoop, capLoop_getElem? hp ht.sorted, List.getElem?_map, List.getElem?_mapIdx,
    Option.map_map]
  rfl

section Verdicts

/-- The route at `i` is one Authorize lets through, for the cluster of `b`: it came in
unflagged, `b` is the first binding that allows its address, and no cap cuts it off. -/
structure Admitted (bindings : List ClusterBinding) (routes : List RIBRoute) (i : Nat)
    (r : RIBRoute) (b : ClusterBinding) : Prop where
  unflagged : r.rejected = false
  owned : r.owner bindings = some b
  uncut : ∀ b' ∈ bindings, ∀ m, b'.maxPrefixes = some m → ¬ Cut bindings routes b' m i

theorem capStep_rejected (bindings : List ClusterBinding) (routes : List RIBRoute) (i : Nat)
    (r : RIBRoute) (b : ClusterBinding) :
    (capStep bindings routes i r b).rejected = false ↔
      r.rejected = false ∧ ∀ m, b.maxPrefixes = some m → ¬ Cut bindings routes b m i := by
  rw [capStep]
  cases b.maxPrefixes with
  | none => exact ⟨fun h => ⟨h, fun m hm => nomatch hm⟩, And.left⟩
  | some m =>
    by_cases hc : Cut bindings routes b m i
    · simp only [hc, ↓reduceIte]
      exact ⟨fun h => Bool.noConfusion h, fun h => (h.2 m rfl hc).elim⟩
    · simp only [hc, ↓reduceIte]
      exact ⟨fun h => ⟨h, fun m' hm => Option.some.inj hm ▸ hc⟩, And.left⟩

theorem foldl_capStep_rejected (bindings : List ClusterBinding) (routes : List RIBRoute) (i : Nat)
    (rounds : List ClusterBinding) (r : RIBRoute) :
    (rounds.foldl (capStep bindings routes i) r).rejected = false ↔
      r.rejected = false ∧
        ∀ b ∈ rounds, ∀ m, b.maxPrefixes = some m → ¬ Cut bindings routes b m i := by
  induction rounds generalizing r with
  | nil => exact ⟨fun h => ⟨h, fun b hb => nomatch hb⟩, And.left⟩
  | cons b rounds ih =>
    rw [List.foldl_cons, ih, capStep_rejected, List.forall_mem_cons, and_assoc]

theorem authorizedAt_rejected (bindings : List ClusterBinding) (routes : List RIBRoute) (i : Nat)
    (r : RIBRoute) :
    (authorizedAt bindings routes i r).rejected = false ↔
      ∃ b, Admitted bindings routes i r b := by
  rw [authorizedAt, foldl_capStep_rejected, attributed_rejected]
  constructor
  · rintro ⟨⟨hr, b, hb⟩, hc⟩
    exact ⟨b, hr, hb, hc⟩
  · rintro ⟨b, h⟩
    exact ⟨⟨h.unflagged, b, h.owned⟩, h.uncut⟩

theorem foldl_capStep_eq (bindings : List ClusterBinding) (routes : List RIBRoute) (i : Nat)
    (rounds : List ClusterBinding) (r : RIBRoute) :
    ∃ rejected reason, rounds.foldl (capStep bindings routes i) r =
      { r with rejected := rejected, reason := reason } := by
  induction rounds generalizing r with
  | nil => exact ⟨r.rejected, r.reason, rfl⟩
  | cons b rounds ih =>
    obtain ⟨rejected, reason, he⟩ := ih (capStep bindings routes i r b)
    refine ⟨rejected, reason, ?_⟩
    rw [List.foldl_cons, he, capStep]
    split
    · rfl
    · split <;> rfl

@[simp] theorem authorizedAt_pfx (bindings : List ClusterBinding) (routes : List RIBRoute)
    (i : Nat) (r : RIBRoute) : (authorizedAt bindings routes i r).pfx = r.pfx := by
  obtain ⟨rejected, reason, he⟩ := foldl_capStep_eq bindings routes i bindings
    (r.attributed bindings)
  rw [authorizedAt, he]
  exact attributed_pfx bindings r

theorem authorizedAt_largeCommunities (bindings : List ClusterBinding) (routes : List RIBRoute)
    (i : Nat) (r : RIBRoute) :
    (authorizedAt bindings routes i r).largeCommunities = r.largeCommunities := by
  obtain ⟨rejected, reason, he⟩ := foldl_capStep_eq bindings routes i bindings
    (r.attributed bindings)
  rw [authorizedAt, he]
  simp only [RIBRoute.attributed]
  split
  · rfl
  · rfl

theorem Admitted.clusterID (h : Admitted bindings routes i r b) :
    (authorizedAt bindings routes i r).clusterID = b.clusterID := by
  obtain ⟨rejected, reason, he⟩ := foldl_capStep_eq bindings routes i bindings
    (r.attributed bindings)
  rw [authorizedAt, he]
  simp only [RIBRoute.attributed, h.owned]
  rfl

end Verdicts

theorem authorize_matchable (h : authorize routes bindings = .ok out) :
    Matchable bindings routes := by
  rw [authorize] at h
  split at h
  · cases h
  · next he => exact attributeLoop_matchable he

/-- The text is one `net.ParseCIDR` accepts. -/
def Parses (pfx : String) : Prop :=
  ∃ c, parseCIDR pfx = .ok c

def Parseable (bindings : List ClusterBinding) : Prop :=
  ∀ b ∈ bindings, ∀ allowed ∈ b.allowedPrefixes, Parses allowed

theorem matchAllowed_parseable (h : ∀ allowed ∈ l, Parses allowed) (ip : IP)
    (clusterID : String) : ∃ found, matchAllowed ip clusterID l = .ok found := by
  induction l with
  | nil => exact ⟨false, rfl⟩
  | cons allowed l ih =>
    obtain ⟨c, hc⟩ := h allowed (.head _)
    simp only [matchAllowed, hc]
    split
    · exact ⟨true, rfl⟩
    · exact ih fun a ha => h a (.tail _ ha)

theorem matchIP_parseable (h : Parseable bindings) (ip : IP) :
    ∃ o, matchIP ip bindings = .ok o := by
  induction bindings with
  | nil => exact ⟨none, rfl⟩
  | cons b bindings ih =>
    obtain ⟨found, hf⟩ := matchAllowed_parseable (h b (.head _)) ip b.clusterID
    simp only [matchIP, hf]
    cases found with
    | true => exact ⟨some b, rfl⟩
    | false => exact ih fun b hb => h b (.tail _ hb)

theorem matchable_iff (h : Parseable bindings) :
    Matchable bindings routes ↔ ∀ r ∈ routes, Parses r.pfx := by
  apply forall₂_congr
  intro r _
  rw [matchBinding, Parses]
  cases parseCIDR r.pfx with
  | error e => simp only [reduceCtorEq, exists_false]
  | ok c => exact ⟨fun _ => ⟨c, rfl⟩, fun _ => matchIP_parseable h c.ip⟩

end Kreg
