import Kreg.Authorize
import Mathlib.Data.String.Basic

namespace Kreg
set_option autoImplicit true

def ClusterBinding.allows (ip : IP) (b : ClusterBinding) : Bool :=
  b.allowedPrefixes.any fun allowed =>
    match parseCIDR allowed with
    | .error _ => false
    | .ok c => c.net.contains ip

/-- The binding a route's address falls under: the first one that allows it. -/
def RIBRoute.owner (r : RIBRoute) (bindings : List ClusterBinding) : Option ClusterBinding :=
  match parseCIDR r.pfx with
  | .error _ => none
  | .ok c => bindings.find? (ClusterBinding.allows c.ip)

def RIBRoute.attributed (bindings : List ClusterBinding) (r : RIBRoute) : RIBRoute :=
  match r.owner bindings with
  | none => r.unmatched
  | some b => r.attribute b

def ownerAt (bindings : List ClusterBinding) (routes : List RIBRoute) (i : Nat) : Option String :=
  (routes[i]?.bind fun r => r.owner bindings).map ClusterBinding.clusterID

def claimed (bindings : List ClusterBinding) (routes : List RIBRoute) (clusterID : String) :
    List Nat :=
  (List.range routes.length).filter fun i => ownerAt bindings routes i == some clusterID

@[simp] theorem attributed_pfx (bindings : List ClusterBinding) (r : RIBRoute) :
    (r.attributed bindings).pfx = r.pfx := by
  rw [RIBRoute.attributed]
  split <;> rfl

theorem attributed_rejected (bindings : List ClusterBinding) (r : RIBRoute) :
    (r.attributed bindings).rejected = false ↔
      r.rejected = false ∧ ∃ b, r.owner bindings = some b := by
  rw [RIBRoute.attributed]
  cases r.owner bindings with
  | none => exact ⟨fun h => Bool.noConfusion h, fun ⟨_, _, hb⟩ => nomatch hb⟩
  | some b => exact ⟨fun h => ⟨h, b, rfl⟩, And.left⟩

theorem matchAllowed_ok (h : matchAllowed ip clusterID l = .ok found) :
    found = l.any fun allowed =>
      match parseCIDR allowed with
      | .error _ => false
      | .ok c => c.net.contains ip := by
  induction l with
  | nil =>
    cases h
    rfl
  | cons allowed l ih =>
    simp only [matchAllowed] at h
    rw [List.any_cons]
    cases hc : parseCIDR allowed with
    | error e =>
      simp only [hc] at h
      cases h
    | ok c =>
      simp only [hc] at h ⊢
      split at h
      · next hin =>
        cases h
        rw [hin, Bool.true_or]
      · next hin =>
        rw [Bool.not_eq_true] at hin
        rw [hin, Bool.false_or]
        exact ih h

theorem matchIP_ok (h : matchIP ip bindings = .ok o) :
    o = bindings.find? (ClusterBinding.allows ip) := by
  induction bindings with
  | nil =>
    cases h
    rfl
  | cons b bindings ih =>
    simp only [matchIP] at h
    cases hb : matchAllowed ip b.clusterID b.allowedPrefixes with
    | error e =>
      simp only [hb] at h
      cases h
    | ok found =>
      have hf : found = b.allows ip := matchAllowed_ok hb
      cases found with
      | true =>
        simp only [hb] at h
        cases h
        rw [List.find?_cons_of_pos hf.symm]
      | false =>
        simp only [hb] at h
        rw [List.find?_cons_of_neg (by rw [← hf]; exact Bool.false_ne_true)]
        exact ih h

theorem owner_of_matchBinding {r : RIBRoute} (h : matchBinding r.pfx bindings = .ok o) :
    r.owner bindings = o := by
  rw [matchBinding] at h
  rw [RIBRoute.owner]
  cases hc : parseCIDR r.pfx with
  | error e =>
    simp only [hc] at h
    cases h
  | ok c =>
    simp only [hc] at h
    exact (matchIP_ok h).symm

theorem ownerAt_append_left (bindings : List ClusterBinding) (done rest : List RIBRoute)
    (h : i < done.length) : ownerAt bindings (done ++ rest) i = ownerAt bindings done i := by
  rw [ownerAt, ownerAt, List.getElem?_append_left h]

theorem ownerAt_length (bindings : List ClusterBinding) (done : List RIBRoute) (r : RIBRoute) :
    ownerAt bindings (done ++ [r]) done.length =
      (r.owner bindings).map ClusterBinding.clusterID := by
  rw [ownerAt, List.getElem?_concat_length]
  rfl

theorem claimed_concat (bindings : List ClusterBinding) (done : List RIBRoute) (r : RIBRoute)
    (clusterID : String) :
    claimed bindings (done ++ [r]) clusterID =
      claimed bindings done clusterID ++
        if (r.owner bindings).map ClusterBinding.clusterID = some clusterID then [done.length]
        else [] := by
  have hold : (List.range done.length).filter
        (fun i => ownerAt bindings (done ++ [r]) i == some clusterID) =
      claimed bindings done clusterID := by
    apply List.filter_congr
    intro i hi
    rw [ownerAt_append_left bindings done [r] (List.mem_range.1 hi)]
  rw [claimed, List.length_append, List.length_singleton, List.range_succ, List.filter_append,
    hold, List.filter_singleton, ownerAt_length]
  congr 1
  by_cases he : (r.owner bindings).map ClusterBinding.clusterID = some clusterID
  · rw [if_pos he, he, beq_self_eq_true]
    rfl
  · rw [if_neg he, beq_eq_false_iff_ne.2 he]
    rfl

theorem claimed_pairwise (bindings : List ClusterBinding) (routes : List RIBRoute)
    (clusterID : String) : (claimed bindings routes clusterID).Pairwise (· < ·) :=
  List.Pairwise.filter _ List.pairwise_lt_range

theorem mem_claimed_iff (bindings : List ClusterBinding) (routes : List RIBRoute)
    (clusterID : String) (i : Nat) :
    i ∈ claimed bindings routes clusterID ↔ ownerAt bindings routes i = some clusterID := by
  rw [claimed, List.mem_filter, beq_iff_eq, and_iff_right_iff_imp, List.mem_range]
  intro h
  by_contra hi
  rw [ownerAt, List.getElem?_eq_none (not_lt.1 hi)] at h
  cases h

def Tracks (bindings : List ClusterBinding) (routes : List RIBRoute) (matched : Matched) : Prop :=
  ∀ clusterID, matched.indices clusterID = claimed bindings routes clusterID

theorem Tracks.unmatched (h : Tracks bindings done matched) {r : RIBRoute}
    (hr : r.owner bindings = none) : Tracks bindings (done ++ [r]) matched := by
  intro clusterID
  rw [claimed_concat, hr, Option.map_none, if_neg (Option.some_ne_none _).symm, List.append_nil]
  exact h clusterID

theorem Tracks.attribute (h : Tracks bindings done matched) {r : RIBRoute} {b : ClusterBinding}
    (hr : r.owner bindings = some b) :
    Tracks bindings (done ++ [r])
      (matched.insert b.clusterID (matched.indices b.clusterID ++ [done.length])) := by
  intro clusterID
  rw [claimed_concat, hr, Option.map_some, Matched.indices]
  by_cases he : b.clusterID = clusterID
  · subst he
    rw [AList.lookup_insert, Option.getD_some, h, if_pos rfl]
  · rw [AList.lookup_insert_ne (Ne.symm he), if_neg (fun h => he (Option.some.inj h)),
      List.append_nil]
    exact h clusterID

/-- Every route's prefix parses, and so does every `allowedPrefixes` entry it is tried on. -/
def Matchable (bindings : List ClusterBinding) (routes : List RIBRoute) : Prop :=
  ∀ r ∈ routes, ∃ o, matchBinding r.pfx bindings = .ok o

theorem attributeLoop_ok (hm : Matchable bindings rest) (ht : Tracks bindings done matched) :
    ∃ matched', attributeLoop bindings rest (done.map (RIBRoute.attributed bindings)) matched =
        .ok ((done ++ rest).map (RIBRoute.attributed bindings), matched') ∧
      Tracks bindings (done ++ rest) matched' := by
  induction rest generalizing done matched with
  | nil =>
    rw [List.append_nil]
    exact ⟨matched, rfl, ht⟩
  | cons r rest ih =>
    have hrest : Matchable bindings rest := fun r hr => hm r (.tail _ hr)
    have happ : done ++ r :: rest = done ++ [r] ++ rest := by
      rw [List.append_assoc, List.singleton_append]
    obtain ⟨o, ho⟩ := hm r (.head _)
    have howner := owner_of_matchBinding ho
    rw [happ]
    cases o with
    | none =>
      have hatt : r.attributed bindings = r.unmatched := by
        simp only [RIBRoute.attributed, howner]
      obtain ⟨matched', he, ht'⟩ := ih hrest (ht.unmatched howner)
      refine ⟨matched', ?_, ht'⟩
      rw [List.map_append, List.map_singleton, hatt] at he
      simp only [attributeLoop, ho]
      exact he
    | some b =>
      have hatt : r.attributed bindings = r.attribute b := by
        simp only [RIBRoute.attributed, howner]
      obtain ⟨matched', he, ht'⟩ := ih hrest (ht.attribute howner)
      refine ⟨matched', ?_, ht'⟩
      rw [List.map_append, List.map_singleton, hatt] at he
      simp only [attributeLoop, ho, List.length_map]
      exact he

theorem attributeLoop_matchable (h : attributeLoop bindings rest authorized matched = .ok p) :
    Matchable bindings rest := by
  induction rest generalizing authorized matched with
  | nil =>
    intro r hr
    cases hr
  | cons r rest ih =>
    simp only [attributeLoop] at h
    intro r' hr'
    cases ho : matchBinding r.pfx bindings with
    | error e =>
      simp only [ho] at h
      cases h
    | ok o =>
      rcases List.mem_cons.1 hr' with he | hr'
      · exact ⟨o, he ▸ ho⟩
      · cases o with
        | none =>
          simp only [ho] at h
          exact ih h r' hr'
        | some b =>
          simp only [ho] at h
          exact ih h r' hr'

end Kreg
