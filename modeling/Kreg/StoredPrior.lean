import Kreg.SweepStore

namespace Kreg
set_option autoImplicit true

/-- The record `applyBackend` leaves under a name, given what was there. -/
def written (stamp : Time) (b : AdvertisedBackend) : Option Record → Record
  | none => ⟨b.labels, (createdStatus stamp b.status).stored⟩
  | some r => { r with status := (updatedStatus stamp r.status b.status).stored }

theorem applied_eq (stamp : Time) (s : Records) (b : AdvertisedBackend) :
    applied stamp s b = s.insert b.name (written stamp b (s.lookup b.name)) := by
  rw [applied]
  cases s.lookup b.name <;> rfl

def rewritten (stamp : Time) (k : String) (o : Option Record) (l : List AdvertisedBackend) :
    Option Record :=
  l.foldl (fun o b => if b.name = k then some (written stamp b o) else o) o

theorem rewritten_cons (stamp : Time) (k : String) (o : Option Record) (b : AdvertisedBackend)
    (l : List AdvertisedBackend) :
    rewritten stamp k o (b :: l) =
      rewritten stamp k (if b.name = k then some (written stamp b o) else o) l :=
  rfl

theorem rewritten_filter (stamp : Time) (k : String) (l : List AdvertisedBackend)
    (o : Option Record) :
    rewritten stamp k o l = rewritten stamp k o (l.filter fun b => b.name == k) := by
  induction l generalizing o with
  | nil => rfl
  | cons b l ih =>
    rw [rewritten_cons, ih, List.filter_cons]
    by_cases he : b.name = k
    · simp only [he, beq_self_eq_true, ↓reduceIte, rewritten_cons]
    · simp only [he, beq_iff_eq, ↓reduceIte]

theorem lookup_applied (stamp : Time) (s : Records) (b : AdvertisedBackend) (k : String) :
    (applied stamp s b).lookup k =
      if b.name = k then some (written stamp b (s.lookup k)) else s.lookup k := by
  rw [applied_eq]
  split
  · next he =>
    subst he
    exact AList.lookup_insert s
  · next hne => exact AList.lookup_insert_ne (Ne.symm hne)

theorem lookup_foldl_applied (stamp : Time) (k : String) (l : List AdvertisedBackend)
    (s : Records) : (l.foldl (applied stamp) s).lookup k = rewritten stamp k (s.lookup k) l := by
  induction l generalizing s with
  | nil => rfl
  | cons b l ih => rw [List.foldl_cons, ih, rewritten_cons, lookup_applied]

theorem lookup_foldl_unstale (names : List String) (k : String) (l : List AdvertisedBackend)
    (s : Records) :
    (l.foldl (unstale names) s).lookup k =
      if k ∉ names ∧ k ∈ l.map AdvertisedBackend.name then none else s.lookup k := by
  induction l generalizing s with
  | nil => simp only [List.foldl_nil, List.map_nil, List.not_mem_nil, and_false, ↓reduceIte]
  | cons b l ih =>
    rw [List.foldl_cons, ih]
    simp only [List.map_cons, List.mem_cons]
    have hb : (unstale names s b).lookup k =
        if k ∉ names ∧ k = b.name then none else s.lookup k := by
      rw [unstale]
      by_cases he : k = b.name
      · subst he
        split
        · next hm => simp only [hm, not_true_eq_false, false_and, ↓reduceIte]
        · next hm => simp only [hm, not_false_eq_true, and_self, ↓reduceIte, AList.lookup_erase]
      · simp only [he, and_false, ↓reduceIte]
        split
        · rfl
        · exact AList.lookup_erase_ne he
    rw [hb]
    by_cases hn : k ∈ names
    · simp only [hn, not_true_eq_false, false_and, ↓reduceIte]
    · by_cases he : k = b.name
      · subst he
        simp only [hn, not_false_eq_true, true_or, and_self, ↓reduceIte, ite_self]
      · simp only [hn, he, not_false_eq_true, false_or, and_false, ↓reduceIte]

theorem mem_listManaged_names (s : Records) (k : String) :
    k ∈ s.listManaged.map AdvertisedBackend.name ↔ ∃ r, s.lookup k = some r ∧ r.managed = true := by
  simp only [Records.listManaged, List.map_map, List.mem_map, List.mem_filter, Function.comp]
  constructor
  · rintro ⟨e, ⟨he, hm⟩, rfl⟩
    exact ⟨e.2, AList.mem_lookup_iff.2 he, hm⟩
  · rintro ⟨r, hr, hm⟩
    exact ⟨⟨k, r⟩, ⟨AList.mem_lookup_iff.1 hr, hm⟩, rfl⟩

theorem lookup_pruned_of_mem (s : Records) (h : k ∈ names) :
    (pruned names s).lookup k = s.lookup k := by
  rw [pruned, lookup_foldl_unstale]
  simp only [h, not_true_eq_false, false_and, ↓reduceIte]

theorem lookup_pruned_of_notMem (s : Records) (h : k ∉ names) :
    (pruned names s).lookup k = (s.lookup k).filter fun r => !r.managed := by
  rw [pruned, lookup_foldl_unstale]
  simp only [mem_listManaged_names]
  cases hs : s.lookup k with
  | none => simp only [h, reduceCtorEq, false_and, exists_false, and_false, ↓reduceIte,
      Option.filter_none]
  | some r =>
    cases hm : r.managed with
    | true =>
      have hex : ∃ r', some r = some r' ∧ r'.managed = true := ⟨r, rfl, hm⟩
      simp only [h, hex, not_false_eq_true, and_self, ↓reduceIte, Option.filter_some, hm,
        Bool.not_true, Bool.false_eq_true]
    | false =>
      have hex : ¬ ∃ r', some r = some r' ∧ r'.managed = true := by
        rintro ⟨r', he, hm'⟩
        cases he
        rw [hm] at hm'
        cases hm'
      simp only [hex, and_false, ↓reduceIte, Option.filter_some, hm, Bool.not_false]

variable {F : Type} [Float64 F]

def Records.prior (s : Records) (k : String) : Option (PriorState F) :=
  (s.lookup k).bind fun r => if r.managed then priorState r.status else none

theorem mem_prior_iff (s : Records) (k : String) (p : PriorState F) :
    s.prior k = some p ↔
      ∃ r, s.lookup k = some r ∧ r.managed = true ∧ priorState r.status = some p := by
  simp only [Records.prior, Option.bind_eq_some_iff, Option.ite_none_right_eq_some]

theorem lookup_priorState_foldl (items : List AdvertisedBackend)
    (h : (items.map AdvertisedBackend.name).Nodup) (m : GoMap (PriorState F)) (k : String)
    (hm : k ∈ items.map AdvertisedBackend.name → m.lookup k = none) (p : PriorState F) :
    (items.foldl insertPrior m).lookup k = some p ↔
      m.lookup k = some p ∨ ∃ b ∈ items, b.name = k ∧ priorState b.status = some p := by
  induction items generalizing m with
  | nil => simp only [List.foldl_nil, List.not_mem_nil, false_and, exists_false, or_false]
  | cons b items ih =>
    rw [List.map_cons, List.nodup_cons] at h
    simp only [List.foldl_cons, List.mem_cons, exists_eq_or_imp, insertPrior]
    have hrest : k ∈ items.map AdvertisedBackend.name → k ≠ b.name := by
      rintro hk rfl
      exact h.1 hk
    cases hb : priorState (F := F) b.status with
    | none =>
      rw [ih h.2 m fun hk => hm (by rw [List.map_cons]; exact .tail _ hk)]
      simp only [reduceCtorEq, and_false, false_or]
    | some q =>
      rw [ih h.2 _ fun hk => by
        rw [AList.lookup_insert_ne (hrest hk)]
        exact hm (by rw [List.map_cons]; exact .tail _ hk)]
      by_cases he : b.name = k
      · subst he
        have hnone := hm (by rw [List.map_cons]; exact .head _)
        rw [AList.lookup_insert, hnone]
        simp only [true_and, reduceCtorEq, false_or]
      · rw [AList.lookup_insert_ne (Ne.symm he)]
        simp only [he, false_and, false_or]

theorem listManaged_nodup (s : Records) : (s.listManaged.map AdvertisedBackend.name).Nodup := by
  have hkeys : s.keys.Nodup := s.keys_nodup
  simp only [Records.listManaged, List.map_map]
  refine List.Nodup.sublist ?_ hkeys
  exact List.filter_sublist.map _

theorem lookup_priorStateFromAdvertisedBackends (s : Records) (k : String) :
    (priorStateFromAdvertisedBackends s.listManaged : GoMap (PriorState F)).lookup k =
      s.prior k := by
  apply Option.ext
  intro p
  rw [mem_prior_iff, priorStateFromAdvertisedBackends,
    lookup_priorState_foldl _ (listManaged_nodup s) _ _ fun _ => AList.lookup_empty k]
  simp only [AList.lookup_empty, reduceCtorEq, false_or, Records.listManaged, List.mem_map,
    List.mem_filter]
  constructor
  · rintro ⟨b, ⟨e, ⟨he, hm⟩, rfl⟩, rfl, hp⟩
    exact ⟨e.2, AList.mem_lookup_iff.2 he, hm, hp⟩
  · rintro ⟨r, hr, hm, hp⟩
    exact ⟨_, ⟨⟨k, r⟩, ⟨AList.mem_lookup_iff.1 hr, hm⟩, rfl⟩, rfl, hp⟩

end Kreg
