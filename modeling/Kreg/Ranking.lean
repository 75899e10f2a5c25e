import Mathlib.Data.List.Sort
import Mathlib.Tactic.Common

namespace Ranking
set_option autoImplicit true

theorem mem_drop_iff {lt : α → α → Prop} [DecidableRel lt] (hasymm : ∀ a b, lt a b → ¬ lt b a)
    {l : List α} (hl : l.Pairwise lt) (hx : x ∈ l) (m : Nat) :
    x ∈ l.drop m ↔ m ≤ l.countP fun y => lt y x := by
  induction l generalizing m with
  | nil => cases hx
  | cons a l ih =>
    obtain ⟨ha, hl⟩ := List.pairwise_cons.1 hl
    cases m with
    | zero => exact ⟨fun _ => Nat.zero_le _, fun _ => hx⟩
    | succ m =>
      rw [List.drop_succ_cons, List.countP_cons]
      rcases List.mem_cons.1 hx with he | hx
      · subst he
        have hirrefl : ¬ lt x x := fun h => hasymm x x h h
        have hcount : (l.countP fun y => lt y x) = 0 := by
          rw [List.countP_eq_zero]
          intro y hy h
          exact hasymm x y (ha y hy) (of_decide_eq_true h)
        have hnot : x ∉ l.drop m := fun h => hirrefl (ha x (List.mem_of_mem_drop h))
        simp only [hcount, hirrefl, hnot, decide_false, Bool.false_eq_true, ↓reduceIte, false_iff]
        exact Nat.not_succ_le_zero m
      · rw [ih hl hx]
        simp only [ha x hx, decide_true, ↓reduceIte]
        exact Nat.succ_le_succ_iff.symm

variable [LinearOrder ι] [LinearOrder κ]

/-- Before `b` in the order of `key`, ties broken by position. -/
def Before (key : ι → κ) (a b : ι) : Prop :=
  key a < key b ∨ key a = key b ∧ a < b

instance (key : ι → κ) : DecidableRel (Before key) :=
  fun _ _ => inferInstanceAs (Decidable (_ ∨ _))

theorem Before.asymm (key : ι → κ) (a b : ι) (h : Before key a b) : ¬ Before key b a := by
  rintro (h' | ⟨he, h'⟩)
  · rcases h with h | ⟨he, _⟩
    · exact lt_asymm h h'
    · exact h'.ne he.symm
  · rcases h with h | ⟨_, h⟩
    · exact h.ne he.symm
    · exact lt_asymm h h'

theorem Before.key_le {key : ι → κ} (h : Before key a b) : key a ≤ key b := by
  rcases h with h | ⟨h, _⟩
  · exact h.le
  · exact h.le

theorem before_of_key_le {key : ι → κ} (h : key a ≤ key b) (hab : a < b) : Before key a b := by
  rcases h.lt_or_eq with h | h
  · exact .inl h
  · exact .inr ⟨h, hab⟩

theorem pairwise_orderedInsert (key : ι → κ) [DecidableRel fun a b => key a ≤ key b]
    {l : List ι} (hl : l.Pairwise (Before key))
    (ha : ∀ b ∈ l, a < b) :
    (l.orderedInsert (fun a b => key a ≤ key b) a).Pairwise (Before key) := by
  induction l with
  | nil => exact List.pairwise_singleton _ _
  | cons b l ih =>
    obtain ⟨hb, hl⟩ := List.pairwise_cons.1 hl
    rw [List.orderedInsert]
    split
    · next hab =>
      refine List.pairwise_cons.2 ⟨?_, List.pairwise_cons.2 ⟨hb, hl⟩⟩
      intro c hc
      rcases List.mem_cons.1 hc with he | hc'
      · exact he ▸ before_of_key_le hab (ha b (.head _))
      · exact before_of_key_le (hab.trans (hb c hc').key_le) (ha c hc)
    · next hab =>
      refine List.pairwise_cons.2 ⟨?_, ih hl fun c hc => ha c (.tail _ hc)⟩
      intro c hc
      rcases (List.mem_orderedInsert _).1 hc with he | hc
      · exact he ▸ .inl (not_le.1 hab)
      · exact hb c hc

theorem pairwise_insertionSort (key : ι → κ) [DecidableRel fun a b => key a ≤ key b]
    {l : List ι} (hl : l.Pairwise (· < ·)) :
    (l.insertionSort fun a b => key a ≤ key b).Pairwise (Before key) := by
  induction l with
  | nil => exact .nil
  | cons a l ih =>
    obtain ⟨ha, hl⟩ := List.pairwise_cons.1 hl
    apply pairwise_orderedInsert key (ih hl)
    intro b hb
    exact ha b ((List.mem_insertionSort _).1 hb)

/-- A position lies past the cut of the sorted list when enough positions come before it. -/
theorem mem_drop_insertionSort (key : ι → κ) [DecidableRel fun a b => key a ≤ key b]
    {l : List ι} (hl : l.Pairwise (· < ·)) (m : Nat) :
    x ∈ (l.insertionSort fun a b => key a ≤ key b).drop m ↔
      x ∈ l ∧ m ≤ l.countP fun y => Before key y x := by
  have hperm := List.perm_insertionSort (fun a b => key a ≤ key b) l
  constructor
  · intro h
    have hx := List.mem_of_mem_drop h
    refine ⟨hperm.mem_iff.1 hx, ?_⟩
    rw [← hperm.countP_eq]
    exact (mem_drop_iff (Before.asymm key) (pairwise_insertionSort key hl) hx m).1 h
  · rintro ⟨hx, hm⟩
    rw [← hperm.countP_eq] at hm
    exact (mem_drop_iff (Before.asymm key) (pairwise_insertionSort key hl)
      (hperm.mem_iff.2 hx) m).2 hm

/-- Among entries with distinct keys, as many have fewer than `m` smaller ones as a cap of `m`
lets through. -/
theorem countP_countP_lt (key : α → κ) {l : List α} (hl : (l.map key).Nodup) (m : Nat) :
    (l.countP fun x => decide ((l.countP fun y => decide (key y < key x)) < m)) =
      min m l.length := by
  let s := l.insertionSort fun a b => key a ≤ key b
  have hperm : s.Perm l := List.perm_insertionSort _ l
  have hs : s.Pairwise fun a b => key a < key b := by
    have hle : s.Pairwise fun a b => key a ≤ key b := List.pairwise_insertionSort _ l
    have hne : s.Pairwise fun a b => key a ≠ key b :=
      List.pairwise_map.1 ((hperm.map key).nodup_iff.2 hl)
    exact hle.imp₂ (fun _ _ h h' => lt_of_le_of_ne h h') hne
  have hdrop : ∀ x ∈ s, x ∈ s.drop m ↔ m ≤ s.countP fun y => decide (key y < key x) :=
    fun x hx => mem_drop_iff (fun _ _ => lt_asymm) hs hx m
  have htake : ∀ x ∈ s.take m, x ∉ s.drop m := by
    intro x hx hx'
    have happ : (s.take m ++ s.drop m).Pairwise fun a b => key a < key b := by
      rw [List.take_append_drop]
      exact hs
    exact lt_irrefl _ ((List.pairwise_append.1 happ).2.2 x hx x hx')
  simp only [← hperm.countP_eq]
  rw [← hperm.length_eq, ← List.length_take]
  conv_lhs => rw [← List.take_append_drop m s]
  rw [List.countP_append, List.countP_eq_length.2, List.countP_eq_zero.2, Nat.add_zero]
  · intro x hx h
    have hm := (hdrop x (List.mem_of_mem_drop hx)).1 hx
    rw [List.take_append_drop] at h
    exact absurd (of_decide_eq_true h) (not_lt.2 hm)
  · intro x hx
    rw [List.take_append_drop]
    apply decide_eq_true
    rw [← not_le, ← hdrop x (List.mem_of_mem_take hx)]
    exact htake x hx

end Ranking
