import Mathlib.Data.List.Nodup
import Mathlib.Data.List.Range
import Mathlib.Data.Nat.Init
import Mathlib.Logic.Relation

namespace Sequences
set_option autoImplicit true

section Stuttering

/-- Some of the first `n` steps, in order, among them all that had to be taken. -/
structure Schedule (must : Nat → Prop) (n : Nat) (ts : List Nat) : Prop where
  sublist : ts.Sublist (List.range n)
  complete : ∀ i < n, must i → i ∈ ts

theorem Schedule.nil (must : Nat → Prop) : Schedule must 0 [] where
  sublist := .slnil
  complete i hi := absurd hi (Nat.not_lt_zero i)

theorem Schedule.take (h : Schedule must n ts) : Schedule must (n + 1) (ts ++ [n]) where
  sublist := by
    rw [List.range_succ]
    exact h.sublist.append (.refl _)
  complete i hi hm := by
    rcases Nat.lt_succ_iff_lt_or_eq.1 hi with hlt | rfl
    · exact List.mem_append_left _ (h.complete i hlt hm)
    · exact List.mem_append_right _ (.head _)

theorem Schedule.skip (h : Schedule must n ts) (hn : ¬ must n) : Schedule must (n + 1) ts where
  sublist := by
    rw [List.range_succ]
    exact h.sublist.trans (List.sublist_append_left ..)
  complete i hi hm := by
    rcases Nat.lt_succ_iff_lt_or_eq.1 hi with hlt | rfl
    · exact h.complete i hlt hm
    · exact absurd hm hn

/-- A system that does at each step what its model does, or what the model does not notice, is
where the model gets by some of the steps alone. -/
theorem exists_schedule {R : α → β → Prop} {x : Nat → α} {step : Nat → β → β} {b : β}
    {must : Nat → Prop} (n : Nat) (hstart : R (x 0) b)
    (hstep : ∀ m < n, ∀ b, R (x m) b → R (x (m + 1)) (step m b) ∨ ¬ must m ∧ R (x (m + 1)) b) :
    ∃ ts, Schedule must n ts ∧ R (x n) (ts.foldl (fun b i => step i b) b) := by
  induction n with
  | zero => exact ⟨[], .nil must, hstart⟩
  | succ n ih =>
    obtain ⟨ts, hts, hr⟩ := ih fun m hm => hstep m (hm.trans n.lt_succ_self)
    rcases hstep n n.lt_succ_self _ hr with htaken | ⟨hn, hskipped⟩
    · refine ⟨ts ++ [n], hts.take, ?_⟩
      rw [List.foldl_append]
      exact htaken
    · exact ⟨ts, hts.skip hn, hskipped⟩

end Stuttering

section Consecutive

def Follows (l : List α) (a b : α) : Prop :=
  ∃ i, l[i]? = some a ∧ l[i + 1]? = some b

theorem mem_zip_tail_iff {l : List α} : (a, b) ∈ l.zip l.tail ↔ Follows l a b := by
  rw [List.mem_iff_getElem?]
  constructor
  · rintro ⟨i, hi⟩
    rw [List.getElem?_zip_eq_some, List.getElem?_tail] at hi
    exact ⟨i, hi⟩
  · rintro ⟨i, hi⟩
    refine ⟨i, ?_⟩
    rw [List.getElem?_zip_eq_some, List.getElem?_tail]
    exact hi

theorem transGen_of_lt {l : List α} {i j : Nat} (ha : l[i]? = some a) (hb : l[j]? = some b)
    (hij : i < j) : Relation.TransGen (Follows l) a b := by
  induction j, hij using Nat.le_induction generalizing b with
  | base => exact .single ⟨i, ha, hb⟩
  | succ j hij ih =>
    have hj : j < l.length := Nat.lt_of_succ_lt (List.getElem?_eq_some_iff.1 hb).1
    exact .tail (ih (List.getElem?_eq_getElem hj)) ⟨j, List.getElem?_eq_getElem hj, hb⟩

theorem lt_of_transGen {l : List α} (hl : l.Nodup) (h : Relation.TransGen (Follows l) a b) :
    ∃ i j : Nat, i < j ∧ l[i]? = some a ∧ l[j]? = some b := by
  induction h with
  | single h =>
    obtain ⟨i, ha, hb⟩ := h
    exact ⟨i, i + 1, i.lt_succ_self, ha, hb⟩
  | @tail b c _ h ih =>
    obtain ⟨i, j, hij, ha, hb⟩ := ih
    obtain ⟨j', hb', hc⟩ := h
    have hj : j < l.length := (List.getElem?_eq_some_iff.1 hb).1
    have hsame : j = j' := (List.getElem?_inj hj hl).1 (hb.trans hb'.symm)
    subst hsame
    exact ⟨i, j + 1, Nat.lt_succ_of_lt hij, ha, hc⟩

/-- Following a list from one to the next comes back to where it was exactly if something is in
it twice. -/
theorem acyclic_follows_iff (l : List α) :
    (∀ a, ¬ Relation.TransGen (Follows l) a a) ↔ l.Nodup := by
  constructor
  · intro h
    rw [List.nodup_iff_getElem?_ne_getElem?]
    intro i j hij hj he
    have ha := List.getElem?_eq_getElem hj
    exact h l[j] (transGen_of_lt (he.trans ha) ha hij)
  · intro hl a h
    obtain ⟨i, j, hij, hi, hj⟩ := lt_of_transGen hl h
    have hlen : i < l.length := (List.getElem?_eq_some_iff.1 hi).1
    have hsame : i = j := (List.getElem?_inj hlen hl).1 (hi.trans hj.symm)
    exact absurd hsame (Nat.ne_of_lt hij)

end Consecutive

end Sequences
