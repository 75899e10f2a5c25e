import Mathlib.Data.List.AList
import Mathlib.Data.List.Count
import Mathlib.Data.Set.Card
import Mathlib.Order.Interval.Finset.Nat
import Mathlib.Logic.Function.Iterate

namespace Counting
set_option autoImplicit true

section
variable {κ β : Type} [DecidableEq κ] (zero : β) (next : β → β)

/-- Counts one more `k`, in a map where what is missing counts as `zero`. -/
def bump (counts : AList fun _ : κ => β) (k : κ) : AList fun _ : κ => β :=
  counts.insert k (next ((counts.lookup k).getD zero))

end

theorem perm_of_filter [BEq β] [LawfulBEq β] (key : α → β) {l l' : List α}
    (h : ∀ b, l.filter (fun a => key a == b) = l'.filter fun a => key a == b) : l.Perm l' := by
  classical
  rw [List.perm_iff_count]
  intro a
  have hself : (key a == key a) = true := beq_self_eq_true _
  rw [← List.count_filter (l := l) (p := fun x => key x == key a) hself, h,
    List.count_filter (p := fun x => key x == key a) hself]

end Counting
