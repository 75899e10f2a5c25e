import Mathlib.Data.Nat.Basic
import Mathlib.Tactic.Common

namespace AddressBlock
set_option autoImplicit true

/-- The `w`-bit addresses that agree with `addr` on its first `ones` bits. -/
structure Block (w : Nat) where
  addr : BitVec w
  ones : Nat
  ones_le : ones ≤ w
deriving DecidableEq

def mask (w ones : Nat) : BitVec w :=
  BitVec.allOnes w <<< (w - ones)

def Block.contains (B : Block w) (x : BitVec w) : Bool :=
  (B.addr &&& mask w B.ones) == (x &&& mask w B.ones)

theorem mask_getMsbD (h : ones ≤ w) (i : Nat) :
    (mask w ones).getMsbD i = decide (i < ones) := by
  rw [mask, BitVec.getMsbD_shiftLeft, BitVec.getMsbD_allOnes]
  congr 1
  apply propext
  omega

theorem Block.contains_iff (B : Block w) (x : BitVec w) :
    B.contains x = true ↔ ∀ i < B.ones, B.addr.getMsbD i = x.getMsbD i := by
  have hbit (y : BitVec w) (i : Nat) :
      (y &&& mask w B.ones).getMsbD i = (y.getMsbD i && decide (i < B.ones)) := by
    rw [BitVec.getMsbD_and, mask_getMsbD B.ones_le]
  rw [Block.contains, beq_iff_eq]
  constructor
  · intro h i hi
    have he := congrArg (fun y => y.getMsbD i) h
    simpa only [hbit, hi, decide_true, Bool.and_true] using he
  · intro h
    apply BitVec.eq_of_getMsbD_eq
    intro i _
    rw [hbit, hbit]
    by_cases hi : i < B.ones
    · rw [h i hi]
    · simp only [hi, decide_false, Bool.and_false]

theorem Block.contains_self (B : Block w) : B.contains B.addr = true :=
  (B.contains_iff _).2 fun _ _ => rfl

def flip (x : BitVec w) (i : Nat) : BitVec w :=
  x ^^^ BitVec.twoPow w (w - i - 1)

theorem flip_getMsbD (x : BitVec w) (hi : i < w) (j : Nat) :
    (flip x i).getMsbD j = (x.getMsbD j ^^ decide (j = i)) := by
  rw [flip, BitVec.getMsbD_xor, BitVec.getMsbD_twoPow]
  congr 1
  have hlt : w - i - 1 < w := by omega
  have he : w - (w - i - 1) - 1 = i := by omega
  simp only [hlt, he, decide_true, Bool.true_and]

theorem Block.subset_iff (B C : Block w) :
    (∀ x, B.contains x = true → C.contains x = true) ↔
      C.contains B.addr = true ∧ C.ones ≤ B.ones := by
  constructor
  · intro h
    have hself := h B.addr B.contains_self
    refine ⟨hself, ?_⟩
    by_contra hlt
    have hw : B.ones < w := by have := C.ones_le; omega
    have hB : B.contains (flip B.addr B.ones) = true := by
      rw [Block.contains_iff]
      intro i hi
      have hne : i ≠ B.ones := by omega
      rw [flip_getMsbD _ hw]
      simp only [hne, decide_false, Bool.xor_false]
    have hC := (C.contains_iff _).1 (h _ hB) B.ones (by omega)
    have hA := (C.contains_iff _).1 hself B.ones (by omega)
    rw [flip_getMsbD _ hw, hA] at hC
    simp only [decide_true, Bool.xor_true] at hC
    exact (Bool.eq_not_self _).1 hC
  · rintro ⟨hself, hle⟩ x hx
    rw [Block.contains_iff] at hself hx ⊢
    intro i hi
    rw [hself i hi, hx i (by omega)]

end AddressBlock
