import Kreg.HalfLife
import Mathlib.Algebra.Order.Round

namespace HalfLife
set_option autoImplicit true

/-- The nearest integer; halfway cases go away from zero. -/
noncomputable def nearest (x : ℝ) : ℤ :=
  if x < 0 then -round (-x) else round x

theorem nearest_of_nonneg (h : 0 ≤ x) : nearest x = round x :=
  if_neg (not_lt.2 h)

@[simp] theorem nearest_intCast (n : ℤ) : nearest n = n := by
  rw [nearest, ← Int.cast_neg, round_intCast, round_intCast, neg_neg, ite_self]

theorem nearest_le {n : ℤ} (h : x < n + half) : nearest x ≤ n := by
  rw [half] at h
  rw [nearest]
  split
  · have hn : -n ≤ round (-x) := by
      rw [round_eq, Int.le_floor]
      push_cast
      linarith
    exact neg_le.1 hn
  · rw [round_eq, ← Int.lt_add_one_iff, Int.floor_lt]
    push_cast
    linarith

theorem nearest_lt_of_lt {n : ℤ} (h : x < n - half) : nearest x < n := by
  apply Int.lt_of_le_sub_one
  apply nearest_le
  rw [half] at h ⊢
  push_cast
  linarith

theorem le_nearest {n : ℤ} (h : n - half < x) : n ≤ nearest x := by
  rw [half] at h
  rw [nearest]
  split
  · have hn : round (-x) ≤ -n := by
      rw [round_eq, ← Int.lt_add_one_iff, Int.floor_lt]
      push_cast
      linarith
    exact le_neg.1 hn
  · rw [round_eq, Int.le_floor]
    linarith

theorem le_nearest_of_nonneg {n : ℤ} (hx : 0 ≤ x) (h : n - half ≤ x) : n ≤ nearest x := by
  rw [half] at h
  rw [nearest_of_nonneg hx, round_eq, Int.le_floor]
  linarith

theorem nearest_mono (h : x ≤ y) : nearest x ≤ nearest y := by
  have hhalf := half_pos
  rcases lt_or_ge y 0 with hy | hy
  · rw [nearest, nearest, if_pos (h.trans_lt hy), if_pos hy, neg_le_neg_iff, round_eq, round_eq]
    exact Int.floor_le_floor (by linarith)
  · rcases lt_or_ge x 0 with hx | hx
    · have hx₀ : nearest x ≤ 0 := nearest_le (by rw [Int.cast_zero]; linarith)
      have hy₀ : 0 ≤ nearest y := le_nearest (by rw [Int.cast_zero]; linarith)
      exact hx₀.trans hy₀
    · rw [nearest_of_nonneg hx, nearest_of_nonneg hy, round_eq, round_eq]
      exact Int.floor_le_floor (by linarith)

theorem round_of_fract_lt (h : Int.fract x < half) : round x = ⌊x⌋ := by
  have hsplit := Int.floor_add_fract x
  have hnonneg := Int.fract_nonneg x
  rw [half] at h
  rw [round_eq, Int.floor_eq_iff]
  constructor <;> linarith

theorem round_of_le_fract (h : half ≤ Int.fract x) : round x = ⌊x⌋ + 1 := by
  have hsplit := Int.floor_add_fract x
  have hlt := Int.fract_lt_one x
  rw [half] at h
  rw [round_eq, Int.floor_eq_iff]
  push_cast
  constructor <;> linarith

/-- Whatever falls short of `x` by `e` at most is rounded to no less than `x`. -/
def RoundsUp (x e : ℝ) : Prop :=
  x ≤ nearest (x - e)

theorem RoundsUp.le (h : RoundsUp x e) (hy : x - e ≤ y) : x ≤ nearest y :=
  h.trans (Int.cast_le.2 (nearest_mono hy))

theorem roundsUp_iff (hx : 0 ≤ x) : RoundsUp x 0 ↔ Int.fract x = 0 ∨ half ≤ Int.fract x := by
  have hsplit := Int.floor_add_fract x
  have hnonneg := Int.fract_nonneg x
  rw [RoundsUp, sub_zero, nearest_of_nonneg hx]
  rcases lt_or_ge (Int.fract x) half with hlow | hhigh
  · rw [round_of_fract_lt hlow, or_iff_left (not_le.2 hlow)]
    constructor
    · intro h
      linarith
    · intro h
      linarith
  · have hlt := Int.fract_lt_one x
    rw [round_of_le_fract hhigh]
    push_cast
    exact iff_of_true (by linarith) (.inr hhigh)

theorem mul_le_max (c : ℝ) (hf : 0 ≤ f) (hf' : f ≤ 1) : c * f ≤ max c 0 := by
  rcases le_total 0 c with hc | hc
  · exact (mul_le_of_le_one_right hc hf').trans (le_max_left _ _)
  · exact (mul_nonpos_of_nonpos_of_nonneg hc hf).trans (le_max_right _ _)

theorem nearest_mul_eq {c : ℤ} (hc : 0 ≤ c) (hf : f ≤ 1) (h : c - half < c * f) :
    nearest (c * f) = c := by
  have hle := mul_le_of_le_one_right (Int.cast_nonneg hc : (0 : ℝ) ≤ c) hf
  have hhalf := half_pos
  exact le_antisymm (nearest_le (by linarith)) (le_nearest h)

/-- Rounding what a factor `f` leaves of `c` gives back no more than `f` takes of one. -/
def RoundsFairly (c f : ℝ) : Prop :=
  Int.fract (c * f) < half ∨ f ≤ Int.fract (c * f)

theorem roundsFairly_iff (hc : 0 ≤ c) (hf : 0 ≤ f) (hf' : f ≤ 1) :
    (nearest (c * f) : ℝ) ≤ (c - 1) * f + 1 ↔ RoundsFairly c f := by
  have hsplit := Int.floor_add_fract (c * f)
  have hnonneg := Int.fract_nonneg (c * f)
  rw [nearest_of_nonneg (mul_nonneg hc hf), RoundsFairly, sub_mul, one_mul]
  rcases lt_or_ge (Int.fract (c * f)) half with hlow | hhigh
  · rw [round_of_fract_lt hlow]
    exact iff_of_true (by linarith) (.inl hlow)
  · rw [round_of_le_fract hhigh, or_iff_right (not_lt.2 hhigh)]
    push_cast
    constructor
    · intro h
      linarith
    · intro h
      linarith

theorem roundsFairly_of_le_half (h : f ≤ half) : RoundsFairly c f := by
  rcases lt_or_ge (Int.fract (c * f)) half with hlow | hhigh
  · exact .inl hlow
  · exact .inr (h.trans hhigh)

section Step

variable {c : ℤ} {y f g : ℝ} (hc : 0 ≤ c) (hy : (c : ℝ) ≤ y + 1) (hf : 0 ≤ f) (hfg : f ≤ g)
  (hg : g ≤ 1)
include hc hy hf hfg hg

/-- A bound `y + 1` on a whole number holds of whatever a decay by `f` makes of the number, give
or take less than one, with a `y` that has decayed more slowly. -/
theorem le_of_le_succ (hz : z ≤ (c - 1) * f + 1) (hz₀ : c = 0 → z ≤ 0) : z ≤ y * g + 1 := by
  have hbound : ((c : ℝ) - 1) * g ≤ y * g :=
    mul_le_mul_of_nonneg_right (by linarith) (hf.trans hfg)
  rcases hc.eq_or_lt with hzero | hpos
  · have hz' := hz₀ hzero.symm
    rw [← hzero, Int.cast_zero] at hbound
    linarith
  · have hone : (1 : ℝ) ≤ c := by exact_mod_cast hpos
    have hslow : ((c : ℝ) - 1) * f ≤ (c - 1) * g :=
      mul_le_mul_of_nonneg_left hfg (sub_nonneg.2 hone)
    linarith

theorem mul_le_of_le_succ : c * f ≤ y * g + 1 := by
  apply le_of_le_succ hc hy hf hfg hg
  · linarith
  · intro hzero
    rw [hzero, Int.cast_zero, zero_mul]

theorem nearest_le_of_le_succ (hr : RoundsFairly c f) : (nearest (c * f) : ℝ) ≤ y * g + 1 := by
  apply le_of_le_succ hc hy hf hfg hg
  · exact (roundsFairly_iff (Int.cast_nonneg hc) hf (hfg.trans hg)).2 hr
  · intro hzero
    rw [hzero, Int.cast_zero, zero_mul, ← Int.cast_zero, nearest_intCast]

end Step

/-- A whole number that, `t` after it was `a`, is at most one above what has been left of all but
one of `a`. -/
structure Trails (h a : ℝ) (c : ℤ) (t : ℝ) : Prop where
  nonneg : 0 ≤ c
  le : (c : ℝ) ≤ (a - 1) * factor h t + 1

theorem Trails.refl (h : ℝ) {c : ℤ} (hc : 0 ≤ c) : Trails h c c 0 where
  nonneg := hc
  le := by
    rw [factor_zero]
    linarith

theorem Trails.zero (ha : 0 ≤ a) (ht : 0 ≤ t) : Trails h a 0 t where
  nonneg := le_refl 0
  le := by
    have hpos := (factor_pos h t).le
    have hone := factor_le_one h ht
    have hmul := mul_nonneg ha hpos
    rw [Int.cast_zero]
    linarith

theorem sub_one_mul_factor_lt (h : ℝ) (ha : 0 ≤ a) (hst : s ≤ t) :
    (a - 1) * factor h t < a * factor h s := by
  have hpos := factor_pos h t
  have hmul := mul_le_mul_of_nonneg_left (factor_antitone h hst) ha
  linarith

section Steps

variable {h a t s e : ℝ} {c : ℤ} (hc : Trails h a c t) (hs : 0 ≤ s) (hse : s ≤ e)
include hc hs hse

theorem Trails.left_le : c * factor h e ≤ (a - 1) * factor h (t + s) + 1 := by
  rw [factor_add, ← mul_assoc]
  exact mul_le_of_le_succ hc.nonneg hc.le (factor_pos h e).le (factor_antitone h hse)
    (factor_le_one h hs)

theorem Trails.step (hr : RoundsFairly c (factor h e)) :
    Trails h a (nearest (c * factor h e)) (t + s) where
  nonneg := by
    have hmul : 0 ≤ c * factor h e := mul_nonneg (Int.cast_nonneg hc.nonneg) (factor_pos h e).le
    have hhalf := half_pos
    apply le_nearest
    rw [Int.cast_zero]
    linarith
  le := by
    rw [factor_add, ← mul_assoc]
    exact nearest_le_of_le_succ hc.nonneg hc.le (factor_pos h e).le (factor_antitone h hse)
      (factor_le_one h hs) hr

end Steps

theorem one_sub_le_factor (hh : 0 < h) (ht : 0 ≤ t) : 1 - t / h ≤ factor h t := by
  have hlog : -1 ≤ Real.log half := by
    have hle := Real.one_sub_inv_le_log_of_pos half_pos
    rw [half] at hle ⊢
    linarith
  have hexp := Real.add_one_le_exp (Real.log half * (t / h))
  have hmul := mul_le_mul_of_nonneg_right hlog (div_nonneg ht hh.le)
  rw [factor, if_neg (not_le.2 hh), Real.rpow_def_of_pos half_pos]
  linarith

end HalfLife
