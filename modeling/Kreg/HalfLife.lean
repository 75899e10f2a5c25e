import Mathlib.Analysis.SpecialFunctions.Pow.Real

namespace HalfLife
set_option autoImplicit true

noncomputable def half : ℝ := 1 / 2

theorem half_pos : 0 < half := by
  rw [half]
  norm_num

theorem half_le_one : half ≤ 1 := by
  rw [half]
  norm_num

/-- What a time `t` leaves of a quantity with half-life `h`; without one it does not decay. -/
noncomputable def factor (h t : ℝ) : ℝ :=
  if h ≤ 0 then 1 else half ^ (t / h)

theorem factor_pos (h t : ℝ) : 0 < factor h t := by
  rw [factor]
  split
  · exact one_pos
  · exact Real.rpow_pos_of_pos half_pos _

@[simp] theorem factor_zero (h : ℝ) : factor h 0 = 1 := by
  rw [factor, zero_div, Real.rpow_zero, ite_self]

theorem factor_self (hh : 0 < h) : factor h h = half := by
  rw [factor, if_neg (not_le.2 hh), div_self hh.ne', Real.rpow_one]

theorem factor_add (h s t : ℝ) : factor h (s + t) = factor h s * factor h t := by
  simp only [factor]
  split
  · rw [one_mul]
  · rw [add_div, Real.rpow_add half_pos]

theorem factor_antitone (h : ℝ) (hst : s ≤ t) : factor h t ≤ factor h s := by
  simp only [factor]
  split
  · exact le_refl 1
  · next hh =>
    apply Real.rpow_le_rpow_of_exponent_ge half_pos half_le_one
    exact div_le_div_of_nonneg_right hst (le_of_not_ge hh)

theorem factor_le_one (h : ℝ) (ht : 0 ≤ t) : factor h t ≤ 1 := by
  rw [← factor_zero h]
  exact factor_antitone h ht

theorem factor_le_half_rpow (hh : 0 < h) (hK : K * h ≤ t) : factor h t ≤ half ^ K := by
  rw [factor, if_neg (not_le.2 hh)]
  apply Real.rpow_le_rpow_of_exponent_ge half_pos half_le_one
  exact (le_div_iff₀ hh).2 hK

theorem factor_lt_one (hh : 0 < h) (ht : 0 < t) : factor h t < 1 := by
  rw [factor, if_neg (not_le.2 hh)]
  apply Real.rpow_lt_one half_pos.le _ (div_pos ht hh)
  rw [half]
  norm_num

theorem mul_factor_le (hx : 0 ≤ x) (hle : a * factor h s ≤ x) (het : e ≤ t) :
    a * factor h (s + t) ≤ x * factor h e :=
  calc a * factor h (s + t)
      = a * factor h s * factor h t := by rw [factor_add, mul_assoc]
    _ ≤ x * factor h t := mul_le_mul_of_nonneg_right hle (factor_pos h t).le
    _ ≤ x * factor h e := mul_le_mul_of_nonneg_left (factor_antitone h het) hx

end HalfLife
