import Kreg.RoundedDecay
import Kreg.StoredScores

namespace Kreg
open Float64 HalfLife
set_option autoImplicit true

/-- The `%.0f` verb on an exact number: halfway cases go to the even neighbour. -/
noncomputable def fixedReal (x : ℝ) : String :=
  let n := ⌊x⌋
  let even := if Int.fract x < half then n else if half < Int.fract x then n + 1 else n + n % 2
  if x < 0 ∧ even = 0 then "-0" else toString even

/-- Exact arithmetic, with the exact decay factor. -/
noncomputable instance : Float64 ℝ where
  ofInt n := n
  add x y := x + y
  mul x y := x * y
  lt x y := decide (x < y)
  le x y := decide (x ≤ y)
  isNaN _ := false
  round x := nearest x
  toInt x := if x < 0 then ⌈x⌉ else ⌊x⌋
  halves elapsed halfLife := half ^ ((elapsed.ns : ℝ) / halfLife.ns)
  fixed x := fixedReal x

theorem lt_real_iff (x y : ℝ) : lt x y = true ↔ x < y := decide_eq_true_iff

theorem le_real_iff (x y : ℝ) : le x y = true ↔ x ≤ y := decide_eq_true_iff

theorem toInt_real (n : Int) : toInt (n : ℝ) = n := by
  change (if (n : ℝ) < 0 then ⌈(n : ℝ)⌉ else ⌊(n : ℝ)⌋) = n
  rw [Int.ceil_intCast, Int.floor_intCast, ite_self]

theorem penalty_val_real (x : ℝ) : x ≤ add x (ofInt flapPenalty) :=
  le_add_of_nonneg_right (Int.cast_nonneg (by decide))

theorem decay_val_real (n : Int) (elapsed : Duration) {halfLife : Duration}
    (hh : 0 < halfLife.ns) :
    n * factor halfLife.ns elapsed.ns - 0 ≤ mul (ofInt n : ℝ) (halves elapsed halfLife) := by
  rw [factor, if_neg (not_le.2 (Int.cast_pos.2 hh)), sub_zero]
  exact le_refl _

/-- Exact arithmetic loses as little as the rational one does: nothing. -/
noncomputable instance : BoundedLoss ℝ where
  val x := x
  finite _ := True
  not_nan _ _ := rfl
  ofInt_finite _ _ := trivial
  ofInt_val _ _ := rfl
  lt_iff x y _ _ := lt_real_iff x y
  round_finite _ _ := trivial
  round_val _ _ := rfl
  toInt_eq _ n _ _ h := h ▸ toInt_real n
  penalty_finite _ _ := trivial
  decay_finite _ _ _ _ _ _ := trivial
  loss := BoundedLoss.loss Rat
  loss_nonneg := BoundedLoss.loss_nonneg
  penalty_val x _ := penalty_val_real x
  decay_val n elapsed _ _ _ hh _ := decay_val_real n elapsed hh

/-- What `elapsed` leaves of a score or a count; a clock that goes back takes nothing. -/
noncomputable def fading (halfLife elapsed : Duration) : ℝ :=
  factor halfLife.ns (max 0 elapsed.ns : Int)

theorem fading_pos (halfLife elapsed : Duration) : 0 < fading halfLife elapsed :=
  factor_pos _ _

theorem fading_le_one (halfLife elapsed : Duration) : fading halfLife elapsed ≤ 1 :=
  factor_le_one _ (Int.cast_nonneg (le_max_left _ _))

theorem fading_of_nonpos (h : elapsed.ns ≤ 0) : fading halfLife elapsed = 1 := by
  rw [fading, max_eq_left h, Int.cast_zero, factor_zero]

theorem fading_of_nonneg (h : 0 ≤ elapsed.ns) :
    fading halfLife elapsed = factor halfLife.ns elapsed.ns := by
  rw [fading, max_eq_right h]

theorem fading_antitone (halfLife : Duration) {elapsed elapsed' : Duration}
    (h : elapsed.ns ≤ elapsed'.ns) : fading halfLife elapsed' ≤ fading halfLife elapsed :=
  factor_antitone _ (Int.cast_le.2 (max_le_max_left 0 h))

theorem fading_lt_one (hh : 0 < halfLife.ns) (he : 0 < elapsed.ns) :
    fading halfLife elapsed < 1 := by
  rw [fading_of_nonneg he.le]
  exact factor_lt_one (Int.cast_pos.2 hh) (Int.cast_pos.2 he)

theorem fading_self (hh : 0 < halfLife.ns) (he : elapsed.ns = halfLife.ns) :
    fading halfLife elapsed = half := by
  rw [fading_of_nonneg (he ▸ hh.le), he, factor_self (Int.cast_pos.2 hh)]

theorem fading_of_no_halfLife (hh : halfLife.ns ≤ 0) (elapsed : Duration) :
    fading halfLife elapsed = 1 := by
  rw [fading, factor, if_pos (Int.cast_nonpos.2 hh)]

theorem fading_sub (halfLife : Duration) {now last : Time} (hle : last.ns ≤ now.ns)
    (hspan : now.ns - last.ns ≤ maxDuration) :
    fading halfLife (now.sub last) = factor halfLife.ns (now.ns - last.ns) := by
  have hsub : (now.sub last).ns = now.ns - last.ns := by
    simp only [Time.sub, Duration.saturate, minDuration, maxDuration] at hspan ⊢
    omega
  rw [fading_of_nonneg (Time.sub_nonneg hle), hsub, Int.cast_sub]

theorem decayScore_real (x : ℝ) (elapsed halfLife : Duration) :
    decayScore x elapsed halfLife = x * fading halfLife elapsed := by
  rw [decayScore]
  split
  · next h =>
    rcases h with h | h
    · rw [fading_of_nonpos h, mul_one]
    · rw [fading_of_no_halfLife h, mul_one]
  · next h =>
    obtain ⟨he, hh⟩ := not_or.1 h
    rw [fading_of_nonneg (not_le.1 he).le, factor, if_neg fun hle => hh (Int.cast_nonpos.1 hle)]
    rfl

theorem inInt32_nearest (n : Int32) (hf : 0 ≤ f) (hf' : f ≤ 1) :
    InInt32 (nearest (n.toInt * f)) := by
  have hlo : ((-2147483648 : Int) : ℝ) ≤ n.toInt := Int.cast_le.2 n.le_toInt
  have hhi : (n.toInt : ℝ) ≤ (2147483647 : Int) := Int.cast_le.2 n.toInt_le
  have hup := mul_le_max n.toInt hf hf'
  have hdown := mul_le_max (-n.toInt) hf hf'
  have hhalf := half_pos
  push_cast at hlo hhi
  constructor
  · have hmax : max (-n.toInt : ℝ) 0 ≤ 2147483648 := max_le (by linarith) (by norm_num)
    apply le_nearest
    push_cast
    linarith
  · have hmax : max (n.toInt : ℝ) 0 ≤ 2147483647 := max_le hhi (by norm_num)
    apply nearest_le
    push_cast
    linarith

theorem clampToInt32_real {x : ℝ} (h : InInt32 (nearest x)) :
    (clampToInt32 x).toInt = nearest x := by
  rw [clampToInt32_eq (F := ℝ) trivial]
  change max (-2147483648) (min 2147483647 (nearest x)) = nearest x
  rw [min_eq_right h.2, max_eq_right h.1]

theorem clampToInt32_fading (n : Int32) (halfLife elapsed : Duration) :
    (clampToInt32 (n.toInt * fading halfLife elapsed : ℝ)).toInt =
      nearest (n.toInt * fading halfLife elapsed) :=
  clampToInt32_real (inInt32_nearest n (fading_pos _ _).le (fading_le_one _ _))

theorem clampToInt32_toInt (n : Int32) : clampToInt32 (n.toInt : ℝ) = n := by
  have hin : InInt32 (nearest n.toInt) := (nearest_intCast n.toInt).symm ▸ inInt32_toInt n
  apply Int32.toInt_inj.1
  rw [clampToInt32_real hin, nearest_intCast]

theorem decayFlapCount_real (n : Int32) (elapsed : Duration) :
    (decayFlapCount ℝ n elapsed).toInt = nearest (n.toInt * fading flapCountHalfLife elapsed) := by
  rw [decayFlapCount]
  split
  · next h => rw [fading_of_nonpos h, mul_one, nearest_intCast]
  · next h =>
    have hin := inInt32_nearest n (fading_pos flapCountHalfLife elapsed).le (fading_le_one _ _)
    have hfactor : fading flapCountHalfLife elapsed = halves elapsed flapCountHalfLife := by
      rw [fading_of_nonneg (not_le.1 h).le, factor, if_neg fun hle => by
        exact absurd (Int.cast_nonpos.1 hle) (by decide)]
      rfl
    rw [← hfactor]
    change (Int32.ofInt (toInt (nearest (n.toInt * fading flapCountHalfLife elapsed) : ℝ))).toInt =
      _
    rw [toInt_real, hin.toInt_ofInt]

end Kreg
