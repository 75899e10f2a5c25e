import Kreg.StoredScores
import Kreg.Seconds

namespace Kreg
open Float64 HalfLife RealFloat BoundedLoss
set_option autoImplicit true

section Scores

variable {F : Type} [Float64 F]

theorem Run.memory_integral {r : Run F} (h : r.memory k n = some p) : Integral p.score := by
  obtain ⟨q, hq, rfl⟩ := Option.map_eq_some_iff.1 h
  obtain ⟨_, _, _, hp⟩ := (mem_prior_iff _ k q).1 (Visit.prior_of_lookup hq)
  exact priorState_integral hp

variable [BoundedLoss F]

theorem Suppresses.of_suppressed {s : Suppression F} {dc : DampeningConfig}
    (h : Suppresses now score (some u) (some dc) s) (he : dc.enabled = true)
    (hscore : finite score) :
    s.state = .dampened ∧ s.suppressedSince = some u ∧ s.score = score ∨
      (maxSuppressOf dc).ns ≤ (now.sub u).ns ∨ val score < (reuseThresholdOf dc).toInt := by
  cases h with
  | off _ hoff => exact nomatch he.symm.trans (hoff dc rfl)
  | capped _ hc => exact .inr (.inl hc)
  | reused _ _ hl =>
    have hin := inInt32_toInt (reuseThresholdOf dc)
    rw [lt_iff _ _ hscore (ofInt_finite _ hin), ofInt_val _ hin] at hl
    exact .inr (.inr hl)
  | kept => exact .inl ⟨rfl, rfl, rfl⟩

theorem Transition.of_suppressed {p d : DampingInfo F} {dc : DampeningConfig}
    (h : Transition now cfg (some p) here d) (hs : p.state = .dampened)
    (hu : p.suppressedSince = some u) (hc : cfg.dampening = some dc) (he : dc.enabled = true)
    (hp : Integral p.score) :
    d.state = .dampened ∧ d.suppressedSince = some u ∧
        val (p.carried now cfg.dampening) ≤ val d.score ∨
      (maxSuppressOf dc).ns ≤ (now.sub u).ns ∨
      val (p.carried now cfg.dampening) < (reuseThresholdOf dc).toInt := by
  cases h with
  | settling hp => exact nomatch hs.symm.trans hp
  | observed =>
    have hle := p.carried_le_charged hp now cfg.dampening
    have hfinite := p.charged_finite hp now cfg.dampening
    obtain ⟨s, hsup, hstate, _, hsc, hsince⟩ := observe_suppresses now p cfg.dampening
    rw [hu, hc] at hsup
    rw [hc] at hle hfinite
    rw [hstate, hsince, hsc, hc]
    rcases hsup.of_suppressed he hfinite with ⟨h₁, h₂, h₃⟩ | h | h
    · exact .inl ⟨h₁, h₂, h₃ ▸ hle⟩
    · exact .inr (.inl h)
    · exact .inr (.inr (hle.trans_lt h))
  | held =>
    obtain ⟨s, hsup, hstate, hsc, hsince⟩ := hold_suppresses now
      (p.withdrawnAt.getD now) p (durationOrZero cfg.withdrawalGrace) cfg.dampening
    rw [hu, hc] at hsup
    rw [hstate, hsince, hsc, hc]
    rcases hsup.of_suppressed he (decayScore_finite hp _ _) with ⟨h₁, h₂, h₃⟩ | h | h
    · exact .inl ⟨if_pos h₁, h₂, h₃ ▸ le_refl _⟩
    · exact .inr (.inl h)
    · exact .inr (.inr h)

end Scores

namespace Run

variable {F : Type}

def halfLife (r : Run F) : Int :=
  (halfLifeOf r.cfg.dampening).ns

variable [Float64 F] [BoundedLoss F]

/-- What exact arithmetic leaves at tick `n` of the score on record. -/
noncomputable def left (r : Run F) (n : Nat) (p : DampingInfo F) : ℝ :=
  val p.score * factor r.halfLife ((r.now n).sub p.lastObservedAt).ns

/-- Tick `n` carries the record on: its grace is not over if its route is gone, and what is left
of its score is not rounded down. -/
structure Preserves (r : Run F) (k : String) (n : Nat) (p : DampingInfo F) : Prop where
  held : r.here k n = false → ¬ p.Lapsed (r.now n) (durationOrZero r.cfg.withdrawalGrace)
  score : RoundsUp (r.left n p) (loss F)

/-- Tick `n` sees on which side of the reuse threshold the exact score is. -/
def Tells (r : Run F) (dc : DampeningConfig) (n : Nat) (p : DampingInfo F) : Prop :=
  (reuseThresholdOf dc).toInt ≤ r.left n p → (reuseThresholdOf dc).toInt + loss F ≤ r.left n p

/-- A score `s` of tick `i`, suppressed since `u`, may be served at tick `n`. -/
def Due (r : Run F) (dc : DampeningConfig) (u : Time) (s : ℝ) (i n : Nat) : Prop :=
  (maxSuppressOf dc).ns ≤ ((r.now n).sub u).ns ∨
    s * factor r.halfLife ((r.now n).ns - (r.now i).ns) < (reuseThresholdOf dc).toInt

/-- A record that is still suppressed since `u`, with no less than what is left of `s`. -/
structure Sustains (r : Run F) (u : Time) (s : ℝ) (i n : Nat) (p : DampingInfo F) : Prop where
  state : p.state = .dampened
  since : p.suppressedSince = some u
  observed : p.lastObservedAt = r.now n
  score : s * factor r.halfLife ((r.now n).ns - (r.now i).ns) ≤ val p.score

theorem Preserves.verdict {r : Run F} (h : r.Preserves k n p) (hm : r.memory k n = some p) :
    ∃ d, r.verdict k n = some d := by
  rw [Run.verdict, hm]
  cases hh : r.here k n with
  | true => exact verdict_present _ _ _
  | false =>
    apply Option.ne_none_iff_exists'.1
    intro hnone
    exact h.held hh (absentDamping_eq_none_iff.1 hnone)

variable {r : Run F} (hr : r.InSeconds) {dc : DampeningConfig} {u : Time} {s : ℝ} (hs : 0 ≤ s)
include hr hs

omit [Float64 F] [BoundedLoss F] in
theorem Due.succ (h : r.Due dc u s i n) : r.Due dc u s i (n + 1) := by
  rcases h with h | h
  · exact .inl (h.trans (Time.sub_le_sub (hr.ordered n) u))
  · have hle : ((r.now n).ns : ℝ) - (r.now i).ns ≤ (r.now (n + 1)).ns - (r.now i).ns :=
      sub_le_sub_right (Int.cast_le.2 (hr.ordered n)) _
    exact .inr ((mul_le_mul_of_nonneg_left (factor_antitone _ hle) hs).trans_lt h)

theorem Sustains.le_left (h : r.Sustains u s i n p) :
    0 ≤ val p.score ∧
      s * factor r.halfLife ((r.now (n + 1)).ns - (r.now i).ns) ≤ r.left (n + 1) p := by
  have hpos : 0 ≤ val p.score := (mul_nonneg hs (factor_pos _ _).le).trans h.score
  have helapsed : (((r.now (n + 1)).sub p.lastObservedAt).ns : ℝ) ≤
      (r.now (n + 1)).ns - (r.now n).ns := by
    rw [h.observed]
    exact_mod_cast Time.sub_le (hr.ordered n)
  have hleft := mul_factor_le hpos h.score helapsed
  rw [add_comm, sub_add_sub_cancel] at hleft
  exact ⟨hpos, hleft⟩

/-- One tick on, the suppression is due or goes on with what the arithmetic leaves of it. -/
theorem Sustains.due_or (hc : r.cfg.dampening = some dc) (he : dc.enabled = true)
    (h : r.Sustains u s i n p) (hm : r.memory k (n + 1) = some p)
    (hv : r.verdict k (n + 1) = some d) (htells : r.Tells dc (n + 1) p) :
    r.Due dc u s i (n + 1) ∨
      d.state = .dampened ∧ d.suppressedSince = some u ∧
        r.left (n + 1) p - loss F ≤ val d.score := by
  have hp := Run.memory_integral hm
  obtain ⟨hpos, hleft⟩ := h.le_left hr hs
  have helapsed : 0 ≤ ((r.now (n + 1)).sub p.lastObservedAt).ns := by
    rw [h.observed]
    exact Time.sub_nonneg (hr.ordered n)
  have hcarried : r.left (n + 1) p - loss F ≤ val (p.carried (r.now (n + 1)) r.cfg.dampening) :=
    decayScore_val hp hpos helapsed _
  have ht := r.transition hv
  rw [hm] at ht
  rcases ht.of_suppressed h.state h.since hc he hp with ⟨hstate, hsince, hscore⟩ | hcap | hreuse
  · exact .inr ⟨hstate, hsince, hcarried.trans hscore⟩
  · exact .inl (.inl hcap)
  · refine .inl (.inr (hleft.trans_lt (lt_of_not_ge fun hge => ?_)))
    have hsure := htells hge
    linarith

theorem Sustains.succ {d : DampingInfo F} (h : r.Sustains u s i n p) (hp : Integral p.score)
    (hround : RoundsUp (r.left (n + 1) p) (loss F)) (hd : finite d.score)
    (hstate : d.state = .dampened) (hsince : d.suppressedSince = some u)
    (hlast : d.lastObservedAt = r.now (n + 1))
    (hscore : r.left (n + 1) p - loss F ≤ val d.score) :
    r.Sustains u s i (n + 1) d.recorded := by
  obtain ⟨hpos, hleft⟩ := h.le_left hr hs
  have helapsed : (0 : ℝ) ≤ ((r.now (n + 1)).sub p.lastObservedAt).ns := by
    rw [h.observed]
    exact Int.cast_nonneg (Time.sub_nonneg (hr.ordered n))
  have hle : r.left (n + 1) p ≤ val p.score :=
    mul_le_of_le_one_right hpos (factor_le_one _ helapsed)
  have hmax : val p.score ≤ 2147483647 := by
    obtain ⟨m, hm⟩ := hp
    rw [hm, ofInt_val _ (inInt32_toInt m)]
    exact_mod_cast m.toInt_le
  refine ⟨hstate, hsince, hlast, ?_⟩
  rw [DampingInfo.recorded_val hd]
  exact hleft.trans (le_nearestInt32 (hround.le hscore) (hle.trans hmax))

theorem sustained (hc : r.cfg.dampening = some dc) (he : dc.enabled = true)
    (hm : r.memory k (i + 1) = some p₀) (hp₀ : r.Sustains u s i i p₀) (hin : i ≤ n)
    (hkeep : ∀ m, i < m → m ≤ n → ∀ p ∈ r.memory k m, p.suppressedSince = some u →
      r.Preserves k m p ∧ r.Tells dc m p) :
    r.Due dc u s i n ∨ ∃ p, r.memory k (n + 1) = some p ∧ r.Sustains u s i n p := by
  induction n, hin using Nat.le_induction with
  | base => exact .inr ⟨p₀, hm, hp₀⟩
  | succ n hin ih =>
    rcases ih fun m h h' => hkeep m h (Nat.le_succ_of_le h') with hdue | ⟨p, hp, hsus⟩
    · exact .inl (hdue.succ hr hs)
    · obtain ⟨hkept, htells⟩ := hkeep (n + 1) (Nat.lt_succ_of_le hin) (le_refl _) p hp hsus.since
      obtain ⟨d, hv⟩ := hkept.verdict hp
      rcases hsus.due_or hr hs hc he hp hv htells with hdue | ⟨hstate, hsince, hscore⟩
      · exact .inl hdue
      · refine .inr ⟨d.recorded, ?_, ?_⟩
        · rw [hr.memory_succ (needsPriorState_of_enabled hc he), hv]
          rfl
        · have ht := r.transition hv
          have hfinite := ht.score_finite fun q hq => Run.memory_integral hq
          exact hsus.succ hr hs (Run.memory_integral hp) hkept.score hfinite hstate hsince
            ht.lastObservedAt_eq hscore

omit hs

/-- Suppression is not shed early as long as the record lasts and its score is not rounded
down. -/
theorem suppression_kept (hc : r.cfg.dampening = some dc) (he : dc.enabled = true)
    {c₁ c₂ : BackendCandidate F} {d₁ d₂ : DampingInfo F}
    (hi : c₁ ∈ r.emitted i) (hk₁ : c₁.name = k) (hd₁ : c₁.damping = some d₁)
    (hstate : d₁.state = .dampened) (hu : d₁.suppressedSince = some u) (hij : i < j)
    (hsign : 0 ≤ val d₁.score ∨ 0 ≤ (reuseThresholdOf dc).toInt)
    (hfirst : RoundsUp (val d₁.score) 0) (hmax : val d₁.score ≤ 2147483647)
    (hkeep : ∀ n, i < n → n < j → ∀ p ∈ r.memory k n, p.suppressedSince = some u →
      r.Preserves k n p)
    (htells : ∀ n, i < n → n ≤ j → ∀ p ∈ r.memory k n, p.suppressedSince = some u →
      r.Tells dc n p)
    (hj : c₂ ∈ r.emitted j) (hk₂ : c₂.name = k) (hd₂ : c₂.damping = some d₂)
    (hserve : d₂.state = .active ∨ d₂.state = .holdDown) :
    (maxSuppressOf dc).ns ≤ ((r.now j).sub u).ns ∨
      val d₁.score * factor r.halfLife ((r.now j).ns - (r.now i).ns) <
        (reuseThresholdOf dc).toInt := by
  rcases lt_or_ge (val d₁.score) 0 with hneg | hs
  · -- a negative score stays below a threshold that is not negative
    have hreuse : (0 : ℝ) ≤ (reuseThresholdOf dc).toInt :=
      Int.cast_nonneg (hsign.resolve_left (not_le.2 hneg))
    exact .inr ((mul_neg_of_neg_of_pos hneg (factor_pos _ _)).trans_le hreuse)
  have hv₁ : r.verdict k i = some d₁ := hk₁ ▸ verdict_of_emitted hi hd₁
  have hv₂ : r.verdict k j = some d₂ := hk₂ ▸ verdict_of_emitted hj hd₂
  have hm : r.memory k (i + 1) = some d₁.recorded := by
    rw [hr.memory_succ (needsPriorState_of_enabled hc he), hv₁]
    rfl
  have ht := r.transition hv₁
  have hstart : r.Sustains u (val d₁.score) i i d₁.recorded := by
    refine ⟨hstate, hu, ht.lastObservedAt_eq, ?_⟩
    rw [sub_self, factor_zero, mul_one,
      DampingInfo.recorded_val (ht.score_finite fun q hq => Run.memory_integral hq)]
    exact le_nearestInt32 (hfirst.le (sub_zero _).le) hmax
  obtain ⟨m, rfl⟩ := Nat.exists_eq_add_of_lt hij
  have him : i ≤ i + m := Nat.le_add_right i m
  rcases sustained hr hs hc he hm hstart him fun n h h' p hp hsince =>
      ⟨hkeep n h (Nat.lt_succ_of_le h') p hp hsince,
        htells n h (Nat.le_succ_of_le h') p hp hsince⟩ with hdue | ⟨p, hp, hsus⟩
  · exact hdue.succ hr hs
  · rcases hsus.due_or hr hs hc he hp hv₂
        (htells _ hij (le_refl _) p hp hsus.since) with hdue | ⟨hd, _⟩
    · exact hdue
    · rcases hserve with h | h
      · exact nomatch h.symm.trans hd
      · exact nomatch h.symm.trans hd

end Run

section Sample

def flapDampening (halfLife : Int) (reuse : Int32) : DampeningConfig :=
  ⟨true, some (.seconds halfLife), some 1000, some reuse, none⟩

def flapConfig (grace halfLife : Int) (reuse : Int32) : BGPStabilityConfigSpec :=
  ⟨some (.seconds grace), none, some (flapDampening halfLife reuse)⟩

def flappedOnce (state : BackendState) (reason : String) (score : F) (seconds : Nat)
    (since : Option Time) : BackendCandidate F :=
  sampleEmission ⟨state, reason, score, 1, clock seconds, none, since, none⟩

def suppressedFirst (score : F) (seconds : Nat) : BackendCandidate F :=
  flappedOnce .dampened "flap-dampened: score 1000 (>= suppressThreshold 1000)" score seconds
    (some (clock seconds))

/-- One flap, then there for three ticks, two half-lives apart, and gone again. -/
def calmingRun : Run Rat :=
  sampleRun Rat (flapConfig 30 5 50) 10 fun n => if n ∈ [1, 5] then .gone else .accepted

theorem factor_two_halves : factor (5000000000 : Int) (10000000000 : Int) = 1 / 4 := by
  rw [factor, if_neg (by norm_num), half]
  norm_num

theorem calmingRun_left {d : DampingInfo Rat} (hn : n ∈ [3, 4, 5])
    (hlast : d.lastObservedAt = clock ((n - 1) * 10)) :
    calmingRun.left n d = (d.score : ℝ) / 4 := by
  have helapsed : ((calmingRun.now n).sub d.lastObservedAt).ns = 10000000000 := by
    rw [hlast]
    fin_cases hn <;> decide
  rw [Run.left, helapsed]
  change (d.score : ℝ) * factor (5000000000 : Int) (10000000000 : Int) = _
  rw [factor_two_halves, mul_one_div]

theorem Run.suppression_kept_calming :
    (maxSuppressOf (flapDampening 5 50)).ns ≤ ((calmingRun.now 5).sub (clock 20)).ns ∨
      (1000 : Rat) * factor calmingRun.halfLife ((calmingRun.now 5).ns - (calmingRun.now 2).ns) <
        (reuseThresholdOf (flapDampening 5 50)).toInt := by
  have hi : suppressedFirst 1000 20 ∈ calmingRun.emitted 2 := by decide +kernel
  have hj : sampleEmission ⟨.holdDown, "withdrawn 0s ago, grace 30s", 63 / 4, 1, clock 50,
      some (clock 50), none, none⟩ ∈ calmingRun.emitted 5 := by decide +kernel
  have hm₃ : calmingRun.memory "10-0-0-0-24-edge" 3 = some ⟨.dampened,
      "flap-dampened: score 1000 (>= suppressThreshold 1000)", 1000, 1, clock 20, none,
      some (clock 20), none⟩ := by decide +kernel
  have hm₄ : calmingRun.memory "10-0-0-0-24-edge" 4 = some ⟨.dampened,
      "flap-dampened: score 250 (reuse below 50)", 250, 1, clock 30, none, some (clock 20),
      none⟩ := by decide +kernel
  apply calmingRun.suppression_kept (j := 5) (sampleRun_inSeconds _ _ _) rfl rfl hi rfl rfl rfl rfl
    (by decide) (.inr (by decide))
  · change RoundsUp ((1000 : Rat) : ℝ) 0
    rw [roundsUp_iff (by norm_num)]
    exact .inl (by norm_num)
  · change ((1000 : Rat) : ℝ) ≤ _
    norm_num
  · intro n h h' p hp _
    -- 250 is stored as it is, 62.5 as 63
    obtain rfl | rfl : n = 3 ∨ n = 4 := by omega
    · cases hm₃.symm.trans hp
      refine ⟨nofun, ?_⟩
      rw [calmingRun_left (by decide) rfl, loss_rat, roundsUp_iff (by norm_num)]
      exact .inl (by norm_num)
    · cases hm₄.symm.trans hp
      have hsplit : ((250 : Rat) : ℝ) / 4 = (62 : ℤ) + 1 / 2 := by norm_num
      refine ⟨nofun, ?_⟩
      rw [calmingRun_left (by decide) rfl, loss_rat, roundsUp_iff (by norm_num), hsplit,
        Int.fract_intCast_add, Int.fract_eq_self.2 (by norm_num)]
      exact .inr (le_refl _)
  · intro n _ _ p _ _ h
    rw [loss_rat, add_zero]
    exact h
  · exact hj
  · rfl
  · rfl
  · exact .inr rfl

/-- Suppressed after one flap, gone for longer than the grace, then back. -/
def sheddingRun : Run Rat :=
  sampleRun Rat (flapConfig 10 5 10) 5 fun n => if n ∈ [1, 3, 4, 5] then .gone else .accepted

/-- Rational arithmetic that also knows half a half-life, as the `float64` next to `√(1/2)`. -/
structure RatRoot where
  rat : Rat
deriving DecidableEq

instance : Float64 RatRoot where
  ofInt n := ⟨n⟩
  add p q := ⟨p.rat + q.rat⟩
  mul p q := ⟨p.rat * q.rat⟩
  lt p q := lt p.rat q.rat
  le p q := le p.rat q.rat
  isNaN _ := false
  round q := ⟨Float64.round q.rat⟩
  toInt q := toInt q.rat
  halves elapsed halfLife :=
    if 2 * elapsed.ns = halfLife.ns then ⟨6369051672525773 / 9007199254740992⟩
    else ⟨halves elapsed halfLife⟩
  fixed q := fixed q.rat

/-- Suppressed after one flap and there at every tick: 1000, 707.1, stored as 707, 499.9. -/
def roundingRun : Run RatRoot :=
  sampleRun RatRoot (flapConfig 10 2 500) 1 fun n => if n = 1 then .gone else .accepted

/-- Suppression ends early when the record does not outlive the withdrawal, and when rounding
takes a score below the threshold; both backends are served below `maxSuppress`, with exactly
decayed scores that are not below the threshold. -/
theorem Run.suppression_shed :
    (suppressedFirst 1000 10 ∈ sheddingRun.emitted 2 ∧
        sampleEmission (newCandidateDamping (clock 30) .zero) ∈ sheddingRun.emitted 6 ∧
        ((sheddingRun.now 6).sub (clock 10)).ns < (maxSuppressOf (flapDampening 5 10)).ns ∧
        (10 : ℝ) ≤ 1000 * factor sheddingRun.halfLife
          ((sheddingRun.now 6).ns - (sheddingRun.now 2).ns)) ∧
      suppressedFirst ⟨1000⟩ 2 ∈ roundingRun.emitted 2 ∧
        flappedOnce .active "" ⟨707 * (6369051672525773 / 9007199254740992)⟩ 4 none ∈
          roundingRun.emitted 4 ∧
        ((roundingRun.now 4).sub (clock 2)).ns < (maxSuppressOf (flapDampening 2 500)).ns ∧
        (500 : ℝ) ≤ 1000 * factor roundingRun.halfLife
          ((roundingRun.now 4).ns - (roundingRun.now 2).ns) := by
  have hfour : factor sheddingRun.halfLife ((sheddingRun.now 6).ns - (sheddingRun.now 2).ns) =
      (1 / 2) ^ (4 : Nat) := by
    have hh : sheddingRun.halfLife = 5000000000 := rfl
    have h₆ : (sheddingRun.now 6).ns = 31000000000 := rfl
    have h₂ : (sheddingRun.now 2).ns = 11000000000 := rfl
    rw [hh, h₆, h₂, factor, if_neg (by norm_num), half, ← Real.rpow_natCast]
    norm_num
  have hone : factor roundingRun.halfLife ((roundingRun.now 4).ns - (roundingRun.now 2).ns) =
      (1 / 2) ^ (1 : Nat) := by
    have hh : roundingRun.halfLife = 2000000000 := rfl
    have h₄ : (roundingRun.now 4).ns = 5000000000 := rfl
    have h₂ : (roundingRun.now 2).ns = 3000000000 := rfl
    rw [hh, h₄, h₂, factor, if_neg (by norm_num), half, ← Real.rpow_natCast]
    norm_num
  rw [hfour, hone]
  refine ⟨⟨?_, ?_, ?_, ?_⟩, ?_, ?_, ?_, ?_⟩
  · decide +kernel
  · decide +kernel
  · decide
  · norm_num
  · decide +kernel
  · decide +kernel
  · decide
  · norm_num

end Sample

end Kreg
