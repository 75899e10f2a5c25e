import Kreg.Gauge

namespace Kreg
open Float64 HalfLife
set_option autoImplicit true

section Gauges

variable {g : Gauge} {dc : DampeningConfig} {last now : Time}

theorem Gauge.step_penalty (g : Gauge) (dc : DampeningConfig) (last now : Time) :
    (g.step dc last now).penalty.toInt = 0 ∨
      (g.step dc last now).penalty.toInt = nearest (g.score dc last now) := by
  rw [← Gauge.clampToInt32_score]
  cases hu : g.since with
  | none =>
    simp only [Gauge.step, hu]
    split
    · exact .inr rfl
    · exact .inr rfl
  | some u =>
    simp only [Gauge.step, hu]
    split
    · exact .inl rfl
    · split
      · exact .inr rfl
      · exact .inr rfl

theorem Gauge.step_released (hr : g.score dc last now < (reuseThresholdOf dc).toInt)
    (hs : g.score dc last now < (suppressThresholdOf dc).toInt) :
    (g.step dc last now).since = none := by
  cases hu : g.since with
  | none => rw [Gauge.step_calm hu hs]
  | some u =>
    rcases lt_or_ge (now.sub u).ns (maxSuppressOf dc).ns with hc | hc
    · rw [Gauge.step_reused hu hc hr]
    · rw [Gauge.step_capped hu hc]

theorem Gauge.step_trails {a t : ℝ} (ha : 0 ≤ a) (ht : 0 ≤ t)
    (hg : Trails (halfLifeOf (some dc)).ns a g.penalty.toInt t) (hlast : last.ns ≤ now.truncate.ns)
    (hspan : now.ns - last.ns ≤ maxDuration)
    (hfair : RoundsFairly g.penalty.toInt (fading (halfLifeOf (some dc)) (now.sub last))) :
    Trails (halfLifeOf (some dc)).ns a (g.step dc last now).penalty.toInt
      (t + (now.truncate.ns - last.ns)) := by
  have hle := Time.truncate_le now
  have hpos : (0 : ℝ) ≤ now.truncate.ns - last.ns := sub_nonneg.2 (Int.cast_le.2 hlast)
  have hshort : (now.truncate.ns : ℝ) - last.ns ≤ now.ns - last.ns :=
    sub_le_sub_right (Int.cast_le.2 hle) _
  have hfading := fading_sub (halfLifeOf (some dc)) (hlast.trans hle) hspan
  rcases g.step_penalty dc last now with hzero | hnearest
  · rw [hzero]
    exact Trails.zero ha (add_nonneg ht hpos)
  · rw [hnearest, Gauge.score, hfading]
    rw [hfading] at hfair
    exact hg.step hpos hshort hfair

theorem Gauge.score_le {a t : ℝ} (hg : Trails (halfLifeOf (some dc)).ns a g.penalty.toInt t)
    (hlast : last.ns ≤ now.ns) (hspan : now.ns - last.ns ≤ maxDuration) :
    g.score dc last now ≤
      (a - 1) * factor (halfLifeOf (some dc)).ns (t + (now.ns - last.ns)) + 1 := by
  have hpos : (0 : ℝ) ≤ now.ns - last.ns := sub_nonneg.2 (Int.cast_le.2 hlast)
  rw [Gauge.score, fading_sub _ hlast hspan]
  exact hg.left_le hpos (le_refl _)

end Gauges

namespace Run

def SuppressedAt (r : Run ℝ) (k : String) (n : Nat) (penalty : Int32) : Prop :=
  ∃ c ∈ r.emitted n, c.name = k ∧
    ∃ d, c.damping = some d ∧ d.state = .dampened ∧ (stabilityStatus d).dampeningPenalty = penalty

variable {r : Run ℝ} {k : String} {dc : DampeningConfig} {p : Int32}

theorem SuppressedAt.reads (h : r.SuppressedAt k n p) (hh : r.here k n = true) :
    ∃ g, r.Reads k n g ∧ g.penalty = p := by
  obtain ⟨c, hc, hk, d, hd, hs, hp⟩ := h
  obtain ⟨g, ⟨d', hv', hshow⟩, _⟩ := EmitsIn.reads ⟨c, hc, hk, d, hd, hs⟩ hh
  have hv := Run.verdict_of_emitted hc hd
  rw [hk, hv'] at hv
  cases hv
  exact ⟨g, ⟨_, hv', hshow⟩, hshow.penalty.symm.trans hp⟩

theorem Reads.suppressedAt (h : r.Reads k n g) (hs : g.since.isSome = true) :
    r.SuppressedAt k n g.penalty := by
  obtain ⟨d, hv, hd⟩ := h
  obtain ⟨c, hc, hk, _, hdamping⟩ := Run.emitted_of_verdict hv
  exact ⟨c, hc, hk, d, hdamping, hd.state.trans (if_pos hs), hd.penalty⟩

section Release

variable (hr : r.Orderly) (hc : r.cfg.dampening = some dc) (he : dc.enabled = true)
  (h : r.SuppressedAt k i p) (hp : 0 ≤ p.toInt)
  (hh : ∀ n, i ≤ n → n ≤ j → r.here k n = true)
  (hspan : ∀ n, i ≤ n → n < j → (r.now (n + 1)).ns - (r.now n).truncate.ns ≤ maxDuration)
  (hfair : ∀ n, i < n → n < j → ∀ q ∈ r.memory k n,
    RoundsFairly q.score (fading (halfLifeOf (some dc)) ((r.now n).sub q.lastObservedAt)))
include hr hc he h hp hh hspan hfair

theorem reads_trails (hin : i ≤ n) (hnj : n < j) :
    ∃ g, r.Reads k n g ∧ Trails (halfLifeOf (some dc)).ns p.toInt g.penalty.toInt
      ((r.now n).truncate.ns - (r.now i).truncate.ns) := by
  induction n, hin using Nat.le_induction with
  | base =>
    obtain ⟨g, hg, rfl⟩ := h.reads (hh i (le_refl i) hnj.le)
    rw [sub_self]
    exact ⟨g, hg, Trails.refl _ hp⟩
  | succ n hin ih =>
    obtain ⟨g, hg, htrails⟩ := ih (Nat.lt_of_succ_lt hnj)
    have hhere := hh (n + 1) (Nat.le_succ_of_le hin) hnj.le
    obtain ⟨q, hm, hq, hlast⟩ := hg.memory hr hc he
    have hround := hfair (n + 1) (Nat.lt_succ_of_le hin) hnj q hm
    rw [hq.penalty, hlast] at hround
    have htime : (0 : ℝ) ≤ (r.now n).truncate.ns - (r.now i).truncate.ns :=
      sub_nonneg.2 (Int.cast_le.2 (Time.truncate_mono (hr.now_le hin)))
    have hstep := Gauge.step_trails (Int.cast_nonneg hp) htime htrails
      (Time.truncate_mono (hr.ordered n)) (hspan n hin (Nat.lt_of_succ_lt hnj)) hround
    rw [sub_add_sub_cancel'] at hstep
    exact ⟨_, hg.succ hr hc he hhere, hstep⟩

/-- A score that should be below the reuse threshold, with one point to spare, is released. -/
theorem released (hle : (reuseThresholdOf dc).toInt ≤ (suppressThresholdOf dc).toInt) (hij : i < j)
    (hx : p.toInt * factor (halfLifeOf (some dc)).ns ((r.now j).ns - (r.now i).ns) + 1 ≤
      (reuseThresholdOf dc).toInt) : ¬ r.EmitsIn k j .dampened := by
  obtain ⟨m, rfl⟩ := Nat.exists_eq_add_of_lt hij
  have him : i ≤ i + m := Nat.le_add_right i m
  obtain ⟨g, hg, htrails⟩ := reads_trails hr hc he h hp hh hspan hfair him (Nat.lt_succ_self _)
  have hlast : (r.now (i + m)).truncate.ns ≤ (r.now (i + m + 1)).ns :=
    (Time.truncate_le _).trans (hr.ordered _)
  have hscore := Gauge.score_le htrails hlast (hspan (i + m) him (Nat.lt_succ_self _))
  have hbelow := sub_one_mul_factor_lt (halfLifeOf (some dc)).ns (Int.cast_nonneg hp)
    (sub_le_sub_left (Int.cast_le.2 (Time.truncate_le (r.now i))) ((r.now (i + m + 1)).ns : ℝ))
  rw [sub_add_sub_cancel'] at hscore
  have hreuse : g.score dc (r.now (i + m)).truncate (r.now (i + m + 1)) <
      (reuseThresholdOf dc).toInt := by linarith
  have hread := hg.succ hr hc he (hh (i + m + 1) (Nat.le_succ_of_le him) (le_refl _))
  rw [hread.emitsIn_iff, Gauge.state,
    Gauge.step_released hreuse (hreuse.trans_le (Int.cast_le.2 hle))]
  intro hs
  cases hs

end Release

end Run

section Sample

def fiveSeconds : DampeningConfig :=
  ⟨true, some (.seconds 5), some 1000, some 300, none⟩

/-- A backend that is suppressed with the penalty of one flap, and a tick every half-life. -/
def halvingRun : Run ℝ :=
  edgeRun (dampeningOnly fiveSeconds) 1 ⟨some ⟨second⟩, 1000⟩ fun n => clock (n * 5)

theorem halvingRun_orderly : halvingRun.Orderly :=
  edgeRun_paced (fun _ hu => (Option.some.inj hu).symm) 5

theorem halvingRun_reads : halvingRun.Reads "10-0-0-0-24-edge" 0 ⟨some ⟨second⟩, 1000⟩ := by
  have hread := edgeRun_reads rfl halvingRun_orderly
  have hle : (clock (0 * 5)).ns ≤ (⟨second⟩ : Time).ns := by decide
  have hreuse : ((reuseThresholdOf fiveSeconds).toInt : ℝ) ≤
      (⟨some ⟨second⟩, 1000⟩ : Gauge).score fiveSeconds ⟨second⟩ (clock (0 * 5)) := by
    rw [Gauge.score_of_le _ _ hle]
    exact Int.cast_le.2 (by decide)
  rw [Gauge.step_kept rfl (by decide) hreuse, Gauge.clampToInt32_of_le _ _ hle] at hread
  exact hread

theorem Run.released_halving : ¬ halvingRun.EmitsIn "10-0-0-0-24-edge" 2 .dampened := by
  apply released (j := 2) halvingRun_orderly rfl rfl (halvingRun_reads.suppressedAt rfl) (by decide)
    (fun n _ _ => edgeRun_here n)
  · intro n _ _
    change (clock ((n + 1) * 5)).ns - (clock (n * 5)).truncate.ns ≤ maxDuration
    rw [(clock_whole _).truncate_eq]
    simp only [clock, second, maxDuration]
    omega
  · intro n h h' q hq
    obtain rfl : n = 1 := by omega
    obtain ⟨q', hm, _, hlast⟩ := halvingRun_reads.memory halvingRun_orderly rfl rfl
    cases hm.symm.trans hq
    rw [hlast]
    exact roundsFairly_of_le_half (fading_self (by decide) (clock_sub 0 (by decide))).le
  · decide
  · decide
  · have hdiff : (halvingRun.now 2).ns - (halvingRun.now 0).ns =
        (halfLifeOf (some fiveSeconds)).ns + (halfLifeOf (some fiveSeconds)).ns := rfl
    rw [← Int.cast_sub, hdiff, Int.cast_add, factor_add, factor_self (Int.cast_pos.2 (by decide)),
      half]
    change ((1000 : ℤ) : ℝ) * _ + 1 ≤ ((300 : ℤ) : ℝ)
    norm_num

/-- A half-life of an hour, and a tick every second. -/
def hourly : DampeningConfig :=
  ⟨true, some (.seconds 3600), some 1000, some 750, some (.seconds 7200)⟩

def stuckRun : Run ℝ :=
  edgeRun (dampeningOnly hourly) 1 ⟨some ⟨second⟩, 1000⟩ fun n => clock (n * 1)

theorem hourly_step (hle : (now.sub last).ns ≤ (Duration.seconds 1).ns)
    (hcap : (now.sub ⟨second⟩).ns < (maxSuppressOf hourly).ns) :
    (⟨some ⟨second⟩, 1000⟩ : Gauge).step hourly last now = ⟨some ⟨second⟩, 1000⟩ := by
  have hfading : 1 - 1 / 3600 ≤ fading (halfLifeOf (some hourly)) (now.sub last) := by
    have hone := one_sub_le_factor (by norm_num : (0 : ℝ) < (3600000000000 : ℤ))
      (by norm_num : (0 : ℝ) ≤ (1000000000 : ℤ))
    have hanti := fading_antitone (halfLifeOf (some hourly)) hle
    rw [fading_of_nonneg (by decide)] at hanti
    refine le_trans ?_ (hone.trans hanti)
    norm_num
  have hclamp : clampToInt32 ((⟨some ⟨second⟩, 1000⟩ : Gauge).score hourly last now) = 1000 := by
    apply Int32.toInt_inj.1
    rw [Gauge.clampToInt32_score]
    apply nearest_mul_eq (by decide) (fading_le_one _ _)
    change ((1000 : ℤ) : ℝ) - half < ((1000 : ℤ) : ℝ) * _
    rw [half]
    push_cast
    linarith
  have hreuse : ((reuseThresholdOf hourly).toInt : ℝ) ≤
      (⟨some ⟨second⟩, 1000⟩ : Gauge).score hourly last now := by
    change ((750 : ℤ) : ℝ) ≤ ((1000 : ℤ) : ℝ) * _
    push_cast
    linarith
  rw [Gauge.step_kept rfl hcap hreuse, hclamp]

theorem stuckRun_orderly : stuckRun.Orderly :=
  edgeRun_paced (fun _ hu => (Option.some.inj hu).symm) 1

theorem stuckRun_reads (hn : n < 7200) :
    stuckRun.Reads "10-0-0-0-24-edge" n ⟨some ⟨second⟩, 1000⟩ := by
  induction n with
  | zero =>
    have hread := edgeRun_reads rfl stuckRun_orderly
    rw [hourly_step (by decide) (by decide)] at hread
    exact hread
  | succ n ih =>
    have hread := edgeRun_reads_succ rfl stuckRun_orderly (ih (Nat.lt_of_succ_lt hn))
    have hcap : ((clock ((n + 1) * 1)).sub ⟨second⟩).ns < (maxSuppressOf hourly).ns := by
      have hle : (⟨second⟩ : Time).ns ≤ (clock ((n + 1) * 1)).ns := by
        simp only [clock, second]
        omega
      rw [Time.sub_lt_iff hle]
      change (((n + 1) * 1 : Nat) + 1) * second - second < 7200 * second
      simp only [second]
      omega
    rw [hourly_step (clock_sub n (by decide)).le hcap] at hread
    exact hread

/-- After an hour the score should be 500, and the backend long active. -/
theorem stuckRun_dampened :
    stuckRun.Orderly ∧ (∀ n, stuckRun.here "10-0-0-0-24-edge" n = true) ∧
      stuckRun.SuppressedAt "10-0-0-0-24-edge" 0 1000 ∧
      (1000 : ℝ) * factor (halfLifeOf (some hourly)).ns
          ((stuckRun.now 3600).ns - (stuckRun.now 0).ns) + 1 ≤ (reuseThresholdOf hourly).toInt ∧
      stuckRun.EmitsIn "10-0-0-0-24-edge" 3600 .dampened := by
  have hhour : factor (halfLifeOf (some hourly)).ns
      ((stuckRun.now 3600).ns - (stuckRun.now 0).ns) = half := by
    have hdiff : (stuckRun.now 3600).ns - (stuckRun.now 0).ns = (halfLifeOf (some hourly)).ns := by
      rfl
    rw [← Int.cast_sub, hdiff]
    exact factor_self (Int.cast_pos.2 (by decide))
  refine ⟨stuckRun_orderly, edgeRun_here, (stuckRun_reads (by decide)).suppressedAt rfl, ?_, ?_⟩
  · rw [hhour, half]
    change _ ≤ ((750 : ℤ) : ℝ)
    norm_num
  · exact (stuckRun_reads (by decide)).emitsIn_iff.2 rfl

end Sample

end Kreg
