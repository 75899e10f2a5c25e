import Kreg.Gauge

namespace Kreg
open Float64 HalfLife
set_option autoImplicit true

section Counts

variable {F : Type} [Float64 F]

theorem Transition.flapCount {d : DampingInfo F} (h : Transition now cfg prev here d)
    (hflap : here = true → ∀ p ∈ prev, p.withdrawnAt = none) :
    d.flapCount24h = 0 ∨ ∃ p ∈ prev,
      d.flapCount24h = decayFlapCount F p.flapCount24h (now.sub p.lastObservedAt) := by
  cases h with
  | fresh => exact .inl (newCandidateDamping_blank _ _).count
  | settling => exact .inl rfl
  | @observed p =>
    have hcount := observe_count now p cfg.dampening
    rw [hflap rfl p rfl] at hcount
    exact .inr ⟨p, rfl, hcount⟩
  | @held p => exact .inr ⟨p, rfl, rfl⟩

/-- The tick counts a flap: the backend is here, and its record was withdrawn. -/
def Run.Flaps (r : Run F) (k : String) (n : Nat) : Prop :=
  r.here k n = true ∧ ∃ p ∈ r.memory k n, p.withdrawnAt.isSome = true

theorem Run.verdict_flapCount {r : Run F} (hv : r.verdict k n = some d) (hflap : ¬ r.Flaps k n) :
    d.flapCount24h = 0 ∨ ∃ p ∈ r.memory k n,
      d.flapCount24h = decayFlapCount F p.flapCount24h ((r.now n).sub p.lastObservedAt) := by
  apply (r.transition hv).flapCount
  intro hh p hp
  rw [← Option.not_isSome_iff_eq_none]
  exact fun hw => hflap ⟨hh, p, hp, hw⟩

end Counts

theorem flapCountHalfLife_pos : (0 : ℝ) < flapCountHalfLife.ns :=
  Int.cast_pos.2 (by decide)

theorem decayFlapCount_nonneg {n : Int32} (hn : 0 ≤ n.toInt) (elapsed : Duration) :
    0 ≤ (decayFlapCount ℝ n elapsed).toInt := by
  have hmul : 0 ≤ n.toInt * fading flapCountHalfLife elapsed :=
    mul_nonneg (Int.cast_nonneg hn) (fading_pos _ _).le
  have hhalf := half_pos
  rw [decayFlapCount_real]
  apply le_nearest
  rw [Int.cast_zero]
  linarith

section Decay

variable {n : Int32} {now last : Time} (hn : 0 ≤ n.toInt) (hle : last.ns ≤ now.ns)
include hn hle

theorem decayFlapCount_old (hold : maxDuration < now.ns - last.ns) :
    (decayFlapCount ℝ n (now.sub last)).toInt = 0 := by
  have hsub : (now.sub last).ns = maxDuration := by
    simp only [Time.sub, Duration.saturate, minDuration, maxDuration] at hold ⊢
    omega
  have hdays : ((33 : ℕ) : ℝ) * flapCountHalfLife.ns ≤ (now.sub last).ns := by
    rw [hsub]
    exact_mod_cast (by decide : (33 : Int) * flapCountHalfLife.ns ≤ maxDuration)
  have hfading : fading flapCountHalfLife (now.sub last) ≤ half ^ 33 := by
    rw [fading_of_nonneg (Time.sub_nonneg hle), ← Real.rpow_natCast]
    exact factor_le_half_rpow flapCountHalfLife_pos hdays
  have hmax : (n.toInt : ℝ) ≤ (2147483647 : ℤ) := Int.cast_le.2 n.toInt_le
  have hmul := mul_le_mul hmax hfading (fading_pos _ _).le (by norm_num)
  apply le_antisymm _ (decayFlapCount_nonneg hn _)
  rw [decayFlapCount_real]
  apply nearest_le
  rw [half] at hmul ⊢
  norm_num at hmul ⊢
  linarith

/-- One tick of a count that keeps up with its decay, as of any time since the last one. -/
theorem decayFlapCount_trails {a t : ℝ} {mid : Int} (ha : 0 ≤ a) (ht : 0 ≤ t)
    (hc : Trails flapCountHalfLife.ns a n.toInt t) (hlast : last.ns ≤ mid) (hmid : mid ≤ now.ns)
    (hfair : RoundsFairly n.toInt (fading flapCountHalfLife (now.sub last))) :
    Trails flapCountHalfLife.ns a (decayFlapCount ℝ n (now.sub last)).toInt
      (t + (mid - last.ns)) := by
  have hpos : (0 : ℝ) ≤ mid - last.ns := sub_nonneg.2 (Int.cast_le.2 hlast)
  rcases le_or_gt (now.ns - last.ns) maxDuration with hspan | hold
  · have hshort : (mid : ℝ) - last.ns ≤ now.ns - last.ns :=
      sub_le_sub_right (Int.cast_le.2 hmid) _
    rw [decayFlapCount_real, fading_sub _ hle hspan]
    rw [fading_sub _ hle hspan] at hfair
    exact hc.step hpos hshort hfair
  · rw [decayFlapCount_old hn hle hold]
    exact Trails.zero ha (add_nonneg ht hpos)

end Decay

namespace Run

variable {r : Run ℝ} {k : String} {p : DampingInfo ℝ}

structure Follows (p q : DampingInfo ℝ) : Prop where
  observed : p.lastObservedAt.ns ≤ q.lastObservedAt.ns
  count : Trails flapCountHalfLife.ns p.flapCount24h.toInt q.flapCount24h.toInt
    (q.lastObservedAt.ns - p.lastObservedAt.ns)

theorem verdict_trails (hr : r.Orderly) (hp : 0 ≤ p.flapCount24h.toInt)
    (hq : ∀ q ∈ r.memory k n, Follows p q ∧
      RoundsFairly q.flapCount24h.toInt
        (fading flapCountHalfLife ((r.now n).sub q.lastObservedAt)))
    (hflap : ¬ r.Flaps k n) (hv : r.verdict k n = some d) {mid : Int}
    (hmid : (r.now n).truncate.ns ≤ mid) (hmid' : mid ≤ (r.now n).ns)
    (hlast : p.lastObservedAt.ns ≤ mid) :
    Trails flapCountHalfLife.ns p.flapCount24h.toInt d.flapCount24h.toInt
      (mid - p.lastObservedAt.ns) := by
  rcases Run.verdict_flapCount hv hflap with hzero | ⟨q, hm, hcount⟩
  · rw [hzero]
    exact Trails.zero (Int.cast_nonneg hp) (sub_nonneg.2 (Int.cast_le.2 hlast))
  · obtain ⟨hfollows, hfair⟩ := hq q hm
    have hfiled := hr.memory_filed n q hm
    have hbefore : q.lastObservedAt.ns ≤ mid := by
      rw [← hfiled.whole.truncate_eq]
      exact (Time.truncate_mono hfiled.observed).trans hmid
    have hstep := decayFlapCount_trails hfollows.count.nonneg hfiled.observed
      (Int.cast_nonneg hp) (sub_nonneg.2 (Int.cast_le.2 hfollows.observed)) hfollows.count hbefore
      hmid' hfair
    rw [sub_add_sub_cancel'] at hstep
    rw [hcount]
    exact hstep

section Fades

variable (hr : r.Orderly) (hm : r.memory k i = some p) (hp : 0 ≤ p.flapCount24h.toInt)
  (hflap : ∀ n, i ≤ n → n ≤ j → ¬ r.Flaps k n)
  (hfair : ∀ n, i ≤ n → n ≤ j → ∀ q ∈ r.memory k n, RoundsFairly q.flapCount24h.toInt
    (fading flapCountHalfLife ((r.now n).sub q.lastObservedAt)))
include hr hm hp hflap hfair

theorem memory_follows (hin : i ≤ n) (hnj : n ≤ j) : ∀ q ∈ r.memory k n, Follows p q := by
  have hfirst := hr.memory_filed i p hm
  induction n, hin using Nat.le_induction with
  | base =>
    intro q hq
    cases hm.symm.trans hq
    refine ⟨le_refl _, ?_⟩
    rw [sub_self]
    exact Trails.refl _ hp
  | succ n hin ih =>
    intro q hq
    have hn : n ≤ j := Nat.le_of_succ_le hnj
    have hlast := hr.memory_succ_last hq
    have hle : p.lastObservedAt.ns ≤ (r.now n).truncate.ns := by
      rw [← hfirst.whole.truncate_eq]
      exact Time.truncate_mono (hfirst.observed.trans (hr.now_le hin))
    obtain ⟨d, hv, hk⟩ := Run.memory_succ_eq_some hq
    have htrails := verdict_trails hr hp
      (fun q hq => ⟨ih hn q hq, hfair n hin hn q hq⟩) (hflap n hin hn) hv (le_refl _)
      (Time.truncate_le _) hle
    obtain rfl := DampingInfo.eq_restored_of_kept hk
    rw [← hlast] at hle htrails
    exact ⟨hle, htrails⟩

/-- After `K` days the count is down to its `K`-th half, give or take one. -/
theorem flapCount_fades {K : ℝ} (hij : i ≤ j)
    (hK : K * flapCountHalfLife.ns ≤ (r.now j).ns - p.lastObservedAt.ns) (hc : c ∈ r.emitted j)
    (hk : c.name = k) (hd : c.damping = some d) :
    (d.flapCount24h.toInt : ℝ) ≤ p.flapCount24h.toInt / 2 ^ K + 1 := by
  have hfirst := hr.memory_filed i p hm
  have hv : r.verdict k j = some d := hk ▸ Run.verdict_of_emitted hc hd
  have hfollows := memory_follows hr hm hp hflap hfair hij (le_refl j)
  have htrails := verdict_trails hr hp (fun q hq => ⟨hfollows q hq, hfair j hij (le_refl j) q hq⟩)
    (hflap j hij (le_refl j)) hv (Time.truncate_le _) (le_refl _)
    (hfirst.observed.trans (hr.now_le hij))
  have hn : (0 : ℝ) ≤ p.flapCount24h.toInt := Int.cast_nonneg hp
  calc (d.flapCount24h.toInt : ℝ)
      ≤ (p.flapCount24h.toInt - 1) *
          factor flapCountHalfLife.ns ((r.now j).ns - p.lastObservedAt.ns) + 1 := htrails.le
    _ ≤ p.flapCount24h.toInt *
          factor flapCountHalfLife.ns ((r.now j).ns - p.lastObservedAt.ns) + 1 :=
        add_le_add_left (sub_one_mul_factor_lt _ hn (le_refl _)).le 1
    _ ≤ p.flapCount24h.toInt * half ^ K + 1 :=
        add_le_add_left (mul_le_mul_of_nonneg_left
          (factor_le_half_rpow flapCountHalfLife_pos hK) hn) 1
    _ = p.flapCount24h.toInt / 2 ^ K + 1 := by
        rw [half, one_div, Real.inv_rpow zero_le_two, div_eq_mul_inv]

end Fades

end Run

section Sample

def defaultDampening : DampeningConfig := ⟨true, none, none, none, none⟩

/-- A backend that is there at every tick, an interval of `period` seconds apart, with `count`
flaps on record. -/
def countRun (count : Int32) (period : Nat) : Run ℝ :=
  edgeRun (dampeningOnly defaultDampening) count ⟨none, 0⟩ fun n => clock (n * period)

theorem countRun_orderly (count : Int32) (period : Nat) : (countRun count period).Orderly :=
  edgeRun_paced forall_mem_none period

theorem countRun_here (count : Int32) (period n : Nat) :
    (countRun count period).here "10-0-0-0-24-edge" n = true :=
  edgeRun_here n

theorem countRun_memory (count : Int32) (period : Nat) :
    ∃ p, (countRun count period).memory "10-0-0-0-24-edge" 0 = some p ∧ p.Carries ⟨none, 0⟩ ∧
      p.flapCount24h = count ∧ p.lastObservedAt = ⟨second⟩ := by
  have hn : needsPriorState (dampeningOnly defaultDampening) = true := rfl
  exact edgeRun_memory hn count ⟨none, 0⟩ fun n => clock (n * period)

theorem countRun_not_flaps (count : Int32) (period n : Nat) :
    ¬ (countRun count period).Flaps "10-0-0-0-24-edge" n := by
  rintro ⟨_, p, hp, hw⟩
  cases n with
  | zero =>
    obtain ⟨p', hm, hcarries, _⟩ := countRun_memory count period
    cases hm.symm.trans hp
    rw [hcarries.withdrawn] at hw
    cases hw
  | succ n =>
    obtain ⟨d, hv, hk⟩ := Run.memory_succ_eq_some hp
    have ht := (countRun count period).transition hv
    rw [countRun_here] at ht
    have hnone := ht.withdrawnAt_present
    rw [DampingInfo.kept_withdrawnAt hk (hnone ▸ forall_mem_none), hnone] at hw
    cases hw

theorem countRun_daily (n : Nat) : ∀ q ∈ (countRun 10 86400).memory "10-0-0-0-24-edge" n,
    RoundsFairly q.flapCount24h.toInt
      (fading flapCountHalfLife (((countRun 10 86400).now n).sub q.lastObservedAt)) := by
  intro q hq
  cases n with
  | zero =>
    obtain ⟨p, hm, _, _, hlast⟩ := countRun_memory 10 86400
    cases hm.symm.trans hq
    have hone : fading flapCountHalfLife
        (((countRun 10 86400).now 0).sub q.lastObservedAt) = 1 := by
      rw [hlast]
      exact fading_of_nonpos (by decide)
    rw [hone, RoundsFairly, mul_one, Int.fract_intCast]
    exact .inl half_pos
  | succ n =>
    rw [(countRun_orderly 10 86400).memory_succ_last hq]
    exact roundsFairly_of_le_half (fading_self (by decide) (clock_sub n (by decide))).le

theorem Run.flapCount_fades_daily :
    ∃ c ∈ (countRun 10 86400).emitted 2, ∃ d, c.damping = some d ∧
      (d.flapCount24h.toInt : ℝ) ≤ (10 : Int32).toInt / 2 ^ (2 : ℝ) + 1 := by
  obtain ⟨p, hm, _, hcount, hlast⟩ := countRun_memory 10 86400
  obtain ⟨d, hv⟩ : ∃ d, (countRun 10 86400).verdict "10-0-0-0-24-edge" 2 = some d := by
    rw [Run.verdict, countRun_here]
    exact verdict_present _ _ _
  obtain ⟨c, hc, hk, _, hd⟩ := Run.emitted_of_verdict hv
  have hdays : (2 : ℝ) * flapCountHalfLife.ns ≤
      ((countRun 10 86400).now 2).ns - p.lastObservedAt.ns := by
    rw [hlast]
    exact_mod_cast (by decide : (2 : Int) * flapCountHalfLife.ns ≤ (clock (2 * 86400)).ns - second)
  refine ⟨c, hc, d, hd, ?_⟩
  rw [← hcount]
  exact Run.flapCount_fades (countRun_orderly 10 86400) hm (hcount ▸ by decide)
    (fun n _ _ => countRun_not_flaps 10 86400 n) (fun n _ _ => countRun_daily n) (Nat.zero_le 2)
    hdays hc hk hd

theorem decayFlapCount_hour (h : elapsed.ns ≤ (Duration.seconds 3600).ns) :
    decayFlapCount ℝ 2 elapsed = 2 := by
  have hfading : 1 - 1 / 24 ≤ fading flapCountHalfLife elapsed := by
    have hone := one_sub_le_factor flapCountHalfLife_pos
      (by norm_num : (0 : ℝ) ≤ (3600000000000 : ℤ))
    have hanti := fading_antitone flapCountHalfLife h
    rw [fading_of_nonneg (by decide)] at hanti
    refine le_trans ?_ (hone.trans hanti)
    change _ ≤ 1 - ((3600000000000 : ℤ) : ℝ) / (86400000000000 : ℤ)
    norm_num
  apply Int32.toInt_inj.1
  rw [decayFlapCount_real]
  apply nearest_mul_eq (by decide) (fading_le_one _ _)
  change ((2 : ℤ) : ℝ) - half < ((2 : ℤ) : ℝ) * _
  rw [half]
  push_cast
  linarith

theorem countRun_observe (hp : p.Carries g) (hcount : p.flapCount24h = 2)
    (h : (now.sub p.lastObservedAt).ns ≤ (Duration.seconds 3600).ns)
    (dampening : Option DampeningConfig) : (observe now p dampening).flapCount24h = 2 := by
  have haccrued := observe_count now p dampening
  rw [hp.withdrawn, hcount] at haccrued
  exact haccrued.trans (decayFlapCount_hour h)

theorem countRun_hourly (n : Nat) :
    ∃ p g, (countRun 2 3600).memory "10-0-0-0-24-edge" n = some p ∧ p.Carries g ∧
      p.flapCount24h = 2 ∧
      (((countRun 2 3600).now n).sub p.lastObservedAt).ns ≤ (Duration.seconds 3600).ns := by
  have hr := countRun_orderly 2 3600
  induction n with
  | zero =>
    obtain ⟨p, hm, hp, hcount, hlast⟩ := countRun_memory 2 3600
    refine ⟨p, _, hm, hp, hcount, ?_⟩
    rw [hlast]
    decide
  | succ n ih =>
    obtain ⟨p, g, hm, hp, hcount, hle⟩ := ih
    have hread := Run.reads_of_memory hr rfl rfl (countRun_here 2 3600 n) hm hp
    obtain ⟨p', hm', hp', hlast⟩ := hread.memory hr rfl rfl
    have hsucc := hr.memory_succ rfl "10-0-0-0-24-edge" n
    rw [Run.verdict_of_carries (countRun_here 2 3600 n) hm hp, hm'] at hsucc
    cases hsucc
    refine ⟨_, _, hm', hp', countRun_observe hp hcount hle (some defaultDampening), ?_⟩
    rw [hlast]
    exact (clock_sub n (by decide)).le

/-- Two flaps are still two after two days. -/
theorem countRun_stuck :
    (countRun 2 3600).Orderly ∧ (∀ n, ¬ (countRun 2 3600).Flaps "10-0-0-0-24-edge" n) ∧
      ∃ p, (countRun 2 3600).memory "10-0-0-0-24-edge" 0 = some p ∧ p.flapCount24h = 2 ∧
        (2 : ℝ) * flapCountHalfLife.ns ≤ ((countRun 2 3600).now 48).ns - p.lastObservedAt.ns ∧
        ∃ c ∈ (countRun 2 3600).emitted 48, c.name = "10-0-0-0-24-edge" ∧
          ∃ d, c.damping = some d ∧
            ¬ (d.flapCount24h.toInt : ℝ) ≤ p.flapCount24h.toInt / 2 ^ (2 : ℝ) + 1 := by
  obtain ⟨p, hm, _, hcount, hlast⟩ := countRun_memory 2 3600
  obtain ⟨q, g, hq, hcarries, hcount', hle⟩ := countRun_hourly 48
  have hv := Run.verdict_of_carries (countRun_here 2 3600 48) hq hcarries
  obtain ⟨c, hc, hk, _, hd⟩ := Run.emitted_of_verdict hv
  refine ⟨countRun_orderly 2 3600, countRun_not_flaps 2 3600, p, hm, hcount, ?_, c, hc, hk, _, hd,
    ?_⟩
  · rw [hlast]
    exact_mod_cast (by decide : (2 : Int) * flapCountHalfLife.ns ≤ (clock (48 * 3600)).ns - second)
  · rw [countRun_observe hcarries hcount' hle, hcount]
    change ¬ ((2 : ℤ) : ℝ) ≤ ((2 : ℤ) : ℝ) / 2 ^ (2 : ℝ) + 1
    norm_num

end Sample

end Kreg
