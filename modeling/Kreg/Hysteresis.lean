import Kreg.Gauge

namespace Kreg
open Float64 HalfLife
set_option autoImplicit true

/-- A score below the suppress threshold that is stored as the threshold. -/
def DampeningConfig.RoundsUp (dc : DampeningConfig) (x : ℝ) : Prop :=
  (suppressThresholdOf dc).toInt - half ≤ x ∧ x < (suppressThresholdOf dc).toInt

/-- Where both thresholds are the same: no penalty that falls below them is stored as the
threshold at a whole second, which is where the next tick can find it undecayed. -/
def DampeningConfig.RoundsClear (dc : DampeningConfig) : Prop :=
  ∀ (p : Int32) (elapsed : Duration), elapsed.ns < (maxSuppressOf dc).ns →
    dc.RoundsUp (p.toInt * fading (halfLifeOf (some dc)) elapsed) →
      ¬ second ∣ elapsed.ns ∧
        (suppressThresholdOf dc).toInt * fading (halfLifeOf (some dc)) (.seconds 1) <
          (suppressThresholdOf dc).toInt - half

def DampeningConfig.Steady (dc : DampeningConfig) : Prop :=
  dc.enabled = true → 0 < (suppressThresholdOf dc).toInt ∧
    ((maxSuppressOf dc).ns ≤ 0 ∨
      (reuseThresholdOf dc).toInt < (suppressThresholdOf dc).toInt ∨
      (reuseThresholdOf dc).toInt = (suppressThresholdOf dc).toInt ∧ dc.RoundsClear)

section Gauges

variable {g : Gauge} {dc : DampeningConfig} {now now' : Time}

/-- Out of suppression, and too low to go back: below the suppress threshold, or stored as the
threshold within a second, the rest of which will take it well below. -/
structure Gauge.Freed (g : Gauge) (dc : DampeningConfig) (now : Time) : Prop where
  since : g.since = none
  low : g.penalty.toInt < (suppressThresholdOf dc).toInt ∨
    g.penalty.toInt ≤ (suppressThresholdOf dc).toInt ∧ ¬ second ∣ now.ns ∧
      (suppressThresholdOf dc).toInt * fading (halfLifeOf (some dc)) (.seconds 1) <
        (suppressThresholdOf dc).toInt - half

theorem Gauge.freed_of_lt (h : g.penalty.toInt < (suppressThresholdOf dc).toInt)
    (hs : g.since = none) : g.Freed dc now :=
  ⟨hs, .inl h⟩

theorem Gauge.score_lt_of_within (h₀ : 0 < (suppressThresholdOf dc).toInt)
    (hp : g.penalty.toInt ≤ (suppressThresholdOf dc).toInt) (hn : ¬ second ∣ now.ns)
    (hf : (suppressThresholdOf dc).toInt * fading (halfLifeOf (some dc)) (.seconds 1) <
      (suppressThresholdOf dc).toInt - half) (hle : now.ns ≤ now'.ns) :
    g.score dc now.truncate now' < (suppressThresholdOf dc).toInt ∧
      (second ∣ now'.ns →
        g.score dc now.truncate now' < (suppressThresholdOf dc).toInt - half) := by
  have hs : (0 : ℝ) < (suppressThresholdOf dc).toInt := Int.cast_pos.2 h₀
  have hhalf := half_pos
  have hscore : g.score dc now.truncate now' ≤ (suppressThresholdOf dc).toInt *
      fading (halfLifeOf (some dc)) (now'.sub now.truncate) :=
    mul_le_mul_of_nonneg_right (Int.cast_le.2 hp) (fading_pos _ _).le
  have hbefore : now.truncate.ns < now.ns := by
    apply (Time.truncate_le now).lt_of_ne
    intro heq
    exact hn (heq ▸ Int.dvd_mul_left _ _)
  have hhl : 0 < (halfLifeOf (some dc)).ns := by
    by_contra hle
    rw [fading_of_no_halfLife (not_lt.1 hle)] at hf
    linarith
  constructor
  · have hlt := fading_lt_one hhl (Time.sub_pos (hbefore.trans_le hle))
    have hmul := mul_lt_mul_of_pos_left hlt hs
    linarith
  · intro hn'
    have hsecond : (Duration.seconds 1).ns ≤ (now'.sub now.truncate).ns := by
      rw [Time.le_sub_iff (hbefore.trans_le hle).le]
      have hdvd : second ∣ now'.ns - now.truncate.ns := Int.dvd_sub hn' (Int.dvd_mul_left _ _)
      exact Int.le_of_dvd (Int.sub_pos_of_lt (hbefore.trans_le hle)) hdvd
    have hmul := mul_le_mul_of_nonneg_left (fading_antitone (halfLifeOf (some dc)) hsecond) hs.le
    linarith

theorem Gauge.Freed.step (h₀ : 0 < (suppressThresholdOf dc).toInt) (h : g.Freed dc now)
    (hle : now.ns ≤ now'.ns) : (g.step dc now.truncate now').Freed dc now' := by
  have hhalf := half_pos
  have hlt : g.score dc now.truncate now' < (suppressThresholdOf dc).toInt ∧
      (nearest (g.score dc now.truncate now') < (suppressThresholdOf dc).toInt ∨
        nearest (g.score dc now.truncate now') ≤ (suppressThresholdOf dc).toInt ∧
          ¬ second ∣ now'.ns ∧
            (suppressThresholdOf dc).toInt * fading (halfLifeOf (some dc)) (.seconds 1) <
              (suppressThresholdOf dc).toInt - half) := by
    rcases h.low with hp | ⟨hp, hn, hf⟩
    · have hmax : max (g.penalty.toInt : ℝ) 0 ≤ ((suppressThresholdOf dc).toInt - 1 : ℤ) :=
        max_le (Int.cast_le.2 (Int.le_sub_one_of_lt hp))
          (Int.cast_nonneg (Int.le_sub_one_of_lt h₀))
      have hscore := (g.score_le_max dc now.truncate now').trans hmax
      have hnear : nearest (g.score dc now.truncate now') ≤ (suppressThresholdOf dc).toInt - 1 :=
        nearest_le (by linarith)
      push_cast at hscore
      exact ⟨by linarith, .inl (Int.lt_of_le_sub_one hnear)⟩
    · obtain ⟨hscore, hwhole⟩ := Gauge.score_lt_of_within h₀ hp hn hf hle
      refine ⟨hscore, ?_⟩
      by_cases hn' : second ∣ now'.ns
      · exact .inl (nearest_lt_of_lt (hwhole hn'))
      · exact .inr ⟨nearest_le (by linarith), hn', hf⟩
  rw [Gauge.step_calm h.since hlt.1]
  refine ⟨rfl, ?_⟩
  rw [Gauge.clampToInt32_score]
  exact hlt.2

theorem Gauge.step_freed (he : dc.enabled = true) (hst : dc.Steady) (hu : g.since = some u)
    (hle : u.ns ≤ now.truncate.ns) (hn : now.ns ≤ now'.ns)
    (hs : (g.step dc now.truncate now').since = none) :
    (g.step dc now.truncate now').Freed dc now' := by
  obtain ⟨h₀, hrest⟩ := hst he
  have hhalf := half_pos
  have hlast : now.truncate.ns ≤ now'.ns := (Time.truncate_le now).trans hn
  rcases lt_or_ge (now'.sub u).ns (maxSuppressOf dc).ns with hc | hc
  · rcases lt_or_ge (g.score dc now.truncate now') (reuseThresholdOf dc).toInt with hx | hx
    · refine ⟨hs, ?_⟩
      rw [Gauge.step_reused hu hc hx, Gauge.clampToInt32_score]
      rcases hrest with hmax | hlt | ⟨heq, hclear⟩
      · exact absurd ((Time.sub_nonneg (hle.trans hlast)).trans_lt hc) (not_lt.2 hmax)
      · have hnear : nearest (g.score dc now.truncate now') ≤ (reuseThresholdOf dc).toInt :=
          nearest_le (by linarith)
        exact .inl (hnear.trans_lt hlt)
      · rw [heq] at hx
        rcases lt_or_ge (g.score dc now.truncate now') ((suppressThresholdOf dc).toInt - half)
          with hlow | hnearly
        · exact .inl (nearest_lt_of_lt hlow)
        · have helapsed : (now'.sub now.truncate).ns < (maxSuppressOf dc).ns :=
            (Time.sub_anti hle).trans_lt hc
          obtain ⟨hdvd, hf⟩ := hclear g.penalty _ helapsed ⟨hnearly, hx⟩
          rw [Time.sub_eq hlast (helapsed.trans_le (maxSuppressOf dc).hi)] at hdvd
          refine .inr ⟨nearest_le (by linarith), ?_, hf⟩
          exact fun h => hdvd (Int.dvd_sub h (Int.dvd_mul_left _ _))
    · rw [Gauge.step_kept hu hc hx] at hs
      cases hs
  · rw [Gauge.step_capped hu hc]
    exact Gauge.freed_of_lt h₀ rfl

end Gauges

/-- Suppressed, active again and suppressed again, without ever being absent. -/
def Run.Oscillates {F : Type} [Float64 F] (r : Run F) (k : String) : Prop :=
  ∃ i j l, i < j ∧ j < l ∧ (∀ n, i ≤ n → n ≤ l → r.here k n = true) ∧
    r.EmitsIn k i .dampened ∧ r.EmitsIn k j .active ∧ r.EmitsIn k l .dampened

namespace Run

variable {r : Run ℝ} {k : String} {dc : DampeningConfig}

theorem Reads.freed_or_suppressed (hr : r.Orderly) (hc : r.cfg.dampening = some dc)
    (he : dc.enabled = true) (hst : dc.Steady) (h : r.Reads k n g)
    (hg : g.Freed dc (r.now n) ∨ g.since.isSome = true) (hh : r.here k (n + 1) = true) :
    ∃ g', r.Reads k (n + 1) g' ∧ (g'.Freed dc (r.now (n + 1)) ∨ g'.since.isSome = true) := by
  refine ⟨_, h.succ hr hc he hh, ?_⟩
  rcases hg with hfreed | hsome
  · exact .inl (hfreed.step (hst he).1 (hr.ordered n))
  · obtain ⟨u, hu⟩ := Option.isSome_iff_exists.1 hsome
    cases hs : (g.step dc (r.now n).truncate (r.now (n + 1))).since with
    | none => exact .inl (Gauge.step_freed he hst hu (h.since_le hr u hu).2 (hr.ordered n) hs)
    | some u' => exact .inr rfl

theorem Reads.freed (hr : r.Orderly) (hc : r.cfg.dampening = some dc) (he : dc.enabled = true)
    (hst : dc.Steady) (h : r.Reads k j g) (hg : g.Freed dc (r.now j)) (hjl : j ≤ l)
    (hh : ∀ n, j < n → n ≤ l → r.here k n = true) :
    ∃ g', r.Reads k l g' ∧ g'.Freed dc (r.now l) := by
  induction l, hjl using Nat.le_induction with
  | base => exact ⟨g, h, hg⟩
  | succ n hjn ih =>
    obtain ⟨g', h', hg'⟩ := ih fun m hm hm' => hh m hm (Nat.le_succ_of_le hm')
    have hhere := hh (n + 1) (Nat.lt_succ_of_le hjn) (le_refl _)
    exact ⟨_, h'.succ hr hc he hhere, hg'.step (hst he).1 (hr.ordered n)⟩

theorem EmitsIn.freed_or_suppressed (hr : r.Orderly) (hc : r.cfg.dampening = some dc)
    (he : dc.enabled = true) (hst : dc.Steady) (h : r.EmitsIn k i .dampened) (hij : i ≤ j)
    (hh : ∀ n, i ≤ n → n ≤ j → r.here k n = true) :
    ∃ g, r.Reads k j g ∧ (g.Freed dc (r.now j) ∨ g.since.isSome = true) := by
  induction j, hij using Nat.le_induction with
  | base =>
    obtain ⟨g, hg, hsome⟩ := h.reads (hh i (le_refl i) (le_refl i))
    exact ⟨g, hg, .inr hsome⟩
  | succ n hin ih =>
    obtain ⟨g, hg, hor⟩ := ih fun m hm hm' => hh m hm (Nat.le_succ_of_le hm')
    exact hg.freed_or_suppressed hr hc he hst hor (hh (n + 1) (Nat.le_succ_of_le hin) (le_refl _))

theorem not_oscillates (hr : r.Orderly) (hc : r.cfg.dampening = some dc) (he : dc.enabled = true)
    (hst : dc.Steady) : ¬ r.Oscillates k := by
  rintro ⟨i, j, l, hij, hjl, hh, hi, hj, hl⟩
  obtain ⟨g, hg, hfreed | hsome⟩ := hi.freed_or_suppressed hr hc he hst hij.le fun n h h' =>
    hh n h (h'.trans hjl.le)
  · obtain ⟨g', hg', hfreed'⟩ := hg.freed hr hc he hst hfreed hjl.le fun n h h' =>
      hh n (hij.trans h).le h'
    have hstate := hg'.emitsIn_iff.1 hl
    rw [Gauge.state, hfreed'.since] at hstate
    cases hstate
  · have hstate := hg.emitsIn_iff.1 hj
    rw [Gauge.state, if_pos hsome] at hstate
    cases hstate

end Run

section Oscillations

variable {dc : DampeningConfig} {g : Gauge}

theorem DampeningConfig.not_roundsUp_intCast (dc : DampeningConfig) (n : ℤ) : ¬ dc.RoundsUp n := by
  rintro ⟨hle, hlt⟩
  have hle' : ((n + 1 : ℤ) : ℝ) ≤ (suppressThresholdOf dc).toInt :=
    Int.cast_le.2 (Int.add_one_le_of_lt (Int.cast_lt.1 hlt))
  rw [half] at hle
  push_cast at hle'
  linarith

theorem DampeningConfig.RoundsUp.nearest_eq (h₀ : 0 < (suppressThresholdOf dc).toInt)
    (h : dc.RoundsUp x) : nearest x = (suppressThresholdOf dc).toInt := by
  have hone : (1 : ℝ) ≤ (suppressThresholdOf dc).toInt := by exact_mod_cast h₀
  obtain ⟨hle, hlt⟩ := h
  have hhalf := half_pos
  have hnonneg : 0 ≤ x := by
    rw [half] at hle
    linarith
  exact le_antisymm (nearest_le (by linarith)) (le_nearest_of_nonneg hnonneg hle)

/-- The first tick is at the first second, the next one `e` after it, all later ones `e'`. -/
def edgeTimes (e e' : Int) : Nat → Time
  | 0 => ⟨second⟩
  | 1 => ⟨second + e⟩
  | _ + 2 => ⟨second + e'⟩

theorem edgeTimes_sub (h : 0 ≤ e) (hhi : e ≤ maxDuration) :
    ((edgeTimes e e' 1).sub (edgeTimes e e' 0).truncate).ns = e := by
  change (Duration.saturate (second + e - second)).ns = e
  rw [add_sub_cancel_left]
  simp only [Duration.saturate, minDuration, maxDuration] at hhi ⊢
  omega

theorem edgeTimes_orderly {cfg : BGPStabilityConfigSpec} (hs : ∀ u ∈ g.since, u = ⟨second⟩)
    (h : 0 ≤ e) (h' : e ≤ e') : (edgeRun cfg count g (edgeTimes e e')).Orderly := by
  apply edgeRun_orderly hs (le_refl _)
  intro n
  cases n with
  | zero => exact Int.le_add_of_nonneg_right h
  | succ n =>
    cases n with
    | zero => exact Int.add_le_add_left h' _
    | succ n => exact le_refl _

theorem Run.oscillates_of_reads {r : Run ℝ} (hh : ∀ n, r.here k n = true) (h₀ : r.Reads k 0 g₀)
    (hg₀ : g₀.since.isSome = true) (h₁ : r.Reads k 1 g₁) (hg₁ : g₁.since = none) (hn : 1 < n)
    (h₂ : r.Reads k n g₂) (hg₂ : g₂.since.isSome = true) : r.Oscillates k := by
  refine ⟨0, 1, n, Nat.one_pos, hn, fun n _ _ => hh n, ?_, ?_, ?_⟩
  · exact h₀.emitsIn_iff.2 (if_pos hg₀)
  · apply h₁.emitsIn_iff.2
    rw [Gauge.state, hg₁]
    rfl
  · exact h₂.emitsIn_iff.2 (if_pos hg₂)

/-- A threshold that is not positive suppresses whatever the cap has just released. -/
theorem oscillates_of_nonpos (he : dc.enabled = true) (h : (suppressThresholdOf dc).toInt ≤ 0) :
    ∃ r : Run ℝ, r.Orderly ∧ r.cfg.dampening = some dc ∧ ∃ k, r.Oscillates k := by
  let m := max 0 (maxSuppressOf dc).ns
  have hr : (edgeRun (dampeningOnly dc) 0 ⟨none, 0⟩ (edgeTimes m m)).Orderly :=
    edgeTimes_orderly forall_mem_none (le_max_left _ _) (le_refl _)
  have hscore : ∀ (g : Gauge) (last now : Time), g.penalty = 0 →
      (suppressThresholdOf dc).toInt ≤ g.score dc last now := by
    intro g last now hg
    rw [Gauge.score, hg]
    change _ ≤ ((0 : ℤ) : ℝ) * _
    rw [Int.cast_zero, zero_mul]
    exact Int.cast_nonpos.2 h
  have h₀ := edgeRun_reads he hr
  rw [Gauge.step_entered rfl (hscore _ _ _ rfl)] at h₀
  have h₁ := edgeRun_reads_succ he hr h₀
  have hcap : (maxSuppressOf dc).ns ≤ ((edgeTimes m m 1).sub (edgeTimes m m 0).truncate).ns := by
    have hhi : m ≤ maxDuration := max_le (by decide) (maxSuppressOf dc).hi
    rw [edgeTimes_sub (le_max_left _ _) hhi]
    exact le_max_right _ _
  rw [Gauge.step_capped rfl hcap] at h₁
  have h₂ := edgeRun_reads_succ he hr h₁
  rw [Gauge.step_entered rfl (hscore _ _ _ rfl)] at h₂
  exact ⟨_, hr, rfl, _, Run.oscillates_of_reads edgeRun_here h₀ rfl h₁ rfl (by decide) h₂ rfl⟩

theorem truncate_second : (⟨second⟩ : Time).truncate = ⟨second⟩ := rfl

theorem Gauge.step_reenters (dc : DampeningConfig) {last now : Time} (h : now.ns ≤ last.ns) :
    (⟨none, suppressThresholdOf dc⟩ : Gauge).step dc last now =
      ⟨some now.truncate, suppressThresholdOf dc⟩ := by
  have hscore := Gauge.score_of_le ⟨none, suppressThresholdOf dc⟩ dc h
  have hclamp := Gauge.clampToInt32_of_le ⟨none, suppressThresholdOf dc⟩ dc h
  rw [Gauge.step_entered rfl hscore.ge, hclamp]

/-- A reuse threshold above the suppress threshold releases what is to be suppressed. -/
theorem oscillates_of_lt (he : dc.enabled = true) (hmax : 0 < (maxSuppressOf dc).ns)
    (h : (suppressThresholdOf dc).toInt < (reuseThresholdOf dc).toInt) :
    ∃ r : Run ℝ, r.Orderly ∧ r.cfg.dampening = some dc ∧ ∃ k, r.Oscillates k := by
  have hr : (edgeRun (dampeningOnly dc) 0 ⟨none, suppressThresholdOf dc⟩
      fun _ => ⟨second⟩).Orderly :=
    edgeRun_orderly forall_mem_none (le_refl _) fun _ => le_refl _
  have hnone : (⟨none, suppressThresholdOf dc⟩ : Gauge).step dc ⟨second⟩ ⟨second⟩ =
      ⟨some ⟨second⟩, suppressThresholdOf dc⟩ := Gauge.step_reenters dc (le_refl _)
  have hsome : (⟨some ⟨second⟩, suppressThresholdOf dc⟩ : Gauge).step dc ⟨second⟩ ⟨second⟩ =
      ⟨none, suppressThresholdOf dc⟩ := by
    have hzero : ((⟨second⟩ : Time).sub ⟨second⟩).ns < (maxSuppressOf dc).ns := by
      rw [Time.sub_self]
      exact hmax
    have hscore := Gauge.score_of_le ⟨some ⟨second⟩, suppressThresholdOf dc⟩ dc
      (le_refl (⟨second⟩ : Time).ns)
    rw [Gauge.step_reused rfl hzero (hscore.trans_lt (Int.cast_lt.2 h)),
      Gauge.clampToInt32_of_le _ _ (le_refl _)]
  have h₀ := edgeRun_reads he hr
  rw [hnone] at h₀
  have h₁ := edgeRun_reads_succ he hr h₀
  rw [truncate_second, hsome] at h₁
  have h₂ := edgeRun_reads_succ he hr h₁
  rw [truncate_second, hnone] at h₂
  exact ⟨_, hr, rfl, _, Run.oscillates_of_reads edgeRun_here h₀ rfl h₁ rfl (by decide) h₂ rfl⟩

theorem Gauge.step_lingers (h₀ : 0 < (suppressThresholdOf dc).toInt)
    (hh : 0 < (halfLifeOf (some dc)).ns)
    (hf : (suppressThresholdOf dc).toInt - half ≤
      (suppressThresholdOf dc).toInt * fading (halfLifeOf (some dc)) (.seconds 1))
    (hnow : (now.sub last).ns = (Duration.seconds 1).ns) :
    (⟨none, suppressThresholdOf dc⟩ : Gauge).step dc last now =
      ⟨none, suppressThresholdOf dc⟩ := by
  have hscore : (⟨none, suppressThresholdOf dc⟩ : Gauge).score dc last now =
      (suppressThresholdOf dc).toInt * fading (halfLifeOf (some dc)) (.seconds 1) := by
    rw [Gauge.score, fading, hnow]
    rfl
  have hlt := mul_lt_mul_of_pos_left (fading_lt_one hh (by decide : 0 < (Duration.seconds 1).ns))
    (Int.cast_pos.2 h₀ : (0 : ℝ) < (suppressThresholdOf dc).toInt)
  rw [mul_one] at hlt
  have hclamp : clampToInt32 ((⟨none, suppressThresholdOf dc⟩ : Gauge).score dc last now) =
      suppressThresholdOf dc := by
    apply Int32.toInt_inj.1
    rw [Gauge.clampToInt32_score, hscore]
    exact DampeningConfig.RoundsUp.nearest_eq h₀ ⟨hf, hlt⟩
  rw [Gauge.step_calm rfl (hscore.trans_lt hlt), hclamp]

section Equal

variable {p : Int32} {elapsed : Duration}
  (hup : dc.RoundsUp (p.toInt * fading (halfLifeOf (some dc)) elapsed))
include hup

theorem DampeningConfig.RoundsUp.fading_ne_one : fading (halfLifeOf (some dc)) elapsed ≠ 1 := by
  intro hone
  rw [hone, mul_one] at hup
  exact dc.not_roundsUp_intCast p.toInt hup

theorem DampeningConfig.RoundsUp.elapsed_pos : 0 < elapsed.ns := by
  by_contra hle
  exact hup.fading_ne_one (fading_of_nonpos (not_lt.1 hle))

theorem DampeningConfig.RoundsUp.halfLife_pos : 0 < (halfLifeOf (some dc)).ns := by
  by_contra hle
  exact hup.fading_ne_one (fading_of_no_halfLife (not_lt.1 hle) _)

theorem DampeningConfig.RoundsUp.le_penalty (h₀ : 0 < (suppressThresholdOf dc).toInt) :
    (suppressThresholdOf dc).toInt ≤ p.toInt := by
  by_contra hlt
  have hmax : max (p.toInt : ℝ) 0 ≤ ((suppressThresholdOf dc).toInt - 1 : ℤ) :=
    max_le (Int.cast_le.2 (Int.le_sub_one_of_lt (not_le.1 hlt)))
      (Int.cast_nonneg (Int.le_sub_one_of_lt h₀))
  have hle := (mul_le_max (p.toInt : ℝ) (fading_pos (halfLifeOf (some dc)) elapsed).le
    (fading_le_one _ _)).trans hmax
  have hge := hup.1
  rw [half] at hge
  push_cast at hle
  linarith

variable (h₀ : 0 < (suppressThresholdOf dc).toInt)
  (heq : (reuseThresholdOf dc).toInt = (suppressThresholdOf dc).toInt)
  (hlt : elapsed.ns < (maxSuppressOf dc).ns)
include h₀ heq hlt

theorem Gauge.step_stays :
    (⟨some last, p⟩ : Gauge).step dc last last = ⟨some last, p⟩ := by
  have hzero : (last.sub last).ns < (maxSuppressOf dc).ns := by
    rw [Time.sub_self]
    exact hup.elapsed_pos.trans hlt
  have hreuse : ((reuseThresholdOf dc).toInt : ℝ) ≤
      (⟨some last, p⟩ : Gauge).score dc last last := by
    rw [Gauge.score_of_le _ _ (le_refl _), heq]
    exact Int.cast_le.2 (hup.le_penalty h₀)
  rw [Gauge.step_kept rfl hzero hreuse, Gauge.clampToInt32_of_le _ _ (le_refl _)]

theorem Gauge.step_falls (hnow : (now.sub last).ns = elapsed.ns) :
    (⟨some last, p⟩ : Gauge).step dc last now = ⟨none, suppressThresholdOf dc⟩ := by
  have hscore : (⟨some last, p⟩ : Gauge).score dc last now =
      p.toInt * fading (halfLifeOf (some dc)) elapsed := by
    rw [Gauge.score, fading, hnow]
    rfl
  have hreuse : (⟨some last, p⟩ : Gauge).score dc last now < (reuseThresholdOf dc).toInt := by
    rw [hscore, heq]
    exact hup.2
  have hclamp : clampToInt32 ((⟨some last, p⟩ : Gauge).score dc last now) =
      suppressThresholdOf dc := by
    apply Int32.toInt_inj.1
    rw [Gauge.clampToInt32_score, hscore]
    exact hup.nearest_eq h₀
  rw [Gauge.step_reused rfl (hnow.trans_lt hlt) hreuse, hclamp]

theorem edgeRun_falls (he : dc.enabled = true) (hle : elapsed.ns ≤ e') :
    (edgeRun (dampeningOnly dc) 0 ⟨some ⟨second⟩, p⟩ (edgeTimes elapsed.ns e')).Orderly ∧
      (edgeRun (dampeningOnly dc) 0 ⟨some ⟨second⟩, p⟩ (edgeTimes elapsed.ns e')).Reads
        "10-0-0-0-24-edge" 0 ⟨some ⟨second⟩, p⟩ ∧
      (edgeRun (dampeningOnly dc) 0 ⟨some ⟨second⟩, p⟩ (edgeTimes elapsed.ns e')).Reads
        "10-0-0-0-24-edge" 1 ⟨none, suppressThresholdOf dc⟩ := by
  have hr : (edgeRun (dampeningOnly dc) 0 ⟨some ⟨second⟩, p⟩
      (edgeTimes elapsed.ns e')).Orderly :=
    edgeTimes_orderly (fun u hu => (Option.some.inj hu).symm) hup.elapsed_pos.le hle
  have hread₀ := edgeRun_reads he hr
  rw [edgeTimes, Gauge.step_stays hup h₀ heq hlt] at hread₀
  have hread₁ := edgeRun_reads_succ he hr hread₀
  have hnow : ((edgeTimes elapsed.ns e' 1).sub (edgeTimes elapsed.ns e' 0).truncate).ns =
      elapsed.ns := edgeTimes_sub hup.elapsed_pos.le elapsed.hi
  rw [edgeTimes, truncate_second] at hread₁ hnow
  rw [Gauge.step_falls hup h₀ heq hlt hnow] at hread₁
  exact ⟨hr, hread₀, hread₁⟩

theorem oscillates_of_whole (he : dc.enabled = true) (hdvd : second ∣ elapsed.ns) :
    ∃ r : Run ℝ, r.Orderly ∧ r.cfg.dampening = some dc ∧ ∃ k, r.Oscillates k := by
  obtain ⟨hr, hread₀, hread₁⟩ := edgeRun_falls hup h₀ heq hlt he (le_refl _)
  have hread₂ := edgeRun_reads_succ he hr hread₁
  have hwhole : (edgeTimes elapsed.ns elapsed.ns 2).ns ≤
      (edgeTimes elapsed.ns elapsed.ns 1).truncate.ns :=
    (Int.ediv_mul_cancel (Int.dvd_add (Int.dvd_refl _) hdvd)).ge
  rw [Gauge.step_reenters dc hwhole] at hread₂
  exact ⟨_, hr, rfl, _,
    Run.oscillates_of_reads edgeRun_here hread₀ rfl hread₁ rfl (by decide) hread₂ rfl⟩

theorem oscillates_of_within (he : dc.enabled = true)
    (hf : (suppressThresholdOf dc).toInt - half ≤
      (suppressThresholdOf dc).toInt * fading (halfLifeOf (some dc)) (.seconds 1)) :
    ∃ r : Run ℝ, r.Orderly ∧ r.cfg.dampening = some dc ∧ ∃ k, r.Oscillates k := by
  let e' := (⟨second + elapsed.ns⟩ : Time).truncate.ns
  have hle : elapsed.ns ≤ e' := by
    simp only [e', Time.truncate, second]
    omega
  obtain ⟨hr, hread₀, hread₁⟩ := edgeRun_falls hup h₀ heq hlt he hle
  have hread₂ := edgeRun_reads_succ he hr hread₁
  have hnow : ((edgeTimes elapsed.ns e' 2).sub (edgeTimes elapsed.ns e' 1).truncate).ns =
      (Duration.seconds 1).ns := by
    change (Duration.saturate (second + e' - e')).ns = _
    rw [add_sub_cancel_right]
    rfl
  rw [Gauge.step_lingers h₀ hup.halfLife_pos hf hnow] at hread₂
  have hread₃ := edgeRun_reads_succ he hr hread₂
  have hwhole : (edgeTimes elapsed.ns e' 3).ns ≤ (edgeTimes elapsed.ns e' 2).truncate.ns :=
    (Int.ediv_mul_cancel (Int.dvd_add (Int.dvd_refl _) (Int.dvd_mul_left _ _))).ge
  rw [Gauge.step_reenters dc hwhole] at hread₃
  exact ⟨_, hr, rfl, _,
    Run.oscillates_of_reads edgeRun_here hread₀ rfl hread₁ rfl (by decide) hread₃ rfl⟩

end Equal

theorem Run.EmitsIn.enabled {r : Run ℝ} (h : r.EmitsIn k n .dampened) (hh : r.here k n = true)
    (hc : r.cfg.dampening = some dc) : dc.enabled = true := by
  obtain ⟨p, _, hs⟩ := h.observed hh
  rw [observe_dampened_iff, hc] at hs
  exact hs.1

/-- No backend that stays present oscillates, whatever its run, exactly if the thresholds of its
dampening are steady. -/
theorem never_oscillates_iff (dc : DampeningConfig) :
    (∀ r : Run ℝ, r.Orderly → r.cfg.dampening = some dc → ∀ k, ¬ r.Oscillates k) ↔ dc.Steady := by
  constructor
  · intro hnever he
    have hno : ¬ ∃ r : Run ℝ, r.Orderly ∧ r.cfg.dampening = some dc ∧ ∃ k, r.Oscillates k :=
      fun ⟨r, hr, hc, k, hk⟩ => hnever r hr hc k hk
    have hpos : 0 < (suppressThresholdOf dc).toInt := by
      by_contra hle
      exact hno (oscillates_of_nonpos he (not_lt.1 hle))
    refine ⟨hpos, ?_⟩
    by_contra hrest
    obtain ⟨hmax, hrest⟩ := not_or.1 hrest
    obtain ⟨hge, hclear⟩ := not_or.1 hrest
    rcases (not_lt.1 hge).eq_or_lt with heq | hlt
    · apply hclear
      refine ⟨heq.symm, fun p elapsed helapsed hup => ⟨?_, ?_⟩⟩
      · exact fun hdvd => hno (oscillates_of_whole hup hpos heq.symm helapsed he hdvd)
      · by_contra hf
        exact hno (oscillates_of_within hup hpos heq.symm helapsed he (not_lt.1 hf))
    · exact hno (oscillates_of_lt he (not_le.1 hmax) hlt)
  · intro hst r hr hc k hosc
    obtain ⟨i, j, l, hij, hjl, hh, hi, _⟩ := id hosc
    have he := hi.enabled (hh i (le_refl i) (hij.trans hjl).le) hc
    exact Run.not_oscillates hr hc he hst hosc

end Oscillations

section Sample

/-- The suppress threshold alone is lowered, and is now below the default reuse threshold. -/
def loweredDampening : DampeningConfig := ⟨true, none, some 200, none, none⟩

def loweredRun : Run ℝ :=
  edgeRun (dampeningOnly loweredDampening) 1 ⟨none, 1000⟩ fun n => clock (n * 90)

theorem Gauge.score_halved (g : Gauge) (h : (now.sub last).ns = 90 * second) :
    g.score loweredDampening last now = g.penalty.toInt * half := by
  rw [Gauge.score, fading_self (by decide) h]

theorem loweredRun_enters :
    (⟨none, 1000⟩ : Gauge).step loweredDampening ⟨second⟩ (clock (0 * 90)) =
      ⟨some ⟨second⟩, 1000⟩ := by
  have hle : (clock (0 * 90)).ns ≤ (⟨second⟩ : Time).ns := by decide
  have hover : ((suppressThresholdOf loweredDampening).toInt : ℝ) ≤
      (⟨none, 1000⟩ : Gauge).score loweredDampening ⟨second⟩ (clock (0 * 90)) := by
    rw [Gauge.score_of_le _ _ hle]
    exact Int.cast_le.2 (by decide)
  rw [Gauge.step_entered rfl hover, Gauge.clampToInt32_of_le _ _ hle]
  rfl

theorem loweredRun_leaves :
    (⟨some ⟨second⟩, 1000⟩ : Gauge).step loweredDampening (clock (0 * 90)).truncate
      (clock ((0 + 1) * 90)) = ⟨none, 500⟩ := by
  have hnow := clock_sub 0 (by decide : (90 : Nat) * second ≤ maxDuration)
  have hscore : (⟨some ⟨second⟩, 1000⟩ : Gauge).score loweredDampening (clock (0 * 90)).truncate
      (clock ((0 + 1) * 90)) = (500 : Int32).toInt := by
    rw [Gauge.score_halved _ hnow, half]
    change ((1000 : ℤ) : ℝ) * _ = ((500 : ℤ) : ℝ)
    norm_num
  have hreuse : ((500 : Int32).toInt : ℝ) < (reuseThresholdOf loweredDampening).toInt :=
    Int.cast_lt.2 (by decide)
  rw [Gauge.step_reused rfl (by decide) (hscore.trans_lt hreuse), hscore, clampToInt32_toInt]

/-- Suppressed at 1000, active at 500, suppressed at 250. -/
theorem loweredRun_oscillates :
    loweredRun.Orderly ∧ loweredRun.Oscillates "10-0-0-0-24-edge" := by
  have hr : loweredRun.Orderly := edgeRun_paced forall_mem_none 90
  refine ⟨hr, ?_⟩
  have hread₀ := edgeRun_reads rfl hr
  rw [loweredRun_enters] at hread₀
  have hread₁ := edgeRun_reads_succ rfl hr hread₀
  rw [loweredRun_leaves] at hread₁
  have hread₂ := edgeRun_reads_succ rfl hr hread₁
  have hover : ((suppressThresholdOf loweredDampening).toInt : ℝ) ≤
      (⟨none, 500⟩ : Gauge).score loweredDampening (clock ((0 + 1) * 90)).truncate
        (clock ((0 + 1 + 1) * 90)) := by
    rw [Gauge.score_halved _ (clock_sub 1 (by decide)), half]
    change ((200 : ℤ) : ℝ) ≤ ((500 : ℤ) : ℝ) * _
    norm_num
  rw [Gauge.step_entered rfl hover] at hread₂
  exact Run.oscillates_of_reads edgeRun_here hread₀ rfl hread₁ rfl (by decide) hread₂ rfl

end Sample

end Kreg
