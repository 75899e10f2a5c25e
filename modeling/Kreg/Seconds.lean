import Kreg.Runs

namespace Kreg
open Float64
set_option autoImplicit true

variable {F : Type} [Float64 F]

theorem Suppresses.whole {s : Suppression F} (h : Suppresses now score since dampening s)
    (hn : now.Whole) (hs : ∀ t ∈ since, t.Whole) : ∀ t ∈ s.suppressedSince, t.Whole := by
  intro t ht
  rcases h.since_mem t ht with rfl | ht
  · exact hn
  · exact hs t ht

omit [Float64 F] in
theorem DampingInfo.Stamped.pendingFrom {d : DampingInfo F} (h : d.Stamped) :
    d.pendingFrom.Whole := by
  rw [DampingInfo.pendingFrom]
  cases hp : d.pendingSince with
  | none => exact h.observed
  | some t => exact h.pending t hp

omit [Float64 F] in
theorem DampingInfo.Stamped.withdrawnFrom {d : DampingInfo F} (h : d.Stamped) (hn : now.Whole) :
    (d.withdrawnAt.getD now).Whole := by
  cases hw : d.withdrawnAt with
  | none => exact hn
  | some t => exact h.withdrawn t hw

theorem Transition.stamped {d : DampingInfo F} (h : Transition now cfg prev here d)
    (hn : now.Whole) (hp : ∀ p ∈ prev, p.Stamped) : d.Stamped := by
  have hnone : ∀ t ∈ (none : Option Time), t.Whole := forall_mem_none
  have hone : ∀ {u : Time}, u.Whole → ∀ t ∈ some u, t.Whole := fun hu t ht =>
    Option.some.inj ht ▸ hu
  cases h with
  | fresh =>
    rw [newCandidateDamping]
    split
    · exact ⟨hn, hnone, hnone, hnone⟩
    · exact ⟨hn, hnone, hnone, hone hn⟩
  | settling => exact ⟨hn, hnone, hnone, hone (hp _ rfl).pendingFrom⟩
  | observed =>
    exact ⟨hn, hnone,
      (suppressionState_suppresses _ _ _ _).whole hn (hp _ rfl).suppressed, hnone⟩
  | held =>
    exact ⟨hn, hone ((hp _ rfl).withdrawnFrom hn),
      (suppressionState_suppresses _ _ _ _).whole hn (hp _ rfl).suppressed, hnone⟩

structure StabilityStatus.Stamped (s : StabilityStatus) : Prop where
  observed : ∀ t ∈ s.lastObservedAt, t.Whole
  withdrawn : ∀ t ∈ s.withdrawnAt, t.Whole
  suppressed : ∀ t ∈ s.suppressedSince, t.Whole
  pending : ∀ t ∈ s.pendingSince, t.Whole

theorem Records.prior_stamped {s : Records}
    (h : ∀ k r, s.lookup k = some r → r.status.stability.Stamped) {p : PriorState F}
    (hp : s.prior k = some p) : p.damping.Stamped := by
  obtain ⟨r, hr, _, hp⟩ := (mem_prior_iff s k p).1 hp
  obtain ⟨t, ht, rfl⟩ := Option.map_eq_some_iff.1 hp
  have hs := h k r hr
  exact ⟨hs.observed t ht, hs.withdrawn, hs.suppressed, hs.pending⟩

/-- Ticks at whole seconds that never go back, from records written at whole seconds. -/
structure Run.InSeconds (r : Run F) : Prop where
  start : ∀ k s, r.start.lookup k = some s → s.status.stability.Stamped
  whole : ∀ n, (r.now n).Whole
  ordered : ∀ n, (r.now n).ns ≤ (r.now (n + 1)).ns

namespace Run.InSeconds

variable {r : Run F} {k : String}

omit [Float64 F] in
theorem now_le (h : r.InSeconds) (hmn : m ≤ n) : (r.now m).ns ≤ (r.now n).ns := by
  induction hmn with
  | refl => exact le_refl _
  | step _ ih => exact ih.trans (h.ordered _)

theorem memory_stamped (h : r.InSeconds) : ∀ n, ∀ p ∈ r.memory k n, p.Stamped := by
  intro n
  induction n with
  | zero =>
    intro p hp
    obtain ⟨q, hq, rfl⟩ := Option.map_eq_some_iff.1 hp
    exact Records.prior_stamped h.start (Visit.prior_of_lookup hq)
  | succ n ih =>
    intro p hp
    obtain ⟨d, hv, hk⟩ := Run.memory_succ_eq_some hp
    have hd : d.Stamped := (r.transition hv).stamped (h.whole n) ih
    rw [hd.kept_eq] at hk
    cases hk
    exact ⟨hd.observed, hd.withdrawn, hd.suppressed, hd.pending⟩

theorem kept_eq (h : r.InSeconds) (hv : r.verdict k n = some d) : d.kept = some d.recorded :=
  ((r.transition hv).stamped (h.whole n) (h.memory_stamped n)).kept_eq

theorem memory_succ (h : r.InSeconds) (hn : needsPriorState r.cfg = true) (k : String) (n : Nat) :
    r.memory k (n + 1) = (r.verdict k n).map DampingInfo.recorded := by
  rw [Run.memory_succ r hn]
  cases hv : r.verdict k n with
  | none => rfl
  | some d => exact h.kept_eq hv

theorem verdict_induction (hr : r.InSeconds) (h : r.start = ∅)
    {P : Nat → DampingInfo F → Prop}
    (fresh : ∀ n, r.here k n = true →
      P n (newCandidateDamping (r.now n) (durationOrZero r.cfg.additionDelay)))
    (step : ∀ n d d', r.verdict k n = some d → P n d → r.verdict k (n + 1) = some d' →
      Transition (r.now (n + 1)) r.cfg (some d.recorded) (r.here k (n + 1)) d' → P (n + 1) d') :
    ∀ n d, r.verdict k n = some d → P n d := by
  apply Run.verdict_induction h fresh
  intro n d p d' hv hp hk hv' ht
  rw [hr.kept_eq hv] at hk
  cases hk
  exact step n d d' hv hp hv' ht

end Run.InSeconds

theorem clock_whole (n : Nat) : (clock n).Whole := by
  refine ⟨?_, dvd_mul_left _ _⟩
  simp only [clock, second]
  omega

omit [Float64 F] in
theorem sampleRun_inSeconds (cfg : BGPStabilityConfigSpec) (period : Nat) (seen : Nat → Sighting) :
    (sampleRun F cfg period seen).InSeconds where
  start k s h := by
    rw [sampleRun, AList.lookup_empty] at h
    cases h
  whole n := clock_whole _
  ordered n := by
    have hle : n * period ≤ (n + 1) * period := Nat.mul_le_mul_right _ (Nat.le_succ n)
    simp only [Run.now, sampleRun, sampleTick, clock, second]
    omega

end Kreg
