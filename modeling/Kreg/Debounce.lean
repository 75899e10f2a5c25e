import Kreg.Seconds

namespace Kreg
open Float64
set_option autoImplicit true

variable {F : Type} [Float64 F]

/-- The key had a verdict at every tick from `i` to `n`. -/
def Run.Unbroken (r : Run F) (k : String) (i n : Nat) : Prop :=
  ∀ l, i ≤ l → l ≤ n → ∃ d, r.verdict k l = some d

/-- The key was here at every tick from `i` to `n`. -/
def Run.Steady (r : Run F) (k : String) (i n : Nat) : Prop :=
  ∀ l, i ≤ l → l ≤ n → r.here k l = true

theorem Run.Steady.unbroken {r : Run F} (h : r.Steady k i n) : r.Unbroken k i n := by
  intro l hi hn
  rw [Run.verdict, h l hi hn]
  exact verdict_present _ _ _

theorem Run.Unbroken.succ {r : Run F} (h : r.Unbroken k i n)
    (hv : r.verdict k (n + 1) = some d) : r.Unbroken k i (n + 1) := by
  intro l hi hn
  rcases Nat.le_succ_iff.1 hn with hn | rfl
  · exact h l hi hn
  · exact ⟨d, hv⟩

omit [Float64 F] in
theorem Run.Steady.succ {r : Run F} (h : r.Steady k i n) (hv : r.here k (n + 1) = true) :
    r.Steady k i (n + 1) := by
  intro l hi hn
  rcases Nat.le_succ_iff.1 hn with hn | rfl
  · exact h l hi hn
  · exact hv

/-- `PendingSince` opens an unbroken stretch of presence, and nothing leaves `Pending` before
such a stretch has lasted `additionDelay`. -/
structure Run.Debounced (r : Run F) (k : String) (n : Nat) (d : DampingInfo F) : Prop where
  pending : d.state = .pending → ∃ i ≤ n, d.pendingSince = some (r.now i) ∧ r.Steady k i n
  settled : d.state ≠ .pending → ∃ i m, i ≤ m ∧ m ≤ n ∧
    (durationOrZero r.cfg.additionDelay).ns ≤ (r.now m).ns - (r.now i).ns ∧
      r.Steady k i m ∧ r.Unbroken k i n

theorem Run.Debounced.fresh {r : Run F} (hd : 0 < (durationOrZero r.cfg.additionDelay).ns)
    (hh : r.here k n = true) :
    r.Debounced k n (newCandidateDamping (r.now n) (durationOrZero r.cfg.additionDelay)) := by
  rw [newCandidateDamping, if_neg (not_le.2 hd)]
  refine ⟨fun _ => ⟨n, le_refl n, rfl, ?_⟩, fun h => (h rfl).elim⟩
  intro l hi hn
  exact le_antisymm hn hi ▸ hh

theorem Run.Debounced.step {r : Run F} (hr : r.InSeconds) {d d' : DampingInfo F}
    (h : r.Debounced k n d) (hv : r.verdict k (n + 1) = some d')
    (ht : Transition (r.now (n + 1)) r.cfg (some d.recorded) (r.here k (n + 1)) d') :
    r.Debounced k (n + 1) d' := by
  have hfrom : ∀ i, d.pendingSince = some (r.now i) → d.recorded.pendingFrom = r.now i := by
    intro i hi
    rw [DampingInfo.pendingFrom, show d.recorded.pendingSince = d.pendingSince from rfl, hi]
    rfl
  have hkeep : d.state ≠ .pending → d'.state ≠ .pending → r.Debounced k (n + 1) d' := by
    intro hs hs'
    obtain ⟨i, m, him, hmn, hd, hst, hun⟩ := h.settled hs
    exact ⟨fun h => (hs' h).elim, fun _ =>
      ⟨i, m, him, Nat.le_succ_of_le hmn, hd, hst, hun.succ hv⟩⟩
  generalize hb : r.here k (n + 1) = b at ht
  cases ht with
  | settling hs hd =>
    obtain ⟨i, hi, hp, hst⟩ := h.pending hs
    refine ⟨fun _ => ⟨i, Nat.le_succ_of_le hi, ?_, hst.succ hb⟩, fun h => (h rfl).elim⟩
    rw [hfrom i hp]
    rfl
  | observed hd =>
    by_cases hs : d.state = .pending
    · obtain ⟨i, hi, hp, hst⟩ := h.pending hs
      have hle := hd hs
      rw [hfrom i hp, Time.le_sub_iff (hr.now_le (Nat.le_succ_of_le hi))] at hle
      exact ⟨fun h => (observe_not_pending _ _ _ h).elim, fun _ =>
        ⟨i, n + 1, Nat.le_succ_of_le hi, le_refl _, hle, hst.succ hb, (hst.succ hb).unbroken⟩⟩
    · exact hkeep hs (observe_not_pending _ _ _)
  | held hs => exact hkeep hs (hold_not_pending _ _ _ _ _)

/-- Nothing is served before it was here for `additionDelay` without a gap, and nothing
dropped in between keeps that credit. -/
theorem Run.debounced (r : Run F) (hsec : r.InSeconds) (h : r.start = ∅)
    (hd : 0 < (durationOrZero r.cfg.additionDelay).ns) {c : BackendCandidate F}
    (hc : c ∈ r.emitted j) (hr : c.rejected = false)
    (hs : ∀ d, c.damping = some d → d.state ≠ .pending) :
    ∃ i m, i ≤ m ∧ m ≤ j ∧
      (durationOrZero r.cfg.additionDelay).ns ≤ (r.now m).ns - (r.now i).ns ∧
      (∀ n, i ≤ n → n ≤ m →
        ∃ a ∈ (r.tick n).candidates, a.rejected = false ∧ a.name = c.name) ∧
      ∀ n, i ≤ n → n ≤ j → ∃ a ∈ r.emitted n, a.rejected = false ∧ a.name = c.name := by
  rcases Run.mem_emitted hc with ⟨hrej, _⟩ | he
  · rw [hr] at hrej
    cases hrej
  obtain ⟨_, _, d, hdamp, hv⟩ := Run.emission_eq_some he
  have hdeb : r.Debounced c.name j d := hsec.verdict_induction h
    (fun n hh => .fresh hd hh) (fun n d d' _ hp hv ht => hp.step hsec hv ht) j d hv
  obtain ⟨i, m, him, hmj, hle, hst, hun⟩ := hdeb.settled (hs d hdamp)
  refine ⟨i, m, him, hmj, hle, fun n hi hm => r.here_eq_true_iff.1 (hst n hi hm), ?_⟩
  intro n hi hn
  obtain ⟨d', hv'⟩ := hun n hi hn
  obtain ⟨a, ha, hname, hrej, _⟩ := Run.emitted_of_verdict hv'
  exact ⟨a, ha, hrej, hname⟩

/-- A route that stays, under an `additionDelay` of ten seconds. -/
def stayingRun : Run Rat :=
  sampleRun Rat ⟨none, some (.seconds 10), none⟩ 5 fun _ => .accepted

theorem Run.debounced_ten : ∃ i m, i ≤ m ∧ m ≤ 2 ∧
    10 * second ≤ (stayingRun.now m).ns - (stayingRun.now i).ns ∧
    (∀ n, i ≤ n → n ≤ m → ∃ a ∈ (stayingRun.tick n).candidates,
      a.rejected = false ∧ a.name = "10-0-0-0-24-edge") ∧
    ∀ n, i ≤ n → n ≤ 2 → ∃ a ∈ stayingRun.emitted n,
      a.rejected = false ∧ a.name = "10-0-0-0-24-edge" := by
  have hc : sampleEmission (newCandidateDamping (clock 10) .zero) ∈ stayingRun.emitted 2 := by
    decide +kernel
  refine stayingRun.debounced (sampleRun_inSeconds _ _ _) rfl (by decide) hc rfl ?_
  intro d hd
  cases hd
  decide

end Kreg
