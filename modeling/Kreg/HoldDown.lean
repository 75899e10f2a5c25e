import Kreg.Seconds

namespace Kreg
open Float64
set_option autoImplicit true

variable {F : Type} [Float64 F]

structure DampingInfo.HeldSince (d : DampingInfo F) (u : Time) : Prop where
  state : d.state = .holdDown ∨ d.state = .dampened
  withdrawnAt : d.withdrawnAt = some u

/-- What the damper says at `now` about a key gone since `u`: held within the grace, nothing
from then on. -/
inductive Window (now u : Time) (grace : Duration) : Option (DampingInfo F) → Prop where
  | held (hg : now.ns - u.ns < grace.ns) (hd : d.HeldSince u) : Window now u grace (some d)
  | elapsed (hg : grace.ns ≤ now.ns - u.ns) : Window now u grace none

omit [Float64 F] in
theorem Window.ne_none_iff {v : Option (DampingInfo F)} (h : Window now u grace v) :
    v ≠ none ↔ now.ns - u.ns < grace.ns := by
  cases h with
  | held hg _ => exact ⟨fun _ => hg, fun _ => Option.some_ne_none _⟩
  | elapsed hg => exact ⟨fun h => (h rfl).elim, fun h => (not_lt.2 hg h).elim⟩

theorem verdict_window {p : DampingInfo F} (hs : p.state ≠ .pending)
    (hu : p.withdrawnAt.getD now = u) (hle : u.ns ≤ now.ns) (cfg : BGPStabilityConfigSpec) :
    Window now u (durationOrZero cfg.withdrawalGrace) (verdict now cfg (some p) false) := by
  cases hv : verdict now cfg (some p) false with
  | some d =>
    cases verdict_transition hv with
    | held _ hg =>
      rw [hu, Time.sub_lt_iff hle] at hg
      exact .held hg ⟨hold_state _ _ _ _ _, congrArg some hu⟩
  | none =>
    refine .elapsed (not_lt.1 fun hg => ?_)
    rw [← Time.sub_lt_iff hle, ← hu] at hg
    exact nomatch hv.symm.trans (Transition.held hs hg).verdict_eq

theorem DampingInfo.HeldSince.not_pending {d : DampingInfo F} (h : d.HeldSince u) :
    d.recorded.state ≠ .pending := by
  intro hp
  rcases h.state with hs | hs
  · exact nomatch hs.symm.trans hp
  · exact nomatch hs.symm.trans hp

theorem grace_of_unneeded (h : needsPriorState cfg = false) :
    (durationOrZero cfg.withdrawalGrace).ns ≤ 0 := by
  rw [needsPriorState, Bool.or_eq_false_iff, Bool.or_eq_false_iff] at h
  exact not_lt.1 (of_decide_eq_false h.1.1)

theorem Run.InSeconds.verdict_window {r : Run F} (hr : r.InSeconds) (hi : r.here k i = true)
    (hv : r.verdict k i = some d) (hs : d.state ≠ .pending) (hij : i + 1 ≤ j)
    (habs : ∀ n, i < n → n ≤ j → r.here k n = false) :
    Window (r.now j) (r.now (i + 1)) (durationOrZero r.cfg.withdrawalGrace) (r.verdict k j) := by
  cases hn : needsPriorState r.cfg with
  | false =>
    have hle := hr.now_le hij
    have hg := grace_of_unneeded hn
    rw [Run.verdict, r.memory_of_unneeded hn, habs j hij (le_refl j)]
    exact .elapsed (by omega)
  | true =>
    -- induction on how long the key has been gone
    induction j, hij using Nat.le_induction with
    | base =>
      have hw : d.recorded.withdrawnAt = none := (hi ▸ r.transition hv).withdrawnAt_present
      rw [Run.verdict, hr.memory_succ hn, hv, habs (i + 1) (Nat.lt_succ_self i) (le_refl _)]
      exact Kreg.verdict_window (p := d.recorded) hs (by rw [hw]; rfl) (le_refl _) r.cfg
    | succ j hij ih =>
      have hle := hr.now_le hij
      have hstep := hr.ordered j
      have hw := ih fun n h h' => habs n h (Nat.le_succ_of_le h')
      rw [Run.verdict, hr.memory_succ hn, habs (j + 1) (Nat.lt_succ_of_lt hij) (le_refl _)]
      generalize r.verdict k j = v at hw
      cases hw with
      | @held d' hg hd =>
        have hu : d'.recorded.withdrawnAt = some (r.now (i + 1)) := hd.withdrawnAt
        exact Kreg.verdict_window hd.not_pending (by rw [hu]; rfl) (hle.trans hstep) r.cfg
      | elapsed hg => exact .elapsed (hg.trans (Int.sub_le_sub_right hstep _))

theorem Run.verdict_none_of_absent (r : Run F) (hm : r.verdict k n = none) (hnm : n ≤ m)
    (habs : ∀ l, n < l → l ≤ m → r.here k l = false) : r.verdict k m = none := by
  induction m, hnm using Nat.le_induction with
  | base => exact hm
  | succ m hnm ih =>
    have hv := ih fun l h h' => habs l h (Nat.le_succ_of_le h')
    have hmem : r.memory k (m + 1) = none := by
      cases hn : needsPriorState r.cfg with
      | true => rw [r.memory_succ hn, hv, Option.bind_none]
      | false => exact r.memory_of_unneeded hn k (m + 1)
    rw [Run.verdict, hmem, habs (m + 1) (Nat.lt_succ_of_le hnm) (le_refl _)]
    rfl

theorem Run.verdict_of_unemitted {r : Run F} (h : ∀ c ∈ r.emitted n, c.name ≠ k) :
    r.verdict k n = none := by
  cases hv : r.verdict k n with
  | none => rfl
  | some d =>
    obtain ⟨c, hc, hk, _⟩ := Run.emitted_of_verdict hv
    exact (h c hc hk).elim

theorem Run.filter_emitted_of_mem (r : Run F) (h : ∀ c ∈ (r.tick n).candidates, c.name ≠ k)
    (hc : c ∈ r.emitted n) (hk : c.name = k) :
    (r.emitted n).filter (fun c => c.name == k) = [c] ∧
      ∃ d, c.damping = some d ∧ r.verdict k n = some d := by
  rcases Run.mem_emitted hc with ⟨_, hm⟩ | he
  · exact (h c hm hk).elim
  · rw [hk] at he
    obtain ⟨_, _, d, hd, hv⟩ := Run.emission_eq_some he
    rw [r.filter_emitted_absent h, he]
    exact ⟨rfl, d, hd, hv⟩

theorem Run.not_emitted_iff (r : Run F) (h : ∀ c ∈ (r.tick n).candidates, c.name ≠ k) :
    (∀ c ∈ r.emitted n, c.name ≠ k) ↔ r.verdict k n = none := by
  refine ⟨Run.verdict_of_unemitted, fun hv c hc hk => ?_⟩
  obtain ⟨_, d, _, hd⟩ := r.filter_emitted_of_mem h hc hk
  rw [hv] at hd
  cases hd

theorem Run.not_emitted_of_absent (r : Run F) (hnm : n ≤ m) (h : ∀ c ∈ r.emitted n, c.name ≠ k)
    (habs : ∀ l, n < l → l ≤ m → ∀ c ∈ (r.tick l).candidates, c.name ≠ k) :
    ∀ c ∈ r.emitted m, c.name ≠ k := by
  rcases hnm.eq_or_lt with he | hlt
  · exact he ▸ h
  · rw [r.not_emitted_iff (habs m hlt (le_refl m))]
    exact r.verdict_none_of_absent (Run.verdict_of_unemitted h) hnm fun l hl hl' =>
      r.here_eq_false (habs l hl hl')

/-- The hold-down window is exact. -/
theorem Run.hold_down_window (r : Run F) (hr : r.InSeconds) {c₀ : BackendCandidate F}
    {d₀ : DampingInfo F} (hi : c₀ ∈ r.emitted i) (hk : c₀.name = k) (hd : c₀.damping = some d₀)
    (hs : d₀.state ≠ .pending)
    (hp : ∃ c ∈ (r.tick i).candidates, c.rejected = false ∧ c.name = k)
    (habs : ∀ n, i < n → n ≤ j → ∀ c ∈ (r.tick n).candidates, c.name ≠ k) (hij : i < j) :
    ((∃ c ∈ r.emitted j, c.name = k) ↔
        (r.now j).ns - (r.now (i + 1)).ns < (durationOrZero r.cfg.withdrawalGrace).ns) ∧
      (∀ c ∈ r.emitted j, c.name = k →
        (r.emitted j).filter (fun c => c.name == k) = [c] ∧ ∃ d, c.damping = some d ∧
          (d.state = .holdDown ∨ d.state = .dampened) ∧
            d.withdrawnAt = some (r.now (i + 1))) ∧
      ∀ n m, n ≤ m → (∀ c ∈ r.emitted n, c.name ≠ k) →
        (∀ l, n < l → l ≤ m → ∀ c ∈ (r.tick l).candidates, c.name ≠ k) →
          ∀ c ∈ r.emitted m, c.name ≠ k := by
  have hgone : ∀ n, i < n → n ≤ j → r.here k n = false := fun n h h' =>
    r.here_eq_false (habs n h h')
  have hv : r.verdict k i = some d₀ := hk ▸ Run.verdict_of_emitted hi hd
  have hw := hr.verdict_window (r.here_eq_true_iff.2 hp) hv hs hij hgone
  have habsj := habs j hij (le_refl j)
  refine ⟨?_, ?_, fun n m hnm hnone hquiet => r.not_emitted_of_absent hnm hnone hquiet⟩
  · rw [← hw.ne_none_iff, ne_eq, ← r.not_emitted_iff habsj]
    simp only [ne_eq, not_forall, not_not, exists_prop]
  · intro c hc hck
    obtain ⟨hone, d, hd', hv'⟩ := r.filter_emitted_of_mem habsj hc hck
    rw [hv'] at hw
    cases hw with
    | held _ hheld => exact ⟨hone, d, hd', hheld.state, hheld.withdrawnAt⟩

def graceConfig (seconds : Int) : BGPStabilityConfigSpec :=
  ⟨some (.seconds seconds), none, none⟩

/-- Accepted once, never seen again, with a grace of ten seconds. -/
def leavingRun : Run Rat :=
  sampleRun Rat (graceConfig 10) 5 fun n => if n = 0 then .accepted else .gone

theorem Run.hold_down_window_ten : ∃ c ∈ leavingRun.emitted 2, c.name = "10-0-0-0-24-edge" := by
  have hemit : sampleEmission (newCandidateDamping (clock 0) .zero) ∈ leavingRun.emitted 0 :=
    .head _
  refine (Run.hold_down_window leavingRun (sampleRun_inSeconds _ _ _) hemit ?_ rfl ?_
    ⟨sampleCandidate, .head _, rfl, ?_⟩ ?_ (by decide)).1.2 (by decide)
  · decide
  · decide
  · decide
  · intro n h h' c hc
    have hne : n ≠ 0 := Nat.ne_of_gt h
    simp only [leavingRun, sampleRun, sampleTick, if_neg hne, Sighting.candidates] at hc
    cases hc

end Kreg
