import Kreg.Seconds

namespace Kreg
open Float64
set_option autoImplicit true

variable {F : Type} [Float64 F]

/-- What a verdict says about itself: each timestamp is there exactly when its state is. -/
structure DampingInfo.Shaped (d : DampingInfo F) (now : Time) (here : Bool) : Prop where
  state : d.state = .active ∨ d.state = .pending ∨ d.state = .holdDown ∨ d.state = .dampened
  suppressed : d.suppressedSince.isSome = true ↔ d.state = .dampened
  pending : d.pendingSince.isSome = true ↔ d.state = .pending
  withdrawn : d.withdrawnAt.isSome = true ↔ here = false
  held : d.state = .holdDown → here = false
  observed : d.lastObservedAt = now

theorem pendingDamping_shaped (now since : Time) (delay : Duration) :
    (pendingDamping now since delay : DampingInfo F).Shaped now true where
  state := .inr (.inl rfl)
  suppressed := ⟨nofun, nofun⟩
  pending := ⟨fun _ => rfl, fun _ => rfl⟩
  withdrawn := ⟨nofun, nofun⟩
  held := nofun
  observed := rfl

theorem newCandidateDamping_shaped (now : Time) (delay : Duration) :
    (newCandidateDamping now delay : DampingInfo F).Shaped now true := by
  rw [newCandidateDamping]
  split
  · exact
      { state := .inl rfl
        suppressed := by simp only [Option.isSome_none, Bool.false_eq_true, reduceCtorEq]
        pending := by simp only [Option.isSome_none, Bool.false_eq_true, reduceCtorEq]
        withdrawn := by simp only [Option.isSome_none, Bool.false_eq_true, reduceCtorEq]
        held := by
          intro h
          cases h
        observed := rfl }
  · exact pendingDamping_shaped now now delay

theorem observe_shaped (now : Time) (prev : DampingInfo F) (dampening : Option DampeningConfig) :
    (observe now prev dampening).Shaped now true := by
  obtain ⟨s, hs, hstate, _, _, hsince⟩ := observe_suppresses now prev dampening
  rcases hs.state with ⟨ha, _, hu⟩ | ⟨hd, u, hu⟩
  · rw [ha] at hstate
    rw [hu] at hsince
    refine ⟨.inl hstate, ?_, ?_, ⟨nofun, nofun⟩, ?_, rfl⟩
    · rw [hsince, hstate]
      exact ⟨nofun, nofun⟩
    · rw [hstate]
      exact ⟨nofun, nofun⟩
    · exact fun h => nomatch hstate.symm.trans h
  · rw [hd] at hstate
    rw [hu] at hsince
    refine ⟨.inr (.inr (.inr hstate)), ?_, ?_, ⟨nofun, nofun⟩, ?_, rfl⟩
    · rw [hsince, hstate]
      exact ⟨fun _ => rfl, fun _ => rfl⟩
    · rw [hstate]
      exact ⟨nofun, nofun⟩
    · exact fun h => nomatch hstate.symm.trans h

theorem hold_shaped (now withdrawnAt : Time) (prev : DampingInfo F) (grace : Duration)
    (dampening : Option DampeningConfig) :
    (hold now withdrawnAt prev grace dampening).Shaped now false := by
  obtain ⟨s, hs, hstate, _, hsince⟩ := hold_suppresses now withdrawnAt prev grace dampening
  rcases hs.state with ⟨ha, _, hu⟩ | ⟨hd, u, hu⟩
  · rw [ha, if_neg (nomatch ·)] at hstate
    rw [hu] at hsince
    refine ⟨.inr (.inr (.inl hstate)), ?_, ?_, ⟨fun _ => rfl, fun _ => rfl⟩, fun _ => rfl, rfl⟩
    · rw [hsince, hstate]
      exact ⟨nofun, nofun⟩
    · rw [hstate]
      exact ⟨nofun, nofun⟩
  · rw [hd, if_pos rfl] at hstate
    rw [hu] at hsince
    refine ⟨.inr (.inr (.inr hstate)), ?_, ?_, ⟨fun _ => rfl, fun _ => rfl⟩, fun _ => rfl, rfl⟩
    · rw [hsince, hstate]
      exact ⟨fun _ => rfl, fun _ => rfl⟩
    · rw [hstate]
      exact ⟨nofun, nofun⟩

theorem Transition.shaped {d : DampingInfo F} (h : Transition now cfg prev here d) :
    d.Shaped now here := by
  cases h with
  | fresh => exact newCandidateDamping_shaped _ _
  | settling => exact pendingDamping_shaped _ _ _
  | observed => exact observe_shaped _ _ _
  | held => exact hold_shaped _ _ _ _ _

def Run.Dampened (r : Run F) (k : String) (l : Nat) : Prop :=
  ∃ d, r.verdict k l = some d ∧ d.state = .dampened

/-- Tick `m` opens the streak of `Dampened` verdicts that is still going on at `n`. -/
structure Run.Streak (r : Run F) (k : String) (m n : Nat) : Prop where
  le : m ≤ n
  dampened : ∀ l, m ≤ l → l ≤ n → r.Dampened k l
  first : ∀ l, l + 1 = m → ¬ r.Dampened k l

theorem Run.Streak.succ {r : Run F} (h : r.Streak k m n) (hd : r.Dampened k (n + 1)) :
    r.Streak k m (n + 1) where
  le := Nat.le_succ_of_le h.le
  dampened l hm hn := by
    rcases Nat.le_succ_iff.1 hn with hn | rfl
    · exact h.dampened l hm hn
    · exact hd
  first := h.first

def Run.Capped (r : Run F) (m n : Nat) : Prop :=
  ∃ d, r.cfg.dampening = some d ∧
    (r.now m = r.now n ∨ (r.now n).ns - (r.now m).ns < (maxSuppressOf d).ns)

/-- How a verdict's timestamps relate to the run that led to it. -/
structure Run.Timed (r : Run F) (k : String) (n : Nat) (d : DampingInfo F) : Prop where
  withdrawn : ∀ t, d.withdrawnAt = some t → t.ns ≤ (r.now n).ns
  pending : ∀ t, d.pendingSince = some t → t.ns ≤ (r.now n).ns
  suppressed : ∀ t, d.suppressedSince = some t →
    ∃ m, t = r.now m ∧ r.Streak k m n ∧ r.Capped m n

theorem Run.Timed.fresh (r : Run F) (k : String) (n : Nat) (delay : Duration) :
    r.Timed k n (newCandidateDamping (r.now n) delay) := by
  rw [newCandidateDamping]
  split
  · exact ⟨forall_mem_none, forall_mem_none, forall_mem_none⟩
  · refine ⟨forall_mem_none, ?_, forall_mem_none⟩
    intro t h
    exact Option.some.inj h ▸ le_refl _

theorem Run.Timed.suppresses {r : Run F} (hr : r.InSeconds) {d d' : DampingInfo F}
    {s : Suppression F}
    (h : r.Timed k n d) (hv : r.verdict k n = some d) (hsh : d.Shaped (r.now n) b)
    (hv' : r.verdict k (n + 1) = some d') (hd : d'.state = .dampened)
    (hs : Suppresses (r.now (n + 1)) score d.suppressedSince r.cfg.dampening s)
    (ht : s.suppressedSince = some t) :
    ∃ m, t = r.now m ∧ r.Streak k m (n + 1) ∧ r.Capped m (n + 1) := by
  have hdamp : r.Dampened k (n + 1) := ⟨d', hv', hd⟩
  generalize hsince : d.suppressedSince = since at hs
  generalize hcfg : r.cfg.dampening = dampening at hs
  cases hs with
  | off | capped | reused | calm => cases ht
  | kept _ hc =>
    cases ht
    obtain ⟨m, rfl, hstreak, _⟩ := h.suppressed t hsince
    rw [Time.sub_lt_iff (hr.now_le (Nat.le_succ_of_le hstreak.le))] at hc
    exact ⟨m, rfl, hstreak.succ hdamp, _, hcfg, .inr hc⟩
  | entered =>
    cases ht
    refine ⟨n + 1, rfl, ⟨le_refl _, ?_, ?_⟩, _, hcfg, .inl rfl⟩
    · intro l hl hl'
      exact le_antisymm hl' hl ▸ hdamp
    · rintro l hl ⟨d₀, hv₀, hd₀⟩
      cases Nat.succ.inj hl
      cases hv.symm.trans hv₀
      have hsome := hsh.suppressed.2 hd₀
      rw [hsince] at hsome
      cases hsome

theorem Run.Timed.step {r : Run F} (hr : r.InSeconds) {d d' : DampingInfo F}
    (h : r.Timed k n d) (hv : r.verdict k n = some d) (hv' : r.verdict k (n + 1) = some d')
    (ht : Transition (r.now (n + 1)) r.cfg (some d.recorded) (r.here k (n + 1)) d') :
    r.Timed k (n + 1) d' := by
  have hsh := (r.transition hv).shaped
  have hstep := hr.ordered n
  generalize r.here k (n + 1) = b at ht
  cases ht with
  | settling =>
    refine ⟨forall_mem_none, ?_, forall_mem_none⟩
    intro t ht
    cases ht
    rw [DampingInfo.pendingFrom]
    cases hp : d.recorded.pendingSince with
    | none => exact (congrArg Time.ns hsh.observed).le.trans hstep
    | some t => exact (h.pending t hp).trans hstep
  | observed =>
    refine ⟨forall_mem_none, forall_mem_none, ?_⟩
    intro t ht
    obtain ⟨s, hs, hstate, _, _, hsince⟩ :=
      observe_suppresses (r.now (n + 1)) d.recorded r.cfg.dampening
    have hd := (observe_shaped (r.now (n + 1)) d.recorded r.cfg.dampening).suppressed.1
      (Option.isSome_of_mem ht)
    exact h.suppresses hr hv hsh hv' hd hs (hsince.symm.trans ht)
  | held =>
    refine ⟨?_, forall_mem_none, ?_⟩
    · intro t ht
      cases ht
      cases hw : d.recorded.withdrawnAt with
      | none => exact le_refl _
      | some t => exact (h.withdrawn t hw).trans hstep
    · intro t ht
      obtain ⟨s, hs, _, _, hsince⟩ := hold_suppresses (r.now (n + 1))
        (d.recorded.withdrawnAt.getD (r.now (n + 1))) d.recorded
        (durationOrZero r.cfg.withdrawalGrace) r.cfg.dampening
      have hd := (hold_shaped (r.now (n + 1)) (d.recorded.withdrawnAt.getD (r.now (n + 1)))
        d.recorded (durationOrZero r.cfg.withdrawalGrace) r.cfg.dampening).suppressed.1
        (Option.isSome_of_mem ht)
      exact h.suppresses hr hv hsh hv' hd hs (hsince.symm.trans ht)

theorem Run.InSeconds.timed {r : Run F} (hr : r.InSeconds) (h : r.start = ∅)
    (hv : r.verdict k n = some d) : r.Timed k n d :=
  hr.verdict_induction h (fun n _ => .fresh r k n _)
    (fun _ _ _ hv hp hv' ht => hp.step hr hv hv' ht) n d hv

/-- The tick's own input holds this candidate, before it got its verdict. -/
def Tick.Supplies (t : Tick F) (c : BackendCandidate F) : Prop :=
  { c with damping := none } ∈ t.candidates

theorem Run.supplies_iff {r : Run F} (h : r.emission k n = some c) :
    (r.tick n).Supplies c ↔ r.here k n = true := by
  obtain ⟨hk, hr, _⟩ := Run.emission_eq_some h
  constructor
  · intro hs
    exact r.here_eq_true_iff.2 ⟨_, hs, hr, hk⟩
  · intro hh
    obtain ⟨a, ha⟩ := Option.isSome_iff_exists.1 hh
    have hm := (present_eq_some ha).1
    have he : evaluateCandidate (r.now n) ((r.tick n).prior r.cfg (r.store n)) r.cfg a = c := by
      simp only [Run.emission, Tick.emission, Kreg.emission, ha, Option.some.injEq] at h
      exact h
    rw [Tick.Supplies, ← he, evaluateCandidate_undo _ _ _ ((r.tick n).undamped a hm)]
    exact hm

def Run.EmitsDampened (r : Run F) (k : String) (l : Nat) : Prop :=
  ∃ a ∈ r.emitted l, a.name = k ∧ ∃ d, a.damping = some d ∧ d.state = .dampened

theorem Run.emitsDampened_iff (r : Run F) (k : String) (l : Nat) :
    r.EmitsDampened k l ↔ r.Dampened k l := by
  constructor
  · rintro ⟨a, ha, rfl, d, hd, hs⟩
    exact ⟨d, Run.verdict_of_emitted ha hd, hs⟩
  · rintro ⟨d, hv, hs⟩
    obtain ⟨a, ha, hk, _, hd⟩ := Run.emitted_of_verdict hv
    exact ⟨a, ha, hk, d, hd, hs⟩

/-- The reachable-state invariant of the damper. -/
theorem Run.coherent (r : Run F) (hsec : r.InSeconds) (h : r.start = ∅) {c : BackendCandidate F}
    (hc : c ∈ r.emitted n) :
    (c.damping = none ↔ c.rejected = true) ∧ ∀ d, c.damping = some d →
      (d.state = .active ∨ d.state = .pending ∨ d.state = .holdDown ∨ d.state = .dampened) ∧
      (d.suppressedSince.isSome = true ↔ d.state = .dampened) ∧
      (d.pendingSince.isSome = true ↔ d.state = .pending) ∧
      (d.withdrawnAt.isSome = true ↔ ¬ (r.tick n).Supplies c) ∧
      (d.state = .holdDown → ¬ (r.tick n).Supplies c) ∧
      d.lastObservedAt = r.now n ∧
      (∀ t, d.withdrawnAt = some t ∨ d.suppressedSince = some t ∨ d.pendingSince = some t →
        t.ns ≤ (r.now n).ns) ∧
      (d.state = .dampened → ∃ m ≤ n, d.suppressedSince = some (r.now m) ∧
        (∀ l, m ≤ l → l ≤ n → r.EmitsDampened c.name l) ∧
        (∀ l, l + 1 = m → ¬ r.EmitsDampened c.name l) ∧
        ∃ dampening, r.cfg.dampening = some dampening ∧
          (r.now m = r.now n ∨
            (r.now n).ns - (r.now m).ns < (maxSuppressOf dampening).ns)) := by
  rcases Run.mem_emitted hc with ⟨hr, hm⟩ | he
  · have hd := (r.tick n).undamped c hm
    refine ⟨⟨fun _ => hr, fun _ => hd⟩, fun d hd' => ?_⟩
    rw [hd] at hd'
    cases hd'
  · obtain ⟨_, hr, d, hd, hv⟩ := Run.emission_eq_some he
    have hiff : c.damping = none ↔ c.rejected = true := by
      rw [hd, hr]
      exact ⟨nofun, nofun⟩
    refine ⟨hiff, fun d' hd' => ?_⟩
    cases hd.symm.trans hd'
    have hsh := (r.transition hv).shaped
    have htimed := hsec.timed h hv
    have hsup := Run.supplies_iff he
    simp only [Run.emitsDampened_iff, hsup, Bool.not_eq_true]
    refine ⟨hsh.state, hsh.suppressed, hsh.pending, hsh.withdrawn, hsh.held, hsh.observed, ?_, ?_⟩
    · rintro t (ht | ht | ht)
      · exact htimed.withdrawn t ht
      · obtain ⟨m, rfl, hstreak, _⟩ := htimed.suppressed t ht
        exact hsec.now_le hstreak.le
      · exact htimed.pending t ht
    · intro hs
      obtain ⟨t, ht⟩ := Option.isSome_iff_exists.1 (hsh.suppressed.2 hs)
      obtain ⟨m, rfl, hstreak, hcap⟩ := htimed.suppressed t ht
      exact ⟨m, hstreak.le, ht, hstreak.dampened, hstreak.first, hcap⟩

/-- Withdrawn for one tick, under a threshold one flap reaches. -/
def flappingRun : Run Rat :=
  sampleRun Rat ⟨some (.seconds 30), none, some ⟨true, none, some 1000, none, none⟩⟩ 5
    fun n => if n = 1 then .gone else .accepted

def flappingVerdict : DampingInfo Rat where
  state := .dampened
  reason := "flap-dampened: score 1000 (reuse below 750)"
  score := 1000
  flapCount24h := 1
  lastObservedAt := clock 15
  withdrawnAt := none
  suppressedSince := some (clock 10)
  pendingSince := none

theorem Run.coherent_flapping : ∃ m ≤ 3, some (clock 10) = some (flappingRun.now m) ∧
    ∀ l, m ≤ l → l ≤ 3 → flappingRun.EmitsDampened "10-0-0-0-24-edge" l := by
  have hc : sampleEmission flappingVerdict ∈ flappingRun.emitted 3 := by
    decide +kernel
  have hcoherent := flappingRun.coherent (sampleRun_inSeconds _ _ _) rfl hc
  obtain ⟨m, hm, hs, hl, _⟩ := (hcoherent.2 _ rfl).2.2.2.2.2.2.2 rfl
  exact ⟨m, hm, hs, hl⟩

end Kreg
