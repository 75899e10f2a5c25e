import Kreg.DurableMemory

namespace Kreg
open Float64
set_option autoImplicit true

/-- How far back a verdict of this instant lies once it is stored in whole seconds. -/
def Time.lag (now : Time) : Duration :=
  now.sub now.truncate

variable {F : Type} [Float64 F]

/-- A score reached at `now`, as a second look at the same instant finds it. -/
def rescored (now : Time) (dampening : Option DampeningConfig) (score : F) : F :=
  decayScore (ofInt (clampToInt32 score).toInt) now.lag (halfLifeOf dampening)

/-- The stored score is on the side of the thresholds that the score itself is on. -/
def SuppressionSteady (now : Time) (score : F) (since : Option Time) :
    Option DampeningConfig → Prop
  | none => True
  | some d => d.enabled = true →
    let suppress : F := ofInt (suppressThresholdOf d).toInt
    let reuse : F := ofInt (reuseThresholdOf d).toInt
    match since with
    | some u =>
      if (maxSuppressOf d).ns ≤ (now.sub u).ns then
        le suppress (rescored now (some d) (ofInt 0 : F)) = false
      else if lt score reuse then le suppress (rescored now (some d) score) = false
      else lt (rescored now (some d) score) reuse = false
    | none =>
      if le suppress score then
        now.lag.ns < (maxSuppressOf d).ns ∧ lt (rescored now (some d) score) reuse = false
      else le suppress (rescored now (some d) score) = false

theorem suppressionSteady_iff {now : Time} (hz : now.isZero = false) {since : Option Time}
    (hs : ∀ u ∈ since, u.Whole) (score : F) (dampening : Option DampeningConfig) :
    SuppressionSteady now score since dampening ↔
      (Suppressed now score since dampening ↔
        Suppressed now
          (rescored now dampening (suppressionState now score since dampening).score)
          ((metaTimeOrNil (suppressionState now score since dampening).suppressedSince).map
            Time.truncate) dampening) := by
  have h := suppressionState_suppresses now score since dampening
  rw [← h.dampened_iff]
  generalize suppressionState now score since dampening = s at h
  cases h with
  | off _ hoff =>
    cases dampening with
    | none => simp only [SuppressionSteady, Suppressed, reduceCtorEq]
    | some d =>
      simp only [SuppressionSteady, Suppressed, hoff d rfl, Bool.false_eq_true, false_implies,
        false_and, reduceCtorEq]
  | @capped d u he hc =>
    simp only [SuppressionSteady, Suppressed, he, hc, ↓reduceIte, forall_const, reduceCtorEq,
      metaTimeOrNil, Option.bind_none, Option.map_none, true_and, false_iff, Bool.not_eq_true]
  | @reused d u he hc hl =>
    simp only [SuppressionSteady, Suppressed, he, not_le.2 hc, hl, ↓reduceIte, forall_const,
      reduceCtorEq, metaTimeOrNil, Option.bind_none, Option.map_none, true_and, false_iff,
      Bool.not_eq_true]
  | @kept d u he hc hl =>
    simp only [SuppressionSteady, Suppressed, he, not_le.2 hc, hl, Bool.false_eq_true, ↓reduceIte,
      forall_const, metaTimeOrNil_stored hs, hc, true_and, true_iff]
  | @entered d he hl =>
    have hnow : (metaTimeOrNil (some now)).map Time.truncate = some now.truncate := by
      simp only [metaTimeOrNil, Option.bind_some, metaTime, hz, Bool.false_eq_true, ↓reduceIte,
        Option.map_some]
    simp only [SuppressionSteady, Suppressed, he, hl, ↓reduceIte, forall_const, hnow, true_and,
      true_iff, Time.lag]
  | @calm d he hl =>
    simp only [SuppressionSteady, Suppressed, he, hl, Bool.false_eq_true, ↓reduceIte,
      forall_const, reduceCtorEq, metaTimeOrNil, Option.bind_none, Option.map_none, true_and,
      false_iff, Bool.not_eq_true]

/-- When a key is served: not while it settles, not while it is suppressed, and without a
candidate only within its grace. -/
def Serves (now : Time) (cfg : BGPStabilityConfigSpec) : Option (DampingInfo F) → Bool → Prop
  | none, true => (durationOrZero cfg.additionDelay).ns ≤ 0
  | none, false => False
  | some p, true =>
    ¬ (p.state = .pending ∧
      (now.sub p.pendingFrom).ns < (durationOrZero cfg.additionDelay).ns) ∧
    ¬ Suppressed now (p.charged now cfg.dampening) p.suppressedSince cfg.dampening
  | some p, false =>
    p.state ≠ .pending ∧
    (now.sub (p.withdrawnAt.getD now)).ns < (durationOrZero cfg.withdrawalGrace).ns ∧
    ¬ Suppressed now (p.carried now cfg.dampening) p.suppressedSince cfg.dampening

def DampingInfo.Servable (d : DampingInfo F) : Prop :=
  d.state ≠ .dampened ∧ d.state ≠ .pending

theorem observe_servable_iff (now : Time) (p : DampingInfo F)
    (dampening : Option DampeningConfig) :
    (observe now p dampening).Servable ↔
      ¬ Suppressed now (p.charged now dampening) p.suppressedSince dampening := by
  rw [← observe_dampened_iff, DampingInfo.Servable,
    and_iff_left (observe_not_pending now p dampening)]

theorem hold_servable_iff (now withdrawnAt : Time) (p : DampingInfo F) (grace : Duration)
    (dampening : Option DampeningConfig) :
    (hold now withdrawnAt p grace dampening).Servable ↔
      ¬ Suppressed now (p.carried now dampening) p.suppressedSince dampening := by
  rw [← hold_dampened_iff now withdrawnAt p grace, DampingInfo.Servable,
    and_iff_left (hold_not_pending now withdrawnAt p grace dampening)]

theorem serves_iff {now : Time} {cfg : BGPStabilityConfigSpec} {prev : Option (DampingInfo F)}
    {here : Bool} :
    Serves now cfg prev here ↔ ∃ d, verdict now cfg prev here = some d ∧ d.Servable := by
  cases prev with
  | none =>
    cases here with
    | false => simp only [Serves, verdict, Bool.false_eq_true, ↓reduceIte, Option.bind_none,
        reduceCtorEq, false_and, exists_false]
    | true =>
      simp only [Serves, verdict, ↓reduceIte, evaluatePresent, Option.some.injEq, exists_eq_left',
        newCandidateDamping]
      split
      · next h =>
        simp only [h, DampingInfo.Servable, ne_eq, reduceCtorEq, not_false_eq_true, and_self]
      · next h => exact ⟨fun h' => absurd h' h, fun h' => absurd rfl h'.2⟩
  | some p =>
    cases here with
    | true =>
      by_cases h : p.state = .pending ∧
          (now.sub p.pendingFrom).ns < (durationOrZero cfg.additionDelay).ns
      · have hv : verdict now cfg (some p) true = _ := Transition.verdict_eq (.settling h.1 h.2)
        simp only [Serves, hv, Option.some.injEq, exists_eq_left']
        exact ⟨fun h' => absurd h h'.1, fun h' => absurd rfl h'.2⟩
      · have hv : verdict now cfg (some p) true = some (observe now p cfg.dampening) :=
          Transition.verdict_eq (.observed fun hs => not_lt.1 fun hd => h ⟨hs, hd⟩)
        simp only [Serves, hv, Option.some.injEq, exists_eq_left']
        rw [observe_servable_iff, and_iff_right h]
    | false =>
      simp only [Serves, verdict, Bool.false_eq_true, ↓reduceIte, Option.bind_some,
        absentDamping_eq_some_iff, and_assoc, exists_and_left, exists_eq_left,
        hold_servable_iff]

theorem DampingInfo.restored_carried {d : DampingInfo F} (h : d.lastObservedAt = now)
    (dampening : Option DampeningConfig) :
    d.restored.carried now dampening = rescored now dampening d.score := by
  subst h
  rfl

theorem serves_restored_present {d : DampingInfo F} (hl : d.lastObservedAt = now)
    (hw : d.withdrawnAt = none) (hp : d.state ≠ .pending) :
    Serves now cfg (some d.restored) true ↔
      ¬ Suppressed now (rescored now cfg.dampening d.score)
        ((metaTimeOrNil d.suppressedSince).map Time.truncate) cfg.dampening := by
  have hcharged : d.restored.charged now cfg.dampening = rescored now cfg.dampening d.score := by
    have hnone : d.restored.withdrawnAt = none := by
      rw [DampingInfo.restored, hw]
      rfl
    rw [DampingInfo.charged, hnone, DampingInfo.restored_carried hl]
    rfl
  have hpending : ¬ (d.restored.state = .pending ∧
      (now.sub d.restored.pendingFrom).ns < (durationOrZero cfg.additionDelay).ns) :=
    fun h => hp h.1
  rw [Serves, hcharged, and_iff_right hpending]
  rfl

theorem serves_restored_absent {d : DampingInfo F} (hl : d.lastObservedAt = now)
    (hp : d.state ≠ .pending) :
    Serves now cfg (some d.restored) false ↔
      (now.sub (((metaTimeOrNil d.withdrawnAt).map Time.truncate).getD now)).ns <
          (durationOrZero cfg.withdrawalGrace).ns ∧
        ¬ Suppressed now (rescored now cfg.dampening d.score)
          ((metaTimeOrNil d.suppressedSince).map Time.truncate) cfg.dampening := by
  have hpending : d.restored.state ≠ .pending := hp
  rw [Serves, DampingInfo.restored_carried hl, and_iff_right hpending]
  rfl

/-- A second look at the same instant, at what the first one left, serves what the first one did:
the condition on the record that the first one found. -/
def KeySteady (now : Time) (cfg : BGPStabilityConfigSpec) : Option (DampingInfo F) → Bool → Prop
  | none, true =>
    let again := Suppressed now (rescored now cfg.dampening (ofInt 0 : F)) none cfg.dampening
    if (durationOrZero cfg.additionDelay).ns ≤ 0 then ¬ again
    else now.lag.ns < (durationOrZero cfg.additionDelay).ns ∨ again
  | none, false => True
  | some p, true =>
    p.state = .pending ∧ (now.sub p.pendingFrom).ns < (durationOrZero cfg.additionDelay).ns ∨
      SuppressionSteady now (p.charged now cfg.dampening) p.suppressedSince cfg.dampening
  | some p, false =>
    p.Lapsed now (durationOrZero cfg.withdrawalGrace) ∨
      if p.withdrawnAt = none ∧ (durationOrZero cfg.withdrawalGrace).ns ≤ now.lag.ns then
        Suppressed now (p.carried now cfg.dampening) p.suppressedSince cfg.dampening
      else SuppressionSteady now (p.carried now cfg.dampening) p.suppressedSince cfg.dampening

theorem newCandidateDamping_unscored (now : Time) (delay : Duration) :
    (newCandidateDamping now delay : DampingInfo F).score = ofInt 0 ∧
      (newCandidateDamping now delay : DampingInfo F).suppressedSince = none := by
  rw [newCandidateDamping]
  split
  · exact ⟨rfl, rfl⟩
  · exact ⟨rfl, rfl⟩

section SecondLook

variable {now : Time} (hz : now.isZero = false)
include hz

theorem metaTimeOrNil_now : (metaTimeOrNil (some now)).map Time.truncate = some now.truncate := by
  simp only [metaTimeOrNil, Option.bind_some, metaTime, hz, Bool.false_eq_true, ↓reduceIte,
    Option.map_some]

theorem keySteady_fresh_iff (cfg : BGPStabilityConfigSpec) :
    KeySteady (F := F) now cfg none true ↔
      (Serves (F := F) now cfg none true ↔
        Serves now cfg ((verdict (F := F) now cfg none true).bind DampingInfo.kept) true) := by
  have hv : verdict (F := F) now cfg none true =
      some (newCandidateDamping now (durationOrZero cfg.additionDelay)) := rfl
  have hl := (verdict_transition hv).lastObservedAt_eq
  rw [hv, Option.bind_some, DampingInfo.kept_eq_restored (hl.symm ▸ hz)]
  by_cases hd : (durationOrZero cfg.additionDelay).ns ≤ 0
  · have hp : (newCandidateDamping now (durationOrZero cfg.additionDelay) :
        DampingInfo F).state ≠ .pending := by
      rw [newCandidateDamping, if_pos hd]
      exact BackendState.noConfusion
    obtain ⟨hscore, hsince⟩ := newCandidateDamping_unscored (F := F) now
      (durationOrZero cfg.additionDelay)
    rw [serves_restored_present hl (newCandidateDamping_withdrawnAt _ _) hp, hscore, hsince]
    simp only [KeySteady, Serves, hd, ↓reduceIte, true_iff]
    rfl
  · have hnew : (newCandidateDamping now (durationOrZero cfg.additionDelay) : DampingInfo F) =
        pendingDamping now now (durationOrZero cfg.additionDelay) := by
      rw [newCandidateDamping, if_neg hd]
    have hfrom : (pendingDamping (F := F) now now
        (durationOrZero cfg.additionDelay)).restored.pendingFrom = now.truncate := by
      rw [DampingInfo.pendingFrom, DampingInfo.restored, pendingDamping, metaTimeOrNil_now hz]
      rfl
    rw [hnew]
    simp only [KeySteady, Serves, hd, ↓reduceIte, false_iff, hfrom]
    rw [not_and_or, not_not, not_not]
    apply or_congr
    · exact ⟨fun h => ⟨rfl, h⟩, fun h => h.2⟩
    · exact Iff.rfl

theorem serves_settling {p : DampingInfo F} (hs : p.Stamped) (hp : p.state = .pending)
    (hd : (now.sub p.pendingFrom).ns < (durationOrZero cfg.additionDelay).ns) :
    ¬ Serves now cfg ((verdict now cfg (some p) true).bind DampingInfo.kept) true := by
  have hwhole : p.pendingFrom.Whole := by
    rw [DampingInfo.pendingFrom]
    cases h : p.pendingSince with
    | none => exact hs.observed
    | some t => exact hs.pending t h
  have hv : verdict now cfg (some p) true =
      some (pendingDamping now p.pendingFrom (durationOrZero cfg.additionDelay)) :=
    Transition.verdict_eq (.settling hp hd)
  have hl : (pendingDamping (F := F) now p.pendingFrom
      (durationOrZero cfg.additionDelay)).lastObservedAt.isZero = false := hz
  have hfrom : (pendingDamping (F := F) now p.pendingFrom
      (durationOrZero cfg.additionDelay)).restored.pendingFrom = p.pendingFrom := by
    have hstored : (metaTimeOrNil (some p.pendingFrom)).map Time.truncate = some p.pendingFrom :=
      metaTime_stored hwhole
    rw [DampingInfo.pendingFrom, DampingInfo.restored, pendingDamping, hstored]
    rfl
  rw [hv, Option.bind_some, DampingInfo.kept_eq_restored hl, Serves, hfrom]
  exact fun h => h.1 ⟨rfl, hd⟩

theorem suppressionSteady_observed_iff {p : DampingInfo F} (hs : p.Stamped)
    (h : ¬ (p.state = .pending ∧
      (now.sub p.pendingFrom).ns < (durationOrZero cfg.additionDelay).ns)) :
    SuppressionSteady now (p.charged now cfg.dampening) p.suppressedSince cfg.dampening ↔
      (Serves now cfg (some p) true ↔
        Serves now cfg ((verdict now cfg (some p) true).bind DampingInfo.kept) true) := by
  have hv : verdict now cfg (some p) true = some (observe now p cfg.dampening) :=
    Transition.verdict_eq (.observed fun hp => not_lt.1 fun hd => h ⟨hp, hd⟩)
  have hl : (observe now p cfg.dampening).lastObservedAt = now := rfl
  rw [hv, Option.bind_some, DampingInfo.kept_eq_restored (hl.symm ▸ hz),
    serves_restored_present hl rfl (observe_not_pending now p cfg.dampening), Serves,
    and_iff_right h, not_iff_not, suppressionSteady_iff hz hs.suppressed]
  rfl

theorem suppressionSteady_held_iff {p : DampingInfo F} (hs : p.Stamped) (hp : p.state ≠ .pending)
    (hg : (now.sub (p.withdrawnAt.getD now)).ns < (durationOrZero cfg.withdrawalGrace).ns) :
    (if p.withdrawnAt = none ∧ (durationOrZero cfg.withdrawalGrace).ns ≤ now.lag.ns then
        Suppressed now (p.carried now cfg.dampening) p.suppressedSince cfg.dampening
      else SuppressionSteady now (p.carried now cfg.dampening) p.suppressedSince cfg.dampening) ↔
      (Serves now cfg (some p) false ↔
        Serves now cfg ((verdict now cfg (some p) false).bind DampingInfo.kept) false) := by
  have hv : verdict now cfg (some p) false = _ := Transition.verdict_eq (.held hp hg)
  generalize hd : hold now (p.withdrawnAt.getD now) p (durationOrZero cfg.withdrawalGrace)
    cfg.dampening = d at hv
  have hl : d.lastObservedAt = now := (verdict_transition hv).lastObservedAt_eq
  have hpd : d.state ≠ .pending := hd ▸ hold_not_pending now _ p _ cfg.dampening
  have hwd : d.withdrawnAt = some (p.withdrawnAt.getD now) := hd ▸ rfl
  have hserves : Serves now cfg (some p) false ↔
      ¬ Suppressed now (p.carried now cfg.dampening) p.suppressedSince cfg.dampening := by
    rw [Serves, and_iff_right hp, and_iff_right hg]
  rw [hv, Option.bind_some, DampingInfo.kept_eq_restored (hl.symm ▸ hz),
    serves_restored_absent hl hpd, hserves, hwd]
  have hagain := suppressionSteady_iff hz hs.suppressed (p.carried now cfg.dampening) cfg.dampening
  have hsame : SuppressionSteady now (p.carried now cfg.dampening) p.suppressedSince cfg.dampening ↔
      (Suppressed now (p.carried now cfg.dampening) p.suppressedSince cfg.dampening ↔
        Suppressed now (rescored now cfg.dampening d.score)
          ((metaTimeOrNil d.suppressedSince).map Time.truncate) cfg.dampening) := by
    rw [← hd]
    exact hagain
  cases hw : p.withdrawnAt with
  | none =>
    rw [Option.getD_none, metaTimeOrNil_now hz, Option.getD_some]
    change (if _ ∧ _ ≤ now.lag.ns then _ else _) ↔ (_ ↔ now.lag.ns < _ ∧ _)
    by_cases hgone : (durationOrZero cfg.withdrawalGrace).ns ≤ now.lag.ns
    · rw [if_pos ⟨rfl, hgone⟩]
      simp only [not_lt.2 hgone, false_and, iff_false, not_not]
    · rw [if_neg fun h => hgone h.2, and_iff_right (not_le.1 hgone), not_iff_not]
      exact hsame
  | some w =>
    have hstored : (metaTimeOrNil (some w)).map Time.truncate = some w :=
      metaTime_stored (hs.withdrawn w hw)
    rw [hw, Option.getD_some] at hg
    rw [Option.getD_some, hstored, Option.getD_some, and_iff_right hg, not_iff_not,
      if_neg fun h => Option.some_ne_none w h.1]
    exact hsame

/-- Looking twice at one key of the records serves the same exactly if the record is steady. -/
theorem keySteady_iff {prev : Option (DampingInfo F)} (hs : ∀ p ∈ prev, p.Stamped) (here : Bool)
    (cfg : BGPStabilityConfigSpec) :
    KeySteady now cfg prev here ↔
      (Serves now cfg prev here ↔
        Serves now cfg ((verdict now cfg prev here).bind DampingInfo.kept) here) := by
  cases prev with
  | none =>
    cases here with
    | true => exact keySteady_fresh_iff hz cfg
    | false => exact ⟨fun _ => Iff.rfl, fun _ => trivial⟩
  | some p =>
    have hp := hs p rfl
    cases here with
    | true =>
      by_cases h : p.state = .pending ∧
          (now.sub p.pendingFrom).ns < (durationOrZero cfg.additionDelay).ns
      · have hfirst : ¬ Serves now cfg (some p) true := fun hserves => hserves.1 h
        have hsecond := serves_settling hz hp h.1 h.2
        simp only [KeySteady, h, and_self, true_or, hfirst, hsecond]
      · rw [KeySteady, or_iff_right h]
        exact suppressionSteady_observed_iff hz hp h
    | false =>
      by_cases hgone : p.Lapsed now (durationOrZero cfg.withdrawalGrace)
      · have hv : verdict now cfg (some p) false = none := absentDamping_eq_none_iff.2 hgone
        have hfirst : ¬ Serves now cfg (some p) false := by
          rw [serves_iff, hv]
          rintro ⟨d, hd, _⟩
          cases hd
        rw [KeySteady, hv, Option.bind_none]
        exact ⟨fun _ => ⟨fun h => absurd h hfirst, False.elim⟩, fun _ => .inl hgone⟩
      · rw [KeySteady, or_iff_right hgone]
        rw [DampingInfo.Lapsed, not_or] at hgone
        exact suppressionSteady_held_iff hz hp hgone.1 (not_le.1 hgone.2)

end SecondLook

end Kreg
