import Kreg.Ewma

namespace Kreg
open Float64
set_option autoImplicit true

variable {F : Type} [Float64 F]

/-- The ways `suppressionState` can go. -/
inductive Suppresses (now : Time) (score : F) : Option Time → Option DampeningConfig →
    Suppression F → Prop where
  | off (since : Option Time) (h : ∀ d, dampening = some d → d.enabled = false) :
      Suppresses now score since dampening ⟨.active, "", score, none⟩
  | capped (he : d.enabled = true) (hc : (maxSuppressOf d).ns ≤ (now.sub u).ns) :
      Suppresses now score (some u) (some d) ⟨.active, "", ofInt 0, none⟩
  | reused (he : d.enabled = true) (hc : (now.sub u).ns < (maxSuppressOf d).ns)
      (hl : lt score (ofInt (reuseThresholdOf d).toInt) = true) :
      Suppresses now score (some u) (some d) ⟨.active, "", score, none⟩
  | kept (he : d.enabled = true) (hc : (now.sub u).ns < (maxSuppressOf d).ns)
      (hl : lt score (ofInt (reuseThresholdOf d).toInt) = false) :
      Suppresses now score (some u) (some d)
        ⟨.dampened, dampenedReuse score (reuseThresholdOf d), score, some u⟩
  | entered (he : d.enabled = true) (hl : le (ofInt (suppressThresholdOf d).toInt) score = true) :
      Suppresses now score none (some d)
        ⟨.dampened, dampenedEntry score (suppressThresholdOf d), score, some now⟩
  | calm (he : d.enabled = true) (hl : le (ofInt (suppressThresholdOf d).toInt) score = false) :
      Suppresses now score none (some d) ⟨.active, "", score, none⟩

theorem suppressionState_suppresses (now : Time) (score : F) (since : Option Time)
    (dampening : Option DampeningConfig) :
    Suppresses now score since dampening (suppressionState now score since dampening) := by
  cases dampening with
  | none => exact .off since fun d hd => nomatch hd
  | some d =>
    cases he : d.enabled with
    | false =>
      have hoff : suppressionState now score since (some d) = ⟨.active, "", score, none⟩ := by
        simp only [suppressionState, he, ↓reduceIte]
      exact hoff ▸ .off since fun d' hd => Option.some.inj hd ▸ he
    | true =>
      cases since with
      | none =>
        simp only [suppressionState, he, Bool.true_eq_false, ↓reduceIte]
        split
        · next hl => exact .entered he hl
        · next hl => exact .calm he (Bool.not_eq_true _ ▸ hl)
      | some u =>
        simp only [suppressionState, he, Bool.true_eq_false, ↓reduceIte]
        split
        · next hc => exact .capped he hc
        · next hc =>
          split
          · next hl => exact .reused he (not_le.1 hc) hl
          · next hl => exact .kept he (not_le.1 hc) (Bool.not_eq_true _ ▸ hl)

theorem Suppresses.state {s : Suppression F} (h : Suppresses now score since dampening s) :
    s.state = .active ∧ s.reason = "" ∧ s.suppressedSince = none ∨
      s.state = .dampened ∧ ∃ u, s.suppressedSince = some u := by
  cases h with
  | off | capped | reused | calm => exact .inl ⟨rfl, rfl, rfl⟩
  | kept | entered => exact .inr ⟨rfl, _, rfl⟩

theorem Suppresses.since_mem {s : Suppression F} (h : Suppresses now score since dampening s) :
    ∀ t ∈ s.suppressedSince, t = now ∨ t ∈ since := by
  intro t ht
  cases h with
  | off | capped | reused | calm => cases ht
  | kept => exact .inr ht
  | entered =>
    cases ht
    exact .inl rfl

/-- When a record with this score is suppressed: over the upper threshold if it was not so far,
and not yet under the lower one if it was. -/
def Suppressed (now : Time) (score : F) (since : Option Time) :
    Option DampeningConfig → Prop
  | none => False
  | some d => d.enabled = true ∧
    match since with
    | some u => (now.sub u).ns < (maxSuppressOf d).ns ∧
        lt score (ofInt (reuseThresholdOf d).toInt) = false
    | none => le (ofInt (suppressThresholdOf d).toInt) score = true

instance (now : Time) (score : F) (since : Option Time) :
    (dampening : Option DampeningConfig) → Decidable (Suppressed now score since dampening)
  | none => inferInstanceAs (Decidable False)
  | some d =>
    match since with
    | some u => inferInstanceAs (Decidable (d.enabled = true ∧
        (now.sub u).ns < (maxSuppressOf d).ns ∧
          lt score (ofInt (reuseThresholdOf d).toInt) = false))
    | none => inferInstanceAs (Decidable (d.enabled = true ∧
        le (ofInt (suppressThresholdOf d).toInt) score = true))

theorem Suppresses.dampened_iff {s : Suppression F} (h : Suppresses now score since dampening s) :
    s.state = .dampened ↔ Suppressed now score since dampening := by
  cases h with
  | off _ hoff =>
    cases dampening with
    | none => simp only [Suppressed, reduceCtorEq]
    | some d =>
      simp only [Suppressed, hoff d rfl, Bool.false_eq_true, false_and, reduceCtorEq]
  | capped he hc => simp only [Suppressed, reduceCtorEq, not_lt.2 hc, false_and, and_false]
  | reused he hc hl => simp only [Suppressed, reduceCtorEq, hl, Bool.true_eq_false, and_false]
  | kept he hc hl => simp only [Suppressed, he, hc, hl, and_self]
  | entered he hl => simp only [Suppressed, he, hl, and_self]
  | calm he hl => simp only [Suppressed, reduceCtorEq, hl, Bool.false_eq_true, and_false]

def DampingInfo.carried (prev : DampingInfo F) (now : Time) (dampening : Option DampeningConfig) :
    F :=
  decayScore prev.score (now.sub prev.lastObservedAt) (halfLifeOf dampening)

/-- The same with the penalty of a flap, if the record was withdrawn. -/
def DampingInfo.charged (prev : DampingInfo F) (now : Time) (dampening : Option DampeningConfig) :
    F :=
  if prev.withdrawnAt.isSome then add (prev.carried now dampening) (ofInt flapPenalty)
  else prev.carried now dampening

theorem observe_suppresses (now : Time) (prev : DampingInfo F)
    (dampening : Option DampeningConfig) :
    ∃ s, Suppresses now (prev.charged now dampening) prev.suppressedSince dampening s ∧
      (observe now prev dampening).state = s.state ∧
      (observe now prev dampening).reason = s.reason ∧
      (observe now prev dampening).score = s.score ∧
      (observe now prev dampening).suppressedSince = s.suppressedSince :=
  ⟨_, suppressionState_suppresses now _ _ _, rfl, rfl, rfl, rfl⟩

theorem hold_suppresses (now withdrawnAt : Time) (prev : DampingInfo F) (grace : Duration)
    (dampening : Option DampeningConfig) :
    ∃ s, Suppresses now (prev.carried now dampening) prev.suppressedSince dampening s ∧
      (hold now withdrawnAt prev grace dampening).state =
        (if s.state = .dampened then .dampened else .holdDown) ∧
      (hold now withdrawnAt prev grace dampening).score = s.score ∧
      (hold now withdrawnAt prev grace dampening).suppressedSince = s.suppressedSince :=
  ⟨_, suppressionState_suppresses now _ _ _, rfl, rfl, rfl⟩

theorem observe_dampened_iff (now : Time) (prev : DampingInfo F)
    (dampening : Option DampeningConfig) :
    (observe now prev dampening).state = .dampened ↔
      Suppressed now (prev.charged now dampening) prev.suppressedSince dampening := by
  obtain ⟨s, hs, hstate, _⟩ := observe_suppresses now prev dampening
  rw [hstate]
  exact hs.dampened_iff

theorem hold_dampened_iff (now withdrawnAt : Time) (prev : DampingInfo F) (grace : Duration)
    (dampening : Option DampeningConfig) :
    (hold now withdrawnAt prev grace dampening).state = .dampened ↔
      Suppressed now (prev.carried now dampening) prev.suppressedSince dampening := by
  obtain ⟨s, hs, hstate, _⟩ := hold_suppresses now withdrawnAt prev grace dampening
  rw [hstate, ← hs.dampened_iff]
  split
  · next h => exact iff_of_true rfl h
  · next h => exact iff_of_false BackendState.noConfusion h

theorem observe_state (now : Time) (prev : DampingInfo F) (dampening : Option DampeningConfig) :
    (observe now prev dampening).state = .active ∨
      (observe now prev dampening).state = .dampened := by
  obtain ⟨s, hs, hstate, _⟩ := observe_suppresses now prev dampening
  rcases hs.state with ⟨ha, _⟩ | ⟨hd, _⟩
  · exact .inl (hstate.trans ha)
  · exact .inr (hstate.trans hd)

theorem observe_not_pending (now : Time) (prev : DampingInfo F)
    (dampening : Option DampeningConfig) : (observe now prev dampening).state ≠ .pending := by
  rcases observe_state now prev dampening with hs | hs
  · exact fun h => nomatch hs.symm.trans h
  · exact fun h => nomatch hs.symm.trans h

theorem hold_state (now withdrawnAt : Time) (prev : DampingInfo F) (grace : Duration)
    (dampening : Option DampeningConfig) :
    (hold now withdrawnAt prev grace dampening).state = .holdDown ∨
      (hold now withdrawnAt prev grace dampening).state = .dampened := by
  obtain ⟨s, _, hs, _⟩ := hold_suppresses now withdrawnAt prev grace dampening
  rw [hs]
  split
  · exact .inr rfl
  · exact .inl rfl

theorem hold_not_pending (now withdrawnAt : Time) (prev : DampingInfo F) (grace : Duration)
    (dampening : Option DampeningConfig) :
    (hold now withdrawnAt prev grace dampening).state ≠ .pending := by
  rcases hold_state now withdrawnAt prev grace dampening with hs | hs
  · exact fun h => nomatch hs.symm.trans h
  · exact fun h => nomatch hs.symm.trans h

/-- One key's step: what the damper says from what it said last time and from whether a
candidate of that key is here. -/
def verdict (now : Time) (cfg : BGPStabilityConfigSpec) (prev : Option (DampingInfo F))
    (here : Bool) : Option (DampingInfo F) :=
  if here then
    some (evaluatePresent now prev (durationOrZero cfg.additionDelay) cfg.dampening)
  else prev.bind fun p => absentDamping now p (durationOrZero cfg.withdrawalGrace) cfg.dampening

def DampingInfo.pendingFrom (d : DampingInfo F) : Time :=
  d.pendingSince.getD d.lastObservedAt

/-- The transitions of one key: a new record, a record still settling, one evaluated, one
held while its route is gone. -/
inductive Transition (now : Time) (cfg : BGPStabilityConfigSpec) :
    Option (DampingInfo F) → Bool → DampingInfo F → Prop where
  | fresh :
      Transition now cfg none true (newCandidateDamping now (durationOrZero cfg.additionDelay))
  | settling (hs : p.state = .pending)
      (hd : (now.sub p.pendingFrom).ns < (durationOrZero cfg.additionDelay).ns) :
      Transition now cfg (some p) true
        (pendingDamping now p.pendingFrom (durationOrZero cfg.additionDelay))
  | observed (hd : p.state = .pending →
        (durationOrZero cfg.additionDelay).ns ≤ (now.sub p.pendingFrom).ns) :
      Transition now cfg (some p) true (observe now p cfg.dampening)
  | held (hs : p.state ≠ .pending)
      (hg : (now.sub (p.withdrawnAt.getD now)).ns < (durationOrZero cfg.withdrawalGrace).ns) :
      Transition now cfg (some p) false
        (hold now (p.withdrawnAt.getD now) p (durationOrZero cfg.withdrawalGrace) cfg.dampening)

theorem absentDamping_eq_some_iff {p : DampingInfo F} :
    absentDamping now p grace dampening = some d ↔
      p.state ≠ .pending ∧ (now.sub (p.withdrawnAt.getD now)).ns < grace.ns ∧
        d = hold now (p.withdrawnAt.getD now) p grace dampening := by
  simp only [absentDamping]
  by_cases hs : p.state = .pending
  · simp only [hs, ↓reduceIte, reduceCtorEq, ne_eq, not_true_eq_false, false_and]
  · by_cases hg : grace.ns ≤ (now.sub (p.withdrawnAt.getD now)).ns
    · simp only [hs, hg, ↓reduceIte, reduceCtorEq, not_lt.2 hg, false_and, and_false]
    · simp only [hs, hg, ↓reduceIte, Option.some.injEq, ne_eq, not_false_eq_true, not_le.1 hg,
        true_and]
      exact eq_comm

/-- The record has nothing to hold down, or its grace is over. -/
def DampingInfo.Lapsed (d : DampingInfo F) (now : Time) (grace : Duration) : Prop :=
  d.state = .pending ∨ grace.ns ≤ (now.sub (d.withdrawnAt.getD now)).ns

theorem absentDamping_eq_none_iff {p : DampingInfo F} :
    absentDamping now p grace dampening = none ↔ p.Lapsed now grace := by
  simp only [absentDamping, DampingInfo.Lapsed]
  by_cases hs : p.state = .pending
  · simp only [hs, ↓reduceIte, true_or]
  · simp only [hs, ↓reduceIte, false_or, ite_eq_left_iff, reduceCtorEq, imp_false, not_not]

theorem evaluatePresent_transition (now : Time) (cfg : BGPStabilityConfigSpec)
    (prev : Option (DampingInfo F)) :
    Transition now cfg prev true
      (evaluatePresent now prev (durationOrZero cfg.additionDelay) cfg.dampening) := by
  cases prev with
  | none => exact .fresh
  | some p =>
    simp only [evaluatePresent]
    split
    · next h => exact .settling h.1 h.2
    · next h => exact .observed fun hs => not_lt.1 fun hd => h ⟨hs, hd⟩

theorem verdict_transition {d : DampingInfo F} (h : verdict now cfg prev here = some d) :
    Transition now cfg prev here d := by
  cases here with
  | true => exact Option.some.inj h ▸ evaluatePresent_transition now cfg prev
  | false =>
    obtain ⟨p, rfl, hp⟩ := Option.bind_eq_some_iff.1 h
    obtain ⟨hs, hg, rfl⟩ := absentDamping_eq_some_iff.1 hp
    exact .held hs hg

theorem Transition.verdict_eq {d : DampingInfo F} (h : Transition now cfg prev here d) :
    verdict now cfg prev here = some d := by
  cases h with
  | fresh => rfl
  | settling hs hd =>
    simp only [verdict, ↓reduceIte, evaluatePresent]
    rw [if_pos ⟨hs, hd⟩]
    rfl
  | observed hd =>
    simp only [verdict, ↓reduceIte, evaluatePresent]
    rw [if_neg fun h => not_lt.2 (hd h.1) h.2]
  | held hs hg => exact absentDamping_eq_some_iff.2 ⟨hs, hg, rfl⟩

theorem verdict_present (now : Time) (cfg : BGPStabilityConfigSpec)
    (prev : Option (DampingInfo F)) : ∃ d, verdict now cfg prev true = some d :=
  ⟨_, rfl⟩

end Kreg
