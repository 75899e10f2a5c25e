import Kreg.DurableMemory

namespace Kreg
open Float64
set_option autoImplicit true

variable {F : Type}

def DampingInfo.unscored (d : DampingInfo F) : DampingInfo Unit :=
  { d with score := (), flapCount24h := 0 }

def BackendCandidate.unscored (c : BackendCandidate F) : BackendCandidate Unit :=
  { c with damping := c.damping.map DampingInfo.unscored }

def AdvertisedBackend.unscored (b : AdvertisedBackend) : AdvertisedBackend :=
  { b with
    status.stability :=
      { b.status.stability with dampeningPenalty := 0, flapCount24h := 0 } }

theorem servable_unscored (c : BackendCandidate F) : c.unscored.servable = c.servable := by
  simp only [BackendCandidate.servable, BackendCandidate.unscored]
  cases c.damping <;> rfl

theorem selectOne_unscored (sel : BackendSelector) (c : BackendCandidate F) :
    selectOne sel c.unscored = selectOne sel c := by
  simp only [selectOne, servable_unscored]
  rfl

theorem select_unscored (candidates : List (BackendCandidate F)) (sel : BackendSelector) :
    select (candidates.map BackendCandidate.unscored) sel =
      (select candidates sel).map (List.map BackendCandidate.unscored) := by
  induction candidates with
  | nil => rfl
  | cons a rest ih =>
    simp only [List.map_cons, select, selectOne_unscored, ih]
    cases selectOne sel a with
    | error e => rfl
    | ok keep =>
      cases select rest sel with
      | error e => rfl
      | ok selected => cases keep <;> rfl

theorem boundTo_unscored (c : BackendCandidate F) (policies : List BGPBackendPolicy) :
    boundTo c.unscored policies = boundTo c policies := by
  apply List.filter_congr
  intro p _
  have hs := select_unscored [c] p.selector
  rw [List.map_singleton] at hs
  rw [hs]
  cases select [c] p.selector with
  | error e => rfl
  | ok selected => cases selected <;> rfl

theorem bindings_unscored (c : BackendCandidate F) (policies : List BGPBackendPolicy) :
    c.unscored.bindings policies = c.bindings policies := by
  simp only [BackendCandidate.bindings, boundTo_unscored]
  rfl

theorem stateAndReason_unscored (c : BackendCandidate F) :
    stateAndReason c.unscored = stateAndReason c := by
  simp only [stateAndReason, BackendCandidate.unscored]
  cases c.damping <;> rfl

/-- Scores nobody looks at. -/
instance : Float64 Unit where
  ofInt _ := ()
  add _ _ := ()
  mul _ _ := ()
  lt _ _ := false
  le _ _ := false
  isNaN _ := false
  round _ := ()
  toInt _ := 0
  halves _ _ := ()
  fixed _ := ""

variable [Float64 F]

theorem buildOne_unscored (c : BackendCandidate F) (policies : List BGPBackendPolicy) :
    (buildOne c.unscored policies).unscored = (buildOne c policies).unscored := by
  have hs := stateAndReason_unscored c
  have hb := bindings_unscored c policies
  simp only [AdvertisedBackend.unscored, buildOne, hs, hb]
  simp only [BackendCandidate.unscored]
  cases c.damping <;> rfl

theorem buildAdvertisedBackends_unscored (candidates : List (BackendCandidate F))
    (policies : List BGPBackendPolicy) :
    (buildAdvertisedBackends (candidates.map BackendCandidate.unscored) policies).map
        AdvertisedBackend.unscored =
      (buildAdvertisedBackends candidates policies).map AdvertisedBackend.unscored := by
  simp only [buildAdvertisedBackends, List.map_map]
  exact List.map_congr_left fun c _ => buildOne_unscored c policies

/-- No timestamp of the verdict lies in the future. -/
structure DampingInfo.NotAfter (d : DampingInfo F) (now : Time) : Prop where
  observed : d.lastObservedAt.ns ≤ now.ns
  withdrawn : ∀ t ∈ d.withdrawnAt, t.ns ≤ now.ns
  suppressed : ∀ t ∈ d.suppressedSince, t.ns ≤ now.ns
  pending : ∀ t ∈ d.pendingSince, t.ns ≤ now.ns

omit [Float64 F] in
theorem DampingInfo.NotAfter.pendingFrom {d : DampingInfo F} (h : d.NotAfter now) :
    d.pendingFrom.ns ≤ now.ns := by
  rw [DampingInfo.pendingFrom]
  cases hp : d.pendingSince with
  | none => exact h.observed
  | some t => exact h.pending t hp

omit [Float64 F] in
theorem DampingInfo.NotAfter.withdrawnFrom {d : DampingInfo F} (h : d.NotAfter now) :
    (d.withdrawnAt.getD now).ns ≤ now.ns := by
  cases hw : d.withdrawnAt with
  | none => exact le_refl _
  | some t => exact h.withdrawn t hw

theorem needsPriorState_eq_false {cfg : BGPStabilityConfigSpec} (h : needsPriorState cfg = false) :
    (durationOrZero cfg.withdrawalGrace).ns ≤ 0 ∧ (durationOrZero cfg.additionDelay).ns ≤ 0 ∧
      ∀ d, cfg.dampening = some d → d.enabled = false := by
  simp only [needsPriorState, Bool.or_eq_false_iff, positive, decide_eq_false_iff_not,
    not_lt] at h
  refine ⟨h.1.1, h.1.2, fun d hd => ?_⟩
  have he := h.2
  rw [BGPStabilityConfigSpec.dampeningEnabled, hd] at he
  exact he

theorem suppressionState_off (now : Time) (score : F) (since : Option Time)
    {dampening : Option DampeningConfig} (h : ∀ d, dampening = some d → d.enabled = false) :
    suppressionState now score since dampening = ⟨.active, "", score, none⟩ := by
  cases dampening with
  | none => rfl
  | some d => simp only [suppressionState, h d rfl, ↓reduceIte]

section Shortcut

variable {cfg : BGPStabilityConfigSpec} (hn : needsPriorState cfg = false)
include hn

theorem evaluatePresent_unscored {prev : Option (DampingInfo F)}
    (ht : ∀ p ∈ prev, p.NotAfter now) :
    (evaluatePresent now prev (durationOrZero cfg.additionDelay) cfg.dampening).unscored =
      (newCandidateDamping (F := F) now (durationOrZero cfg.additionDelay)).unscored := by
  obtain ⟨_, hdelay, hoff⟩ := needsPriorState_eq_false hn
  generalize hd : evaluatePresent now prev _ _ = d
  have htrans := hd ▸ evaluatePresent_transition now cfg prev
  cases htrans with
  | fresh => rfl
  | @settling p _ hs =>
    have hle := Time.sub_nonneg (ht p rfl).pendingFrom
    omega
  | @observed p _ =>
    have hnew : newCandidateDamping (F := F) now (durationOrZero cfg.additionDelay) =
        ⟨.active, "", ofInt 0, 0, now, none, none, none⟩ := by
      rw [newCandidateDamping, if_pos hdelay]
    simp only [hnew, DampingInfo.unscored, observe, suppressionState_off _ _ _ hoff]

theorem evaluateAbsent_of_unneeded {p : PriorState F} (ht : p.damping.NotAfter now) :
    evaluateAbsent now p (durationOrZero cfg.withdrawalGrace) cfg.dampening = none := by
  obtain ⟨hgrace, _, _⟩ := needsPriorState_eq_false hn
  rw [evaluateAbsent, Option.map_eq_none_iff, Option.eq_none_iff_forall_not_mem]
  intro d hd
  obtain ⟨_, hlt, _⟩ := absentDamping_eq_some_iff.1 hd
  have hle := Time.sub_nonneg ht.withdrawnFrom
  omega

theorem evaluateCandidate_unscored {prior : GoMap (PriorState F)}
    (ht : ∀ k p, prior.lookup k = some p → p.damping.NotAfter now) (c : BackendCandidate F) :
    (evaluateCandidate now prior cfg c).unscored = (evaluateCandidate now ∅ cfg c).unscored := by
  simp only [evaluateCandidate]
  split
  · rfl
  · have hp : ∀ p ∈ (prior.lookup c.name).map PriorState.damping, p.NotAfter now := by
      intro p hp
      obtain ⟨q, hq, rfl⟩ := Option.map_eq_some_iff.1 hp
      exact ht _ q hq
    have he := evaluatePresent_unscored hn hp
    rw [AList.lookup_empty]
    exact congrArg (fun d => { c with damping := some d }) he

theorem synthesize_of_unneeded {prior : GoMap (PriorState F)}
    (ht : ∀ k p, prior.lookup k = some p → p.damping.NotAfter now)
    (candidates : List (BackendCandidate F)) : synthesize now candidates prior cfg = [] := by
  rw [synthesize, List.filterMap_eq_nil_iff]
  intro e he
  split
  · rfl
  · exact evaluateAbsent_of_unneeded hn (ht e.1 e.2 (AList.mem_lookup_iff.2 he))

theorem evaluate_unscored {prior : GoMap (PriorState F)}
    (ht : ∀ k p, prior.lookup k = some p → p.damping.NotAfter now)
    (candidates : List (BackendCandidate F)) :
    (evaluate now candidates prior cfg).map BackendCandidate.unscored =
      (evaluate now candidates ∅ cfg).map BackendCandidate.unscored := by
  have hempty : synthesize now candidates (∅ : GoMap (PriorState F)) cfg = [] := rfl
  rw [evaluate, evaluate, synthesize_of_unneeded hn ht, hempty, List.append_nil, List.append_nil,
    List.map_map, List.map_map]
  exact List.map_congr_left fun c _ => evaluateCandidate_unscored hn ht c

end Shortcut

/-- The shortcut is sound: without a need for prior state the damper's output with it and
without it differ in scores and flap counts alone, which neither `Select` nor the rest of a
record looks at. -/
theorem evaluate_without_prior {cfg : BGPStabilityConfigSpec} (hn : needsPriorState cfg = false)
    {prior : GoMap (PriorState F)}
    (ht : ∀ k p, prior.lookup k = some p → p.damping.NotAfter now)
    (candidates : List (BackendCandidate F)) :
    (evaluate now candidates prior cfg).map BackendCandidate.unscored =
        (evaluate now candidates ∅ cfg).map BackendCandidate.unscored ∧
      (∀ sel, (select (evaluate now candidates prior cfg) sel).map
          (List.map BackendCandidate.unscored) =
        (select (evaluate now candidates ∅ cfg) sel).map (List.map BackendCandidate.unscored)) ∧
      ∀ policies,
        (buildAdvertisedBackends (evaluate now candidates prior cfg) policies).map
            AdvertisedBackend.unscored =
          (buildAdvertisedBackends (evaluate now candidates ∅ cfg) policies).map
            AdvertisedBackend.unscored := by
  have he := evaluate_unscored hn ht candidates
  refine ⟨he, fun sel => ?_, fun policies => ?_⟩
  · rw [← select_unscored, ← select_unscored, he]
  · rw [← buildAdvertisedBackends_unscored, he, buildAdvertisedBackends_unscored]

/-- Negative durations and a dampening block that is switched off. -/
def idleConfig : BGPStabilityConfigSpec :=
  ⟨some (.seconds (-5)), some (.seconds (-3)), some ⟨false, none, none, none, none⟩⟩

/-- What an earlier config left behind: a suppressed record. -/
def leftoverPrior : GoMap (PriorState Rat) :=
  (∅ : GoMap (PriorState Rat)).insert "10-1-0-0-24-spoke"
    ⟨spokeCandidate, { spokeVerdict with
      state := .dampened
      reason := "flap-dampened: score 4000 (reuse below 750)"
      score := 4000
      suppressedSince := some ⟨second⟩ }⟩

theorem evaluate_without_prior_spoke :
    (evaluate ⟨2 * second⟩ [spokeCandidate] leftoverPrior idleConfig).map
        BackendCandidate.unscored =
      (evaluate ⟨2 * second⟩ [spokeCandidate] ∅ idleConfig).map BackendCandidate.unscored := by
  have ht : ∀ k p, leftoverPrior.lookup k = some p → p.damping.NotAfter ⟨2 * second⟩ := by
    intro k p hp
    rw [leftoverPrior] at hp
    by_cases hk : k = "10-1-0-0-24-spoke"
    · subst hk
      rw [AList.lookup_insert] at hp
      cases hp
      exact ⟨by decide, by decide, by decide, by decide⟩
    · rw [AList.lookup_insert_ne hk, AList.lookup_empty] at hp
      cases hp
  exact (evaluate_without_prior (by decide) ht [spokeCandidate]).1

end Kreg
