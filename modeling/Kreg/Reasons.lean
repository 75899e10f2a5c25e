import Kreg.Communities
import Kreg.Runs
import Kreg.SecondLook

namespace Kreg
open Float64
set_option autoImplicit true

def BackendState.OfDamp (s : BackendState) : Prop :=
  s = .pending ∨ s = .holdDown ∨ s = .dampened

instance (s : BackendState) : Decidable s.OfDamp :=
  inferInstanceAs (Decidable (_ ∨ _ ∨ _))

section Verdicts

variable {F : Type} [Float64 F] {d : DampingInfo F}

theorem settlingReason_ne (additionDelay : Duration) : settlingReason additionDelay ≠ "" := by
  intro h
  exact absurd (String.append_eq_empty_iff.1 h).1 (by decide)

theorem Suppresses.reason_ne {s : Suppression F} (h : Suppresses now score since dampening s)
    (hs : s.state ≠ .active) : s.reason ≠ "" := by
  intro hreason
  cases h with
  | off | capped | reused | calm => exact hs rfl
  | kept => exact absurd (String.append_eq_empty_iff.1 hreason).2 (by decide)
  | entered => exact absurd (String.append_eq_empty_iff.1 hreason).2 (by decide)

theorem Transition.reason_ne (h : Transition now cfg prev true d) (hs : d.state ≠ .active) :
    d.reason ≠ "" := by
  cases h with
  | fresh =>
    rw [newCandidateDamping] at hs ⊢
    split at hs
    · exact absurd rfl hs
    · next hd =>
      rw [if_neg hd]
      exact settlingReason_ne _
  | settling => exact settlingReason_ne _
  | @observed p =>
    obtain ⟨s, hsup, hstate, hreason, _⟩ := observe_suppresses now p cfg.dampening
    rw [hstate] at hs
    rw [hreason]
    exact hsup.reason_ne hs

theorem Transition.not_holdDown (h : Transition now cfg prev true d) : d.state ≠ .holdDown := by
  intro hs
  cases h with
  | fresh =>
    rw [newCandidateDamping] at hs
    split at hs
    · cases hs
    · cases hs
  | settling => cases hs
  | @observed p =>
    rcases observe_state now p cfg.dampening with ha | hd
    · cases ha.symm.trans hs
    · cases hd.symm.trans hs

theorem Transition.servable_iff (h : Transition now cfg prev true d) :
    d.Servable ↔ d.state = .active := by
  rw [DampingInfo.Servable]
  rcases h.owned with ⟨hs, _⟩ | hs | hs | hs
  · simp only [hs, ne_eq, reduceCtorEq, not_false_eq_true, and_self]
  · simp only [hs, ne_eq, reduceCtorEq, not_true_eq_false, and_false]
  · exact absurd hs h.not_holdDown
  · simp only [hs, ne_eq, reduceCtorEq, not_true_eq_false, false_and]

theorem evaluatePresent_active_iff (now : Time) (cfg : BGPStabilityConfigSpec)
    (prev : Option (DampingInfo F)) :
    (evaluatePresent now prev (durationOrZero cfg.additionDelay) cfg.dampening).state = .active ↔
      Serves now cfg prev true := by
  rw [← (evaluatePresent_transition now cfg prev).servable_iff, serves_iff]
  simp only [verdict, ↓reduceIte, Option.some.injEq, exists_eq_left']

end Verdicts

section Report

variable {F : Type} [Float64 F]

/-- What the report on `out` owes to the reason it came with: in a state of the damper the
damper's own reason, in any other state that reason. -/
structure BackendCandidate.Accounts (out : BackendCandidate F) (reason : String)
    (b : AdvertisedBackend) : Prop where
  damped : b.status.state.OfDamp →
    ∃ d, out.damping = some d ∧ d.reason ≠ "" ∧ b.status.reason = d.reason
  other : ¬ b.status.state.OfDamp → b.status.reason = reason

theorem accounts_rejected (policies : List BGPBackendPolicy) {c : BackendCandidate F}
    (hr : c.rejected = true) : c.Accounts c.reason (buildOne c policies) := by
  have hs : stateAndReason c = (.rejected, c.reason) := by
    rw [stateAndReason, if_pos hr]
  constructor
  · intro h
    change (stateAndReason c).1.OfDamp at h
    rw [hs] at h
    have hrejected : ¬ BackendState.OfDamp .rejected := by decide
    exact absurd h hrejected
  · intro _
    change (stateAndReason c).2 = c.reason
    rw [hs]

theorem accounts_verdict_iff (policies : List BGPBackendPolicy) {out : BackendCandidate F}
    (hr : out.rejected = false) (hd : out.damping = some d) (hv : d.Verdict)
    (hdamp : d.state ≠ .active → d.reason ≠ "") (hreason : reason ≠ "") :
    out.Accounts reason (buildOne out policies) ↔ d.state ≠ .active := by
  have hs := stateAndReason_of_verdict hr hd hv
  by_cases ha : d.state = .active
  · rw [if_pos ha] at hs
    refine iff_of_false ?_ fun h => h ha
    intro h
    apply hreason
    have hother : ¬ (buildOne out policies).status.state.OfDamp := by
      change ¬ (stateAndReason out).1.OfDamp
      rw [hs]
      cases out.drain <;> decide
    rw [← h.other hother]
    change (stateAndReason out).2 = ""
    rw [hs]
  · rw [if_neg ha] at hs
    refine iff_of_true ⟨?_, ?_⟩ ha
    · intro _
      refine ⟨d, hd, hdamp ha, ?_⟩
      change (stateAndReason out).2 = d.reason
      rw [hs]
    · intro h
      apply absurd _ h
      change (stateAndReason out).1.OfDamp
      rw [hs]
      exact hv.resolve_left fun h => ha h.1

theorem accounts_evaluated_iff (now : Time) (prior : GoMap (PriorState F))
    (cfg : BGPStabilityConfigSpec) (policies : List BGPBackendPolicy) {c : BackendCandidate F}
    (hreason : c.reason ≠ "") :
    (evaluateCandidate now prior cfg c).Accounts c.reason
        (buildOne (evaluateCandidate now prior cfg c) policies) ↔
      (c.rejected = false →
        ¬ Serves now cfg ((prior.lookup c.name).map PriorState.damping) true) := by
  rw [evaluateCandidate]
  cases hr : c.rejected with
  | true =>
    rw [if_pos rfl]
    exact iff_of_true (accounts_rejected policies hr) fun h => Bool.noConfusion h
  | false =>
    rw [if_neg Bool.false_ne_true, ← evaluatePresent_active_iff]
    have ht := evaluatePresent_transition now cfg ((prior.lookup c.name).map PriorState.damping)
    rw [accounts_verdict_iff policies rfl rfl ht.owned ht.reason_ne hreason]
    exact ⟨fun h _ => h, fun h => h rfl⟩

/-- Every candidate that came out of Authorize and Normalize with a reason is reported with it,
or with the damper's. -/
def ReasonsKept (now : Time) (candidates : List (BackendCandidate F))
    (prior : GoMap (PriorState F)) (cfg : BGPStabilityConfigSpec)
    (policies : List BGPBackendPolicy) : Prop :=
  ∀ (i : Nat) (c : BackendCandidate F), candidates[i]? = some c → c.reason ≠ "" →
    ∃ out b, (evaluate now candidates prior cfg)[i]? = some out ∧
      (buildAdvertisedBackends (evaluate now candidates prior cfg) policies)[i]? = some b ∧
      BackendCandidate.Accounts out c.reason b

theorem reasonsKept_iff_unserved (now : Time) (candidates : List (BackendCandidate F))
    (prior : GoMap (PriorState F)) (cfg : BGPStabilityConfigSpec)
    (policies : List BGPBackendPolicy) :
    ReasonsKept now candidates prior cfg policies ↔
      ∀ (i : Nat) (c : BackendCandidate F), candidates[i]? = some c → c.reason ≠ "" →
        c.rejected = false →
          ¬ Serves now cfg ((prior.lookup c.name).map PriorState.damping) true := by
  apply forall_congr'
  intro i
  apply forall_congr'
  intro c
  apply imp_congr_right
  intro hi
  apply imp_congr_right
  intro hreason
  rw [← accounts_evaluated_iff now prior cfg policies hreason]
  simp only [buildAdvertisedBackends, List.getElem?_map, getElem?_evaluate now prior cfg hi,
    Option.map_some, Option.some.injEq, exists_eq_left', exists_and_left]

end Report

section Warnings

variable {F : Type}

/-- A route Authorize admits for the cluster of `b`, of which the CommunityMap can only warn: none
of its rules matches. -/
structure Warned (bindings : List ClusterBinding) (routes : List RIBRoute)
    (cm : Option CommunityMapSpec) (i : Nat) (r : RIBRoute) (b : ClusterBinding) : Prop where
  admitted : Admitted bindings routes i r b
  warns : cm.map CommunityMapSpec.onUnmappedCommunity = some .warn
  unmapped : ∀ rule ∈ communityRules cm,
    matchLargeCommunity rule.largeCommunity r.largeCommunities.elems = none

theorem unmappedReason_ne (communities : List String) : unmappedReason communities ≠ "" := by
  intro h
  exact absurd (String.append_eq_empty_iff.1 h).1 (by decide)

theorem normalizeRoute_warned_iff {c : BackendCandidate F} (h : normalizeRoute r cm = .ok c) :
    c.reason ≠ "" ∧ c.rejected = false ↔
      r.rejected = false ∧ cm.map CommunityMapSpec.onUnmappedCommunity = some .warn ∧
        ruleUses r.largeCommunities.elems (communityRules cm) = [] := by
  cases hr : r.rejected with
  | true =>
    rw [normalizeRoute, if_pos hr] at h
    cases h
    simp only [Bool.true_eq_false, and_false, false_and]
  | false =>
    have hc := normalizeRoute_decoded hr h
    constructor
    · rintro ⟨hreason, hacc⟩
      rw [hc.reason] at hreason
      split at hreason
      · next hflag =>
        refine ⟨rfl, hflag.2.resolve_left ?_, hflag.1⟩
        intro hrej
        rw [hc.rejected.2 ⟨hrej, hflag.1⟩] at hacc
        cases hacc
      · exact absurd rfl hreason
    · rintro ⟨_, hwarn, huses⟩
      constructor
      · rw [hc.reason, if_pos ⟨huses, .inr hwarn⟩]
        exact unmappedReason_ne _
      · rw [← Bool.not_eq_true, hc.rejected, hwarn]
        rintro ⟨hrej, _⟩
        cases hrej

theorem warned_iff {c : BackendCandidate F}
    (h : normalizeRoute (authorizedAt bindings routes i r) cm = .ok c) :
    c.reason ≠ "" ∧ c.rejected = false ↔ ∃ b, Warned bindings routes cm i r b := by
  rw [normalizeRoute_warned_iff h, authorizedAt_rejected, authorizedAt_largeCommunities,
    ruleUses_eq_nil_iff]
  constructor
  · rintro ⟨⟨b, hb⟩, hwarn, hrules⟩
    exact ⟨b, hb, hwarn, hrules⟩
  · rintro ⟨b, hw⟩
    exact ⟨⟨b, hw.admitted⟩, hw.warns, hw.unmapped⟩

end Warnings

/-- No reason of Authorize or Normalize is lost exactly when the damper serves no route of which
the CommunityMap only warns. -/
theorem reasons_kept_iff {F : Type} [Float64 F] {candidates : List (BackendCandidate F)}
    (h : settle routes bindings cm = .ok candidates) (now : Time) (prior : GoMap (PriorState F))
    (cfg : BGPStabilityConfigSpec) (policies : List BGPBackendPolicy) :
    ReasonsKept now candidates prior cfg policies ↔
      ∀ (i : Nat) (r : RIBRoute) (b : ClusterBinding), routes[i]? = some r →
        Warned bindings routes cm i r b →
          ¬ Serves now cfg ((prior.lookup (backendObjectName r.pfx b.clusterID)).map
            PriorState.damping) true := by
  rw [reasonsKept_iff_unserved]
  constructor
  · intro hkept i r b hr hw
    obtain ⟨c, hc, hn⟩ := settle_route_at h hr
    obtain ⟨hreason, hacc⟩ := (warned_iff hn).2 ⟨b, hw⟩
    rw [← hw.admitted.name hn]
    exact hkept i c hc hreason hacc
  · intro hserves i c hc hreason hacc
    obtain ⟨r, hr, hn⟩ := settle_candidate_at h hc
    obtain ⟨b, hw⟩ := (warned_iff hn).1 ⟨hreason, hacc⟩
    rw [hw.admitted.name hn]
    exact hserves i r b hr hw

def warnedCandidate : BackendCandidate Rat :=
  { sampleCandidate with reason := "no CommunityMap rule matched large communities []" }

theorem settle_warned :
    settle [sampleRoute] [sampleBinding] (some weightMap) = .ok [warnedCandidate] :=
  rfl

/-- While a new backend settles, its report is about that. -/
theorem reasons_kept_settling :
    ReasonsKept (clock 0) [warnedCandidate] ∅ ⟨none, some (.seconds 5), none⟩ [] := by
  apply (reasons_kept_iff settle_warned (clock 0) ∅ _ []).2
  intro i r b _ _
  rw [AList.lookup_empty]
  intro hserves
  have hdelay : (durationOrZero (some (.seconds 5))).ns ≤ 0 := hserves
  exact absurd hdelay (by decide)

/-- Without damping, a backend whose communities matched no rule is reported as `Active` with no
reason at all. -/
theorem warning_not_reported :
    settle [sampleRoute] [sampleBinding] (some weightMap) = .ok [warnedCandidate] ∧
      (buildAdvertisedBackends (evaluate (clock 0) [warnedCandidate] ∅ emptyStabilityConfig)
        []).map (fun b => (b.name, b.status.state, b.status.reason)) =
          [("10-0-0-0-24-edge", .active, "")] ∧
      ¬ ReasonsKept (clock 0) [warnedCandidate] ∅ emptyStabilityConfig [] := by
  refine ⟨settle_warned, by decide +kernel, ?_⟩
  intro h
  obtain ⟨out, b, _, hb, hacc⟩ := h 0 warnedCandidate rfl (by decide)
  cases hb
  exact absurd (hacc.other (by decide)) (by decide)

end Kreg
