import Kreg.Convergence

namespace Kreg
open ApiServer
set_option autoImplicit true

section Selection

variable {F : Type}

/-- What a selector asks of a candidate, whatever the damper says about it. A prefix that cannot
be compared does not match. -/
def BackendSelector.matches (sel : BackendSelector) (c : BackendCandidate F) : Bool :=
  selectsCluster sel c && selectsTag sel c &&
    (sel.prefixes.isEmpty || match prefixWithinAny c.pfx sel.prefixes with
      | .ok within => within
      | .error _ => false)

theorem selects_eq (sel : BackendSelector) (c : BackendCandidate F) :
    selects sel c = (c.servable && sel.matches c) := by
  rw [selects, selectOne, BackendSelector.matches]
  cases c.servable with
  | false => rfl
  | true =>
    cases selectsCluster sel c with
    | false => rfl
    | true =>
      cases selectsTag sel c with
      | false => rfl
      | true =>
        cases sel.prefixes.isEmpty with
        | true => rfl
        | false => rfl

/-- On its way out, and served all the same: withdrawn and held down, or draining. -/
def BackendCandidate.retiring (c : BackendCandidate F) : Bool :=
  c.drain || c.damping.any fun d => d.state == .holdDown

theorem reported_active_iff {c : BackendCandidate F} (h : c.servable = true) :
    (stateAndReason c).1 = .active ↔ c.retiring = false := by
  rw [BackendCandidate.servable, Bool.and_eq_true, Bool.not_eq_true'] at h
  rw [stateAndReason, h.1, BackendCandidate.retiring]
  cases hd : c.damping with
  | none =>
    cases c.drain with
    | false => simp only [Bool.false_eq_true, ↓reduceIte, Option.any_none, Bool.or_false]
    | true => simp only [Bool.false_eq_true, ↓reduceIte, reduceCtorEq, Bool.true_or,
        Bool.true_eq_false]
  | some d =>
    rw [hd, Bool.and_eq_true, bne_iff_ne, bne_iff_ne] at h
    cases hs : d.state with
    | dampened => exact absurd hs h.2.1
    | pending => exact absurd hs h.2.2
    | holdDown => simp [hs]
    | active | draining | rejected | unset => cases c.drain <;> simp [hs]

end Selection

theorem toInt_ofNat_add_eq_iff (a b : Nat) :
    (Int32.ofNat (a + b)).toInt = a ↔ a < 2 ^ 31 ∧ 2 ^ 32 ∣ b := by
  have hbits : (Int32.ofNat (a + b)).toInt = (BitVec.ofNat 32 (a + b)).toInt := rfl
  rw [hbits]
  simp only [BitVec.toInt, BitVec.toNat_ofNat]
  omega

variable {F : Type}

theorem render_slices_length {candidates : List (BackendCandidate F)} {driver : Driver F}
    (h : render policy candidates driver = .ok out) :
    out.endpointSlices.length =
      (candidates.countP fun c => c.servable && policy.selector.matches c && !c.retiring) +
        candidates.countP fun c => c.servable && policy.selector.matches c && c.retiring := by
  rw [← (render_slices h).length_eq, ← List.countP_eq_length_filter,
    List.countP_eq_countP_filter_add _ _ fun c => !c.retiring]
  simp only [List.countP_filter, selects_eq, Bool.not_not]

variable [Float64 F]

/-- The counts of a policy's status are those of the records built from the same snapshot: of the
`Active` ones that list the policy, and of the `Dampened` ones it would select. -/
structure CountsAgree (candidates : List (BackendCandidate F)) (policies : List BGPBackendPolicy)
    (policy : BGPBackendPolicy) (status : BGPBackendPolicyStatus) : Prop where
  active : status.activeBackends.toInt = (buildAdvertisedBackends candidates policies).countP
    fun b => decide (policy.qualifiedName ∈ b.status.boundPolicies) && b.status.state == .active
  suppressed : status.suppressedBackends.toInt = candidates.countP
    fun c => !c.rejected && (stateAndReason c).1 == .dampened && policy.selector.matches c

theorem countP_active (candidates : List (BackendCandidate F))
    (hn : (policies.map BGPBackendPolicy.qualifiedName).Nodup) (hp : policy ∈ policies) :
    ((buildAdvertisedBackends candidates policies).countP fun b =>
        decide (policy.qualifiedName ∈ b.status.boundPolicies) && b.status.state == .active) =
      candidates.countP fun c => c.servable && policy.selector.matches c && !c.retiring := by
  rw [buildAdvertisedBackends, List.countP_map]
  apply List.countP_congr
  intro c _
  simp only [Function.comp_apply, Bool.and_eq_true, decide_eq_true_eq, beq_iff_eq,
    qualifiedName_mem_boundPolicies hn hp, selects_eq, Bool.not_eq_true']
  apply and_congr_right
  intro hs
  exact reported_active_iff hs.1

/-- A reconcile that returns has counted right exactly when no selected backend is held down or
draining and the count of suppressed backends, which it never writes, was right before. -/
theorem policy_counts_agree_iff {candidates : List (BackendCandidate F)} {driver : Driver F}
    (hp : s.policies.lookup key = some stored)
    (hok : reconcilePolicy driver (.ok candidates) key ⟨s, faults⟩ = (.ok (), w))
    (hn : (policies.map BGPBackendPolicy.qualifiedName).Nodup)
    (hmem : stored.named key ∈ policies) :
    ∃ after, w.store.policies.lookup key = some after ∧
      (CountsAgree candidates policies (stored.named key) after.status ↔
        (candidates.countP fun c =>
            c.servable && (stored.named key).selector.matches c && !c.retiring) < 2 ^ 31 ∧
          2 ^ 32 ∣ (candidates.countP fun c =>
            c.servable && (stored.named key).selector.matches c && c.retiring) ∧
          stored.status.suppressedBackends.toInt = candidates.countP fun c =>
            !c.rejected && (stateAndReason c).1 == .dampened &&
              (stored.named key).selector.matches c) := by
  obtain ⟨out, hrender, hw⟩ := reconcilePolicy_returned hp hok
  refine ⟨{ stored with status := stored.reported out }, ?_, ?_⟩
  · rw [hw, lookup_converged_policies, if_pos rfl, hp]
    rfl
  · have hactive : (stored.reported out).activeBackends = Int32.ofNat out.endpointSlices.length :=
      rfl
    have hsuppressed : (stored.reported out).suppressedBackends =
        stored.status.suppressedBackends := rfl
    rw [← and_assoc, ← toInt_ofNat_add_eq_iff, ← render_slices_length hrender,
      ← countP_active candidates hn hmem, ← hactive, ← hsuppressed]
    exact ⟨fun h => ⟨h.active, h.suppressed⟩, fun h => ⟨h.1, h.2⟩⟩

theorem reconcilePolicy_web {candidates : List (BackendCandidate Rat)}
    (h : render webPolicy candidates istioDriver = .ok webOutput) :
    Returns (reconcilePolicy istioDriver (.ok candidates) webKey) (webCluster []) ()
      ((webCluster []).converged webKey ⟨webPolicy, ⟨0, 0, []⟩⟩ webOutput) := by
  have hp : (webCluster []).policies.lookup webKey = some ⟨webPolicy, ⟨0, 0, []⟩⟩ := rfl
  exact (reconcilePolicy_completes hp h (takesAll_web fun _ _ => rfl)).returns

def flappingSpoke : BackendCandidate Rat :=
  { spokeCandidate with
    pfx := "10.2.0.0/24"
    damping := some { spokeVerdict with
      state := .dampened
      reason := "flap-dampened: score 3000 (>= suppressThreshold 3000)"
      score := 3000
      suppressedSince := some ⟨second⟩ } }

/-- The policy was reconciled before, and its count of suppressed backends is right. -/
def countedCluster : Cluster :=
  { webCluster [staleSlice] with
    policies := (webCluster []).policies.insert webKey ⟨webPolicy, ⟨7, 1, []⟩⟩ }

/-- One backend in service and one suppressed, and another policy that selects them as well. -/
theorem policy_counts_agree_counted :
    ∃ w after, reconcilePolicy istioDriver (.ok [spokeCandidate, flappingSpoke]) webKey
        ⟨countedCluster, []⟩ = (.ok (), w) ∧ w.store.policies.lookup webKey = some after ∧
      CountsAgree [spokeCandidate, flappingSpoke] [webPolicy, { webPolicy with name := "api" }]
        webPolicy after.status := by
  have hp : countedCluster.policies.lookup webKey = some ⟨webPolicy, ⟨7, 1, []⟩⟩ := rfl
  have hrender : render webPolicy [spokeCandidate, flappingSpoke] istioDriver = .ok webOutput := by
    decide +kernel
  have hfree : ∀ o ∈ webOutput.objects, countedCluster.objects.lookup o.key = none := by
    decide +kernel
  have hok := (reconcilePolicy_completes hp hrender (takesAll_web hfree)).returns
  have hn : ([webPolicy, { webPolicy with name := "api" }].map
      BGPBackendPolicy.qualifiedName).Nodup := by
    decide
  obtain ⟨after, hafter, hiff⟩ := policy_counts_agree_iff hp hok hn (.head _)
  exact ⟨_, after, hok, hafter, hiff.2 (by decide +kernel)⟩

def withdrawnSpoke : BackendCandidate Rat :=
  { spokeCandidate with
    damping := some { spokeVerdict with
      state := .holdDown
      reason := "withdrawn 0s ago, grace 30s"
      withdrawnAt := some ⟨second⟩ } }

/-- A held-down backend is counted as active, and a dampened one not at all. -/
theorem policy_counts_disagree :
    ∃ w after, reconcilePolicy istioDriver (.ok [withdrawnSpoke, flappingSpoke]) webKey
        ⟨webCluster [], []⟩ = (.ok (), w) ∧ w.store.policies.lookup webKey = some after ∧
      after.status.activeBackends = 1 ∧ after.status.suppressedBackends = 0 ∧
      (buildAdvertisedBackends [withdrawnSpoke, flappingSpoke] [webPolicy]).map
          (fun b => (b.status.state, b.status.boundPolicies)) =
        [(.holdDown, ["gateways/web"]), (.dampened, [])] ∧
      ¬ CountsAgree [withdrawnSpoke, flappingSpoke] [webPolicy] webPolicy after.status := by
  have hrender : render webPolicy [withdrawnSpoke, flappingSpoke] istioDriver = .ok webOutput := by
    decide +kernel
  refine ⟨_, _, reconcilePolicy_web hrender, rfl, rfl, rfl, by decide +kernel, ?_⟩
  intro h
  exact absurd h.suppressed (by decide +kernel)

end Kreg
