import Kreg.DurableMemory
import Kreg.Render

namespace Kreg
set_option autoImplicit true

theorem mem_sortStrings {l : List String} : s ∈ sortStrings l ↔ s ∈ l :=
  List.mem_insertionSort _

theorem sortStrings_sorted (l : List String) : (sortStrings l).Pairwise (· ≤ ·) := by
  have : Std.Total (α := String) (· ≤ ·) := ⟨String.le_total⟩
  have : IsTrans String (· ≤ ·) := ⟨fun _ _ _ => String.le_trans⟩
  exact List.pairwise_insertionSort _ l

def BGPBackendPolicy.qualifiedName (p : BGPBackendPolicy) : String :=
  p.namespaceName ++ "/" ++ p.name

def sliceResource (p : BGPBackendPolicy) (c : BackendCandidate F) : String :=
  "EndpointSlice/" ++ p.namespaceName ++ "/" ++ endpointSliceName (serviceName p) c.clusterID c.pfx

/-- Selecting one candidate at a time finds the policies that select it out of any list. -/
theorem boundTo_eq (c : BackendCandidate F) (policies : List BGPBackendPolicy) :
    boundTo c policies = policies.filter fun p => selects p.selector c := by
  apply List.filter_congr
  intro p _
  simp only [select, selects]
  cases selectOne p.selector c with
  | error e => rfl
  | ok keep => cases keep <;> rfl

theorem bindings_eq (c : BackendCandidate F) (policies : List BGPBackendPolicy) :
    c.bindings policies =
      (sortStrings ((policies.filter fun p => selects p.selector c).map
        BGPBackendPolicy.qualifiedName),
      sortStrings ((policies.filter fun p => selects p.selector c).map
        fun p => sliceResource p c)) := by
  rw [BackendCandidate.bindings]
  split
  · next hr =>
    have hnone : (policies.filter fun p => selects p.selector c) = [] := by
      rw [List.filter_eq_nil_iff]
      intro p _ hs
      have hv := servable_of_selects hs
      simp only [BackendCandidate.servable, hr, Bool.not_true, Bool.false_and,
        Bool.false_eq_true] at hv
    rw [hnone]
    rfl
  · simp only [boundTo_eq]
    rfl

section Report

variable {F : Type} [Float64 F]

theorem mem_boundPolicies {c : BackendCandidate F} :
    s ∈ (buildOne c policies).status.boundPolicies ↔
      ∃ p ∈ policies, selects p.selector c = true ∧ p.qualifiedName = s := by
  change s ∈ (c.bindings policies).1 ↔ _
  rw [bindings_eq, mem_sortStrings]
  simp only [List.mem_map, List.mem_filter, and_assoc]

theorem mem_generatedResources {c : BackendCandidate F} :
    s ∈ (buildOne c policies).status.generatedResources ↔
      ∃ p ∈ policies, selects p.selector c = true ∧ sliceResource p c = s := by
  change s ∈ (c.bindings policies).2 ↔ _
  rw [bindings_eq, mem_sortStrings]
  simp only [List.mem_map, List.mem_filter, and_assoc]

theorem boundPolicies_sorted (c : BackendCandidate F) (policies : List BGPBackendPolicy) :
    (buildOne c policies).status.boundPolicies.Pairwise (· ≤ ·) ∧
      (buildOne c policies).status.generatedResources.Pairwise (· ≤ ·) := by
  change (c.bindings policies).1.Pairwise _ ∧ (c.bindings policies).2.Pairwise _
  rw [bindings_eq]
  exact ⟨sortStrings_sorted _, sortStrings_sorted _⟩

theorem qualifiedName_mem_boundPolicies (hn : (policies.map BGPBackendPolicy.qualifiedName).Nodup)
    (hp : p ∈ policies) (c : BackendCandidate F) :
    p.qualifiedName ∈ (buildOne c policies).status.boundPolicies ↔
      selects p.selector c = true := by
  rw [mem_boundPolicies]
  constructor
  · rintro ⟨q, hq, hs, he⟩
    rw [List.inj_on_of_nodup_map hn hq hp he] at hs
    exact hs
  · exact fun hs => ⟨p, hp, hs, rfl⟩

end Report

theorem renderEndpointSlice_resource {c : BackendCandidate F}
    (h : renderEndpointSlice p (serviceName p) c = .ok o) : o.resource = sliceResource p c := by
  rw [renderEndpointSlice] at h
  split at h
  · cases h
  · cases h
    rfl

theorem render_slices {candidates : List (BackendCandidate F)} {driver : Driver F}
    (h : render p candidates driver = .ok out) :
    List.Forall₂ (fun c o => renderEndpointSlice p (serviceName p) c = .ok o)
      (candidates.filter (selects p.selector)) out.endpointSlices := by
  obtain ⟨selected, hs, hr, _⟩ := render_ok_iff.1 h
  obtain ⟨_, rfl⟩ := select_eq_ok_iff.1 hs
  exact renderEndpointSlices_ok_iff.1 hr

variable {F : Type} [Float64 F]

/-- Report agrees with Render: the slices of a policy are those of the candidates whose records
list it, each record names the slice, and names nothing else. -/
theorem report_agrees_with_render {candidates : List (BackendCandidate F)} {driver : Driver F}
    (hn : (policies.map BGPBackendPolicy.qualifiedName).Nodup) (hp : p ∈ policies)
    (h : render p candidates driver = .ok out) :
    List.Forall₂ (fun c o => renderEndpointSlice p (serviceName p) c = .ok o ∧
          o.resource ∈ (buildOne c policies).status.generatedResources)
        (candidates.filter fun c =>
          p.qualifiedName ∈ (buildOne c policies).status.boundPolicies) out.endpointSlices ∧
      ∀ c ∈ candidates,
        (∀ s ∈ (buildOne c policies).status.generatedResources, ∃ q ∈ policies,
          q.qualifiedName ∈ (buildOne c policies).status.boundPolicies ∧
            s = sliceResource q c ∧
            ∀ out, render q candidates driver = .ok out →
              ∃ o ∈ out.endpointSlices,
                renderEndpointSlice q (serviceName q) c = .ok o ∧ s = o.resource) ∧
          (buildOne c policies).status.boundPolicies.Pairwise (· ≤ ·) ∧
          (buildOne c policies).status.generatedResources.Pairwise (· ≤ ·) := by
  constructor
  · have hlist : (candidates.filter fun c =>
        p.qualifiedName ∈ (buildOne c policies).status.boundPolicies) =
          candidates.filter (selects p.selector) := by
      apply List.filter_congr
      intro c _
      rw [Bool.eq_iff_iff, decide_eq_true_iff, qualifiedName_mem_boundPolicies hn hp]
    have hall : ∀ c ∈ candidates.filter (selects p.selector), selects p.selector c = true :=
      fun c hc => (List.mem_filter.1 hc).2
    rw [hlist]
    apply ((List.forall₂_and_left _ _).2 ⟨hall, render_slices h⟩).imp
    intro c o hco
    refine ⟨hco.2, mem_generatedResources.2 ⟨p, hp, hco.1, ?_⟩⟩
    exact (renderEndpointSlice_resource hco.2).symm
  · intro c hc
    refine ⟨?_, boundPolicies_sorted c policies⟩
    intro s hs
    obtain ⟨q, hq, hsel, rfl⟩ := mem_generatedResources.1 hs
    refine ⟨q, hq, (qualifiedName_mem_boundPolicies hn hq c).2 hsel, rfl, ?_⟩
    intro out' h'
    obtain ⟨o, ho, hr⟩ := exists_right_of_forall₂ (render_slices h') (List.mem_filter.2 ⟨hc, hsel⟩)
    exact ⟨o, ho, hr, (renderEndpointSlice_resource hr).symm⟩

def webPolicy : BGPBackendPolicy where
  namespaceName := "gateways"
  name := "web"
  selector := .all
  backend := ⟨8443, some "https", ⟨.simple, "web.internal", none⟩⟩
  loadBalancing := ⟨none⟩
  outlierDetection := none

def webPort : ServicePort := ⟨"https", 8443, .tcp⟩

/-- What `Render` makes of the policy and one candidate. -/
def webOutput : Output where
  service := ⟨"gateways", "web-kreg", [(managedByLabel, "web")], .service ⟨"None", [webPort]⟩⟩
  endpointSlices :=
    [⟨"gateways", "web-kreg-spoke-10-1-0-0-24",
      [(managedByLabel, "web"), (serviceNameLabel, "web-kreg")],
      .endpointSlice ⟨.ipv4, [webPort], [⟨["10.1.0.0"], true, true, some "a", some ["a"]⟩]⟩⟩]
  driverObjects :=
    [⟨"gateways", "web-kreg", [(managedByLabel, "web")],
      .destinationRule ⟨"web-kreg.gateways.svc.cluster.local", ⟨.simple, "web.internal", ""⟩,
        none, none⟩⟩]

theorem render_web : render webPolicy [spokeCandidate] istioDriver = .ok webOutput := by
  decide +kernel

theorem report_agrees_with_render_web :
    List.Forall₂ (fun c o => renderEndpointSlice webPolicy "web-kreg" c = .ok o ∧
        o.resource ∈ (buildOne c [webPolicy]).status.generatedResources)
      [spokeCandidate] webOutput.endpointSlices := by
  have hlisted : ([spokeCandidate].filter fun c =>
      webPolicy.qualifiedName ∈ (buildOne c [webPolicy]).status.boundPolicies) =
        [spokeCandidate] := by
    decide +kernel
  have hn : ([webPolicy].map BGPBackendPolicy.qualifiedName).Nodup := List.nodup_singleton _
  have h := (report_agrees_with_render hn (.head _) render_web).1
  rw [hlisted] at h
  exact h

end Kreg
