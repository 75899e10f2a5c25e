import Kreg.ClusterView
import Kreg.KeyView
import Kreg.ReportRender
import Kreg.TrustBoundary

namespace Kreg
set_option autoImplicit true

theorem sortStrings_perm (h : l.Perm l') : sortStrings l = sortStrings l' := by
  have hp : (sortStrings l).Perm (sortStrings l') :=
    (List.perm_insertionSort _ l).trans (h.trans (List.perm_insertionSort _ l').symm)
  exact hp.eq_of_pairwise (fun _ _ _ _ => String.le_antisymm) (sortStrings_sorted l)
    (sortStrings_sorted l')

theorem bindings_perm (h : policies.Perm policies') (c : BackendCandidate F) :
    c.bindings policies = c.bindings policies' := by
  have hf := h.filter fun p => selects p.selector c
  rw [bindings_eq, bindings_eq, sortStrings_perm (hf.map _), sortStrings_perm (hf.map _)]

variable {F : Type}

theorem settle_perm (hd : (routes.map RIBRoute.pfx).Nodup) (hr : routes.Perm routes')
    {cs : List (BackendCandidate F)} (h : settle routes bindings cm = .ok cs) :
    ∃ cs', settle routes' bindings cm = .ok cs' ∧ cs.Perm cs' := by
  have hd' : (routes'.map RIBRoute.pfx).Nodup := (hr.map _).nodup_iff.1 hd
  obtain ⟨hm, hf⟩ := settle_ok_iff.1 h
  have hverdict : authorizedIn bindings routes = authorizedIn bindings routes' := by
    funext r
    apply authorizedIn_of_share
    exact fun k _ => hr.filter _
  rw [mapIdx_authorizedAt hd, hverdict] at hf
  obtain ⟨cs', hf', hp⟩ := List.perm_comp_forall₂ (hr.symm.map _) hf
  refine ⟨cs', settle_ok_iff.2 ⟨fun r hr' => hm r (hr.mem_iff.2 hr'), ?_⟩, hp.symm⟩
  rw [mapIdx_authorizedAt hd']
  exact hf'

theorem mem_seen_perm {cs cs' : List (BackendCandidate F)} (h : cs.Perm cs') (k : String) :
    k ∈ seen cs ↔ k ∈ seen cs' :=
  ((h.filter _).map _).mem_iff

theorem select_perm {out out' : List (BackendCandidate F)} (h : out.Perm out')
    (hs : select out sel = .ok selected) :
    ∃ selected', select out' sel = .ok selected' ∧ selected.Perm selected' := by
  obtain ⟨hok, rfl⟩ := select_eq_ok_iff.1 hs
  refine ⟨out'.filter (selects sel), select_eq_ok_iff.2 ⟨?_, rfl⟩, h.filter _⟩
  exact fun c hc => hok c (h.mem_iff.2 hc)

theorem renderEndpointSlices_perm {l l' : List (BackendCandidate F)} (h : l.Perm l')
    (hs : renderEndpointSlices policy svc l = .ok slices) :
    ∃ slices', renderEndpointSlices policy svc l' = .ok slices' ∧ slices.Perm slices' := by
  obtain ⟨slices', hf, hp⟩ := List.perm_comp_forall₂ h.symm (renderEndpointSlices_ok_iff.1 hs)
  exact ⟨slices', renderEndpointSlices_ok_iff.2 hf, hp.symm⟩

theorem render_perm {out out' : List (BackendCandidate F)} (h : out.Perm out')
    (hr : render policy out istioDriver = .ok o) :
    ∃ o', render policy out' istioDriver = .ok o' ∧
      o.endpointSlices.Perm o'.endpointSlices := by
  obtain ⟨selected, hs, hslices, hdriver, _⟩ := render_ok_iff.1 hr
  obtain ⟨selected', hs', hp⟩ := select_perm h hs
  obtain ⟨slices', hslices', hps⟩ := renderEndpointSlices_perm hp hslices
  exact ⟨⟨renderService policy, slices', o.driverObjects⟩,
    render_ok_iff.2 ⟨selected', hs', hslices', hdriver, rfl⟩, hps⟩

theorem render_alike {out out' : List (BackendCandidate F)} (h : out.Perm out')
    (p : BGPBackendPolicy) :
    Alike (fun o o' => o.endpointSlices.Perm o'.endpointSlices) (render p out istioDriver)
      (render p out' istioDriver) := by
  apply Alike.of_ok
  · exact fun o ho => render_perm h ho
  · intro o ho
    obtain ⟨o', ho', _⟩ := render_perm h.symm ho
    exact ⟨o', ho'⟩

variable [Float64 F]

theorem evaluate_perm {cs cs' : List (BackendCandidate F)} {prior prior' : GoMap (PriorState F)}
    (h : cs.Perm cs') (hp : prior.entries.Perm prior'.entries) (now : Time)
    (cfg : BGPStabilityConfigSpec) :
    (evaluate now cs prior cfg).Perm (evaluate now cs' prior' cfg) := by
  have hcand : evaluateCandidate now prior cfg = evaluateCandidate now prior' cfg := by
    funext c
    rw [evaluateCandidate, evaluateCandidate, AList.perm_lookup hp]
  have hsynth : (synthesize now cs prior cfg).Perm (synthesize now cs' prior' cfg) := by
    simp only [synthesize, mem_seen_perm h]
    exact hp.filterMap _
  rw [evaluate, evaluate, hcand]
  exact (h.map _).append hsynth

theorem buildOne_perm (h : policies.Perm policies') (c : BackendCandidate F) :
    buildOne c policies = buildOne c policies' := by
  simp only [buildOne, bindings_perm h c]

theorem buildAdvertisedBackends_perm {out out' : List (BackendCandidate F)} (h : out.Perm out')
    (hl : policies.Perm policies') :
    (buildAdvertisedBackends out policies).Perm (buildAdvertisedBackends out' policies') := by
  have hb : (fun c : BackendCandidate F => buildOne c policies) = fun c => buildOne c policies' :=
    funext (buildOne_perm hl)
  rw [buildAdvertisedBackends, buildAdvertisedBackends, hb]
  exact h.map _

def pipeline (routes : List RIBRoute) (bindings : List ClusterBinding)
    (cm : Option CommunityMapSpec) (now : Time) (prior : GoMap (PriorState F))
    (cfg : BGPStabilityConfigSpec) : Except String (List (BackendCandidate F)) :=
  (settle routes bindings cm).map fun candidates => evaluate now candidates prior cfg

theorem pipeline_perm (hd : (routes.map RIBRoute.pfx).Nodup) (hr : routes.Perm routes')
    {prior prior' : GoMap (PriorState F)} (hp : prior.entries.Perm prior'.entries)
    (h : pipeline routes bindings cm now prior cfg = .ok out) :
    ∃ out', pipeline routes' bindings cm now prior' cfg = .ok out' ∧ out.Perm out' := by
  rw [pipeline] at h
  cases hs : settle (F := F) routes bindings cm with
  | error e =>
    rw [hs] at h
    cases h
  | ok cs =>
    rw [hs] at h
    cases h
    obtain ⟨cs', hs', hperm⟩ := settle_perm hd hr hs
    refine ⟨evaluate now cs' prior' cfg, ?_, evaluate_perm hperm hp now cfg⟩
    rw [pipeline, hs']
    rfl

/-- The order of the RIB, of an iteration over the prior map and of the policies changes neither
whether the pipeline fails nor what it writes. -/
theorem pipeline_order_free (hd : (routes.map RIBRoute.pfx).Nodup) (hr : routes.Perm routes')
    {prior prior' : GoMap (PriorState F)} (hp : prior.entries.Perm prior'.entries)
    (hl : policies.Perm policies') (bindings : List ClusterBinding)
    (cm : Option CommunityMapSpec) (now : Time) (cfg : BGPStabilityConfigSpec) :
    Alike (fun out out' =>
        (buildAdvertisedBackends out policies).Perm (buildAdvertisedBackends out' policies') ∧
        ∀ p ∈ policies, Alike (fun o o' => o.endpointSlices.Perm o'.endpointSlices)
          (render p out istioDriver) (render p out' istioDriver))
      (pipeline routes bindings cm now prior cfg)
      (pipeline routes' bindings cm now prior' cfg) := by
  apply Alike.of_ok
  · intro out h
    obtain ⟨out', h', hperm⟩ := pipeline_perm hd hr hp h
    refine ⟨out', h', buildAdvertisedBackends_perm hperm hl, ?_⟩
    exact fun p _ => render_alike hperm p
  · intro out' h'
    have hd' : (routes'.map RIBRoute.pfx).Nodup := (hr.map _).nodup_iff.1 hd
    obtain ⟨out, h, _⟩ := pipeline_perm hd' hr.symm hp.symm h'
    exact ⟨out, h⟩

def cappedBinding : ClusterBinding := { edgeBinding with maxPrefixes := some 1 }

/-- The memory of backends whose routes are gone, in the order given. -/
def gonePrior (prefixes : List String) : GoMap (PriorState Rat) :=
  prefixes.foldl (fun m pfx =>
    m.insert (backendObjectName pfx "spoke") ⟨{ spokeCandidate with pfx := pfx }, spokeVerdict⟩) ∅

theorem pipeline_order_free_capped :
    (pipeline [edgeRoute "10.0.1.0/24", edgeRoute "10.0.2.0/24"] [cappedBinding] none ⟨2 * second⟩
        (gonePrior ["10.1.0.0/24", "10.3.0.0/24"])
        ⟨some (.seconds 30), none, none⟩).toOption.map
          (fun out => out.map fun c => (c.pfx, c.servable)) =
        some [("10.0.1.0/24", true), ("10.0.2.0/24", false), ("10.3.0.0/24", true),
          ("10.1.0.0/24", true)] ∧
      Alike (fun out out' : List (BackendCandidate Rat) =>
          (buildAdvertisedBackends out [webPolicy, { webPolicy with name := "api" }]).Perm
            (buildAdvertisedBackends out' [{ webPolicy with name := "api" }, webPolicy]) ∧
          ∀ p ∈ [webPolicy, { webPolicy with name := "api" }],
            Alike (fun o o' => o.endpointSlices.Perm o'.endpointSlices)
              (render p out istioDriver) (render p out' istioDriver))
        (pipeline [edgeRoute "10.0.1.0/24", edgeRoute "10.0.2.0/24"] [cappedBinding] none
          ⟨2 * second⟩ (gonePrior ["10.1.0.0/24", "10.3.0.0/24"])
          ⟨some (.seconds 30), none, none⟩)
        (pipeline [edgeRoute "10.0.2.0/24", edgeRoute "10.0.1.0/24"] [cappedBinding] none
          ⟨2 * second⟩ (gonePrior ["10.3.0.0/24", "10.1.0.0/24"])
          ⟨some (.seconds 30), none, none⟩) := by
  have hd : ([edgeRoute "10.0.1.0/24", edgeRoute "10.0.2.0/24"].map RIBRoute.pfx).Nodup := by
    decide
  have hp : (gonePrior ["10.1.0.0/24", "10.3.0.0/24"]).entries.Perm
      (gonePrior ["10.3.0.0/24", "10.1.0.0/24"]).entries := by
    decide +kernel
  refine ⟨by decide +kernel, ?_⟩
  exact pipeline_order_free hd (.swap _ _ _) hp (.swap _ _ _) _ _ _ _

end Kreg
