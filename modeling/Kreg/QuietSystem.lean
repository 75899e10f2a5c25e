import Kreg.PolicyInterleaving
import Kreg.Quiescence
import Kreg.SliceNames
import Kreg.SystemSweeps

namespace Kreg
open ApiServer
set_option autoImplicit true

variable {F : Type}

section Inputs

/-- What a snapshot depends on, the records apart. -/
structure SnapshotInputs where
  table : List Destination
  peerConfigs : List (List ClusterBinding)
  communityMap : Option CommunityMapSpec
  stabilityConfig : Option BGPStabilityConfigSpec

def System.inputs (s : System F) : SnapshotInputs :=
  ⟨s.table, s.bindings.entries.map Sigma.snd, s.communityMap, s.stabilityConfig⟩

/-- Without a delay, a grace and dampening the records do not matter. -/
def SnapshotInputs.Undamped (i : SnapshotInputs) : Prop :=
  needsPriorState (i.stabilityConfig.getD emptyStabilityConfig) = false

def SnapshotInputs.settled (i : SnapshotInputs) : Except String (List (BackendCandidate F)) := do
  let routes ← managerSnapshot (.ok i.table)
  settle routes i.peerConfigs.flatten i.communityMap

/-- The event changes what snapshots depend on, or the policy. -/
def SystemEvent.Disturbs (key : NamespacedName) : SystemEvent F → Prop
  | .update _ => True
  | .setPeerConfig _ _ => True
  | .setPolicy key' _ => key' = key
  | .setCommunityMap _ => True
  | .setStabilityConfig _ => True
  | _ => False

/-- What has been read is what there is, unless the read has failed. -/
def SourceReads.Fits (reads : SourceReads) (i : SnapshotInputs) : SnapshotRead → Prop
  | .rib => ∀ routes, reads.routes = .ok routes → managerSnapshot (.ok i.table) = .ok routes
  | .peerConfigs => ∀ found, reads.peerConfigs = .ok found → found = i.peerConfigs
  | .communityMap =>
    ∀ what found, optionalRead what reads.communityMap = .ok found → found = i.communityMap
  | .stabilityConfig =>
    ∀ what found, optionalRead what reads.stabilityConfig = .ok found → found = i.stabilityConfig
  | .backends => True

theorem System.read_fits (s : System F) (what : SnapshotRead) (fault : Option String)
    (reads : SourceReads) : (s.read what fault reads).Fits s.inputs what := by
  cases what with
  | rib =>
    intro routes h
    cases fault with
    | none => exact h
    | some e => cases h
  | peerConfigs => exact fun _ h => readOutcome_ok h
  | communityMap => exact fun _ _ h => getOutcome_found h
  | stabilityConfig => exact fun _ _ h => getOutcome_found h
  | backends => trivial

theorem SourceReads.Fits.read {s : System F} {reads : SourceReads}
    (h : reads.Fits s.inputs what) (what' : SnapshotRead) (fault : Option String) :
    (s.read what' fault reads).Fits s.inputs what := by
  have hnew := s.read_fits what' fault reads
  cases what' <;> cases what <;> first | exact h | exact hnew

variable [Float64 F] [SecondsCast]

theorem SystemEvent.step_inputs {e : SystemEvent F} (h : ¬ e.Disturbs key) (namespaceName : String)
    (s : System F) : (e.step namespaceName s).inputs = s.inputs := by
  cases e with
  | update table => exact absurd trivial h
  | setPeerConfig name object => exact absurd trivial h
  | setCommunityMap cm => exact absurd trivial h
  | setStabilityConfig cfg => exact absurd trivial h
  | setPolicy key' policy => cases policy <;> rfl
  | publish who =>
    rw [SystemEvent.step]
    cases published (s.reads who) <;> rfl
  | sweep faults =>
    rw [SystemEvent.step]
    cases s.sweeping <;> rfl
  | _ => rfl

end Inputs

section Damping

variable [Float64 F]

structure BackendCandidate.Resembles (c c' : BackendCandidate F) : Prop where
  bare : c.bare = c'.bare
  servable : c.servable = c'.servable

omit [Float64 F] in
theorem BackendCandidate.Resembles.selects {c c' : BackendCandidate F} (h : c.Resembles c')
    (sel : BackendSelector) : selects sel c = selects sel c' := by
  have hpfx := congrArg BackendCandidate.pfx h.bare
  have hid := congrArg BackendCandidate.clusterID h.bare
  have htag := congrArg BackendCandidate.serviceTag h.bare
  rw [Kreg.selects, Kreg.selects, selectOne_congr h.servable hpfx hid htag]

omit [Float64 F] in
theorem BackendCandidate.Resembles.name {c c' : BackendCandidate F} (h : c.Resembles c') :
    c.name = c'.name := by
  have hname := congrArg BackendCandidate.name h.bare
  exact hname

omit [Float64 F] in
theorem servable_of_resembles {l l' : List (BackendCandidate F)}
    (h : List.Forall₂ BackendCandidate.Resembles l l') :
    (l.filter BackendCandidate.servable).map BackendCandidate.bare =
      (l'.filter BackendCandidate.servable).map BackendCandidate.bare := by
  induction h with
  | nil => rfl
  | cons hc _ ih =>
    rw [List.filter_cons, List.filter_cons, hc.servable]
    split
    · rw [List.map_cons, List.map_cons, hc.bare, ih]
    · exact ih

theorem evaluateCandidate_resembles (h : needsPriorState cfg = false) (now : Time)
    {prior : GoMap (PriorState F)} (hp : ∀ k, prior.lookup k = none) {c : BackendCandidate F}
    (hc : c.damping = none) : (evaluateCandidate now prior cfg c).Resembles c := by
  rw [evaluateCandidate]
  split
  · exact ⟨rfl, rfl⟩
  · have hactive : evaluatePresent now ((prior.lookup c.name).map PriorState.damping)
        (durationOrZero cfg.additionDelay) cfg.dampening = newCandidateDamping (F := F) now
          (durationOrZero cfg.additionDelay) := by
      rw [hp]
      rfl
    refine ⟨rfl, ?_⟩
    rw [hactive, newCandidateDamping, if_pos (delay_of_unneeded h), BackendCandidate.servable,
      BackendCandidate.servable, hc]
    rfl

theorem evaluate_resembles (h : needsPriorState cfg = false) (now : Time)
    {prior : GoMap (PriorState F)} (hp : prior.entries = [])
    {candidates : List (BackendCandidate F)} (hc : ∀ c ∈ candidates, c.damping = none) :
    List.Forall₂ BackendCandidate.Resembles (evaluate now candidates prior cfg) candidates := by
  have hlookup (k : String) : prior.lookup k = none := by
    rw [AList.lookup, hp]
    rfl
  rw [evaluate, synthesize, hp, List.filterMap_nil, List.append_nil, List.forall₂_map_left_iff,
    List.forall₂_same]
  exact fun c hmem => evaluateCandidate_resembles h now hlookup (hc c hmem)

theorem sourceSnapshot_resembles {i : SnapshotInputs} (hoff : i.Undamped) {reads : SourceReads}
    (hreads : ∀ what, reads.Fits i what) {visit : Visit F} {out : List (BackendCandidate F)}
    (h : sourceSnapshot now reads visit.order = .ok out) :
    ∃ candidates, i.settled = .ok candidates ∧
      List.Forall₂ BackendCandidate.Resembles out candidates := by
  obtain ⟨routes, peerConfigs, authorized, cm, candidates, found, items, hr, hp, ha, hcm, hn, hf,
    _, rfl⟩ := sourceSnapshot_returned h
  obtain rfl := hreads .peerConfigs _ hp
  obtain rfl := hreads .communityMap _ _ hcm
  obtain rfl := hreads .stabilityConfig _ _ hf
  have hsettle := settle_of_ok ha hn
  refine ⟨candidates, ?_, ?_⟩
  · rw [SnapshotInputs.settled, hreads .rib _ hr]
    exact hsettle
  · have hprior : (visit.order (loadPrior (F := F) (i.stabilityConfig.getD emptyStabilityConfig)
        items)).entries = [] := by
      rw [loadPrior, if_neg (by rw [hoff]; exact Bool.false_ne_true)]
      exact (visit.perm ∅).eq_nil
    exact evaluate_resembles hoff now hprior (settle_undamped hsettle)

end Damping

section Rendered

variable {candidates : List (BackendCandidate F)}

theorem renderEndpointSlice_named {c : BackendCandidate F}
    (h : renderEndpointSlice policy svc c = .ok o) :
    o.kind = .endpointSlice ∧ o.name = endpointSliceName svc c.clusterID c.pfx := by
  rw [renderEndpointSlice] at h
  split at h
  · cases h
  · cases h
    exact ⟨rfl, rfl⟩

theorem eq_of_slice_name (hd : (candidates.map BackendCandidate.pfx).Nodup)
    (hv4 : ∀ c ∈ candidates, IPv4Prefix c.pfx) (hc : c ∈ candidates) (hc' : c' ∈ candidates)
    (h : renderEndpointSlice policy (serviceName policy) c = .ok o)
    (h' : renderEndpointSlice policy (serviceName policy) c' = .ok o') (hn : o.name = o'.name) :
    c = c' := by
  rw [(renderEndpointSlice_named h).2, (renderEndpointSlice_named h').2,
    endpointSliceName_eq_iff (hv4 c hc) (hv4 c' hc')] at hn
  exact List.inj_on_of_nodup_map hd hc hc' hn.2

theorem slices_nodup (hd : (candidates.map BackendCandidate.pfx).Nodup)
    (hv4 : ∀ c ∈ candidates, IPv4Prefix c.pfx)
    (h : List.Forall₂ (fun c o => renderEndpointSlice policy (serviceName policy) c = .ok o)
      candidates slices) : (slices.map fun o => (o.kind, o.name)).Nodup := by
  induction h with
  | nil => exact List.nodup_nil
  | @cons c o candidates slices hc hrest ih =>
    have hmem : ∀ c' ∈ candidates, c' ∈ c :: candidates := fun c' => .tail _
    rw [List.map_cons, List.nodup_cons]
    refine ⟨?_, ih (List.nodup_cons.1 hd).2 fun c' hc' => hv4 c' (hmem c' hc')⟩
    intro hin
    obtain ⟨o', ho', heq⟩ := List.mem_map.1 hin
    obtain ⟨c', hc', hr'⟩ := exists_of_forall₂ hrest ho'
    obtain rfl := eq_of_slice_name hd hv4 (hmem c' hc') (.head _) hr' hc (Prod.mk.inj heq).2
    exact (List.nodup_cons.1 hd).1 (List.mem_map_of_mem hc')

theorem render_nodup (h : render policy candidates istioDriver = .ok out)
    (hd : (candidates.map BackendCandidate.pfx).Nodup)
    (hv4 : ∀ c ∈ candidates, IPv4Prefix c.pfx) :
    (out.objects.map fun o => (o.kind, o.name)).Nodup := by
  obtain ⟨selected, _, _, hdriver, hservice⟩ := render_ok_iff.1 h
  have hsub : (candidates.filter (selects policy.selector)).Sublist candidates :=
    List.filter_sublist
  have hslices := slices_nodup (hd.sublist (hsub.map _)) (fun c hc => hv4 c (hsub.subset hc))
    (render_slices h)
  have hkind : ∀ o ∈ out.endpointSlices, o.kind = .endpointSlice := by
    intro o ho
    obtain ⟨c, _, hc⟩ := exists_of_forall₂ (render_slices h) ho
    exact (renderEndpointSlice_named hc).1
  rw [istioDriver] at hdriver
  split at hdriver
  · cases hdriver
  · rw [Output.objects, hservice, ← Except.ok.inj hdriver, List.map_cons, List.map_append,
      List.nodup_cons, List.nodup_append]
    refine ⟨?_, hslices, List.nodup_singleton _, ?_⟩
    · intro hin
      rcases List.mem_append.1 hin with hin | hin
      · obtain ⟨o, ho, heq⟩ := List.mem_map.1 hin
        cases (hkind o ho).symm.trans (Prod.mk.inj heq).1
      · cases (Prod.mk.inj (List.mem_singleton.1 hin)).1
    · rintro a ha b hb rfl
      obtain ⟨o, ho, heq⟩ := List.mem_map.1 ha
      rw [← heq] at hb
      cases (hkind o ho).symm.trans (Prod.mk.inj (List.mem_singleton.1 hb)).1

end Rendered

section Policies

def Cluster.policyAt (s : Cluster) (key : NamespacedName) : Option BGPBackendPolicy :=
  (s.policies.lookup key).map fun stored => stored.named key

theorem reconcilePolicy_policyAt (snapshot : Except String (List (BackendCandidate F)))
    (key key' : NamespacedName) (s : Cluster) :
    Ends (reconcilePolicy istioDriver snapshot key') s
      (fun _ s' => s'.policyAt key = s.policyAt key)
      (fun _ s' => s'.policyAt key = s.policyAt key) := by
  apply reconcilePolicy_ends
  · exact fun _ => rfl
  · exact fun _ => rfl
  · intro stored candidates out _ _ _
    apply applyOutput_inv (I := fun _ s' => s'.policyAt key = s.policyAt key) rfl
    · exact fun _ _ h => h
    · exact fun _ _ _ _ _ h _ => h
    · exact fun _ _ _ _ _ _ h => h
    · intro s' h
      rw [← h, Cluster.policyAt, Cluster.lookup_report, Cluster.policyAt]
      split
      · rw [Option.map_map]
        rfl
      · rfl

theorem PolicyEvent.policyAt_step {e : PolicyEvent F} (h : ¬ e.Changes key) (s : Cluster) :
    (e.step s).policyAt key = s.policyAt key := by
  cases e with
  | put key' policy => exact congrArg _ (AList.lookup_insert_ne (Ne.symm h))
  | delete key' => exact congrArg _ (AList.lookup_erase_ne (Ne.symm h))
  | reconcile key' snapshot faults =>
    exact (reconcilePolicy_policyAt snapshot key key' s).store faults

theorem reconcilePolicy_snapshot_ok {snapshot : Except String (List (BackendCandidate F))}
    (hp : s.policies.lookup key = some stored)
    (hok : (reconcilePolicy istioDriver snapshot key ⟨s, faults⟩).1 = .ok ()) :
    ∃ candidates, snapshot = .ok candidates := by
  cases snapshot with
  | ok candidates => exact ⟨candidates, rfl⟩
  | error e =>
    have hends : Ends (reconcilePolicy istioDriver (.error e : Except String
        (List (BackendCandidate F))) key) s (fun _ _ => False) (fun _ _ => True) := by
      apply reconcilePolicy_ends
      · exact fun _ => trivial
      · intro hnone
        cases hp.symm.trans hnone
      · intro _ _ _ _ hsnap
        cases hsnap
    exact (Ends.of_ok hends (Prod.ext hok rfl)).elim

theorem InPlace.after {candidates : List (BackendCandidate F)} (h : InPlace key stored out s)
    (hrender : render (stored.named key) candidates istioDriver = .ok out)
    (hname : key.name ≠ "") {e : PolicyEvent F} (he : ¬ e.Changes key)
    (hsame : ∀ other faults, e = .reconcile key (.ok other) faults →
      reconcilePolicy istioDriver (.ok other) key =
        reconcilePolicy istioDriver (.ok candidates) key) : InPlace key stored out (e.step s) := by
  by_cases hrec : ∃ other faults, e = .reconcile key (.ok other) faults
  · obtain ⟨other, faults, rfl⟩ := hrec
    have hstep : (PolicyEvent.reconcile key (.ok other) faults).step s =
        (PolicyEvent.reconcile key (.ok candidates) faults).step s := by
      rw [PolicyEvent.step, hsame other faults rfl, PolicyEvent.step]
    rw [hstep]
    exact h.step hrender hname ⟨id, fun _ _ he => by cases he; rfl⟩
  · exact h.step hrender hname ⟨he, fun other faults he => absurd ⟨other, faults, he⟩ hrec⟩

end Policies

section Runs

theorem SnapshotInputs.settled_distinct {i : SnapshotInputs} (hk : Keyed i.table)
    {candidates : List (BackendCandidate F)} (h : i.settled = .ok candidates) :
    (candidates.map BackendCandidate.pfx).Nodup ∧ ∀ c ∈ candidates, IPv4Prefix c.pfx := by
  obtain ⟨routes, hr, hs⟩ := ok_of_bind h
  obtain ⟨rib, rfl⟩ := hk.rib hr
  refine ⟨?_, rib.settle_ipv4 hs⟩
  rw [settle_pfx hs]
  exact rib.distinct

theorem SnapshotInputs.settled_names {i : SnapshotInputs} (hk : Keyed i.table)
    {candidates : List (BackendCandidate F)} (h : i.settled = .ok candidates) :
    (candidates.map BackendCandidate.name).Nodup := by
  obtain ⟨routes, hr, hs⟩ := ok_of_bind h
  obtain ⟨rib, rfl⟩ := hk.rib hr
  exact rib.settle_names_nodup hs

def SystemRun.Quiet (r : SystemRun F) (key : NamespacedName) (m n : Nat) : Prop :=
  ∀ i, m ≤ i → i < n → ¬ (r.event i).Disturbs key

/-- From `m` to `n` the controller makes each of its reads anew, that of the records apart. -/
def SystemRun.Refreshes (r : SystemRun F) (who : SnapshotReader) (m n : Nat) : Prop :=
  ∀ what, what = .backends ∨ ∃ i, m ≤ i ∧ i < n ∧ ∃ fault, r.event i = .read who what fault

theorem SystemRun.Quiet.mono {r : SystemRun F} (h : r.Quiet key m n) (hm : m ≤ m') (hn : n' ≤ n) :
    r.Quiet key m' n' :=
  fun i hi hi' => h i (hm.trans hi) (hi'.trans_le hn)

theorem SystemRun.Refreshes.lt {r : SystemRun F} (h : r.Refreshes who m n) : m < n := by
  rcases h .rib with he | ⟨i, hmi, hin, _⟩
  · cases he
  · exact hmi.trans_lt hin

theorem SystemEvent.onCluster_keeps [Float64 F] {e : SystemEvent F} (h : ¬ e.Disturbs key)
    (he : e.onCluster s = some e') : ¬ e'.Changes key := by
  cases e with
  | setPolicy key' policy => cases policy <;> cases he <;> exact h
  | reconcilePolicy key' now visit faults =>
    cases he
    exact id
  | _ => cases he

theorem SystemEvent.onCluster_reconcile [Float64 F] {e : SystemEvent F}
    (he : e.onCluster s = some (.reconcile key snapshot faults)) :
    ∃ now visit, s.snapshot .policy now visit = snapshot := by
  cases e with
  | setPolicy key' policy => cases policy <;> cases he
  | reconcilePolicy key' now visit faults =>
    cases he
    exact ⟨now, visit, rfl⟩
  | _ => cases he

variable [Float64 F] [SecondsCast] {r : SystemRun F}

theorem SystemRun.Quiet.inputs (h : r.Quiet key m n) (hmn : m ≤ n) :
    (r.state n).inputs = (r.state m).inputs := by
  induction n, hmn using Nat.le_induction with
  | base => rfl
  | succ n hmn ih =>
    rw [SystemRun.state, SystemEvent.step_inputs (h n hmn n.lt_succ_self)]
    exact ih (h.mono le_rfl n.le_succ)

theorem SystemRun.Quiet.policyAt (h : r.Quiet key m n) (hmn : m ≤ n) :
    (r.state n).cluster.policyAt key = (r.state m).cluster.policyAt key := by
  induction n, hmn using Nat.le_induction with
  | base => rfl
  | succ n hmn ih =>
    rw [← ih (h.mono le_rfl n.le_succ), SystemRun.state, SystemEvent.step_cluster]
    cases he : (r.event n).onCluster (r.state n) with
    | none => rfl
    | some e =>
      exact e.policyAt_step (SystemEvent.onCluster_keeps (h n hmn n.lt_succ_self) he) _

theorem SystemRun.Quiet.fits_read (h : r.Quiet key m n) (hmi : m ≤ i)
    (he : r.event i = .read who what fault) (hin : i < n) :
    ((r.state n).reads who).Fits (r.state m).inputs what := by
  induction n, hin using Nat.le_induction with
  | base =>
    have hread : (r.state (i + 1)).reads who =
        (r.state i).read what fault ((r.state i).reads who) := by
      rw [SystemRun.state, he]
      exact Function.update_self ..
    rw [hread, ← (h.mono le_rfl i.le_succ).inputs hmi]
    exact System.read_fits ..
  | succ n hin ih =>
    have hq := h.mono le_rfl n.le_succ
    have hold := ih hq
    rw [SystemRun.state]
    rcases (r.event n).step_reads r.namespaceName (r.state n) who with
      hsame | ⟨what', fault', hread⟩
    · rw [hsame]
      exact hold
    · rw [hread]
      rw [← hq.inputs (hmi.trans (Nat.le_of_lt hin))] at hold ⊢
      exact hold.read what' fault'

theorem SystemRun.Quiet.fits (h : r.Quiet key m n) (hr : r.Refreshes who m n') (hn : n' ≤ n)
    (what : SnapshotRead) : ((r.state n).reads who).Fits (r.state m).inputs what := by
  rcases hr what with rfl | ⟨i, hmi, hin, fault, he⟩
  · trivial
  · exact h.fits_read hmi he (hin.trans_le hn)

theorem SystemRun.Quiet.snapshot (h : r.Quiet key m n) (hoff : (r.state m).inputs.Undamped)
    (hr : r.Refreshes who m n') (hn : n' ≤ n) {out : List (BackendCandidate F)}
    (hs : (r.state n).snapshot who now visit = .ok out) :
    ∃ candidates, (r.state m).inputs.settled = .ok candidates ∧
      List.Forall₂ BackendCandidate.Resembles out candidates :=
  sourceSnapshot_resembles hoff (h.fits hr hn) hs

variable {candidates : List (BackendCandidate F)}

theorem SystemRun.Quiet.reconcile_eq (h : r.Quiet key m n) (hoff : (r.state m).inputs.Undamped)
    (hr : r.Refreshes .policy m n') (hn : n' ≤ n)
    (hc : (r.state m).inputs.settled = .ok candidates)
    (hs : (r.state n).snapshot .policy now visit = .ok out) :
    reconcilePolicy istioDriver (.ok out) key =
      reconcilePolicy istioDriver (.ok candidates) key := by
  obtain ⟨candidates', hc', hout⟩ := h.snapshot hoff hr hn hs
  cases hc.symm.trans hc'
  exact reconcilePolicy_of_servable (servable_of_resembles hout) key

/-- Once a policy's objects are in place, nothing that happens displaces them. -/
theorem SystemRun.Quiet.inPlace (h : r.Quiet key m n) (hoff : (r.state m).inputs.Undamped)
    (hr : r.Refreshes .policy m p) (hc : (r.state m).inputs.settled = .ok candidates)
    (hrender : render (stored.named key) candidates istioDriver = .ok out) (hname : key.name ≠ "")
    (hplace : InPlace key stored out (r.state (p + 1)).cluster) (hpn : p < n) :
    InPlace key stored out (r.state n).cluster := by
  induction n, hpn using Nat.le_induction with
  | base => exact hplace
  | succ n hpn ih =>
    have hq := h.mono le_rfl n.le_succ
    have hpn' : p ≤ n := Nat.le_of_succ_le hpn
    have hold := ih hq
    rw [SystemRun.state, SystemEvent.step_cluster]
    cases he : (r.event n).onCluster (r.state n) with
    | none => exact hold
    | some e =>
      have hkeeps := SystemEvent.onCluster_keeps (h n (hr.lt.le.trans hpn') n.lt_succ_self) he
      apply hold.after hrender hname hkeeps
      rintro other faults rfl
      obtain ⟨now, visit, hsnap⟩ := SystemEvent.onCluster_reconcile he
      exact hq.reconcile_eq hoff hr hpn' hc hsnap

/-- At `p` a reconcile of the policy returns that has made its reads after `m`. -/
structure SystemRun.Reconciles (r : SystemRun F) (key : NamespacedName) (m p : Nat) : Prop where
  reads : r.Refreshes .policy m p
  returns : ∃ now visit faults, r.event p = .reconcilePolicy key now visit faults ∧
    (reconcilePolicy istioDriver ((r.state p).snapshot .policy now visit) key
      ⟨(r.state p).cluster, faults⟩).1 = .ok ()

theorem SystemRun.Quiet.served (h : r.Quiet key m n) (hoff : (r.state m).inputs.Undamped)
    (hkeyed : Keyed (r.state m).table)
    (hpolicy : (r.state m).cluster.policyAt key = some policy) (hname : key.name ≠ "")
    (hrec : r.Reconciles key m p) (hpn : p < n) :
    ∃ (candidates : List (BackendCandidate F)) (stored : StoredPolicy) (out : Output),
      (r.state m).inputs.settled = .ok candidates ∧ stored.named key = policy ∧
      render policy candidates istioDriver = .ok out ∧
      InPlace key stored out (r.state n).cluster := by
  obtain ⟨hreads, now, visit, faults, he, hok⟩ := hrec
  have hq := h.mono le_rfl hpn.le
  obtain ⟨stored, hp, rfl⟩ := Option.map_eq_some_iff.1
    ((hq.policyAt hreads.lt.le).trans hpolicy)
  obtain ⟨other, hother⟩ := reconcilePolicy_snapshot_ok hp hok
  obtain ⟨candidates, hc, _⟩ := hq.snapshot hoff hreads le_rfl hother
  obtain ⟨hd, hv4⟩ := SnapshotInputs.settled_distinct hkeyed hc
  have hcluster : (r.state (p + 1)).cluster = (reconcilePolicy istioDriver
      ((r.state p).snapshot .policy now visit) key ⟨(r.state p).cluster, faults⟩).2.store := by
    rw [SystemRun.state, he]
    rfl
  rw [hother, hq.reconcile_eq hoff hreads le_rfl hc hother] at hok hcluster
  obtain ⟨out, hrender, hw⟩ := reconcilePolicy_returned hp (Prod.ext hok rfl)
  have hfirst : InPlace key stored out (r.state (p + 1)).cluster := by
    rw [hcluster, hw]
    exact inPlace_converged (render_labelled hrender)
      (Output.keys_nodup (render_nodup hrender hd hv4)) hp
  exact ⟨candidates, stored, out, hc, rfl, hrender,
    h.inPlace hoff hreads hc hrender hname hfirst hpn⟩

/-- The routes, the configuration and a policy do not change from `m` on, and there is no delay,
grace or dampening. Once the policy has been reconciled with what is read after `m`, it has the
slices of the accepted backends it selects and no others, and keeps them, whatever the controllers
do and whatever fails. -/
theorem SystemRun.quiet_serves (r : SystemRun F) (hquiet : r.Quiet key m n)
    (hoff : (r.state m).inputs.Undamped) (hkeyed : Keyed (r.state m).table)
    (hpolicy : (r.state m).cluster.policyAt key = some policy) (hname : key.name ≠ "")
    (hrec : r.Reconciles key m p) (hpn : p < n) :
    ∃ candidates : List (BackendCandidate F), (r.state m).inputs.settled = .ok candidates ∧
      ∀ k x, (r.state n).cluster.objects.lookup k = some x ∧
          labelledSlice policy (serviceName policy) k x = true ↔
        ∃ c ∈ candidates, selects policy.selector c = true ∧
          ∃ o, renderEndpointSlice policy (serviceName policy) c = .ok o ∧
            o.key = k ∧ o.stored = x := by
  obtain ⟨candidates, stored, out, hc, rfl, hrender, hplace⟩ :=
    hquiet.served hoff hkeyed hpolicy hname hrec hpn
  exact ⟨candidates, hc, hplace.slices_iff hrender⟩

end Runs

theorem hubRun_quiet (n : Nat) : hubRun.Quiet webKey 0 n := by
  intro i _ _ h
  rcases i with _ | _ | _ | _ | _ | i <;> cases h

theorem hubRun_refreshes : hubRun.Refreshes .policy 0 5 := by
  intro what
  cases what with
  | rib => exact .inr ⟨0, le_rfl, by decide, none, rfl⟩
  | peerConfigs => exact .inr ⟨1, Nat.zero_le _, by decide, none, rfl⟩
  | communityMap => exact .inr ⟨2, Nat.zero_le _, by decide, none, rfl⟩
  | stabilityConfig => exact .inr ⟨3, Nat.zero_le _, by decide, none, rfl⟩
  | backends => exact .inl rfl

theorem hubRun_reconciles : hubRun.Reconciles webKey 0 5 where
  reads := hubRun_refreshes
  returns := by
    refine ⟨clock 5, .asListed Rat, [], rfl, ?_⟩
    decide +kernel

theorem quiet_serves_hub : ∃ candidates : List (BackendCandidate Rat),
    (hubRun.state 0).inputs.settled = .ok candidates ∧
      ∀ k x, (hubRun.state 8).cluster.objects.lookup k = some x ∧
          labelledSlice webPolicy (serviceName webPolicy) k x = true ↔
        ∃ c ∈ candidates, selects webPolicy.selector c = true ∧
          ∃ o, renderEndpointSlice webPolicy (serviceName webPolicy) c = .ok o ∧
            o.key = k ∧ o.stored = x := by
  have hkeyed : Keyed (hubRun.state 0).table := ⟨by decide, by decide⟩
  have hpolicy : (hubRun.state 0).cluster.policyAt webKey = some webPolicy := rfl
  have hname : webKey.name ≠ "" := by decide
  exact hubRun.quiet_serves (hubRun_quiet 8) rfl hkeyed hpolicy hname hubRun_reconciles
    (by decide)

end Kreg
