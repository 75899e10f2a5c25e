import Kreg.PeerRuns
import Kreg.PolicyRuns
import Kreg.Rib
import Kreg.Runs

namespace Kreg
open ApiServer
set_option autoImplicit true

inductive SnapshotReader where
  | report
  | policy
deriving DecidableEq

inductive SnapshotRead where
  | rib
  | peerConfigs
  | communityMap
  | stabilityConfig
  | backends

/-- A sweep of the records that is under way: the records it began with and what it has read. -/
structure Sweeping (F : Type) where
  base : Records
  stamp : Time
  snapshot : Except String (List (BackendCandidate F))
  policies : List BGPBackendPolicy

/-- One process: the BGP table and the stored objects its controllers see, and what they share.
`bindings` are the clusterBindings of the BGPPeerConfigs, `reads` what each controller has got
the last time it made each read. -/
structure System (F : Type) where
  table : List Destination
  bindings : GoMap (List ClusterBinding)
  communityMap : Option CommunityMapSpec
  stabilityConfig : Option BGPStabilityConfigSpec
  peers : PeerCluster
  cluster : Cluster
  records : Records
  tracker : GoMap Int32
  reads : SnapshotReader → SourceReads
  sweeping : Option (Sweeping F)

inductive SystemEvent (F : Type) where
  /-- The peers announce and withdraw. -/
  | update (table : List Destination)
  | setPeerConfig (name : String) (object : Option (BGPPeerConfigSpec × List ClusterBinding))
  | setSecret (key : NamespacedName) (data : Option (GoMap String))
  | setPolicy (key : NamespacedName) (policy : Option BGPBackendPolicy)
  | setCommunityMap (cm : Option CommunityMapSpec)
  | setStabilityConfig (cfg : Option BGPStabilityConfigSpec)
  /-- One of the reads of a snapshot, which may fail. -/
  | read (who : SnapshotReader) (what : SnapshotRead) (fault : Option String)
  /-- The snapshot authorizes the routes it has read, and tells the tracker. -/
  | publish (who : SnapshotReader)
  /-- The snapshot of a sweep returns; its writes follow. -/
  | beginSweep (now stamp : Time) (visit : Visit F)
  /-- The writes of the sweep under way, up to the call that fails or was the last so far. -/
  | sweep (faults : List Bool)
  | reconcilePolicy (key : NamespacedName) (now : Time) (visit : Visit F) (faults : List Bool)
  | reconcilePeers (name : String) (observed : String → PeerSession) (faults : List Bool)

variable {F : Type}

def System.allBindings (s : System F) : List ClusterBinding :=
  (s.bindings.entries.map Sigma.snd).flatten

def System.policies (s : System F) : List BGPBackendPolicy :=
  s.cluster.policies.entries.map fun e => e.2.named e.1

def readOutcome (fault : Option String) (found : α) : Except String α :=
  match fault with
  | some e => .error e
  | none => .ok found

def getOutcome (fault : Option String) (found : Option α) : Except ApiError α :=
  match fault with
  | some e => .error ⟨false, e⟩
  | none => presence found

def System.read (s : System F) (what : SnapshotRead) (fault : Option String)
    (reads : SourceReads) : SourceReads :=
  match what with
  | .rib => { reads with routes := managerSnapshot (readOutcome fault s.table) }
  | .peerConfigs =>
    { reads with peerConfigs := readOutcome fault (s.bindings.entries.map Sigma.snd) }
  | .communityMap => { reads with communityMap := getOutcome fault s.communityMap }
  | .stabilityConfig => { reads with stabilityConfig := getOutcome fault s.stabilityConfig }
  | .backends => { reads with backends := readOutcome fault s.records.listManaged }

def System.setBindings (s : System F) (name : String) :
    Option (List ClusterBinding) → GoMap (List ClusterBinding)
  | none => s.bindings.erase name
  | some bindings => s.bindings.insert name bindings

variable [Float64 F]

def Sweeping.stage (w : Sweeping F) (faults : List Bool) : Records :=
  (reconcileBackends w.stamp w.snapshot w.policies ⟨w.base, faults⟩).2.store

def System.snapshot (s : System F) (who : SnapshotReader) (now : Time) (visit : Visit F) :
    Except String (List (BackendCandidate F)) :=
  sourceSnapshot now (s.reads who) visit.order

/-- The controllers share one process: an event of one of them comes at any moment of another's. -/
def SystemEvent.step [SecondsCast] (namespaceName : String) (s : System F) :
    SystemEvent F → System F
  | .update table => { s with table := table }
  | .setPeerConfig name none =>
    { s with
      peers := (PeerEvent.delete name).step namespaceName s.peers
      bindings := s.setBindings name none }
  | .setPeerConfig name (some (spec, bindings)) =>
    { s with
      peers := (PeerEvent.put name spec).step namespaceName s.peers
      bindings := s.setBindings name (some bindings) }
  | .setSecret key data =>
    { s with peers := (PeerEvent.secret key data).step namespaceName s.peers }
  | .setPolicy key none =>
    { s with cluster := (PolicyEvent.delete key : PolicyEvent F).step s.cluster }
  | .setPolicy key (some policy) =>
    { s with cluster := (PolicyEvent.put key policy : PolicyEvent F).step s.cluster }
  | .setCommunityMap cm => { s with communityMap := cm }
  | .setStabilityConfig cfg => { s with stabilityConfig := cfg }
  | .read who what fault =>
    { s with reads := Function.update s.reads who (s.read what fault (s.reads who)) }
  | .publish who =>
    match published (s.reads who) with
    | none => s
    | some authorized => { s with tracker := rejectedCountsByPeer authorized }
  | .beginSweep now stamp visit =>
    { s with sweeping := some ⟨s.records, stamp, s.snapshot .report now visit, s.policies⟩ }
  | .sweep faults =>
    match s.sweeping with
    | none => s
    | some w => { s with records := w.stage faults }
  | .reconcilePolicy key now visit faults =>
    { s with
      cluster :=
        (PolicyEvent.reconcile key (s.snapshot .policy now visit) faults).step s.cluster }
  | .reconcilePeers name observed faults =>
    { s with
      peers :=
        (PeerEvent.reconcile ⟨name, observed, some s.tracker, faults⟩).step namespaceName s.peers }

section Step

variable [SecondsCast] (e : SystemEvent F) (namespaceName : String) (s : System F)

theorem SystemEvent.step_reads (who : SnapshotReader) :
    (e.step namespaceName s).reads who = s.reads who ∨ ∃ what fault,
      (e.step namespaceName s).reads who = s.read what fault (s.reads who) := by
  cases e with
  | setPeerConfig name object => cases object <;> exact .inl rfl
  | setPolicy key policy => cases policy <;> exact .inl rfl
  | read who' what fault =>
    by_cases hw : who = who'
    · subst hw
      exact .inr ⟨what, fault, Function.update_self ..⟩
    · exact .inl (Function.update_of_ne hw ..)
  | publish who' =>
    rw [SystemEvent.step]
    cases published (s.reads who') <;> exact .inl rfl
  | sweep faults =>
    rw [SystemEvent.step]
    cases s.sweeping <;> exact .inl rfl
  | _ => exact .inl rfl

theorem SystemEvent.step_table :
    (e.step namespaceName s).table = s.table ∨ ∃ table, e = .update table := by
  cases e with
  | update table => exact .inr ⟨table, rfl⟩
  | setPeerConfig name object => cases object <;> exact .inl rfl
  | setPolicy key policy => cases policy <;> exact .inl rfl
  | publish who =>
    rw [SystemEvent.step]
    cases published (s.reads who) <;> exact .inl rfl
  | sweep faults =>
    rw [SystemEvent.step]
    cases s.sweeping <;> exact .inl rfl
  | _ => exact .inl rfl

theorem SystemEvent.step_records :
    (e.step namespaceName s).records = s.records ∨ ∃ w faults, e = .sweep faults ∧
      s.sweeping = some w ∧ (e.step namespaceName s).records = w.stage faults := by
  cases e with
  | setPeerConfig name object => cases object <;> exact .inl rfl
  | setPolicy key policy => cases policy <;> exact .inl rfl
  | publish who =>
    rw [SystemEvent.step]
    cases published (s.reads who) <;> exact .inl rfl
  | sweep faults =>
    rw [SystemEvent.step]
    cases hs : s.sweeping with
    | none => exact .inl rfl
    | some w => exact .inr ⟨w, faults, rfl, rfl, rfl⟩
  | _ => exact .inl rfl

theorem SystemEvent.step_sweeping :
    (e.step namespaceName s).sweeping = s.sweeping ∨ ∃ now stamp visit,
      e = .beginSweep now stamp visit ∧ (e.step namespaceName s).sweeping =
        some ⟨s.records, stamp, s.snapshot .report now visit, s.policies⟩ := by
  cases e with
  | setPeerConfig name object => cases object <;> exact .inl rfl
  | setPolicy key policy => cases policy <;> exact .inl rfl
  | publish who =>
    rw [SystemEvent.step]
    cases published (s.reads who) <;> exact .inl rfl
  | beginSweep now stamp visit => exact .inr ⟨now, stamp, visit, rfl, rfl⟩
  | sweep faults =>
    left
    rw [SystemEvent.step]
    cases hs : s.sweeping with
    | none => exact hs
    | some w => rfl
  | _ => exact .inl rfl

def SystemEvent.onCluster : SystemEvent F → Option (PolicyEvent F)
  | .setPolicy key none => some (.delete key)
  | .setPolicy key (some policy) => some (.put key policy)
  | .reconcilePolicy key now visit faults =>
    some (.reconcile key (s.snapshot .policy now visit) faults)
  | _ => none

theorem SystemEvent.step_cluster :
    (e.step namespaceName s).cluster =
      ((e.onCluster s).map (PolicyEvent.step s.cluster)).getD s.cluster := by
  cases e with
  | setPeerConfig name object => cases object <;> rfl
  | setPolicy key policy => cases policy <;> rfl
  | publish who =>
    rw [SystemEvent.step]
    cases published (s.reads who) <;> rfl
  | sweep faults =>
    rw [SystemEvent.step]
    cases s.sweeping <;> rfl
  | _ => rfl

theorem SystemEvent.step_objects :
    (e.step namespaceName s).cluster.objects = s.cluster.objects ∨ ∃ key now visit faults,
      (e.step namespaceName s).cluster =
        (Kreg.reconcilePolicy istioDriver (s.snapshot .policy now visit) key
          ⟨s.cluster, faults⟩).2.store := by
  cases e with
  | setPeerConfig name object => cases object <;> exact .inl rfl
  | setPolicy key policy => cases policy <;> exact .inl rfl
  | publish who =>
    rw [SystemEvent.step]
    cases published (s.reads who) <;> exact .inl rfl
  | sweep faults =>
    rw [SystemEvent.step]
    cases s.sweeping <;> exact .inl rfl
  | reconcilePolicy key now visit faults => exact .inr ⟨key, now, visit, faults, rfl⟩
  | _ => exact .inl rfl

def SystemEvent.onPeers : SystemEvent F → Option PeerEvent
  | .setPeerConfig name none => some (.delete name)
  | .setPeerConfig name (some (spec, _)) => some (.put name spec)
  | .setSecret key data => some (.secret key data)
  | .reconcilePeers name observed faults =>
    some (.reconcile ⟨name, observed, some s.tracker, faults⟩)
  | _ => none

theorem SystemEvent.step_peers :
    (e.step namespaceName s).peers =
      ((e.onPeers s).map (PeerEvent.step namespaceName s.peers)).getD s.peers := by
  cases e with
  | setPeerConfig name object => cases object <;> rfl
  | setPolicy key policy => cases policy <;> rfl
  | publish who =>
    rw [SystemEvent.step]
    cases published (s.reads who) <;> rfl
  | sweep faults =>
    rw [SystemEvent.step]
    cases s.sweeping <;> rfl
  | _ => rfl

end Step

def SourceReads.failed (e : String) : SourceReads :=
  ⟨.error e, .error e, .error ⟨false, e⟩, .error ⟨false, e⟩, .error e⟩

/-- A run of the process from its start, when nothing has been read yet. -/
structure SystemRun (F : Type) where
  namespaceName : String
  start : System F
  event : Nat → SystemEvent F
  unread : ∀ who, ∃ e, start.reads who = .failed e
  idle : start.sweeping = none

def SystemRun.state [SecondsCast] (r : SystemRun F) : Nat → System F
  | 0 => r.start
  | n + 1 => (r.event n).step r.namespaceName (r.state n)

end Kreg
