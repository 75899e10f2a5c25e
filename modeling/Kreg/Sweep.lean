import Kreg.ApiServer
import Kreg.Report

namespace Kreg
open ApiServer
set_option autoImplicit true

/-- A stored `AdvertisedBackend`; its name is the key it is stored under. -/
structure Record where
  labels : List (String × String)
  status : AdvertisedBackendStatus
deriving DecidableEq

abbrev Records := GoMap Record

def Record.managed (r : Record) : Bool :=
  r.labels.lookup managedByLabel == some managedByValue

def AdvertisedBackendStatus.empty : AdvertisedBackendStatus where
  pfx := ""
  clusterID := ""
  peer := ""
  locality := ⟨"", ""⟩
  attributes := ⟨0, "", false, none, 0, .nil, .nil⟩
  state := .unset
  reason := ""
  firstSeen := none
  lastChange := none
  stability := .zero
  boundPolicies := []
  generatedResources := []

def StabilityStatus.stored (s : StabilityStatus) : StabilityStatus :=
  { s with
    lastObservedAt := s.lastObservedAt.map Time.truncate
    withdrawnAt := s.withdrawnAt.map Time.truncate
    suppressedSince := s.suppressedSince.map Time.truncate
    pendingSince := s.pendingSince.map Time.truncate }

def BackendAttributes.stored (a : BackendAttributes) : BackendAttributes :=
  { a with asPath := a.asPath.stored, largeCommunities := a.largeCommunities.stored }

/-- A status as it comes back from the server: as sent, its timestamps in whole seconds and its
empty slices nil. -/
def AdvertisedBackendStatus.stored (s : AdvertisedBackendStatus) : AdvertisedBackendStatus :=
  { s with
    attributes := s.attributes.stored
    firstSeen := s.firstSeen.map Time.truncate
    lastChange := s.lastChange.map Time.truncate
    stability := s.stability.stored }

def getRecord (name : String) (s : Records) : Except ApiError (Record × Records) :=
  match s.lookup name with
  | none => .error ⟨true, name ++ " not found"⟩
  | some r => .ok (r, s)

def createRecord (name : String) (labels : List (String × String)) (s : Records) :
    Except ApiError (Unit × Records) :=
  match s.lookup name with
  | some _ => .error ⟨false, name ++ " already exists"⟩
  | none => .ok ((), s.insert name ⟨labels, .empty⟩)

def updateStatus (name : String) (status : AdvertisedBackendStatus) (s : Records) :
    Except ApiError (Unit × Records) :=
  match s.lookup name with
  | none => .error ⟨true, name ++ " not found"⟩
  | some r => .ok ((), s.insert name { r with status := status.stored })

def deleteRecord (name : String) (s : Records) : Except ApiError (Unit × Records) :=
  match s.lookup name with
  | none => .error ⟨true, name ++ " not found"⟩
  | some _ => .ok ((), s.erase name)

def Records.listManaged (s : Records) : List AdvertisedBackend :=
  (s.entries.filter fun e => e.2.managed).map fun e => ⟨e.1, e.2.labels, e.2.status⟩

def reasonDrifts (state : BackendState) : Bool :=
  match state with
  | .holdDown | .dampened => true
  | _ => false

/-- A status without what moves on every tick. -/
def AdvertisedBackendStatus.semantic (s : AdvertisedBackendStatus) : AdvertisedBackendStatus :=
  { s with
    firstSeen := none
    lastChange := none
    reason := if reasonDrifts s.state then "" else s.reason
    stability :=
      { s.stability with lastObservedAt := none, dampeningPenalty := 0, flapCount24h := 0 } }

def statusChanged (old latest : AdvertisedBackendStatus) : Bool :=
  old.semantic != latest.semantic

def createdStatus (stamp : Time) (desired : AdvertisedBackendStatus) : AdvertisedBackendStatus :=
  { desired with firstSeen := some stamp, lastChange := some stamp }

def updatedStatus (stamp : Time) (current desired : AdvertisedBackendStatus) :
    AdvertisedBackendStatus :=
  { desired with
    firstSeen := current.firstSeen
    lastChange := if statusChanged current desired then some stamp else current.lastChange }

/-- Creates or updates one record. `stamp` is the clock the controller reads for it. -/
def applyBackend (stamp : Time) (desired : AdvertisedBackend) : Api Records Unit := do
  match ← attempt (call (getRecord desired.name)) with
  | .error e =>
    if e.notFound then
      wrap "create" (call (createRecord desired.name desired.labels))
      call (updateStatus desired.name (createdStatus stamp desired.status))
    else fail (e.wrap "get")
  | .ok current =>
    call (updateStatus desired.name (updatedStatus stamp current.status desired.status))

def deleteStale (desiredNames : List String) (backend : AdvertisedBackend) : Api Records Unit := do
  if backend.name ∈ desiredNames then pure ()
  else
    match ← attempt (call (deleteRecord backend.name)) with
    | .ok _ => pure ()
    | .error e =>
      if e.notFound then pure ()
      else fail (e.wrap ("delete stale advertisedbackend " ++ backend.name))

def pruneStaleBackends (desiredNames : List String) : Api Records Unit := do
  let existing ← wrap "list" (call fun s => .ok (s.listManaged, s))
  each (deleteStale desiredNames) existing

variable {F : Type} [Float64 F]

/-- `AdvertisedBackendReconciler.Reconcile`: one sweep over the whole view. -/
def reconcileBackends (stamp : Time) (snapshot : Except String (List (BackendCandidate F)))
    (policies : List BGPBackendPolicy) : Api Records Unit := do
  match snapshot with
  | .error e => fail ⟨false, "get snapshot: " ++ e⟩
  | .ok candidates =>
    let policies ← wrap "list BGPBackendPolicies" (call fun s => .ok (policies, s))
    let desired := buildAdvertisedBackends candidates policies
    each (fun b => wrap ("apply " ++ b.name) (applyBackend stamp b)) desired
    wrap "prune" (pruneStaleBackends (desired.map AdvertisedBackend.name))

end Kreg
