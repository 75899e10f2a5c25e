import Kreg.Damp
import Kreg.Select
import Mathlib.Data.List.Sort

namespace Kreg
open Float64
set_option autoImplicit true

def managedByValue : String := "advertisedbackend"

def metaTime (t : Time) : Option Time :=
  if t.isZero then none else some t

def metaTimeOrNil (t : Option Time) : Option Time :=
  t.bind metaTime

def asPathInt64 (asPath : GoSlice UInt32) : GoSlice Int64 :=
  asPath.map fun asn => asn.toUInt64.toInt64

/-- Rejection outranks the damper, which outranks a drain. -/
def stateAndReason (c : BackendCandidate F) : BackendState × String :=
  if c.rejected then (.rejected, c.reason)
  else
    let rest : BackendState × String := if c.drain then (.draining, "") else (.active, "")
    match c.damping with
    | none => rest
    | some d =>
      match d.state with
      | .pending | .holdDown | .dampened => (d.state, d.reason)
      | _ => rest

/-- The policies that select `c`. An error of `Select` counts as no match. -/
def boundTo (c : BackendCandidate F) (policies : List BGPBackendPolicy) :
    List BGPBackendPolicy :=
  policies.filter fun policy =>
    match select [c] policy.selector with
    | .error _ => false
    | .ok selected => !selected.isEmpty

def sortStrings (l : List String) : List String :=
  l.insertionSort (· ≤ ·)

def BackendCandidate.bindings (c : BackendCandidate F) (policies : List BGPBackendPolicy) :
    List String × List String :=
  if c.rejected then ([], [])
  else
    let bound := boundTo c policies
    (sortStrings (bound.map fun p => p.namespaceName ++ "/" ++ p.name),
      sortStrings (bound.map fun p =>
        "EndpointSlice/" ++ p.namespaceName ++ "/" ++
          endpointSliceName (serviceName p) c.clusterID c.pfx))

def StabilityStatus.zero : StabilityStatus := ⟨0, 0, none, none, none, none⟩

variable {F : Type} [Float64 F]

def clampToInt32 (f : F) : Int32 :=
  if isNaN f then 0
  else
    let rounded := round f
    if lt (ofInt 2147483647) rounded then 2147483647
    else if lt rounded (ofInt (-2147483648)) then -2147483648
    else Int32.ofInt (toInt rounded)

def stabilityStatus (d : DampingInfo F) : StabilityStatus where
  flapCount24h := d.flapCount24h
  dampeningPenalty := clampToInt32 d.score
  lastObservedAt := metaTime d.lastObservedAt
  withdrawnAt := metaTimeOrNil d.withdrawnAt
  suppressedSince := metaTimeOrNil d.suppressedSince
  pendingSince := metaTimeOrNil d.pendingSince

def buildOne (c : BackendCandidate F) (policies : List BGPBackendPolicy) : AdvertisedBackend where
  name := c.name
  labels := [(managedByLabel, managedByValue)]
  status :=
    { pfx := c.pfx
      clusterID := c.clusterID
      peer := c.peer
      locality := c.locality
      attributes :=
        { weight := c.weight
          tier := c.tier
          drain := c.drain
          serviceTag := c.serviceTag
          med := c.med.toUInt64.toInt64
          asPath := asPathInt64 c.asPath
          largeCommunities := c.largeCommunities }
      state := (stateAndReason c).1
      reason := (stateAndReason c).2
      firstSeen := none
      lastChange := none
      stability := (c.damping.map stabilityStatus).getD .zero
      boundPolicies := (c.bindings policies).1
      generatedResources := (c.bindings policies).2 }

def buildAdvertisedBackends (candidates : List (BackendCandidate F))
    (policies : List BGPBackendPolicy) : List AdvertisedBackend :=
  candidates.map fun c => buildOne c policies

end Kreg
