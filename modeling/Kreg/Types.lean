import Kreg.GoTime
import Mathlib.Data.List.AList

namespace Kreg
set_option autoImplicit true

/-- A Go map with string keys. Its entries are listed in the order one iteration visits them. -/
abbrev GoMap (β : Type) := AList fun _ : String => β

theorem erase_of_lookup_none {α β : Type} [DecidableEq α] {s : AList fun _ : α => β} {k : α}
    (h : s.lookup k = none) : s.erase k = s := by
  apply AList.ext
  exact List.kerase_of_notMem_keys (AList.lookup_eq_none.1 h)

/-- A Go slice. A nil one and an allocated one without elements range alike, but
`reflect.DeepEqual` tells them apart. -/
inductive GoSlice (α : Type) where
  | nil
  | made (elems : List α)
deriving DecidableEq

def GoSlice.elems : GoSlice α → List α
  | .nil => []
  | .made l => l

def GoSlice.map (f : α → β) : GoSlice α → GoSlice β
  | .nil => .nil
  | .made l => .made (l.map f)

/-- What comes back of a slice stored with `omitempty`. -/
def GoSlice.stored : GoSlice α → GoSlice α
  | .made [] => .nil
  | s => s

structure NamespacedName where
  namespaceName : String
  name : String
deriving DecidableEq

structure Locality where
  region : String
  zone : String
deriving DecidableEq

structure RIBRoute where
  pfx : String
  clusterID : String
  peer : String
  locality : Locality
  med : UInt32
  asPath : GoSlice UInt32
  largeCommunities : GoSlice String
  rejected : Bool
  reason : String
deriving DecidableEq

structure ClusterBinding where
  clusterID : String
  allowedPrefixes : List String
  maxPrefixes : Option Int32
  locality : Locality
deriving DecidableEq

/-- `other` is a value the CRD enum does not list but a stored object may still hold. -/
inductive CommunityField where
  | weight
  | tier
  | drain
  | serviceTag
  | other (name : String)
deriving DecidableEq

inductive UnmappedCommunityPolicy where
  | ignore
  | reject
  | warn
  | other (name : String)
deriving DecidableEq

structure CommunityFieldSet where
  field : CommunityField
  value : Option String
  fromCommunityValue : Bool
deriving DecidableEq

structure CommunityRule where
  largeCommunity : String
  set : CommunityFieldSet
deriving DecidableEq

inductive WeightFallbackSource where
  | med
  | other (name : String)
deriving DecidableEq

structure CommunityFallbacks where
  weightFrom : WeightFallbackSource
  defaultWeight : Int32
deriving DecidableEq

structure CommunityMapSpec where
  rules : List CommunityRule
  fallbacks : Option CommunityFallbacks
  onUnmappedCommunity : UnmappedCommunityPolicy
deriving DecidableEq

structure DampeningConfig where
  enabled : Bool
  halfLife : Option Duration
  suppressThreshold : Option Int32
  reuseThreshold : Option Int32
  maxSuppress : Option Duration
deriving DecidableEq

structure BGPStabilityConfigSpec where
  withdrawalGrace : Option Duration
  additionDelay : Option Duration
  dampening : Option DampeningConfig
deriving DecidableEq

/-- `unset` is the empty string of a record whose status was never written. -/
inductive BackendState where
  | active
  | holdDown
  | draining
  | dampened
  | pending
  | rejected
  | unset
deriving DecidableEq

/-- The damper's verdict on one candidate, with its score in `F`. -/
structure DampingInfo (F : Type) where
  state : BackendState
  reason : String
  score : F
  flapCount24h : Int32
  lastObservedAt : Time
  withdrawnAt : Option Time
  suppressedSince : Option Time
  pendingSince : Option Time
deriving DecidableEq

structure BackendCandidate (F : Type) where
  pfx : String
  clusterID : String
  peer : String
  locality : Locality
  med : UInt32
  asPath : GoSlice UInt32
  largeCommunities : GoSlice String
  weight : Int32
  tier : String
  drain : Bool
  serviceTag : Option Int32
  rejected : Bool
  reason : String
  damping : Option (DampingInfo F)
deriving DecidableEq

structure PriorState (F : Type) where
  candidate : BackendCandidate F
  damping : DampingInfo F
deriving DecidableEq

structure BackendSelector where
  prefixes : List String
  serviceTag : Option Int32
  clusterIDs : List String
deriving DecidableEq

/-- `unset` is the empty string; `other` a value the CRD enum does not list. -/
inductive BackendTLSMode where
  | unset
  | simple
  | passthrough
  | mutualTLS
  | other (name : String)
deriving DecidableEq

structure BackendTLSConfig where
  mode : BackendTLSMode
  sni : String
  credentialRef : Option String
deriving DecidableEq

structure BackendConfig where
  port : Int32
  appProtocol : Option String
  tls : BackendTLSConfig
deriving DecidableEq

structure LocalityLoadBalancingConfig where
  preference : List String
deriving DecidableEq

structure LoadBalancingConfig where
  locality : Option LocalityLoadBalancingConfig
deriving DecidableEq

structure OutlierDetectionConfig where
  consecutive5xx : Option Int32
  baseEjectionTime : Option Duration
  maxEjectionPercent : Option Int32
deriving DecidableEq

structure BGPBackendPolicy where
  namespaceName : String
  name : String
  selector : BackendSelector
  backend : BackendConfig
  loadBalancing : LoadBalancingConfig
  outlierDetection : Option OutlierDetectionConfig
deriving DecidableEq

structure BackendAttributes where
  weight : Int32
  tier : String
  drain : Bool
  serviceTag : Option Int32
  med : Int64
  asPath : GoSlice Int64
  largeCommunities : GoSlice String
deriving DecidableEq

structure StabilityStatus where
  flapCount24h : Int32
  dampeningPenalty : Int32
  lastObservedAt : Option Time
  withdrawnAt : Option Time
  suppressedSince : Option Time
  pendingSince : Option Time
deriving DecidableEq

structure AdvertisedBackendStatus where
  pfx : String
  clusterID : String
  peer : String
  locality : Locality
  attributes : BackendAttributes
  state : BackendState
  reason : String
  firstSeen : Option Time
  lastChange : Option Time
  stability : StabilityStatus
  boundPolicies : List String
  generatedResources : List String
deriving DecidableEq

structure AdvertisedBackend where
  name : String
  labels : List (String × String)
  status : AdvertisedBackendStatus
deriving DecidableEq

def managedByLabel : String := "kreg.twr.dev/managed-by"

def sanitizeChar (c : Char) : Char :=
  if c = '.' ∨ c = '/' ∨ c = ':' then '-' else c

def sanitizeForName (pfx : String) : String :=
  String.ofList (pfx.toList.map sanitizeChar)

def unattributedClusterID : String := "unattributed"

/-- The `AdvertisedBackend` object name, which also keys the damper's cross-tick state. -/
def backendObjectName (pfx clusterID : String) : String :=
  sanitizeForName pfx ++ "-" ++ (if clusterID = "" then unattributedClusterID else clusterID)

def serviceName (policy : BGPBackendPolicy) : String :=
  policy.name ++ "-kreg"

def endpointSliceName (serviceName clusterID pfx : String) : String :=
  serviceName ++ "-" ++ clusterID ++ "-" ++ sanitizeForName pfx

def BackendCandidate.name (c : BackendCandidate F) : String :=
  backendObjectName c.pfx c.clusterID

end Kreg
