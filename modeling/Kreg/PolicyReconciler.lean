import Kreg.ApiServer
import Kreg.Render

namespace Kreg
open ApiServer
set_option autoImplicit true

structure ObjectKey where
  kind : Kind
  namespaceName : String
  name : String
deriving DecidableEq

structure StoredObject where
  labels : List (String × String)
  content : Content
deriving DecidableEq

structure BGPBackendPolicyStatus where
  activeBackends : Int32
  suppressedBackends : Int32
  generated : List String
deriving DecidableEq

/-- A stored BGPBackendPolicy; its name and namespace are the key it is stored under. -/
structure StoredPolicy where
  policy : BGPBackendPolicy
  status : BGPBackendPolicyStatus
deriving DecidableEq

def StoredPolicy.named (p : StoredPolicy) (key : NamespacedName) : BGPBackendPolicy :=
  { p.policy with namespaceName := key.namespaceName, name := key.name }

/-- What the BGPBackendPolicy controller reads and writes. -/
structure Cluster where
  objects : AList fun _ : ObjectKey => StoredObject
  policies : AList fun _ : NamespacedName => StoredPolicy

def Object.key (o : Object) : ObjectKey :=
  ⟨o.kind, o.namespaceName, o.name⟩

/-- An object as it comes back from the server: as sent. -/
def Object.stored (o : Object) : StoredObject :=
  ⟨o.labels, o.content⟩

/-- What Go reads under a label that is not there is the empty string. -/
def StoredObject.owner (x : StoredObject) : String :=
  (x.labels.lookup managedByLabel).getD ""

def Cluster.put (s : Cluster) (o : Object) : Cluster :=
  { s with objects := s.objects.insert o.key o.stored }

def getObject (key : ObjectKey) (s : Cluster) : Except ApiError (StoredObject × Cluster) :=
  match s.objects.lookup key with
  | none => .error ⟨true, key.name ++ " not found"⟩
  | some x => .ok (x, s)

def createObject (o : Object) (s : Cluster) : Except ApiError (Unit × Cluster) :=
  match s.objects.lookup o.key with
  | some _ => .error ⟨false, o.name ++ " already exists"⟩
  | none => .ok ((), s.put o)

/-- What the server lets an update change: a Service keeps its cluster IP once it has one, an
EndpointSlice its address type. -/
def Content.mayBecome : Content → Content → Bool
  | .service old, .service new => old.clusterIP == "" || new.clusterIP == old.clusterIP
  | .endpointSlice old, .endpointSlice new => new.addressType == old.addressType
  | _, _ => true

def updateObject (o : Object) (s : Cluster) : Except ApiError (Unit × Cluster) :=
  match s.objects.lookup o.key with
  | none => .error ⟨true, o.name ++ " not found"⟩
  | some x =>
    if x.content.mayBecome o.content then .ok ((), s.put o)
    else .error ⟨false, o.name ++ " is invalid: field is immutable"⟩

def deleteObject (key : ObjectKey) (s : Cluster) : Except ApiError (Unit × Cluster) :=
  match s.objects.lookup key with
  | none => .error ⟨true, key.name ++ " not found"⟩
  | some _ => .ok ((), { s with objects := s.objects.erase key })

def getPolicy (key : NamespacedName) (s : Cluster) : Except ApiError (StoredPolicy × Cluster) :=
  match s.policies.lookup key with
  | none => .error ⟨true, key.name ++ " not found"⟩
  | some p => .ok (p, s)

def updatePolicyStatus (key : NamespacedName) (status : BGPBackendPolicyStatus) (s : Cluster) :
    Except ApiError (Unit × Cluster) :=
  match s.policies.lookup key with
  | none => .error ⟨true, key.name ++ " not found"⟩
  | some p => .ok ((), { s with policies := s.policies.insert key { p with status := status } })

def labelledSlice (policy : BGPBackendPolicy) (serviceName : String) (key : ObjectKey)
    (x : StoredObject) : Bool :=
  key.kind == .endpointSlice && key.namespaceName == policy.namespaceName &&
    x.labels.lookup managedByLabel == some policy.name &&
    x.labels.lookup serviceNameLabel == some serviceName

def Cluster.listSlices (s : Cluster) (policy : BGPBackendPolicy) (serviceName : String) :
    List ObjectKey :=
  (s.objects.entries.filter fun e => labelledSlice policy serviceName e.1 e.2).map Sigma.fst

def applyOwned (policyName : String) (desired : Object) : Api Cluster Unit := do
  match ← attempt (call (getObject desired.key)) with
  | .error e => if e.notFound then call (createObject desired) else fail e
  | .ok current =>
    if current.owner ≠ "" ∧ current.owner ≠ policyName then
      fail ⟨false, desired.kind.text ++ "/" ++ desired.name ++ " is managed by " ++
        quote current.owner ++ ", not " ++ quote policyName ++ " — refusing to overwrite"⟩
    else call (updateObject desired)

/-- The body of the loop in `pruneStaleEndpointSlices`. -/
def deleteStaleSlice (desiredNames : List String) (slice : ObjectKey) : Api Cluster Unit := do
  if slice.name ∈ desiredNames then pure ()
  else
    match ← attempt (call (deleteObject slice)) with
    | .ok _ => pure ()
    | .error e =>
      if e.notFound then pure ()
      else fail (e.wrap ("delete stale endpoint slice " ++ slice.name))

def pruneStaleEndpointSlices (policy : BGPBackendPolicy) (serviceName : String)
    (desired : List Object) : Api Cluster Unit := do
  let existing ← wrap "list endpoint slices"
    (call fun s => .ok (s.listSlices policy serviceName, s))
  each (deleteStaleSlice (desired.map Object.name)) existing

variable {F : Type}

/-- The part of `BGPBackendPolicyReconciler.Reconcile` that writes. -/
def applyOutput (key : NamespacedName) (stored : StoredPolicy) (output : Output) :
    Api Cluster Unit := do
  let policy := stored.named key
  each (fun o => wrap ("apply " ++ o.kind.text) (applyOwned policy.name o)) output.objects
  wrap "prune" (pruneStaleEndpointSlices policy output.service.name output.endpointSlices)
  wrap "update status" (call (updatePolicyStatus key
    { stored.status with
      generated := output.objects.map Object.resource
      activeBackends := Int32.ofNat output.endpointSlices.length }))

/-- `BGPBackendPolicyReconciler.Reconcile`. -/
def reconcilePolicy (driver : Driver F) (snapshot : Except String (List (BackendCandidate F)))
    (key : NamespacedName) : Api Cluster Unit := do
  match ← attempt (call (getPolicy key)) with
  | .error e => if e.notFound then pure () else fail e
  | .ok stored =>
    match snapshot with
    | .error e => fail ⟨false, "get snapshot: " ++ e⟩
    | .ok candidates =>
      match render (stored.named key) candidates driver with
      | .error e => fail ⟨false, "render: " ++ e⟩
      | .ok output => applyOutput key stored output

end Kreg
