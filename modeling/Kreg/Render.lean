import Kreg.Select

namespace Kreg
set_option autoImplicit true

inductive AddressType where
  | ipv4
  | ipv6
deriving DecidableEq

inductive Protocol where
  | tcp
deriving DecidableEq

structure ServicePort where
  name : String
  port : Int32
  protocol : Protocol
deriving DecidableEq

structure ServiceSpec where
  clusterIP : String
  ports : List ServicePort
deriving DecidableEq

structure Endpoint where
  addresses : List String
  ready : Bool
  serving : Bool
  zone : Option String
  forZones : Option (List String)
deriving DecidableEq

structure EndpointSliceSpec where
  addressType : AddressType
  ports : List ServicePort
  endpoints : List Endpoint
deriving DecidableEq

inductive ClientTLSMode where
  | simple
deriving DecidableEq

structure ClientTLSSettings where
  mode : ClientTLSMode
  sni : String
  credentialName : String
deriving DecidableEq

structure Failover where
  source : String
  target : String
deriving DecidableEq

structure ProtoDuration where
  seconds : Int
  nanos : Int
deriving DecidableEq

structure OutlierDetection where
  consecutive5xxErrors : Option UInt32
  baseEjectionTime : Option ProtoDuration
  maxEjectionPercent : Int32
deriving DecidableEq

structure DestinationRuleSpec where
  host : String
  tls : ClientTLSSettings
  failover : Option (List Failover)
  outlierDetection : Option OutlierDetection
deriving DecidableEq

inductive Content where
  | service (spec : ServiceSpec)
  | endpointSlice (spec : EndpointSliceSpec)
  | destinationRule (spec : DestinationRuleSpec)
deriving DecidableEq

inductive Kind where
  | service
  | endpointSlice
  | destinationRule
deriving DecidableEq

def Kind.text : Kind → String
  | .service => "Service"
  | .endpointSlice => "EndpointSlice"
  | .destinationRule => "DestinationRule"

def Content.kind : Content → Kind
  | .service _ => .service
  | .endpointSlice _ => .endpointSlice
  | .destinationRule _ => .destinationRule

structure Object where
  namespaceName : String
  name : String
  labels : List (String × String)
  content : Content
deriving DecidableEq

def Object.kind (o : Object) : Kind :=
  o.content.kind

def Object.resource (o : Object) : String :=
  o.kind.text ++ "/" ++ o.namespaceName ++ "/" ++ o.name

structure Output where
  service : Object
  endpointSlices : List Object
  driverObjects : List Object
deriving DecidableEq

def Output.objects (o : Output) : List Object :=
  o.service :: (o.endpointSlices ++ o.driverObjects)

/-- `Driver.Lower`: the traffic policy of the selected backends, addressed at a host. -/
abbrev Driver (F : Type) :=
  BGPBackendPolicy → List (BackendCandidate F) → String → Except String (List Object)

def serviceNameLabel : String := "kubernetes.io/service-name"

/-- `extra` overrides the owner's label, as copying into a map does. -/
def managedByLabels (policy : BGPBackendPolicy) (extra : List (String × String)) :
    List (String × String) :=
  if (extra.lookup managedByLabel).isSome then extra else (managedByLabel, policy.name) :: extra

def backendPortName (backend : BackendConfig) : String :=
  match backend.appProtocol with
  | none => "backend"
  | some protocol => if protocol = "" then "backend" else protocol

def backendPort (backend : BackendConfig) : ServicePort :=
  ⟨backendPortName backend, backend.port, .tcp⟩

def renderService (policy : BGPBackendPolicy) : Object where
  namespaceName := policy.namespaceName
  name := serviceName policy
  labels := managedByLabels policy []
  content := .service ⟨"None", [backendPort policy.backend]⟩

def addressAndType (pfx : String) : Except String (String × AddressType) :=
  match parseCIDR pfx with
  | .error e => .error ("parse prefix " ++ quote pfx ++ ": " ++ e)
  | .ok c =>
    match c.ip with
    | .v4 _ => .ok (c.ip.string, .ipv4)
    | .v6 _ => .ok (c.ip.string, .ipv6)

def renderEndpoint (c : BackendCandidate F) (addr : String) : Endpoint where
  addresses := [addr]
  ready := !c.drain
  serving := true
  zone := if c.locality.zone = "" then none else some c.locality.zone
  forZones := if c.locality.zone = "" then none else some [c.locality.zone]

/-- The body of the loop in `renderEndpointSlices`. -/
def renderEndpointSlice (policy : BGPBackendPolicy) (serviceName : String)
    (c : BackendCandidate F) : Except String Object :=
  match addressAndType c.pfx with
  | .error e => .error e
  | .ok (addr, addrType) => .ok
    { namespaceName := policy.namespaceName
      name := endpointSliceName serviceName c.clusterID c.pfx
      labels := managedByLabels policy [(serviceNameLabel, serviceName)]
      content := .endpointSlice
        { addressType := addrType
          ports := [backendPort policy.backend]
          endpoints := [renderEndpoint c addr] } }

def renderEndpointSlices (policy : BGPBackendPolicy) (serviceName : String)
    (candidates : List (BackendCandidate F)) : Except String (List Object) :=
  match candidates with
  | [] => .ok []
  | c :: rest =>
    match renderEndpointSlice policy serviceName c with
    | .error e => .error e
    | .ok slice =>
      match renderEndpointSlices policy serviceName rest with
      | .error e => .error e
      | .ok slices => .ok (slice :: slices)

def render (policy : BGPBackendPolicy) (candidates : List (BackendCandidate F))
    (driver : Driver F) : Except String Output :=
  match select candidates policy.selector with
  | .error e => .error ("select backends: " ++ e)
  | .ok selected =>
    let svc := renderService policy
    match renderEndpointSlices policy svc.name selected with
    | .error e => .error ("render endpoint slices: " ++ e)
    | .ok endpointSlices =>
      let host := svc.name ++ "." ++ policy.namespaceName ++ ".svc.cluster.local"
      match driver policy selected host with
      | .error e => .error ("lower driver objects: " ++ e)
      | .ok driverObjects => .ok ⟨svc, endpointSlices, driverObjects⟩

def BackendTLSMode.text : BackendTLSMode → String
  | .unset => ""
  | .simple => "SIMPLE"
  | .passthrough => "Passthrough"
  | .mutualTLS => "Mutual"
  | .other name => name

def clientTLSSettings (tls : BackendTLSConfig) : Except String ClientTLSSettings :=
  match tls.mode with
  | .simple | .unset => .ok ⟨.simple, tls.sni, tls.credentialRef.getD ""⟩
  | mode => .error ("backend.tls.mode " ++ quote mode.text ++
      " is not yet implemented by the Istio driver (only SIMPLE ships in v1; see " ++
      "docs/design/architecture.md §2.3)")

/-- Consecutive pairs: `[a, b, c]` becomes `a → b`, `b → c`. -/
def failoverChain (preference : List String) : List Failover :=
  (preference.zip preference.tail).map fun p => ⟨p.1, p.2⟩

def loadBalancerSettings (lb : LoadBalancingConfig) : Option (List Failover) :=
  match lb.locality with
  | none => none
  | some locality =>
    if locality.preference.length < 2 then none else some (failoverChain locality.preference)

def Duration.proto (d : Duration) : ProtoDuration :=
  ⟨d.ns.tdiv second, d.ns.tmod second⟩

def outlierDetection (od : Option OutlierDetectionConfig) : Option OutlierDetection :=
  od.map fun od =>
    { consecutive5xxErrors := od.consecutive5xx.map Int32.toUInt32
      baseEjectionTime := od.baseEjectionTime.map Duration.proto
      maxEjectionPercent := od.maxEjectionPercent.getD 0 }

/-- The Istio driver's `Lower`. It does not look at the candidates. -/
def istioDriver : Driver F := fun policy _ host =>
  match clientTLSSettings policy.backend.tls with
  | .error e => .error e
  | .ok tls => .ok
    [{ namespaceName := policy.namespaceName
       name := policy.name ++ "-kreg"
       labels := [(managedByLabel, policy.name)]
       content := .destinationRule
        { host := host
          tls := tls
          failover := loadBalancerSettings policy.loadBalancing
          outlierDetection := outlierDetection policy.outlierDetection } }]

theorem exists_right_of_forall₂ {R : α → β → Prop} (h : List.Forall₂ R l l') (ha : a ∈ l) :
    ∃ b ∈ l', R a b := by
  induction h with
  | nil => cases ha
  | @cons a' b' l l' hr _ ih =>
    rcases List.mem_cons.1 ha with he | ha
    · exact ⟨b', .head _, he ▸ hr⟩
    · obtain ⟨b, hb, hab⟩ := ih ha
      exact ⟨b, .tail _ hb, hab⟩

theorem renderEndpointSlices_ok_iff {candidates : List (BackendCandidate F)} :
    renderEndpointSlices policy svc candidates = .ok slices ↔
      List.Forall₂ (fun c o => renderEndpointSlice policy svc c = .ok o) candidates slices := by
  induction candidates generalizing slices with
  | nil =>
    rw [renderEndpointSlices, List.forall₂_nil_left_iff, Except.ok.injEq]
    exact eq_comm
  | cons c rest ih =>
    simp only [renderEndpointSlices]
    constructor
    · intro h
      split at h
      · cases h
      · next slice hc =>
        split at h
        · cases h
        · next slices hrest =>
          cases h
          exact .cons hc (ih.1 hrest)
    · intro h
      cases h with
      | cons hc hrest => simp only [hc, ih.2 hrest]

theorem render_ok_iff {candidates : List (BackendCandidate F)} {driver : Driver F} :
    render policy candidates driver = .ok out ↔
      ∃ selected, select candidates policy.selector = .ok selected ∧
        renderEndpointSlices policy (serviceName policy) selected = .ok out.endpointSlices ∧
        driver policy selected
            (serviceName policy ++ "." ++ policy.namespaceName ++ ".svc.cluster.local") =
          .ok out.driverObjects ∧
        out.service = renderService policy := by
  have hname : (renderService policy).name = serviceName policy := rfl
  simp only [render, hname]
  cases hs : select candidates policy.selector with
  | error e => simp only [reduceCtorEq, false_and, exists_false]
  | ok selected =>
    simp only [Except.ok.injEq, exists_eq_left']
    cases hr : renderEndpointSlices policy (serviceName policy) selected with
    | error e => simp only [reduceCtorEq, false_and]
    | ok slices =>
      cases hd : driver policy selected
          (serviceName policy ++ "." ++ policy.namespaceName ++ ".svc.cluster.local") with
      | error e => simp only [reduceCtorEq, false_and, and_false]
      | ok objects =>
        simp only [Except.ok.injEq]
        constructor
        · intro h
          subst h
          exact ⟨rfl, rfl, rfl⟩
        · intro h
          cases out
          simp only at h
          rw [h.1, h.2.1, ← h.2.2]

end Kreg
