import Kreg.ApiServer
import Kreg.GoText
import Kreg.Types

namespace Kreg
open ApiServer
set_option autoImplicit true

structure SecretKeySelector where
  name : String
  key : String
  optional : Option Bool
deriving DecidableEq

structure BGPPeerAuth where
  tcpMD5SecretRef : Option SecretKeySelector
deriving DecidableEq

structure GracefulRestartConfig where
  enabled : Bool
  staleRoutesTime : Option Duration
deriving DecidableEq

structure BGPTimers where
  hold : Option Duration
  keepalive : Option Duration
deriving DecidableEq

structure BGPPeer where
  name : String
  address : String
  remoteASN : Int64
  auth : Option BGPPeerAuth
  gracefulRestart : Option GracefulRestartConfig
  timers : Option BGPTimers
deriving DecidableEq

/-- The part of a BGPPeerConfig's spec that is about sessions. -/
structure BGPPeerConfigSpec where
  localASN : Int64
  routerID : String
  listenPort : Option Int32
  peers : List BGPPeer
deriving DecidableEq

def cutLast (sep : Char) : List Char → Option (List Char × List Char)
  | [] => none
  | c :: s =>
    match cutLast sep s with
    | some (before, after) => some (c :: before, after)
    | none => if c = sep then some ([], s) else none

/-- `net.SplitHostPort`, without its error texts. -/
def netSplitHostPort (hostport : List Char) : Option (List Char × List Char) :=
  match cutLast ':' hostport with
  | none => none
  | some ('[' :: bracketed, port) =>
    match cut ']' bracketed with
    | some (host, []) =>
      if '[' ∈ host ∨ '[' ∈ port ∨ ']' ∈ port then none else some (host, port)
    | _ => none
  | some (host, port) =>
    if ':' ∈ host ∨ '[' ∈ host ++ port ∨ ']' ∈ host ++ port then none else some (host, port)

/-- `strconv.Atoi`, without its error texts. -/
def atoi (s : List Char) : Option Int :=
  let p := signedDigits s
  if p.2 = [] then none
  else
    match parseUintFrom 18446744073709551615 p.2 0 with
    | .error _ => none
    | .ok n =>
      if p.1 then (if 9223372036854775808 < n then none else some (-n))
      else if 9223372036854775808 ≤ n then none
      else some n

def splitHostPort (address : String) : String × Int32 :=
  match netSplitHostPort address.toList with
  | none => (address, 179)
  | some (host, portStr) =>
    match atoi portStr with
    | none => (address, 179)
    | some port => (String.ofList host, Int32.ofInt port)

/-- The conversions of `d.Seconds()`, a `float64`, to whole seconds. No law is assumed: Go leaves
what does not fit to the hardware. -/
class SecondsCast where
  uint64 : Duration → UInt64
  uint32 : Duration → UInt32

/-- Conversions to run the model with: exact for durations of fewer than `2 ^ 23` seconds. -/
instance : SecondsCast where
  uint64 d := UInt64.ofInt (d.ns.tdiv second)
  uint32 d := UInt32.ofInt (d.ns.tdiv second)

inductive Family where
  | ipv4Unicast
deriving DecidableEq

structure AfiSafiConfig where
  family : Family
  enabled : Bool
deriving DecidableEq

structure TimersConfig where
  holdTime : UInt64
  keepaliveInterval : UInt64
deriving DecidableEq

structure GracefulRestart where
  enabled : Bool
  staleRoutesTime : UInt32
deriving DecidableEq

structure APIPeer where
  neighborAddress : String
  peerAsn : UInt32
  authPassword : String
  remotePort : UInt32
  afiSafis : List AfiSafiConfig
  timers : Option TimersConfig
  gracefulRestart : Option GracefulRestart
deriving DecidableEq

section
variable [SecondsCast]

def toAPIPeer (peer : BGPPeer) (password : String) : APIPeer where
  neighborAddress := (splitHostPort peer.address).1
  peerAsn := peer.remoteASN.toUInt64.toUInt32
  authPassword := password
  remotePort := (splitHostPort peer.address).2.toUInt32
  afiSafis := [⟨.ipv4Unicast, true⟩]
  timers := peer.timers.map fun t => {
    holdTime := (t.hold.map SecondsCast.uint64).getD 0
    keepaliveInterval := (t.keepalive.map SecondsCast.uint64).getD 0 }
  gracefulRestart := peer.gracefulRestart.map fun g => {
    enabled := g.enabled
    staleRoutesTime := (g.staleRoutesTime.map SecondsCast.uint32).getD 0 }

end

structure BgpGlobal where
  asn : UInt32
  routerId : String
  listenPort : Int32
deriving DecidableEq

/-- `Manager` with its GoBGP server, which is the map of its neighbors, each as it was last given;
`started` is whether `global` is there. -/
structure Manager where
  global : Option BgpGlobal
  peers : GoMap APIPeer

def Manager.new : Manager := ⟨none, ∅⟩

def startBgp (global : BgpGlobal) (m : Manager) : Except ApiError (Unit × Manager) :=
  match m.global with
  | some _ => .error ⟨false, "gobgp is already started"⟩
  | none => .ok ((), { m with global := some global })

def listPeer (m : Manager) : Except ApiError (List String × Manager) :=
  .ok (m.peers.keys, m)

def Manager.put (m : Manager) (peer : APIPeer) : Manager :=
  { m with peers := m.peers.insert peer.neighborAddress peer }

def Manager.drop (m : Manager) (address : String) : Manager :=
  { m with peers := m.peers.erase address }

def addPeer (peer : APIPeer) (m : Manager) : Except ApiError (Unit × Manager) :=
  match m.peers.lookup peer.neighborAddress with
  | some _ => .error ⟨false, "can't overwrite the existing peer: " ++ peer.neighborAddress⟩
  | none => .ok ((), m.put peer)

def updatePeer (peer : APIPeer) (m : Manager) : Except ApiError (Unit × Manager) :=
  match m.peers.lookup peer.neighborAddress with
  | none => .error ⟨false, "neighbor that has " ++ peer.neighborAddress ++ " doesn't exist."⟩
  | some _ => .ok ((), m.put peer)

def deletePeer (address : String) (m : Manager) : Except ApiError (Unit × Manager) :=
  match m.peers.lookup address with
  | none => .error ⟨false, "can't delete a peer configuration for " ++ address⟩
  | some _ => .ok ((), m.drop address)

section
variable [SecondsCast]

/-- The body of the first loop in `Reconfigure`. -/
def applyPeer (existing : List String) (passwords : GoMap String) (peer : BGPPeer) :
    Api Manager Unit :=
  let apiPeer := toAPIPeer peer ((passwords.lookup peer.name).getD "")
  if (splitHostPort peer.address).1 ∈ existing then
    wrap ("update peer " ++ peer.name) (call (updatePeer apiPeer))
  else wrap ("add peer " ++ peer.name) (call (addPeer apiPeer))

/-- The body of the second one. -/
def dropPeer (desired : List String) (address : String) : Api Manager Unit :=
  if address ∈ desired then pure ()
  else wrap ("delete peer " ++ address) (call (deletePeer address))

def ensureStarted (spec : BGPPeerConfigSpec) : Api Manager Unit := fun w =>
  match w.store.global with
  | some _ => (pure () : Api Manager Unit) w
  | none =>
    wrap "start bgp" (call (startBgp {
      asn := spec.localASN.toUInt64.toUInt32
      routerId := spec.routerID
      listenPort := spec.listenPort.getD 179 })) w

def reconfigure (spec : BGPPeerConfigSpec) (passwords : GoMap String) : Api Manager Unit := do
  ensureStarted spec
  let existing ← wrap "list peers" (call listPeer)
  each (applyPeer existing passwords) spec.peers
  each (dropPeer (spec.peers.map fun peer => (splitHostPort peer.address).1)) existing

end

inductive SessionState where
  | unknown
  | idle
  | connect
  | active
  | openSent
  | openConfirm
  | established
deriving DecidableEq

inductive PeerSessionState where
  | idle
  | connect
  | active
  | openSent
  | openConfirm
  | established
deriving DecidableEq

def sessionState : SessionState → PeerSessionState
  | .connect => .connect
  | .active => .active
  | .openSent => .openSent
  | .openConfirm => .openConfirm
  | .established => .established
  | _ => .idle

structure AfiSafiState where
  received : UInt64
  accepted : UInt64
deriving DecidableEq

structure PeerSession where
  state : Option SessionState
  uptime : Option Duration
  afiSafis : List (Option AfiSafiState)
deriving DecidableEq

structure PeerStatus where
  name : String
  sessionState : Option PeerSessionState
  uptime : Option Duration
  prefixesReceived : Int32
  prefixesAccepted : Int32
  prefixesRejected : Int32
deriving DecidableEq

def toPeerStatus (address : String) (session : PeerSession) : PeerStatus where
  name := address
  sessionState := session.state.map sessionState
  uptime := session.uptime
  prefixesReceived := (session.afiSafis.reduceOption.map fun a => a.received.toUInt32.toInt32).sum
  prefixesAccepted := (session.afiSafis.reduceOption.map fun a => a.accepted.toUInt32.toInt32).sum
  prefixesRejected := 0

/-- `Manager.Status`. -/
def managerStatus (observed : String → PeerSession) : Api Manager (List PeerStatus) := do
  let addresses ← wrap "list peers" (call listPeer)
  pure (addresses.map fun a => toPeerStatus a (observed a))

end Kreg
