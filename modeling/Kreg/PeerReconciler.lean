import Kreg.PeerManager

namespace Kreg
open ApiServer
set_option autoImplicit true

structure StoredPeerConfig where
  spec : BGPPeerConfigSpec
  status : List PeerStatus
deriving DecidableEq

/-- What the BGPPeerConfig controller reads and writes, its manager included. -/
structure PeerCluster where
  configs : GoMap StoredPeerConfig
  secrets : AList fun _ : NamespacedName => GoMap String
  manager : Manager

def getPeerConfig (name : String) (s : PeerCluster) :
    Except ApiError (StoredPeerConfig × PeerCluster) :=
  match s.configs.lookup name with
  | none => .error ⟨true, name ++ " not found"⟩
  | some config => .ok (config, s)

def getSecret (key : NamespacedName) (s : PeerCluster) :
    Except ApiError (GoMap String × PeerCluster) :=
  match s.secrets.lookup key with
  | none => .error ⟨true, key.name ++ " not found"⟩
  | some data => .ok (data, s)

def updatePeerConfigStatus (name : String) (status : List PeerStatus) (s : PeerCluster) :
    Except ApiError (Unit × PeerCluster) :=
  match s.configs.lookup name with
  | none => .error ⟨true, name ++ " not found"⟩
  | some config =>
    .ok ((), { s with configs := s.configs.insert name { config with status := status } })

def onManager (x : Api Manager α) : Api PeerCluster α :=
  onPart PeerCluster.manager (fun s m => { s with manager := m }) x

/-- The body of the loop in `resolvePasswords`, for a name not seen before: the password, unless
there is none to be had. -/
def resolvePassword (namespaceName : String) (peer : BGPPeer) : Api PeerCluster (Option String) :=
  let context := "peer " ++ peer.name ++ ": "
  match peer.auth.bind BGPPeerAuth.tcpMD5SecretRef with
  | none => pure none
  | some ref =>
    let optional := ref.optional = some true
    let secret := namespaceName ++ "/" ++ ref.name
    if namespaceName = "" then
      fail ⟨false, context ++ "tcpMD5SecretRef is set but no namespace is configured to " ++
        "resolve it against (POD_NAMESPACE not set?)"⟩
    else if ref.name = "" then fail ⟨false, context ++ "tcpMD5SecretRef.name is empty"⟩
    else if ref.key = "" then fail ⟨false, context ++ "tcpMD5SecretRef.key is empty"⟩
    else do
      match ← attempt (call (getSecret ⟨namespaceName, ref.name⟩)) with
      | .error e =>
        if e.notFound then
          if optional then pure none
          else fail ⟨false, context ++ "secret " ++ secret ++ " not found"⟩
        else fail (e.wrap (context ++ "get secret " ++ secret))
      | .ok data =>
        match data.lookup ref.key with
        | some password => pure (some password)
        | none =>
          if optional then pure none
          else fail ⟨false, context ++ "key " ++ quote ref.key ++ " not found in secret " ++ secret⟩

def resolvePasswordsFrom (namespaceName : String) :
    List BGPPeer → List String → GoMap String → Api PeerCluster (GoMap String)
  | [], _, passwords => pure passwords
  | peer :: peers, seenNames, passwords =>
    if peer.name ∈ seenNames then fail ⟨false, "duplicate peer name " ++ quote peer.name⟩
    else do
      match ← resolvePassword namespaceName peer with
      | none => resolvePasswordsFrom namespaceName peers (peer.name :: seenNames) passwords
      | some password =>
        resolvePasswordsFrom namespaceName peers (peer.name :: seenNames)
          (passwords.insert peer.name password)

def resolvePasswords (namespaceName : String) (peers : List BGPPeer) :
    Api PeerCluster (GoMap String) :=
  resolvePasswordsFrom namespaceName peers [] ∅

/-- `BGPPeerConfigReconciler.Reconcile` up to its call of the manager: nothing is left to do for
an object that is gone. -/
def readPeerConfig (namespaceName name : String) :
    Api PeerCluster (Option (BGPPeerConfigSpec × GoMap String)) := do
  match ← attempt (call (getPeerConfig name)) with
  | .error e => if e.notFound then pure none else fail e
  | .ok config =>
    let passwords ← wrap "resolve peer auth" (resolvePasswords namespaceName config.spec.peers)
    pure (some (config.spec, passwords))

def tracked (tracker : Option (GoMap Int32)) (status : PeerStatus) : PeerStatus :=
  match tracker with
  | none => status
  | some counts => { status with prefixesRejected := (counts.lookup status.name).getD 0 }

/-- The rest of it, after the call of `Reconfigure`. -/
def reportPeers (observed : String → PeerSession) (tracker : Option (GoMap Int32))
    (name : String) : Api PeerCluster Unit := do
  let statuses ← wrap "status" (onManager (managerStatus observed))
  wrap "update status" (call (updatePeerConfigStatus name (statuses.map (tracked tracker))))

/-- `BGPPeerConfigReconciler.Reconcile`. -/
def reconcilePeerConfig [SecondsCast] (namespaceName : String) (observed : String → PeerSession)
    (tracker : Option (GoMap Int32)) (name : String) : Api PeerCluster Unit := do
  match ← readPeerConfig namespaceName name with
  | none => pure ()
  | some (spec, passwords) =>
    wrap "reconfigure" (onManager (reconfigure spec passwords))
    reportPeers observed tracker name

end Kreg
