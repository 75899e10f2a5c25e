import Kreg.GoNet
import Kreg.Types
import Mathlib.Data.List.Sort

namespace Kreg
set_option autoImplicit true

/-- The inner loop of `matchBinding`: does one binding's `allowedPrefixes` contain `ip`? -/
def matchAllowed (ip : IP) (clusterID : String) : List String → Except String Bool
  | [] => .ok false
  | allowed :: rest =>
    match parseCIDR allowed with
    | .error e =>
      .error ("parse allowedPrefixes " ++ quote allowed ++ " for cluster " ++ quote clusterID ++
        ": " ++ e)
    | .ok c => if c.net.contains ip then .ok true else matchAllowed ip clusterID rest

def matchIP (ip : IP) : List ClusterBinding → Except String (Option ClusterBinding)
  | [] => .ok none
  | b :: rest =>
    match matchAllowed ip b.clusterID b.allowedPrefixes with
    | .error e => .error e
    | .ok true => .ok (some b)
    | .ok false => matchIP ip rest

def matchBinding (pfx : String) (bindings : List ClusterBinding) :
    Except String (Option ClusterBinding) :=
  match parseCIDR pfx with
  | .error e => .error ("parse route prefix " ++ quote pfx ++ ": " ++ e)
  | .ok c => matchIP c.ip bindings

def RIBRoute.unmatched (r : RIBRoute) : RIBRoute :=
  { r with
    rejected := true
    reason := "prefix " ++ r.pfx ++ " not in allowedPrefixes for any cluster"
    clusterID := ""
    locality := ⟨"", ""⟩ }

def RIBRoute.attribute (r : RIBRoute) (b : ClusterBinding) : RIBRoute :=
  { r with clusterID := b.clusterID, locality := b.locality }

def RIBRoute.overCap (r : RIBRoute) (clusterID : String) (maxPrefixes : Int32) : RIBRoute :=
  { r with
    rejected := true
    reason := "cluster " ++ clusterID ++ " exceeds maxPrefixes " ++ toString maxPrefixes.toInt }

/-- `matched`: for each cluster, the indices of its routes in `authorized`. -/
abbrev Matched := GoMap (List Nat)

def Matched.indices (matched : Matched) (clusterID : String) : List Nat :=
  (matched.lookup clusterID).getD []

/-- The first loop of `Authorize`. -/
def attributeLoop (bindings : List ClusterBinding) :
    List RIBRoute → List RIBRoute → Matched → Except String (List RIBRoute × Matched)
  | [], authorized, matched => .ok (authorized, matched)
  | r :: rest, authorized, matched =>
    match matchBinding r.pfx bindings with
    | .error e => .error ("authorize " ++ r.pfx ++ ": " ++ e)
    | .ok none => attributeLoop bindings rest (authorized ++ [r.unmatched]) matched
    | .ok (some b) =>
      attributeLoop bindings rest (authorized ++ [r.attribute b])
        (matched.insert b.clusterID (matched.indices b.clusterID ++ [authorized.length]))

def prefixAt (authorized : List RIBRoute) (i : Nat) : String :=
  (authorized[i]?.map RIBRoute.pfx).getD ""

/-- `slices.SortFunc` by prefix. RIB prefixes are distinct; equal ones would stay in order. -/
def sortByPrefix (authorized : List RIBRoute) (indices : List Nat) : List Nat :=
  indices.insertionSort fun a b => prefixAt authorized a ≤ prefixAt authorized b

/-- One round of the cap loop. The sort is in place, so later rounds see it. -/
def capRound (authorized : List RIBRoute) (matched : Matched) (b : ClusterBinding) :
    List RIBRoute × Matched :=
  match b.maxPrefixes with
  | none => (authorized, matched)
  | some m =>
    let indices := matched.indices b.clusterID
    if m < 0 then (authorized, matched)
    else if Int32.ofNat indices.length ≤ m then (authorized, matched)
    else
      let indices := sortByPrefix authorized indices
      ((indices.drop m.toInt.toNat).foldl
          (fun a i => a.modify i fun r => r.overCap b.clusterID m) authorized,
        matched.insert b.clusterID indices)

def capLoop (bindings : List ClusterBinding) (authorized : List RIBRoute) (matched : Matched) :
    List RIBRoute :=
  (bindings.foldl (fun s b => capRound s.1 s.2 b) (authorized, matched)).1

def authorize (routes : List RIBRoute) (bindings : List ClusterBinding) :
    Except String (List RIBRoute) :=
  match attributeLoop bindings routes [] ∅ with
  | .error e => .error e
  | .ok (authorized, matched) => .ok (capLoop bindings authorized matched)

end Kreg
