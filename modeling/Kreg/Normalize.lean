import Kreg.GoText
import Kreg.Types

namespace Kreg
set_option autoImplicit true

def matchCommunities (pattern : List String) : List String → Option String
  | [] => none
  | community :: rest =>
    match pattern, splitN community ':' 3 with
    | [p₀, p₁, p₂], [c₀, c₁, c₂] =>
      if c₀ ≠ p₀ ∨ c₁ ≠ p₁ then matchCommunities pattern rest
      else if p₂ ≠ "*" ∧ c₂ ≠ p₂ then matchCommunities pattern rest
      else some c₂
    | _, _ => matchCommunities pattern rest

def matchLargeCommunity (pattern : String) (communities : List String) : Option String :=
  let parts := splitN pattern ':' 3
  if parts.length ≠ 3 then none else matchCommunities parts communities

def fieldValue (set : CommunityFieldSet) (communityValue : String) : String :=
  if set.fromCommunityValue then communityValue else set.value.getD communityValue

def applyFieldSet (c : BackendCandidate F) (set : CommunityFieldSet) (communityValue : String) :
    Except String (BackendCandidate F) :=
  let value := fieldValue set communityValue
  match set.field with
  | .weight =>
    match parseInt value with
    | .error e => .error ("set weight from " ++ quote value ++ ": " ++ e)
    | .ok weight => .ok { c with weight := Int32.ofInt weight }
  | .tier => .ok { c with tier := value }
  | .drain =>
    match parseBool value with
    | .error e => .error ("set drain from " ++ quote value ++ ": " ++ e)
    | .ok drain => .ok { c with drain := drain }
  | .serviceTag =>
    match parseInt value with
    | .error e => .error ("set serviceTag from " ++ quote value ++ ": " ++ e)
    | .ok tag => .ok { c with serviceTag := some (Int32.ofInt tag) }
  | .other name => .error ("unknown CommunityMap field " ++ quote name)

/-- A MED is better when lower, a weight when higher. -/
def invertMED (med : UInt32) : Int32 :=
  if 1000 ≤ med.toNat then 1 else Int32.ofNat (1000 - med.toNat)

def fallbackWeight (med : UInt32) (cm : Option CommunityMapSpec) : Int32 :=
  match cm.bind CommunityMapSpec.fallbacks with
  | none => 100
  | some f =>
    if f.weightFrom = .med then invertMED med
    else if f.defaultWeight ≠ 0 then f.defaultWeight
    else 100

/-- The rule loop of `normalizeRoute`, with `anyRuleMatched` and `weightSet`. -/
def applyRules (communities : List String) :
    List CommunityRule → BackendCandidate F → Bool → Bool →
      Except String (BackendCandidate F × Bool × Bool)
  | [], c, anyRuleMatched, weightSet => .ok (c, anyRuleMatched, weightSet)
  | rule :: rest, c, anyRuleMatched, weightSet =>
    match matchLargeCommunity rule.largeCommunity communities with
    | none => applyRules communities rest c anyRuleMatched weightSet
    | some value =>
      match applyFieldSet c rule.set value with
      | .error e => .error e
      | .ok c => applyRules communities rest c true (weightSet || rule.set.field == .weight)

def RIBRoute.candidate (r : RIBRoute) : BackendCandidate F where
  pfx := r.pfx
  clusterID := r.clusterID
  peer := r.peer
  locality := r.locality
  med := r.med
  asPath := r.asPath
  largeCommunities := r.largeCommunities
  weight := 0
  tier := ""
  drain := false
  serviceTag := none
  rejected := false
  reason := ""
  damping := none

def unmappedReason (communities : List String) : String :=
  "no CommunityMap rule matched large communities " ++ fmtStrings communities

def flagUnmapped (c : BackendCandidate F) : Option CommunityMapSpec → BackendCandidate F
  | none => c
  | some cm =>
    match cm.onUnmappedCommunity with
    | .reject => { c with rejected := true, reason := unmappedReason c.largeCommunities.elems }
    | .warn => { c with reason := unmappedReason c.largeCommunities.elems }
    | _ => c

def normalizeRoute (r : RIBRoute) (cm : Option CommunityMapSpec) :
    Except String (BackendCandidate F) :=
  if r.rejected then .ok { r.candidate with rejected := true, reason := r.reason }
  else
    match applyRules r.largeCommunities.elems ((cm.map CommunityMapSpec.rules).getD []) r.candidate
        false false with
    | .error e => .error e
    | .ok (c, anyRuleMatched, weightSet) =>
      let c := if weightSet then c else { c with weight := fallbackWeight c.med cm }
      .ok (if anyRuleMatched then c else flagUnmapped c cm)

/-- The Normalize stage; one route that does not decode fails the whole snapshot. -/
def normalize (routes : List RIBRoute) (cm : Option CommunityMapSpec) :
    Except String (List (BackendCandidate F)) :=
  match routes with
  | [] => .ok []
  | r :: rest =>
    match normalizeRoute r cm with
    | .error e => .error ("normalize " ++ r.pfx ++ ": " ++ e)
    | .ok c =>
      match normalize rest cm with
      | .error e => .error e
      | .ok cs => .ok (c :: cs)

end Kreg
