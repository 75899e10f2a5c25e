import Kreg.ApiServer
import Kreg.Authorize
import Kreg.Counting
import Kreg.Ewma
import Kreg.Normalize

namespace Kreg
open ApiServer
set_option autoImplicit true

def readOr (what : String) (read : Except String α) : Except String α :=
  match read with
  | .ok a => .ok a
  | .error e => .error (what ++ ": " ++ e)

theorem readOr_ok {read : Except String α} (h : readOr what read = .ok a) : read = .ok a := by
  cases read with
  | error e => cases h
  | ok a' =>
    cases h
    rfl

theorem ok_of_bind {x : Except ε α} {f : α → Except ε β} (h : (x >>= f) = .ok b) :
    ∃ a, x = .ok a ∧ f a = .ok b := by
  cases x with
  | error e => cases h
  | ok a => exact ⟨a, rfl, h⟩

/-- Authorize then Normalize: the candidates of one RIB snapshot before damping. -/
def settle (routes : List RIBRoute) (bindings : List ClusterBinding)
    (cm : Option CommunityMapSpec) : Except String (List (BackendCandidate F)) :=
  match readOr "authorize" (authorize routes bindings) with
  | .error e => .error e
  | .ok authorized => readOr "normalize" (normalize authorized cm)

def positive (d : Option Duration) : Bool :=
  decide (0 < (durationOrZero d).ns)

def BGPStabilityConfigSpec.dampeningEnabled (spec : BGPStabilityConfigSpec) : Bool :=
  (spec.dampening.map DampeningConfig.enabled).getD false

def needsPriorState (spec : BGPStabilityConfigSpec) : Bool :=
  positive spec.withdrawalGrace || positive spec.additionDelay || spec.dampeningEnabled

theorem needsPriorState_of_enabled {dc : DampeningConfig} (hc : cfg.dampening = some dc)
    (he : dc.enabled = true) : needsPriorState cfg = true := by
  simp only [needsPriorState, BGPStabilityConfigSpec.dampeningEnabled, hc, Option.map_some,
    Option.getD_some, he, Bool.or_true]

/-- What `Source.Snapshot` reads in one tick. A missing singleton is a `notFound` error. -/
structure SourceReads where
  routes : Except String (List RIBRoute)
  peerConfigs : Except String (List (List ClusterBinding))
  communityMap : Except ApiError CommunityMapSpec
  stabilityConfig : Except ApiError BGPStabilityConfigSpec
  backends : Except String (List AdvertisedBackend)

def optionalRead (what : String) (read : Except ApiError α) : Except String (Option α) :=
  match read with
  | .ok a => .ok (some a)
  | .error e => if e.notFound then .ok none else .error (what ++ ": " ++ e.text)

/-- The outcome of a read that finds the singleton or finds none. -/
def presence (found : Option α) : Except ApiError α :=
  match found with
  | some a => .ok a
  | none => .error ⟨true, "not found"⟩

theorem optionalRead_presence (what : String) (found : Option α) :
    optionalRead what (presence found) = .ok found := by
  cases found <;> rfl

def emptyStabilityConfig : BGPStabilityConfigSpec := ⟨none, none, none⟩

variable {F : Type} [Float64 F]

def loadPrior (spec : BGPStabilityConfigSpec) (items : List AdvertisedBackend) :
    GoMap (PriorState F) :=
  if needsPriorState spec then priorStateFromAdvertisedBackends items else ∅

/-- The records are listed only when they can matter. -/
def listPrior (spec : BGPStabilityConfigSpec) (backends : Except String (List AdvertisedBackend)) :
    Except String (List AdvertisedBackend) :=
  if needsPriorState spec then readOr "list AdvertisedBackends" backends else .ok []

/-- `Source.Snapshot`. `visit` is the order in which Go happens to iterate over the prior map. -/
def sourceSnapshot (now : Time) (reads : SourceReads)
    (visit : GoMap (PriorState F) → GoMap (PriorState F)) :
    Except String (List (BackendCandidate F)) := do
  let routes ← readOr "ingest" reads.routes
  let peerConfigs ← readOr "list BGPPeerConfigs" reads.peerConfigs
  let authorized ← readOr "authorize" (authorize routes peerConfigs.flatten)
  let cm ← optionalRead "get CommunityMap \"default\"" reads.communityMap
  let candidates ← readOr "normalize" (normalize authorized cm)
  let found ← optionalRead "get BGPStabilityConfig \"default\"" reads.stabilityConfig
  let spec := found.getD emptyStabilityConfig
  let items ← listPrior spec reads.backends
  return evaluate now candidates (visit (loadPrior spec items)) spec

theorem listPrior_ok (h : listPrior spec backends = .ok items) :
    backends = .ok items ∨ items = [] := by
  rw [listPrior] at h
  split at h
  · exact .inl (readOr_ok h)
  · cases h
    exact .inr rfl

theorem sourceSnapshot_returned {visit : GoMap (PriorState F) → GoMap (PriorState F)}
    {out : List (BackendCandidate F)} (h : sourceSnapshot now reads visit = .ok out) :
    ∃ routes peerConfigs authorized cm candidates found items,
      reads.routes = .ok routes ∧ reads.peerConfigs = .ok peerConfigs ∧
      authorize routes peerConfigs.flatten = .ok authorized ∧
      optionalRead "get CommunityMap \"default\"" reads.communityMap = .ok cm ∧
      normalize authorized cm = .ok candidates ∧
      optionalRead "get BGPStabilityConfig \"default\"" reads.stabilityConfig = .ok found ∧
      listPrior (found.getD emptyStabilityConfig) reads.backends = .ok items ∧
      out = evaluate now candidates (visit (loadPrior (found.getD emptyStabilityConfig) items))
        (found.getD emptyStabilityConfig) := by
  obtain ⟨routes, hr, h⟩ := ok_of_bind h
  obtain ⟨peerConfigs, hp, h⟩ := ok_of_bind h
  obtain ⟨authorized, ha, h⟩ := ok_of_bind h
  obtain ⟨cm, hcm, h⟩ := ok_of_bind h
  obtain ⟨candidates, hn, h⟩ := ok_of_bind h
  obtain ⟨found, hf, h⟩ := ok_of_bind h
  obtain ⟨items, hl, h⟩ := ok_of_bind h
  cases h
  exact ⟨routes, peerConfigs, authorized, cm, candidates, found, items, readOr_ok hr, readOr_ok hp,
    readOr_ok ha, hcm, readOr_ok hn, hf, hl, rfl⟩

/-- With every Kubernetes read succeeding the snapshot is the damped `settle`. -/
theorem sourceSnapshot_ok (now : Time) (routes : List RIBRoute)
    (peerConfigs : List (List ClusterBinding)) (cm : Option CommunityMapSpec)
    (found : Option BGPStabilityConfigSpec) (items : List AdvertisedBackend)
    (visit : GoMap (PriorState F) → GoMap (PriorState F)) :
    sourceSnapshot now
        ⟨.ok routes, .ok peerConfigs, presence cm, presence found, .ok items⟩ visit =
      (settle routes peerConfigs.flatten cm).map fun candidates =>
        evaluate now candidates (visit (loadPrior (found.getD emptyStabilityConfig) items))
          (found.getD emptyStabilityConfig) := by
  generalize hspec : found.getD emptyStabilityConfig = spec
  have hitems : listPrior spec (.ok items) = .ok (if needsPriorState spec then items else []) := by
    rw [listPrior]
    split <;> rfl
  have hload : loadPrior (F := F) spec (if needsPriorState spec then items else []) =
      loadPrior spec items := by
    simp only [loadPrior]
    split <;> rfl
  simp only [sourceSnapshot, settle, optionalRead_presence, readOr, bind, Except.bind, hspec,
    hitems, hload]
  cases authorize routes peerConfigs.flatten with
  | error e => rfl
  | ok authorized =>
    cases normalize (F := F) authorized cm with
    | error e => rfl
    | ok candidates => rfl

section Tracker

open Counting

def rejectedCountsByPeer (routes : List RIBRoute) : GoMap Int32 :=
  routes.foldl
    (fun counts route => if route.rejected then bump 0 (· + 1) counts route.peer else counts) ∅

/-- What `Source.Snapshot` tells the tracker: which routes Authorize has rejected, as soon as it
has returned and whatever is read after that. -/
def published (reads : SourceReads) : Option (List RIBRoute) :=
  match reads.routes, reads.peerConfigs with
  | .ok routes, .ok peerConfigs => (authorize routes peerConfigs.flatten).toOption
  | _, _ => none

end Tracker

end Kreg
