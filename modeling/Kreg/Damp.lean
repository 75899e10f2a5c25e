import Kreg.Types
import Mathlib.Data.Rat.Floor

namespace Kreg
set_option autoImplicit true

/-- The `float64` operations the damper uses. No law is assumed: what is proved for every
instance also holds of the rounded arithmetic of the hardware. -/
class Float64 (F : Type) where
  ofInt : Int → F
  add : F → F → F
  mul : F → F → F
  lt : F → F → Bool
  le : F → F → Bool
  isNaN : F → Bool
  round : F → F
  toInt : F → Int
  /-- `math.Pow(0.5, elapsed.Seconds() / halfLife.Seconds())`. -/
  halves : Duration → Duration → F
  /-- The `%.0f` verb. -/
  fixed : F → String

/-- Halfway cases go away from zero, as in `math.Round`. -/
def roundRat (q : Rat) : Int :=
  if q < 0 then -(1 / 2 - q).floor else (q + 1 / 2).floor

def fixedRat (q : Rat) : String :=
  let n := q.floor
  let r := q - n
  let even := if r < 1 / 2 then n else if 1 / 2 < r then n + 1 else n + n % 2
  if q < 0 ∧ even = 0 then "-0" else toString even

/-- Rational arithmetic to run the model with: exact whenever the time elapsed is a whole
number of half-lives. -/
instance : Float64 Rat where
  ofInt n := n
  add p q := p + q
  mul p q := p * q
  lt p q := decide (p < q)
  le p q := decide (p ≤ q)
  isNaN _ := false
  round q := roundRat q
  toInt q := if q < 0 then -(-q).floor else q.floor
  halves elapsed halfLife := (1 / 2) ^ (elapsed.ns / halfLife.ns).toNat
  fixed q := fixedRat q

open Float64

def uint32OfInt64 (n : Int64) : UInt32 :=
  n.toUInt64.toUInt32

def asPathUint32 (asPath : GoSlice Int64) : GoSlice UInt32 :=
  asPath.map uint32OfInt64

/-- A stored state the damper does not own is read back as `Active`. -/
def priorDampingState (status : AdvertisedBackendStatus) : BackendState × String :=
  match status.state with
  | .pending | .holdDown | .dampened => (status.state, status.reason)
  | _ => (.active, "")

def candidateFromStatus (status : AdvertisedBackendStatus) : BackendCandidate F where
  pfx := status.pfx
  clusterID := status.clusterID
  peer := status.peer
  locality := status.locality
  med := uint32OfInt64 status.attributes.med
  asPath := asPathUint32 status.attributes.asPath
  largeCommunities := status.attributes.largeCommunities
  weight := status.attributes.weight
  tier := status.attributes.tier
  drain := status.attributes.drain
  serviceTag := status.attributes.serviceTag
  rejected := false
  reason := ""
  damping := none

variable {F : Type} [Float64 F]

/-- The prior state one record stands for; `none` if the damper never evaluated it. -/
def priorState (status : AdvertisedBackendStatus) : Option (PriorState F) :=
  status.stability.lastObservedAt.map fun lastObservedAt =>
    { candidate := candidateFromStatus status
      damping :=
        { state := (priorDampingState status).1
          reason := (priorDampingState status).2
          score := ofInt status.stability.dampeningPenalty.toInt
          flapCount24h := status.stability.flapCount24h
          lastObservedAt := lastObservedAt
          withdrawnAt := status.stability.withdrawnAt
          suppressedSince := status.stability.suppressedSince
          pendingSince := status.stability.pendingSince } }

def insertPrior (prior : GoMap (PriorState F)) (item : AdvertisedBackend) :
    GoMap (PriorState F) :=
  match priorState item.status with
  | none => prior
  | some p => prior.insert item.name p

def priorStateFromAdvertisedBackends (items : List AdvertisedBackend) : GoMap (PriorState F) :=
  items.foldl insertPrior ∅

end Kreg
