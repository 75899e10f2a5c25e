import Kreg.Damp

namespace Kreg
open Float64
set_option autoImplicit true

def flapPenalty : Int := 1000

def defaultHalfLife : Duration := .seconds 90

def defaultSuppressThreshold : Int32 := 3000

def defaultReuseThreshold : Int32 := 750

def defaultMaxSuppress : Duration := .seconds 1800

def flapCountHalfLife : Duration := .seconds 86400

def durationOrZero (d : Option Duration) : Duration :=
  d.getD .zero

def halfLifeOf (d : Option DampeningConfig) : Duration :=
  (d.bind DampeningConfig.halfLife).getD defaultHalfLife

def suppressThresholdOf (d : DampeningConfig) : Int32 :=
  d.suppressThreshold.getD defaultSuppressThreshold

def reuseThresholdOf (d : DampeningConfig) : Int32 :=
  d.reuseThreshold.getD defaultReuseThreshold

def maxSuppressOf (d : DampeningConfig) : Duration :=
  d.maxSuppress.getD defaultMaxSuppress

variable {F : Type} [Float64 F]

def decayScore (prevScore : F) (elapsed halfLife : Duration) : F :=
  if elapsed.ns ≤ 0 ∨ halfLife.ns ≤ 0 then prevScore
  else mul prevScore (halves elapsed halfLife)

variable (F) in
def decayFlapCount (prev : Int32) (elapsed : Duration) : Int32 :=
  if elapsed.ns ≤ 0 then prev
  else Int32.ofInt (toInt (round (mul (ofInt prev.toInt : F) (halves elapsed flapCountHalfLife))))

/-- What `suppressionState` returns: the state, its reason, the score to carry on and
`SuppressedSince`. -/
structure Suppression (F : Type) where
  state : BackendState
  reason : String
  score : F
  suppressedSince : Option Time

def dampenedReuse (score : F) (reuse : Int32) : String :=
  "flap-dampened: score " ++ fixed score ++ " (reuse below " ++ toString reuse.toInt ++ ")"

def dampenedEntry (score : F) (suppress : Int32) : String :=
  "flap-dampened: score " ++ fixed score ++ " (>= suppressThreshold " ++
    toString suppress.toInt ++ ")"

/-- Hysteresis: only the upper threshold enters `Dampened`, only the lower one, or the
`maxSuppress` cap, leaves it. -/
def suppressionState (now : Time) (score : F) (suppressedSince : Option Time) :
    Option DampeningConfig → Suppression F
  | none => ⟨.active, "", score, none⟩
  | some d =>
    if d.enabled = false then ⟨.active, "", score, none⟩
    else
      match suppressedSince with
      | some since =>
        if (maxSuppressOf d).ns ≤ (now.sub since).ns then ⟨.active, "", ofInt 0, none⟩
        else if lt score (ofInt (reuseThresholdOf d).toInt) then ⟨.active, "", score, none⟩
        else ⟨.dampened, dampenedReuse score (reuseThresholdOf d), score, some since⟩
      | none =>
        if le (ofInt (suppressThresholdOf d).toInt) score then
          ⟨.dampened, dampenedEntry score (suppressThresholdOf d), score, some now⟩
        else ⟨.active, "", score, none⟩

def settlingReason (additionDelay : Duration) : String :=
  "settling, additionDelay " ++ additionDelay.string

def pendingDamping (now since : Time) (additionDelay : Duration) : DampingInfo F where
  state := .pending
  reason := settlingReason additionDelay
  score := ofInt 0
  flapCount24h := 0
  lastObservedAt := now
  withdrawnAt := none
  suppressedSince := none
  pendingSince := some since

def newCandidateDamping (now : Time) (additionDelay : Duration) : DampingInfo F :=
  if additionDelay.ns ≤ 0 then
    { state := .active
      reason := ""
      score := ofInt 0
      flapCount24h := 0
      lastObservedAt := now
      withdrawnAt := none
      suppressedSince := none
      pendingSince := none }
  else pendingDamping now now additionDelay

/-- The normal evaluation of a present candidate, past any settling. A flap is a candidate
whose prior record was withdrawn. -/
def observe (now : Time) (prev : DampingInfo F) (dampening : Option DampeningConfig) :
    DampingInfo F :=
  let elapsed := now.sub prev.lastObservedAt
  let decayed := decayScore prev.score elapsed (halfLifeOf dampening)
  let count := decayFlapCount F prev.flapCount24h elapsed
  let flapped := prev.withdrawnAt.isSome
  let score := if flapped then add decayed (ofInt flapPenalty) else decayed
  let s := suppressionState now score prev.suppressedSince dampening
  { state := s.state
    reason := s.reason
    score := s.score
    flapCount24h := if flapped then count + 1 else count
    lastObservedAt := now
    withdrawnAt := none
    suppressedSince := s.suppressedSince
    pendingSince := none }

def evaluatePresent (now : Time) (prior : Option (DampingInfo F)) (additionDelay : Duration)
    (dampening : Option DampeningConfig) : DampingInfo F :=
  match prior with
  | none => newCandidateDamping now additionDelay
  | some prev =>
    let pendingSince := prev.pendingSince.getD prev.lastObservedAt
    if prev.state = .pending ∧ (now.sub pendingSince).ns < additionDelay.ns then
      pendingDamping now pendingSince additionDelay
    else observe now prev dampening

def holdDownReason (now withdrawnAt : Time) (withdrawalGrace : Duration) : String :=
  "withdrawn " ++ ((now.sub withdrawnAt).round (.seconds 1)).string ++ " ago, grace " ++
    withdrawalGrace.string

/-- A candidate that was suppressed before it disappeared stays `Dampened`: `HoldDown` would
be served. -/
def hold (now withdrawnAt : Time) (prev : DampingInfo F) (withdrawalGrace : Duration)
    (dampening : Option DampeningConfig) : DampingInfo F :=
  let elapsed := now.sub prev.lastObservedAt
  let score := decayScore prev.score elapsed (halfLifeOf dampening)
  let s := suppressionState now score prev.suppressedSince dampening
  { state := if s.state = .dampened then .dampened else .holdDown
    reason :=
      if s.state = .dampened then s.reason
      else holdDownReason now withdrawnAt withdrawalGrace
    score := s.score
    flapCount24h := decayFlapCount F prev.flapCount24h elapsed
    lastObservedAt := now
    withdrawnAt := some withdrawnAt
    suppressedSince := s.suppressedSince
    pendingSince := none }

/-- The verdict on a missing candidate; `none` once `withdrawalGrace` has elapsed. -/
def absentDamping (now : Time) (prev : DampingInfo F) (withdrawalGrace : Duration)
    (dampening : Option DampeningConfig) : Option (DampingInfo F) :=
  let withdrawnAt := prev.withdrawnAt.getD now
  if prev.state = .pending then none
  else if withdrawalGrace.ns ≤ (now.sub withdrawnAt).ns then none
  else some (hold now withdrawnAt prev withdrawalGrace dampening)

def evaluateAbsent (now : Time) (p : PriorState F) (withdrawalGrace : Duration)
    (dampening : Option DampeningConfig) : Option (BackendCandidate F) :=
  (absentDamping now p.damping withdrawalGrace dampening).map fun d =>
    { p.candidate with damping := some d }

/-- A rejected candidate passes through untouched; any other gets a verdict. -/
def evaluateCandidate (now : Time) (prior : GoMap (PriorState F)) (cfg : BGPStabilityConfigSpec)
    (c : BackendCandidate F) : BackendCandidate F :=
  if c.rejected then c
  else
    { c with
      damping := some (evaluatePresent now ((prior.lookup c.name).map PriorState.damping)
        (durationOrZero cfg.additionDelay) cfg.dampening) }

def seen (candidates : List (BackendCandidate F)) : List String :=
  (candidates.filter fun c => !c.rejected).map BackendCandidate.name

def synthesize (now : Time) (candidates : List (BackendCandidate F))
    (prior : GoMap (PriorState F)) (cfg : BGPStabilityConfigSpec) : List (BackendCandidate F) :=
  prior.entries.filterMap fun e =>
    if e.1 ∈ seen candidates then none
    else evaluateAbsent now e.2 (durationOrZero cfg.withdrawalGrace) cfg.dampening

/-- `Damper.Evaluate`. -/
def evaluate (now : Time) (candidates : List (BackendCandidate F)) (prior : GoMap (PriorState F))
    (cfg : BGPStabilityConfigSpec) : List (BackendCandidate F) :=
  candidates.map (evaluateCandidate now prior cfg) ++ synthesize now candidates prior cfg

end Kreg
