import Ccflare.Account
import Ccflare.Covariance
import Ccflare.RollingWindow
import Ccflare.Text

/-!
The capacity state of one account: a rolling five-hour window of weighted tokens, a
log-normal posterior of the capacity, and a Kalman filter for usage that does not pass
through the proxy. Numbers are exact: any ordered field stands for `f64`, with the
functions that are not field operations as a parameter, and every number is finite.
-/

namespace Ccflare.CapacityState

open MachineNumber

def window5hMs : Int := 18000000

def lagEstimateMs : Int := 90000

section Constants
instance hundred_atLeastTwo : Nat.AtLeastTwo 100 := ⟨by decide⟩

variable {K : Type} [Field K]

def minUForLb : K := 5

def censoredUThreshold : K := 95

def sigmaSqObs : K := 0.05

def emaAlpha : K := 0.05

def decayFactor : K := 0.98

def stopAssignBuffer : K := 20000

def cBasePro : K := 88000

def kfProcessNoiseRate : K := 100

def kfInitVariance : K := 1000000000000

def kfVarianceCap : K := 100000000000000

def sharedScoreThreshold : K := 0.5

end Constants

/-- The functions of `f64` that are not field operations. -/
structure Functions (K : Type) where
  exp : K → K
  ln : K → K
  sqrt : K → K

variable {K : Type} [Field K]

def modelWeight : Option String → K
  | none => 1
  | some model =>
      let m := Text.toAsciiLowercase model
      if Text.contains "opus" m then 4
      else if Text.contains "haiku" m then 0.25
      else 1

def tierPrior (functions : Functions K) (tier : Option String) : K × K :=
  let sigmaSq : K := 0.353 * 0.353
  match tier.map Text.trim with
  | none => (functions.ln 200000, 0.693 * 0.693)
  | some t =>
      let lower := Text.toAsciiLowercase t
      if Text.contains "20x" t then (functions.ln 880000, sigmaSq)
      else if Text.contains "5x" t then (functions.ln 440000, sigmaSq)
      else if Text.contains "max" lower then (functions.ln 440000, 0.5 * 0.5)
      else if Text.contains "pro" lower then (functions.ln 88000, sigmaSq)
      else if Text.contains "free" lower then (functions.ln 10000, 0.693 * 0.693)
      else (functions.ln 200000, 0.693 * 0.693)

structure AccountCapacityState (K : Type) where
  accountId : String
  accountName : String
  subscriptionTier : Option String
  isShared : Bool
  window5h : List (Int × K)
  proxyTokens5hWeighted : K
  mu : K
  sigmaSq : K
  nEff : K
  emaProxyRate : K
  cIHardLower : K
  kfE : K
  kfEDot : K
  kfP00 : K
  kfP01 : K
  kfP10 : K
  kfP11 : K
  lastKfPredictMs : Int
  lagEstimateMs : Int
  lastPollAtMs : Option Int
  updatedAtMs : Int
  deriving DecidableEq

structure XFactorDbState (K : Type) where
  accountId : String
  mu : K
  sigmaSq : K
  nEff : K
  emaProxyRate : K
  cIHardLower : K
  updatedAtMs : Int
  lagEstimateMs : Int
  deriving DecidableEq

namespace AccountCapacityState

/-- `AccountCapacityState::new` at the clock reading `nowMs`. -/
def new (functions : Functions K) (accountId accountName : String)
    (subscriptionTier : Option String) (isShared : Bool) (nowMs : Int) :
    AccountCapacityState K where
  accountId := accountId
  accountName := accountName
  subscriptionTier := subscriptionTier
  isShared := isShared
  window5h := []
  proxyTokens5hWeighted := 0
  mu := (tierPrior functions subscriptionTier).1
  sigmaSq := (tierPrior functions subscriptionTier).2
  nEff := 0
  emaProxyRate := 0
  cIHardLower := 0
  kfE := 0
  kfEDot := 0
  kfP00 := kfInitVariance
  kfP01 := 0
  kfP10 := 0
  kfP11 := kfInitVariance
  lastKfPredictMs := 0
  lagEstimateMs := CapacityState.lagEstimateMs
  lastPollAtMs := none
  updatedAtMs := nowMs

/-- The posterior is restored; the filter starts afresh. -/
def restoreFromDb (s : AccountCapacityState K) (db : XFactorDbState K) :
    AccountCapacityState K :=
  { s with
    mu := db.mu
    sigmaSq := db.sigmaSq
    nEff := db.nEff
    emaProxyRate := db.emaProxyRate
    cIHardLower := db.cIHardLower
    updatedAtMs := db.updatedAtMs
    kfE := 0
    kfEDot := 0
    kfP00 := kfInitVariance
    kfP01 := 0
    kfP10 := 0
    kfP11 := kfInitVariance
    lagEstimateMs := db.lagEstimateMs }

variable [LinearOrder K]

def evictOld (s : AccountCapacityState K) (nowMs : Int) : AccountCapacityState K :=
  let cutoff := wrappingSub nowMs window5hMs
  let left := RollingWindow.popOld cutoff s.window5h s.proxyTokens5hWeighted
  { s with
    window5h := left.1
    proxyTokens5hWeighted := max left.2 0 }

def onRequest (s : AccountCapacityState K) (nowMs : Int) (weightedTokens : K) :
    AccountCapacityState K :=
  if weightedTokens ≤ 0 then s
  else
    let s := s.evictOld nowMs
    { s with
      window5h := s.window5h ++ [(nowMs, weightedTokens)]
      proxyTokens5hWeighted := s.proxyTokens5hWeighted + weightedTokens
      emaProxyRate := emaAlpha * weightedTokens + (1 - emaAlpha) * s.emaProxyRate
      updatedAtMs := nowMs }

/-- Seconds from the last prediction; a clock that went back counts as none. -/
def predictionGap (s : AccountCapacityState K) (nowMs : Int) : K :=
  (max (wrappingSub nowMs s.lastKfPredictMs) 0 : Int) / 1000

def predictCovariance (s : AccountCapacityState K) (dt : K) : AccountCapacityState K :=
  let p00 := s.kfP00 + 2 * dt * s.kfP01 + dt * dt * s.kfP11
  let p01 := s.kfP01 + dt * s.kfP11
  let p11 := s.kfP11 + kfProcessNoiseRate * dt
  let clamped := max (-kfVarianceCap) (min p01 kfVarianceCap)
  { s with
    kfP00 := min p00 kfVarianceCap
    kfP01 := clamped
    kfP10 := clamped
    kfP11 := min p11 kfVarianceCap }

def kfPredictTo (s : AccountCapacityState K) (nowMs : Int) : AccountCapacityState K :=
  if s.lastKfPredictMs = 0 then { s with lastKfPredictMs := nowMs }
  else
    let dt := s.predictionGap nowMs
    if dt < 0.001 then s
    else
      { s.predictCovariance dt with
        kfE := max (s.kfE + s.kfEDot * dt) (-5000)
        kfEDot := max s.kfEDot 0
        lastKfPredictMs := nowMs }

def kfUpdate (state : AccountCapacityState K) (eObs r : K) : AccountCapacityState K :=
  let y := eObs - state.kfE
  let s := state.kfP00 + r
  if s ≤ 0 then state
  else
    let k0 := state.kfP00 / s
    let k1 := state.kfP10 / s
    let factor := r / s
    { state with
      kfE := state.kfE + k0 * y
      kfEDot := state.kfEDot + k1 * y
      kfP00 := max (state.kfP00 * factor) 0
      kfP01 := state.kfP01 * factor
      kfP10 := state.kfP01 * factor
      kfP11 := max (state.kfP11 - k1 * state.kfP01) 0 }

def pAtLaggedTime (s : AccountCapacityState K) (laggedMs : Int) : K :=
  let windowStart := wrappingSub laggedMs window5hMs
  RollingWindow.total
    (s.window5h.filter fun entry => decide (windowStart ≤ entry.1 ∧ entry.1 ≤ laggedMs))

def cEstimate (functions : Functions K) (s : AccountCapacityState K) : K :=
  max (functions.exp s.mu) s.cIHardLower

/-- What an uncensored observation of a lower bound does to the posterior. -/
def updatePosterior (functions : Functions K) (s : AccountCapacityState K) (lb : K) :
    AccountCapacityState K :=
  let sigmaSq := min (s.sigmaSq / decayFactor) 4
  let precisionPrior := 1 / sigmaSq
  let precisionObs := 1 / sigmaSqObs
  let precisionPost := precisionPrior + precisionObs
  { s with
    mu := (precisionPrior * s.mu + precisionObs * functions.ln lb) / precisionPost
    sigmaSq := 1 / precisionPost
    nEff := min (s.nEff + 0.3) 100
    cIHardLower := max s.cIHardLower (lb * 0.90) }

/-- The measurement of external usage, once the posterior has stabilised. -/
def measureExternal (functions : Functions K) (s : AccountCapacityState K) (nowMs : Int) (u : K) :
    AccountCapacityState K :=
  if 5 ≤ s.nEff then
    let pAtLag := s.pAtLaggedTime (wrappingSub nowMs s.lagEstimateMs)
    let cEst := s.cEstimate functions
    let eObs := max (cEst * u / 100 - pAtLag) 0
    let r := (cEst * 0.01) ^ 2 / 12
    let s := s.kfUpdate eObs r
    { s with
      kfE := max s.kfE (-5000)
      kfEDot := max s.kfEDot 0 }
  else s

/-- What a poll does whatever it observes. -/
def beginPoll (s : AccountCapacityState K) (nowMs : Int) : AccountCapacityState K :=
  { s.evictOld nowMs with
    lastPollAtMs := some nowMs
    updatedAtMs := nowMs }

def onUsagePoll (functions : Functions K) (s : AccountCapacityState K) (nowMs : Int)
    (utilizationPct : K) : AccountCapacityState K :=
  let s := s.beginPoll nowMs
  let u := utilizationPct
  let lb := s.proxyTokens5hWeighted / (u / 100)
  if censoredUThreshold ≤ u then
    if 0 < s.proxyTokens5hWeighted then
      { s with cIHardLower := max s.cIHardLower lb }.kfPredictTo nowMs
    else s.kfPredictTo nowMs
  else if u < minUForLb then s.kfPredictTo nowMs
  else if lb ≤ 0 then s.kfPredictTo nowMs
  else ((s.updatePosterior functions lb).kfPredictTo nowMs).measureExternal functions nowMs u

/-- Pessimistic, expected and optimistic. -/
def remainingTokensEstimate (functions : Functions K) (s : AccountCapacityState K) : K × K × K :=
  let sigma := functions.sqrt s.sigmaSq
  let cP5 := max (functions.exp (s.mu - 1.645 * sigma)) s.cIHardLower
  let cP50 := s.cEstimate functions
  let cP95 := functions.exp (s.mu + 1.645 * sigma)
  let used := s.proxyTokens5hWeighted + max s.kfE 0
  (max (cP5 - used) 0, max (cP50 - used) 0, max (cP95 - used) 0)

def windowRecoveryTokens (s : AccountCapacityState K) (nowMs deltaMs : Int) : K :=
  let windowStart := wrappingSub nowMs window5hMs
  let cutoff := wrappingSub (wrappingAdd nowMs deltaMs) window5hMs
  RollingWindow.total
    (s.window5h.filter fun entry => decide (windowStart ≤ entry.1 ∧ entry.1 ≤ cutoff))

def totalRate (s : AccountCapacityState K) : K := s.emaProxyRate + max s.kfEDot 0

/-- `none` is an infinite time. -/
def tteMinutes (functions : Functions K) (s : AccountCapacityState K) : Option K :=
  if s.totalRate ≤ 0.01 then none
  else some ((s.remainingTokensEstimate functions).1 / s.totalRate / 60)

def tteMinutesWithRecovery (functions : Functions K) (s : AccountCapacityState K) (nowMs : Int) :
    Option K :=
  if s.totalRate ≤ 0.01 then none
  else
    let f15min := s.windowRecoveryTokens nowMs 900000
    some (max ((s.remainingTokensEstimate functions).1 + f15min) 0 / s.totalRate / 60)

def utilizationPct (functions : Functions K) (s : AccountCapacityState K) : K :=
  let c := s.cEstimate functions
  if c ≤ 0 then 0 else min ((s.proxyTokens5hWeighted + max s.kfE 0) / c * 100) 100

def xFactor (functions : Functions K) (s : AccountCapacityState K) : K × K × K :=
  let sigma := functions.sqrt s.sigmaSq
  let cLo := max (functions.exp (s.mu - 1.645 * sigma)) s.cIHardLower
  let cMid := s.cEstimate functions
  let cHi := functions.exp (s.mu + 1.645 * sigma)
  (cLo / cBasePro, cMid / cBasePro, cHi / cBasePro)

def confidence (s : AccountCapacityState K) : String :=
  if s.nEff < 1 then "cold"
  else if s.nEff < 3 then "low"
  else if s.nEff < 10 then "medium"
  else "high"

def shouldStopAssign (functions : Functions K) (s : AccountCapacityState K) : Bool :=
  let drain5min := s.totalRate * 300
  decide ((s.remainingTokensEstimate functions).1 - drain5min ≤ stopAssignBuffer)

def sharedScore (s : AccountCapacityState K) : K :=
  if s.proxyTokens5hWeighted ≤ 100 then 0 else max s.kfE 0 / s.proxyTokens5hWeighted

def suspectedShared (s : AccountCapacityState K) : Bool :=
  !s.isShared && decide (10 ≤ s.nEff) && decide (30000 ≤ s.kfE) &&
    decide (sharedScoreThreshold < s.sharedScore)

def pollAgeSeconds (s : AccountCapacityState K) (nowMs : Int) : Option K :=
  s.lastPollAtMs.map fun t => (max (wrappingSub nowMs t) 0 : Int) / 1000

end AccountCapacityState

structure AccountCapacitySnapshot (K : Type) where
  accountId : String
  accountName : String
  subscriptionTier : Option String
  isShared : Bool
  proxyTokens5hWeighted : K
  cEstimate : K
  remainingPessimistic : K
  remainingExpected : K
  remainingOptimistic : K
  tteMinutes : Option K
  tteMinutesWithRecovery : Option K
  windowRecovery15min : K
  utilizationPct : K
  xFactorLo : K
  xFactorMid : K
  xFactorHi : K
  nEff : K
  confidence : String
  shouldStopAssign : Bool
  lastPollAgeSeconds : Option K
  emaProxyRate : K
  kfE : K
  kfEDot : K
  sharedScore : K
  suspectedShared : Bool

variable [LinearOrder K]

def buildSnapshot (functions : Functions K) (s : AccountCapacityState K) (nowMs : Int) :
    AccountCapacitySnapshot K :=
  let remaining := s.remainingTokensEstimate functions
  let x := s.xFactor functions
  { accountId := s.accountId
    accountName := s.accountName
    subscriptionTier := s.subscriptionTier
    isShared := s.isShared
    proxyTokens5hWeighted := s.proxyTokens5hWeighted
    cEstimate := s.cEstimate functions
    remainingPessimistic := remaining.1
    remainingExpected := remaining.2.1
    remainingOptimistic := remaining.2.2
    tteMinutes := s.tteMinutes functions
    tteMinutesWithRecovery := s.tteMinutesWithRecovery functions nowMs
    windowRecovery15min := s.windowRecoveryTokens nowMs 900000
    utilizationPct := s.utilizationPct functions
    xFactorLo := x.1
    xFactorMid := x.2.1
    xFactorHi := x.2.2
    nEff := s.nEff
    confidence := s.confidence
    shouldStopAssign := s.shouldStopAssign functions
    lastPollAgeSeconds := s.pollAgeSeconds nowMs
    emaProxyRate := s.emaProxyRate
    kfE := s.kfE
    kfEDot := s.kfEDot
    sharedScore := s.sharedScore
    suspectedShared := s.suspectedShared }

end Ccflare.CapacityState
