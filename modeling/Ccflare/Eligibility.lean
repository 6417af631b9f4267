import Ccflare.Account
import Ccflare.Text

/-!
Routing eligibility, as `account_eligibility.rs` computes it. Every gate is
evaluated; the reasons are collected in the order of the source and an account
is routable when none was collected.
-/

namespace Ccflare.Eligibility

open MachineNumber

inductive UpstreamStatus where
  | missing
  | ok
  | allowedWarning
  | authFailed
  | reauthRequired
  | unauthorized
  | forbidden
  | refreshTokenRevoked
  | other (raw : String)
  deriving DecidableEq

def UpstreamStatus.fromRaw (status : Option String) : UpstreamStatus :=
  match status with
  | none => .missing
  | some raw =>
      let lowered := Text.toAsciiLowercase (Text.trim raw)
      if lowered = "" then .missing
      else if lowered = "ok" ∨ lowered = "allowed" then .ok
      else if Text.contains "allowed_warning" lowered then .allowedWarning
      else if Text.startsWith "auth failed" lowered ∨
          Text.startsWith "authentication failed" lowered then .authFailed
      else if Text.contains "re-authentication" lowered ∨ Text.contains "reauth" lowered then
        .reauthRequired
      else if Text.contains "unauthorized" lowered then .unauthorized
      else if Text.contains "forbidden" lowered then .forbidden
      else if Text.contains "refresh token revoked" lowered then .refreshTokenRevoked
      else .other raw

def UpstreamStatus.isAuthFailure : UpstreamStatus → Bool
  | authFailed | reauthRequired | unauthorized | forbidden | refreshTokenRevoked => true
  | missing | ok | allowedWarning | other _ => false

def normalizeEpochMillis (ts : Int) : Int :=
  if wrappingAbs ts < 1000000000000 then saturatingMul ts 1000 else ts

def providerSupportsUsage (provider : String) : Bool :=
  provider = "claude-oauth" ∨ provider = "anthropic" ∨ provider = "nanogpt" ∨ provider = "zai"

def isAnthropicFamily (provider : String) : Bool :=
  provider = "anthropic" ∨ provider = "claude-oauth"

/-- `!pct.is_finite() || pct >= bound`, the test every usage gate applies. -/
def reaches (pct : F64) (bound : Int) : Bool := !pct.isFinite || pct.ge (.ofInt bound)

def isAtOverage (account : Account) (info : RoutingUsageInfo) : Bool :=
  let family := isAnthropicFamily account.provider
  if info.windows.isEmpty then
    -- Without per-window telemetry an Anthropic account counts as exhausted.
    if family then true else reaches info.utilizationPct 100
  else
    let fiveHourWindows := info.windows.filter fun w => w.kind = .fiveHour
    let fiveHourKnown := !fiveHourWindows.isEmpty
    let fiveHourExhausted := fiveHourWindows.any fun w => reaches w.utilizationPct 100
    info.windows.any fun w =>
      if !reaches w.utilizationPct 100 then false
      else if family && decide (w.kind = .other) then
        if !fiveHourKnown then true else fiveHourExhausted
      else true

/-- The threshold of a window's kind; `none` where the source skips the window. -/
def windowThreshold (account : Account) (fiveHourAt100 : Bool) : WindowKind → Option Int
  | .fiveHour => some account.reserve5h
  | .weekly => some account.reserveWeekly
  | .other =>
      if isAnthropicFamily account.provider && !fiveHourAt100 then none
      else some account.reserve5h

def isAtReserve (account : Account) (usage : UsageMap) : Bool :=
  if account.reserve5h = 0 ∧ account.reserveWeekly = 0 then false
  else match usage account.id with
    | none => false
    | some info =>
        let fiveHourAt100 := (info.windows.filter fun w => w.kind = .fiveHour).any
          fun w => reaches w.utilizationPct 100
        if !info.windows.isEmpty then
          info.windows.any fun w =>
            match windowThreshold account fiveHourAt100 w.kind with
            | none => false
            | some threshold =>
                decide (threshold > 0) &&
                  reaches w.utilizationPct (max (saturatingSub 100 threshold) 0)
        else
          let threshold := max account.reserve5h account.reserveWeekly
          decide (threshold > 0) && reaches info.utilizationPct (wrappingSub 100 threshold)

inductive AccountBlockReason where
  | paused
  | authFailed
  | activeRateLimit
  | overageProtection
  | hardReserve
  deriving DecidableEq

structure AccountEligibility where
  routable : Bool
  blockedBy : List AccountBlockReason
  upstreamStatus : UpstreamStatus
  overageBlocked : Bool
  hardReserveBlocked : Bool
  softReserveHit : Bool
  usageMissing : Bool
  usageMissingOverageFailOpen : Bool
  usageMissingHardReserveFailClosed : Bool
  activeRateLimit : Bool
  deriving DecidableEq

def activeRateLimit (account : Account) (now : Int) : Bool :=
  account.rateLimitedUntil.any fun until_ => decide (normalizeEpochMillis until_ ≥ now)

def overageBlocked (account : Account) (usage : UsageMap) : Bool :=
  if account.overageProtection then
    ((usage account.id).map (isAtOverage account)).getD false
  else false

def hasReserves (account : Account) : Bool :=
  decide (account.reserve5h > 0) || decide (account.reserveWeekly > 0)

def usageMissingHardReserveFailClosed (account : Account) (usage : UsageMap) : Bool :=
  account.reserveHard && hasReserves account && (usage account.id).isNone

def hardReserveBlocked (account : Account) (usage : UsageMap) : Bool :=
  usageMissingHardReserveFailClosed account usage ||
    (account.reserveHard && isAtReserve account usage)

def blockReasons (account : Account) (usage : UsageMap) (now : Int) : List AccountBlockReason :=
  (if account.paused then [.paused] else []) ++
  (if (UpstreamStatus.fromRaw account.rateLimitStatus).isAuthFailure then [.authFailed] else []) ++
  (if activeRateLimit account now then [.activeRateLimit] else []) ++
  (if overageBlocked account usage then [.overageProtection] else []) ++
  (if hardReserveBlocked account usage then [.hardReserve] else [])

def evaluateAccountEligibility (account : Account) (usage : UsageMap) (now : Int) :
    AccountEligibility :=
  { routable := (blockReasons account usage now).isEmpty
    blockedBy := blockReasons account usage now
    upstreamStatus := .fromRaw account.rateLimitStatus
    overageBlocked := overageBlocked account usage
    hardReserveBlocked := hardReserveBlocked account usage
    softReserveHit := !account.reserveHard && isAtReserve account usage
    usageMissing := providerSupportsUsage account.provider && (usage account.id).isNone
    usageMissingOverageFailOpen := account.overageProtection && (usage account.id).isNone
    usageMissingHardReserveFailClosed := usageMissingHardReserveFailClosed account usage
    activeRateLimit := activeRateLimit account now }

theorem routable_iff (account : Account) (usage : UsageMap) (now : Int) :
    (evaluateAccountEligibility account usage now).routable = true ↔
      account.paused = false ∧
      (UpstreamStatus.fromRaw account.rateLimitStatus).isAuthFailure = false ∧
      activeRateLimit account now = false ∧
      overageBlocked account usage = false ∧
      hardReserveBlocked account usage = false := by
  simp only [evaluateAccountEligibility, blockReasons, List.isEmpty_iff, List.append_eq_nil_iff]
  constructor
  · rintro ⟨⟨⟨⟨paused, auth⟩, limit⟩, overage⟩, reserve⟩
    exact ⟨by simpa using paused, by simpa using auth, by simpa using limit,
      by simpa using overage, by simpa using reserve⟩
  · rintro ⟨paused, auth, limit, overage, reserve⟩
    simp [paused, auth, limit, overage, reserve]

-- The two reserve flags exclude each other: a hard account is blocked, a soft one only ranked.
theorem soft_hit_not_hard_blocked (account : Account) (usage : UsageMap) (now : Int)
    (soft : (evaluateAccountEligibility account usage now).softReserveHit = true) :
    (evaluateAccountEligibility account usage now).hardReserveBlocked = false := by
  have relaxed : account.reserveHard = false := by
    simp only [evaluateAccountEligibility, Bool.and_eq_true, Bool.not_eq_true'] at soft
    exact soft.1
  simp [evaluateAccountEligibility, hardReserveBlocked, usageMissingHardReserveFailClosed,
    relaxed]

end Ccflare.Eligibility
