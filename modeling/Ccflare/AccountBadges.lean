import Ccflare.Eligibility
import Ccflare.TokenHealthReport

/-!
The badges an account is shown with on the dashboard. They are drawn from the answer of the
eligibility check, the token and the last upstream status, each by its own test.
-/

namespace Ccflare.AccountBadges

open Eligibility MachineNumber

structure AccountStatusBadge where
  label : String
  cssClass : String
  title : String
  blocksRouting : Bool
  deriving DecidableEq

structure AccountRoutingState where
  routingAvailable : Bool
  overageBlocked : Bool
  hardReserveBlocked : Bool
  softReserveHit : Bool
  usageMissing : Bool
  activeRateLimit : Bool

def evaluateRoutingState (account : Account) (usage : UsageMap) (hasUsage : Bool) (now : Int) :
    AccountRoutingState :=
  let eligibility := evaluateAccountEligibility account usage now
  { routingAvailable := eligibility.routable
    overageBlocked := eligibility.overageBlocked
    hardReserveBlocked := eligibility.hardReserveBlocked
    softReserveHit := eligibility.softReserveHit
    usageMissing := hasUsage && eligibility.usageMissing
    activeRateLimit := eligibility.activeRateLimit }

/-- `has_usage` of a row. -/
def tracksUsage (provider : String) : Bool :=
  decide (provider ∈ ["claude-oauth", "anthropic", "nanogpt", "zai"])

/-- `((until - now) as f64 / 60000.0).ceil() as i64`. -/
def minutesLeft (until' now : Int) : Int :=
  clampI64 (nearestF64 ((roundToF64 (wrappingSub until' now) : Rat) / 60000)).ceil

def rateLimitStatusDisplay (account : Account) (now : Int) : String :=
  match account.rateLimitedUntil with
  | some raw =>
      let until' := normalizeEpochMillis raw
      if now < until' then
        "Rate limited (" ++ toString (minutesLeft until' now) ++ "m)"
      else "OK"
  | none =>
      match account.rateLimitStatus with
      | none | some "allowed" | some "OK" => "OK"
      | some other => other

def badgeIf (shown : Bool) (badge : AccountStatusBadge) : List AccountStatusBadge :=
  if shown then [badge] else []

/-- `build_account_status_badges`, the badges in the order they are pushed. -/
def buildAccountStatusBadges (account : Account) (state : AccountRoutingState)
    (tokenStatus : String) (authFailed tokenNeedsReauth : Bool) (display : String) :
    List AccountStatusBadge :=
  badgeIf account.paused ⟨"Paused", "warning",
    "Account is manually paused and excluded from routing", true⟩ ++
  badgeIf authFailed ⟨"Auth failed", "danger",
    "Upstream authentication failed (401/403); re-authentication required", true⟩ ++
  (if state.activeRateLimit then [⟨display, "danger",
      "Provider rate-limit window is active; account is excluded until reset", true⟩]
    else badgeIf (!authFailed && decide (display ≠ "OK")) ⟨"Last upstream status: " ++ display,
      "muted", "Most recent upstream status captured for this account", false⟩) ++
  badgeIf state.overageBlocked ⟨"Overage blocked", "warning",
    "Overage protection excluded this account because a billing window is exhausted", true⟩ ++
  (if state.hardReserveBlocked then [⟨"Hard reserve blocked", "warning",
      "Hard reserve policy excluded this account (threshold reached or usage data missing)", true⟩]
    else badgeIf state.softReserveHit ⟨"Soft reserve active", "warning",
      "Reserve threshold reached; account is deprioritized but still routable", false⟩) ++
  badgeIf (decide (tokenStatus = "expired") || tokenNeedsReauth) ⟨"Token needs re-auth", "muted",
    "OAuth token appears expired or near-expiry; refresh is recommended", false⟩ ++
  badgeIf (state.usageMissing && account.overageProtection) ⟨"Usage missing (overage fail-open)",
    "muted", "Usage telemetry missing, so overage protection is temporarily not enforced", false⟩ ++
  badgeIf (state.usageMissing && account.reserveHard &&
      (decide (account.reserve5h > 0) || decide (account.reserveWeekly > 0)))
    ⟨"Usage missing (hard reserve fail-closed)", "danger",
      "Usage telemetry missing while hard reserve is enabled; account is excluded", true⟩ ++
  if !state.routingAvailable then [⟨"Excluded from routing", "danger",
      "One or more blocking states prevent this account from being selected", true⟩]
  else [⟨"Routable", "success", "Account currently passes all routing availability checks", false⟩]

/-- The badges of a row of the accounts table. -/
def statusBadges (account : Account) (usage : UsageMap) (now : Int) : List AccountStatusBadge :=
  let authFailed := (UpstreamStatus.fromRaw account.rateLimitStatus).isAuthFailure
  let health := TokenHealthReport.checkTokenHealth account now
  let tokenExpired := account.expiresAt.any fun expires => decide (expires ≤ now)
  let tokenStatus := if health.requiresReauth || authFailed || tokenExpired then "expired"
    else "valid"
  buildAccountStatusBadges account
    (evaluateRoutingState account usage (tracksUsage account.provider) now) tokenStatus authFailed
    (tokenExpired || health.requiresReauth) (rateLimitStatusDisplay account now)

/-- The words a reason is shown with. -/
def Names (display label : String) : AccountBlockReason → Prop
  | .paused => label = "Paused"
  | .authFailed => label = "Auth failed"
  | .activeRateLimit => label = display
  | .overageProtection => label = "Overage blocked"
  | .hardReserve =>
      label = "Hard reserve blocked" ∨ label = "Usage missing (hard reserve fail-closed)"

/-- The badge of a reason. -/
def reasonBadge (display : String) : AccountBlockReason → AccountStatusBadge
  | .paused => ⟨"Paused", "warning", "Account is manually paused and excluded from routing", true⟩
  | .authFailed => ⟨"Auth failed", "danger",
      "Upstream authentication failed (401/403); re-authentication required", true⟩
  | .activeRateLimit => ⟨display, "danger",
      "Provider rate-limit window is active; account is excluded until reset", true⟩
  | .overageProtection => ⟨"Overage blocked", "warning",
      "Overage protection excluded this account because a billing window is exhausted", true⟩
  | .hardReserve => ⟨"Hard reserve blocked", "warning",
      "Hard reserve policy excluded this account (threshold reached or usage data missing)", true⟩

theorem reason_badge_names (display : String) (reason : AccountBlockReason) :
    (reasonBadge display reason).blocksRouting = true ∧
      Names display (reasonBadge display reason).label reason := by
  cases reason with
  | paused | authFailed | activeRateLimit | overageProtection => exact ⟨rfl, rfl⟩
  | hardReserve => exact ⟨rfl, .inl rfl⟩

section Badges
variable (account : Account) (usage : UsageMap) (now : Int)

theorem mem_badge_if (shown : Bool) (badge other : AccountStatusBadge) :
    other ∈ badgeIf shown badge ↔ shown = true ∧ other = badge := by
  cases shown <;> simp [badgeIf]

theorem mem_block_reasons (reason : AccountBlockReason) :
    reason ∈ blockReasons account usage now ↔
      match reason with
      | .paused => account.paused = true
      | .authFailed => (UpstreamStatus.fromRaw account.rateLimitStatus).isAuthFailure = true
      | .activeRateLimit => activeRateLimit account now = true
      | .overageProtection => overageBlocked account usage = true
      | .hardReserve => hardReserveBlocked account usage = true := by
  unfold blockReasons
  cases reason <;> simp

/-- The signal of the dashboard for a missing usage reading is one that closes the reserve. -/
theorem missing_usage_blocks (hasUsage : Bool)
    (missing : (evaluateRoutingState account usage hasUsage now).usageMissing = true)
    (hard : account.reserveHard = true) (reserved : hasReserves account = true) :
    hardReserveBlocked account usage = true := by
  simp only [evaluateRoutingState, evaluateAccountEligibility, Bool.and_eq_true] at missing
  simp [hardReserveBlocked, usageMissingHardReserveFailClosed, hard, reserved, missing.2.2]

/-- The badges that block routing are those of the reasons, and one that sums them up. -/
theorem mem_blocking (badge : AccountStatusBadge)
    (shown : badge ∈ statusBadges account usage now) (blocking : badge.blocksRouting = true) :
    (∃ reason ∈ blockReasons account usage now,
      Names (rateLimitStatusDisplay account now) badge.label reason) ∨
    badge.label = "Excluded from routing" ∧ blockReasons account usage now ≠ [] := by
  simp only [statusBadges, buildAccountStatusBadges, List.mem_append, mem_badge_if] at shown
  rcases shown with
    ((((((((⟨paused, rfl⟩ | ⟨failed, rfl⟩) | limit) | ⟨overage, rfl⟩) | reserve) | ⟨-, rfl⟩) |
      ⟨-, rfl⟩) | ⟨missing, rfl⟩) | excluded)
  · exact .inl ⟨.paused, (mem_block_reasons ..).mpr paused, rfl⟩
  · exact .inl ⟨.authFailed, (mem_block_reasons ..).mpr failed, rfl⟩
  · split at limit
    · next active =>
        rw [List.mem_singleton.mp limit]
        exact .inl ⟨.activeRateLimit, (mem_block_reasons ..).mpr active, rfl⟩
    · rw [((mem_badge_if ..).mp limit).2] at blocking
      cases blocking
  · exact .inl ⟨.overageProtection, (mem_block_reasons ..).mpr overage, rfl⟩
  · split at reserve
    · next reserved =>
        rw [List.mem_singleton.mp reserve]
        exact .inl ⟨.hardReserve, (mem_block_reasons ..).mpr reserved, .inl rfl⟩
    · rw [((mem_badge_if ..).mp reserve).2] at blocking
      cases blocking
  · cases blocking
  · cases blocking
  · simp only [Bool.and_eq_true] at missing
    obtain ⟨⟨unread, hard⟩, reserved⟩ := missing
    have closed := missing_usage_blocks account usage now _ unread hard reserved
    exact .inl ⟨.hardReserve, (mem_block_reasons ..).mpr closed, .inr rfl⟩
  · split at excluded
    · next closed =>
        rw [List.mem_singleton.mp excluded]
        refine .inr ⟨rfl, fun none => ?_⟩
        simp [evaluateRoutingState, evaluateAccountEligibility, none] at closed
    · rw [List.mem_singleton.mp excluded] at blocking
      cases blocking

/-- Every reason of the check has its badge. -/
theorem reason_badge_shown (reason : AccountBlockReason)
    (blocked : reason ∈ blockReasons account usage now) :
    reasonBadge (rateLimitStatusDisplay account now) reason ∈ statusBadges account usage now := by
  have cause := (mem_block_reasons ..).mp blocked
  simp only [statusBadges, buildAccountStatusBadges, List.mem_append, mem_badge_if]
  cases reason with
  | paused =>
      have shown : account.paused = true := cause
      simp [reasonBadge, shown]
  | authFailed =>
      have shown : (UpstreamStatus.fromRaw account.rateLimitStatus).isAuthFailure = true := cause
      simp [reasonBadge, shown]
  | activeRateLimit =>
      have shown : activeRateLimit account now = true := cause
      simp [reasonBadge, evaluateRoutingState, evaluateAccountEligibility, shown]
  | overageProtection =>
      have shown : overageBlocked account usage = true := cause
      simp [reasonBadge, evaluateRoutingState, evaluateAccountEligibility, shown]
  | hardReserve =>
      have shown : hardReserveBlocked account usage = true := cause
      simp [reasonBadge, evaluateRoutingState, evaluateAccountEligibility, shown]

end Badges

/-- The dashboard shows why an account is not routed: every reason of the eligibility check has
its badge, every badge that blocks routing tells one of the reasons or sums them up, and the
account is routed exactly when no badge blocks it. -/
theorem badges_follow_routing (account : Account) (usage : UsageMap) (now : Int) :
    (∀ reason ∈ blockReasons account usage now,
      ∃ badge ∈ statusBadges account usage now, badge.blocksRouting = true ∧
        Names (rateLimitStatusDisplay account now) badge.label reason) ∧
    (∀ badge ∈ statusBadges account usage now, badge.blocksRouting = true →
      badge.label ≠ "Excluded from routing" →
        ∃ reason ∈ blockReasons account usage now,
          Names (rateLimitStatusDisplay account now) badge.label reason) ∧
    ((evaluateAccountEligibility account usage now).routable = true ↔
      ∀ badge ∈ statusBadges account usage now, badge.blocksRouting = false) := by
  refine ⟨fun reason blocked => ?_, fun badge shown blocking other => ?_, ?_⟩
  · exact ⟨_, reason_badge_shown account usage now reason blocked, reason_badge_names ..⟩
  · rcases mem_blocking account usage now badge shown blocking with named | ⟨sum, -⟩
    · exact named
    · exact absurd sum other
  · simp only [evaluateAccountEligibility, List.isEmpty_iff]
    constructor
    · intro none badge shown
      by_contra blocking
      rcases mem_blocking account usage now badge shown (by simpa using blocking) with
        ⟨reason, blocked, -⟩ | ⟨-, some⟩
      · simp [none] at blocked
      · exact some none
    · intro free
      apply List.eq_nil_iff_forall_not_mem.mpr
      intro reason blocked
      have clear := free _ (reason_badge_shown account usage now reason blocked)
      rw [(reason_badge_names ..).1] at clear
      cases clear

end Ccflare.AccountBadges
