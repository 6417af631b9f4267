import Ccflare.Account

/-!
The age of a refresh token and what it says of the account. The health status names
the reason a refresh fails for, and the message of a failed refresh is chosen by it.
-/

namespace Ccflare.TokenHealth

open MachineNumber

def dayMs : Int := 24 * 60 * 60 * 1000

def refreshTokenMaxAgeMs : Int := 90 * dayMs

inductive HealthStatus where
  | healthy
  | warning
  | critical
  | expired
  | noRefreshToken
  deriving DecidableEq

structure TokenHealthStatus where
  accountId : String
  accountName : String
  provider : String
  hasRefreshToken : Bool
  refreshTokenAgeDays : Option Int
  status : HealthStatus
  message : String
  daysUntilExpiration : Option Int
  requiresReauth : Bool
  deriving DecidableEq

/-- `((estimated_expiration - now) as f64 / (24.0 * 60.0 * 60.0 * 1000.0)).ceil() as i64`. -/
def ceilDays (millis : Int) : Int :=
  clampI64 (nearestF64 ((roundToF64 millis : Rat) / dayMs)).ceil

/-- The time of the last re-authentication, or of the creation where it is unknown. -/
def tokenIssuedAt (account : Account) : Int :=
  (account.refreshTokenUpdatedAt.filter fun t => 0 < t).getD account.createdAt

/-- Status, message and need of re-authentication for a token of a known age. -/
def ageHealth (ageDays daysUntilExpiration : Int) : HealthStatus × String × Bool :=
  if daysUntilExpiration ≤ 0 then
    (.expired, "Refresh token expired ~" ++ toString daysUntilExpiration.natAbs ++
      " days ago - requires immediate re-authentication", true)
  else if daysUntilExpiration ≤ 3 then
    (.critical, "Refresh token expires in " ++ toString daysUntilExpiration ++
      " days - immediate re-authentication required", true)
  else if daysUntilExpiration ≤ 7 then
    (.warning, "Refresh token expires in " ++ toString daysUntilExpiration ++
      " days - re-authentication recommended soon", false)
  else if 60 < ageDays then
    (.warning, "Refresh token is " ++ toString ageDays ++ " days old - monitor for expiration",
      false)
  else
    (.healthy, "Refresh token is healthy (expires in ~" ++ toString daysUntilExpiration ++
      " days)", false)

def checkRefreshTokenHealth (account : Account) (now : Int) : TokenHealthStatus :=
  let base : TokenHealthStatus := ⟨account.id, account.name, account.provider, false, none,
    .noRefreshToken, "", none, false⟩
  if account.refreshToken = "" then
    { base with
      message := if account.apiKey.isSome then "API key account (no refresh token needed)"
        else "OAuth account missing refresh token - requires re-authentication"
      requiresReauth := account.apiKey.isNone }
  else
    let issuedAt := tokenIssuedAt account
    if issuedAt = 0 then
      { base with
        hasRefreshToken := true
        status := .warning
        message := "Refresh token has unknown age - recommend re-authentication"
        requiresReauth := true }
    else
      let ageDays := (wrappingSub now issuedAt).tdiv dayMs
      let days := ceilDays (wrappingSub (wrappingAdd issuedAt refreshTokenMaxAgeMs) now)
      let (status, message, requiresReauth) := ageHealth ageDays days
      { base with
        hasRefreshToken := true
        refreshTokenAgeDays := some ageDays
        status
        message
        daysUntilExpiration := some days
        requiresReauth }

def getOauthErrorMessage (account : Account) (originalError : String) (now : Int) : String :=
  let health := checkRefreshTokenHealth account now
  match health.status, health.requiresReauth with
  | .expired, _ | .critical, _ =>
      "OAuth tokens have expired for account '" ++ account.name ++ "'. Please re-authenticate."
  | .noRefreshToken, true =>
      "OAuth account '" ++ account.name ++ "' missing refresh token. Please re-authenticate."
  | .warning, _ =>
      "OAuth tokens for account '" ++ account.name ++
        "' are nearing expiration. Consider re-authenticating soon. Original error: " ++
        originalError
  | _, _ => "OAuth token refresh failed for account '" ++ account.name ++ "': " ++ originalError

end Ccflare.TokenHealth
