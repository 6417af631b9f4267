import Ccflare.NearestDouble
import Ccflare.TokenHealth

/-!
The two reports on the health of the refresh tokens. The providers crate has a check of its own
beside that of the proxy; it divides integers where the proxy rounds a double up, asks for the
age warning in another order and exempts the accounts of API key providers.
-/

namespace Ccflare.TokenHealthReport

open MachineNumber NearestDouble TokenHealth

/-- `API_KEY_PROVIDERS`, without Vertex AI. -/
def apiKeyProviders : List String :=
  ["openai-compatible", "zai", "claude-console-api", "anthropic-compatible", "minimax", "nanogpt"]

def isApiKeyProvider (provider : String) : Bool := decide (provider ∈ apiKeyProviders)

def ceilDiv (a b : Int) : Int :=
  if b = 0 then 0
  else if a ≥ 0 then (wrappingSub (wrappingAdd a b) 1).tdiv b
  else a.tdiv b

/-- Status, message and need of re-authentication, as `check_token_health` finds them. -/
def lifetimeHealth (ageDays daysUntil : Int) : HealthStatus × String × Bool :=
  if daysUntil ≤ 0 then
    (.expired, "Refresh token expired ~" ++ toString daysUntil.natAbs ++
      " days ago — re-authentication required", true)
  else if daysUntil ≤ 3 then
    (.critical, "Refresh token expires in " ++ toString daysUntil ++
      " days — immediate re-authentication required", true)
  else if daysUntil ≤ 7 ∨ ageDays > 60 then
    (.warning, if ageDays > 60 then "Refresh token is " ++ toString ageDays ++
        " days old — re-authentication recommended"
      else "Refresh token expires in " ++ toString daysUntil ++
        " days — re-authentication recommended", false)
  else
    (.healthy, "Refresh token is healthy (expires in ~" ++ toString daysUntil ++ " days)", false)

/-- What is left of the token's estimated lifetime. -/
def remainingMs (account : Account) (now : Int) : Int :=
  wrappingSub (wrappingAdd (tokenIssuedAt account) refreshTokenMaxAgeMs) now

def checkTokenHealth (account : Account) (now : Int) : TokenHealthStatus :=
  let base : TokenHealthStatus := ⟨account.id, account.name, account.provider, true, none,
    .noRefreshToken, "", none, false⟩
  if account.refreshToken = "" then
    { base with
      hasRefreshToken := false
      message := if account.apiKey.isSome then "API key account (no refresh token needed)"
        else "OAuth account " ++ account.name ++
          " missing refresh token — re-authentication required"
      requiresReauth := !account.apiKey.isSome }
  else if isApiKeyProvider account.provider then
    { base with
      status := .healthy
      message := "API key provider (refresh token not used)" }
  else if tokenIssuedAt account = 0 then
    { base with
      status := .warning
      message := "Unknown refresh token age — re-authentication recommended"
      requiresReauth := true }
  else
    let ageDays := (wrappingSub now (tokenIssuedAt account)).tdiv dayMs
    let daysUntil := ceilDiv (remainingMs account now) dayMs
    let (status, message, requiresReauth) := lifetimeHealth ageDays daysUntil
    { base with
      refreshTokenAgeDays := some ageDays
      status
      message
      daysUntilExpiration := some daysUntil
      requiresReauth }

structure HealthSummary where
  total : Nat
  healthy : Nat
  warning : Nat
  critical : Nat
  expired : Nat
  noRefreshToken : Nat
  requiresReauth : Nat
  deriving DecidableEq

structure HealthReport where
  accounts : List TokenHealthStatus
  summary : HealthSummary
  timestamp : Int

/-- One round of the loop that fills the summary. -/
def HealthSummary.tally (summary : HealthSummary) (s : TokenHealthStatus) : HealthSummary :=
  let counted := match s.status with
    | .healthy => { summary with healthy := summary.healthy + 1 }
    | .warning => { summary with warning := summary.warning + 1 }
    | .critical => { summary with critical := summary.critical + 1 }
    | .expired => { summary with expired := summary.expired + 1 }
    | .noRefreshToken => { summary with noRefreshToken := summary.noRefreshToken + 1 }
  if s.requiresReauth then { counted with requiresReauth := counted.requiresReauth + 1 }
  else counted

def generateReport (accounts : List Account) (now : Int) : HealthReport :=
  let statuses := accounts.map fun a => checkTokenHealth a now
  { accounts := statuses
    summary := statuses.foldl HealthSummary.tally ⟨statuses.length, 0, 0, 0, 0, 0, 0⟩
    timestamp := now }

def countStatus (statuses : List TokenHealthStatus) (status : HealthStatus) : Nat :=
  (statuses.filter fun s => s.status = status).length

/-- The summary of the proxy's report, a filter for each number. -/
def summarize (statuses : List TokenHealthStatus) : HealthSummary :=
  { total := statuses.length
    healthy := countStatus statuses .healthy
    warning := countStatus statuses .warning
    critical := countStatus statuses .critical
    expired := countStatus statuses .expired
    noRefreshToken := countStatus statuses .noRefreshToken
    requiresReauth := (statuses.filter fun s => s.requiresReauth).length }

def checkAllAccountsHealth (accounts : List Account) (now : Int) : HealthReport :=
  let statuses := accounts.map fun a => checkRefreshTokenHealth a now
  { accounts := statuses, summary := summarize statuses, timestamp := now }

/-- A status without the words it is told in. -/
def unworded (s : TokenHealthStatus) : TokenHealthStatus := { s with message := "" }

/-- The account has a refresh token that its provider does not use. -/
def UnusedToken (account : Account) : Prop :=
  account.refreshToken ≠ "" ∧ isApiKeyProvider account.provider = true

theorem ceil_div_le_iff (a b bound : Int) (positive : 0 < b) (divisor : b < 2 ^ 53)
    (small : a.natAbs < 2 ^ 53) : ceilDiv a b ≤ bound ↔ a ≤ bound * b := by
  have nonzero : b ≠ 0 := by omega
  unfold ceilDiv
  by_cases negative : 0 ≤ a
  · have sum : wrappingAdd a b = a + b := by
      apply wrap_of_in_i64
      unfold InI64 i64Min i64Max
      omega
    have less : wrappingSub (a + b) 1 = a + b - 1 := by
      apply wrap_of_in_i64
      unfold InI64 i64Min i64Max
      omega
    rw [if_neg nonzero, if_pos negative, sum, less,
      Int.tdiv_eq_ediv_of_nonneg (by omega), Int.ediv_le_iff_le_mul positive]
    omega
  · have flipped : a.tdiv b = -(-a / b) := by
      rw [← Int.tdiv_eq_ediv_of_nonneg (by omega), Int.neg_tdiv, neg_neg]
    rw [if_neg nonzero, if_neg negative, flipped, neg_le, Int.le_ediv_iff_mul_le positive]
    constructor <;> intro bounded <;> linarith

theorem ceil_days_le_iff (millis bound : Int) (small : millis.natAbs < 2 ^ 53) :
    (nearestF64 ((roundToF64 millis : Rat) / dayMs)).ceil ≤ bound ↔ millis ≤ bound * dayMs := by
  have day : (0 : Rat) < (dayMs : Int) := by exact_mod_cast (by decide : 0 < dayMs)
  rw [round_to_f64_small millis small, ceil_nearest_quotient millis dayMs (by decide) small,
    Rat.ceil_le_iff, div_le_iff₀ day]
  exact_mod_cast Iff.rfl

/-- The rounded double and the divided integer are the same number of days. -/
theorem ceil_days_exact (millis : Int) (small : millis.natAbs < 2 ^ 53) :
    ceilDays millis = ceilDiv millis dayMs := by
  have same : (nearestF64 ((roundToF64 millis : Rat) / dayMs)).ceil = ceilDiv millis dayMs := by
    apply le_antisymm
    · rw [ceil_days_le_iff millis _ small,
        ← ceil_div_le_iff millis dayMs _ (by decide) (by decide) small]
    · rw [ceil_div_le_iff millis dayMs _ (by decide) (by decide) small,
        ← ceil_days_le_iff millis _ small]
  have upper : ceilDiv millis dayMs ≤ 2 ^ 53 :=
    (ceil_div_le_iff millis dayMs _ (by decide) (by decide) small).mpr (by unfold dayMs; omega)
  have lower : ¬ ceilDiv millis dayMs ≤ -2 ^ 53 := by
    rw [ceil_div_le_iff millis dayMs _ (by decide) (by decide) small]
    unfold dayMs
    omega
  rw [ceilDays, same, clampI64, i64Min, i64Max]
  omega

/-- Both checks grade an age alike; only the words differ. -/
theorem graded_alike (ageDays days : Int) :
    (lifetimeHealth ageDays days).1 = (ageHealth ageDays days).1 ∧
      (lifetimeHealth ageDays days).2.2 = (ageHealth ageDays days).2.2 := by
  unfold lifetimeHealth ageHealth
  by_cases expired : days ≤ 0
  · simp [expired]
  · by_cases critical : days ≤ 3
    · simp [expired, critical]
    · by_cases soon : days ≤ 7
      · simp [expired, critical, soon]
      · by_cases old : 60 < ageDays <;> simp [expired, critical, soon, old]

theorem checked_alike_iff (account : Account) (now : Int)
    (dated : (remainingMs account now).natAbs < 2 ^ 53) :
    unworded (checkTokenHealth account now) = unworded (checkRefreshTokenHealth account now) ↔
      ¬ UnusedToken account := by
  unfold UnusedToken
  by_cases empty : account.refreshToken = ""
  · cases account.apiKey <;>
      simp_all [checkTokenHealth, checkRefreshTokenHealth, unworded]
  · by_cases keyed : isApiKeyProvider account.provider = true
    · by_cases unknown : tokenIssuedAt account = 0 <;>
        simp [checkTokenHealth, checkRefreshTokenHealth, unworded, empty, keyed, unknown]
    · by_cases unknown : tokenIssuedAt account = 0
      · simp [checkTokenHealth, checkRefreshTokenHealth, unworded, empty, keyed, unknown]
      · have days : ceilDays (wrappingSub (wrappingAdd (tokenIssuedAt account)
            refreshTokenMaxAgeMs) now) = ceilDiv (remainingMs account now) dayMs :=
          ceil_days_exact _ dated
        have graded := graded_alike ((wrappingSub now (tokenIssuedAt account)).tdiv dayMs)
          (ceilDiv (remainingMs account now) dayMs)
        simp [checkTokenHealth, checkRefreshTokenHealth, unworded, empty, keyed, unknown, days,
          graded.1, graded.2]

section Summary

theorem count_cons (s : TokenHealthStatus) (rest : List TokenHealthStatus)
    (status : HealthStatus) :
    countStatus (s :: rest) status = countStatus rest status + if s.status = status then 1 else 0 := by
  unfold countStatus
  by_cases same : s.status = status <;> simp [same]

theorem reauth_cons (s : TokenHealthStatus) (rest : List TokenHealthStatus) :
    ((s :: rest).filter fun s => s.requiresReauth).length =
      (rest.filter fun s => s.requiresReauth).length + if s.requiresReauth then 1 else 0 := by
  cases needed : s.requiresReauth <;> simp [needed]

/-- The loop counts what the filters count. -/
theorem tally_counts (statuses : List TokenHealthStatus) (summary : HealthSummary) :
    statuses.foldl HealthSummary.tally summary =
      { total := summary.total
        healthy := summary.healthy + countStatus statuses .healthy
        warning := summary.warning + countStatus statuses .warning
        critical := summary.critical + countStatus statuses .critical
        expired := summary.expired + countStatus statuses .expired
        noRefreshToken := summary.noRefreshToken + countStatus statuses .noRefreshToken
        requiresReauth := summary.requiresReauth +
          (statuses.filter fun s => s.requiresReauth).length } := by
  induction statuses generalizing summary with
  | nil => simp [countStatus]
  | cons s rest ih =>
      rw [List.foldl_cons, ih]
      simp only [count_cons, reauth_cons]
      unfold HealthSummary.tally
      cases s.status <;> cases s.requiresReauth <;>
        simp [Nat.add_assoc, Nat.add_comm]

theorem report_summary (accounts : List Account) (now : Int) :
    (generateReport accounts now).summary = summarize (generateReport accounts now).accounts := by
  simp [generateReport, summarize, tally_counts]

theorem count_unworded (statuses : List TokenHealthStatus) (status : HealthStatus) :
    countStatus (statuses.map unworded) status = countStatus statuses status := by
  unfold countStatus
  rw [List.filter_map, List.length_map]
  rfl

theorem summarize_unworded (statuses : List TokenHealthStatus) :
    summarize (statuses.map unworded) = summarize statuses := by
  have reauth : ((statuses.map unworded).filter fun s => s.requiresReauth).length =
      (statuses.filter fun s => s.requiresReauth).length := by
    rw [List.filter_map, List.length_map]
    rfl
  simp only [summarize, count_unworded, reauth, List.length_map]

/-- Every account is counted under one status. -/
theorem summarize_total (statuses : List TokenHealthStatus) :
    (summarize statuses).total =
      (summarize statuses).healthy + (summarize statuses).warning +
        (summarize statuses).critical + (summarize statuses).expired +
        (summarize statuses).noRefreshToken := by
  simp only [summarize]
  induction statuses with
  | nil => rfl
  | cons s rest ih =>
      simp only [count_cons, List.length_cons, ih]
      cases s.status <;> simp <;> omega

end Summary

/-- The two reports say the same of every token exactly when no account keeps a token that its
provider does not use, and then they count the same; each report counts every account once. -/
theorem reports_agree_iff (accounts : List Account) (now : Int)
    (dated : ∀ account ∈ accounts, (remainingMs account now).natAbs < 2 ^ 53) :
    ((generateReport accounts now).accounts.map unworded =
        (checkAllAccountsHealth accounts now).accounts.map unworded ↔
      ∀ account ∈ accounts, ¬ UnusedToken account) ∧
    ((∀ account ∈ accounts, ¬ UnusedToken account) →
      (generateReport accounts now).summary = (checkAllAccountsHealth accounts now).summary) ∧
    ∀ report ∈ [generateReport accounts now, checkAllAccountsHealth accounts now],
      report.summary.total = accounts.length ∧
      report.summary.total = report.summary.healthy + report.summary.warning +
        report.summary.critical + report.summary.expired + report.summary.noRefreshToken := by
  have alike : (generateReport accounts now).accounts.map unworded =
      (checkAllAccountsHealth accounts now).accounts.map unworded ↔
        ∀ account ∈ accounts, ¬ UnusedToken account := by
    simp only [generateReport, checkAllAccountsHealth, List.map_map, List.map_inj_left,
      Function.comp_apply]
    constructor
    · intro same account member
      exact (checked_alike_iff account now (dated account member)).mp (same account member)
    · intro used account member
      exact (checked_alike_iff account now (dated account member)).mpr (used account member)
  refine ⟨alike, fun used => ?_, ?_⟩
  · rw [report_summary, ← summarize_unworded, alike.mpr used, summarize_unworded]
    rfl
  · intro report member
    have summarized : report.summary = summarize report.accounts ∧
        report.accounts.length = accounts.length := by
      simp only [List.mem_cons, List.not_mem_nil, or_false] at member
      rcases member with rfl | rfl
      · exact ⟨report_summary accounts now, by simp [generateReport]⟩
      · exact ⟨rfl, by simp [checkAllAccountsHealth]⟩
    rw [summarized.1]
    exact ⟨summarized.2, summarize_total report.accounts⟩

/-- An OAuth account beside one whose provider takes the key and leaves the token unused. -/
theorem leftover_token_divides :
    let oauth := { makeAccount "a" "anthropic" 0 with refreshToken := "rt", createdAt := 1000 }
    let keyed := { makeAccount "b" "zai" 0 with refreshToken := "rt", createdAt := 1000 }
    (generateReport [oauth] 5000).summary = (checkAllAccountsHealth [oauth] 5000).summary ∧
      (generateReport [oauth, keyed] 5000).accounts.map unworded ≠
        (checkAllAccountsHealth [oauth, keyed] 5000).accounts.map unworded := by
  refine ⟨(reports_agree_iff _ 5000 (by decide)).2.1 ?_, fun same => ?_⟩
  · simp [UnusedToken, isApiKeyProvider, apiKeyProviders, makeAccount]
  · refine (reports_agree_iff _ 5000 ?_).1.mp same
      { makeAccount "b" "zai" 0 with refreshToken := "rt", createdAt := 1000 } (by simp) ?_
    · decide
    · simp [UnusedToken, isApiKeyProvider, apiKeyProviders, makeAccount]

end Ccflare.TokenHealthReport
