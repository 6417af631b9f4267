import Ccflare.AuthMarker

/-!
How long an account is kept out after an answer with status 429. Each provider reads a
reset time from a header of its own, and the eligibility check guesses the unit of what was
stored by its size; an instant in the past, a number of seconds to wait or a product that
leaves the range is taken for a limit that is over.
-/

namespace Ccflare.RateLimitReset

open AuthMarker Eligibility MachineNumber Providers ProxyRequest

/-- The header a provider takes the reset time from after status 429. -/
def resetHeader : Implementation → Option String
  | .claudeOauth | .console | .minimax | .nanogpt | .anthropicCompatible _ =>
      some "anthropic-ratelimit-unified-reset"
  | .zai => some "retry-after"
  | .openaiCompatible _ => some "x-ratelimit-reset-requests"
  | .vertexAi => none

def resetText (implementation : Implementation) (headers : Headers) : Option String :=
  (resetHeader implementation).bind fun name => (headerGet headers name).bind headerText

/-- A number that the eligibility check takes for an instant not before `now`: in
milliseconds from 10^12 on, in seconds below. -/
def Ahead (now value : Int) : Prop :=
  if -1000000000000 < value ∧ value < 1000000000000 then now ≤ value * 1000 else now ≤ value

/-- The clock readings one minute after which is ahead. -/
def MinuteAhead (now : Int) : Prop :=
  -60060 ≤ now ∧ now ≤ i64Max - 60000 ∨ now ≤ -1000000060000

section Headers
variable (parseRfc3339 : String → Option Int)

/-- The reset time that a text stands for, if it can be read. -/
def readReset (implementation : Implementation) (now : Int) (text : String) : Option Int :=
  match implementation with
  | .zai => (parseI64 text).map fun seconds => wrapI64 (now + seconds * 1000)
  | _ => (parseI64 text).or (parseRfc3339 text)

/-- The headers name a reset time that is ahead, or none at all. -/
def LimitAhead (implementation : Implementation) (headers : Headers) (now : Int) : Prop :=
  match (resetText implementation headers).bind (readReset parseRfc3339 implementation now) with
  | some reset => Ahead now reset
  | none => MinuteAhead now

/-- What the branch for status 429 writes to `rate_limited_until`. -/
def limitedUntil (implementation : Implementation) (headers : Headers) (now : Int) : Int :=
  (parseRateLimit parseRfc3339 now implementation headers 429).resetTime.getD
    (wrappingAdd now 60000)

end Headers

theorem wrap_seconds (now seconds : Int) :
    wrappingAdd now (wrappingMul seconds 1000) = wrapI64 (now + seconds * 1000) := by
  unfold wrappingAdd wrappingMul wrapI64
  omega

/-- The reset time of each provider after status 429, by its header. -/
theorem reset_time_eq (parseRfc3339 : String → Option Int) (implementation : Implementation)
    (headers : Headers) (now : Int) :
    (parseRateLimit parseRfc3339 now implementation headers 429).resetTime =
      (resetText implementation headers).bind (readReset parseRfc3339 implementation now) := by
  cases implementation with
  | zai =>
      have seconds : (fun seconds => wrappingAdd now (wrappingMul seconds 1000)) =
          fun seconds => wrapI64 (now + seconds * 1000) := funext (wrap_seconds now)
      simp only [parseRateLimit, zaiRateLimit, ne_eq, not_true_eq_false, if_false, seconds,
        headerI64, resetText, resetHeader, Option.bind_some, Option.map_bind]
      rfl
  | vertexAi => rfl
  | openaiCompatible config =>
      simp only [parseRateLimit, openaiRateLimit, headerReset, resetText, resetHeader,
        Option.bind_some]
      rfl
  | _ =>
      simp only [parseRateLimit, unifiedRateLimit, headerReset, resetText, resetHeader,
        Option.bind_some]
      rfl

theorem clamp_of_in_i64 (value : Int) (inside : InI64 value) : clampI64 value = value := by
  obtain ⟨low, high⟩ := inside
  rw [clampI64, min_eq_right high, max_eq_right low]

theorem normalize_small (value : Int) (low : -1000000000000 < value)
    (high : value < 1000000000000) : normalizeEpochMillis value = value * 1000 := by
  have abs : wrappingAbs value = value.natAbs := wrap_of_in_i64 _ (by
    unfold InI64 i64Min i64Max
    omega)
  have inside : InI64 (value * 1000) := by
    unfold InI64 i64Min i64Max
    omega
  rw [normalizeEpochMillis, abs, if_pos (by omega), saturatingMul, clamp_of_in_i64 _ inside]

theorem normalize_large (value : Int) (ranged : InI64 value)
    (large : value ≤ -1000000000000 ∨ 1000000000000 ≤ value) :
    normalizeEpochMillis value = value := by
  by_cases least : value = i64Min
  · subst least
    decide
  · have abs : wrappingAbs value = value.natAbs := wrap_of_in_i64 _ (by
      unfold InI64 i64Min i64Max at *
      omega)
    rw [normalizeEpochMillis, abs, if_neg (by omega)]

/-- The check of a stored limit is about the size of the number. -/
theorem normalize_ge_iff (now value : Int) (ranged : InI64 value) :
    now ≤ normalizeEpochMillis value ↔ Ahead now value := by
  unfold Ahead
  split
  · rename_i small
    rw [normalize_small value small.1 small.2]
  · rename_i large
    rw [normalize_large value ranged (by omega)]

theorem minute_ahead_iff (now : Int) (clock : InI64 now) :
    Ahead now (wrappingAdd now 60000) ↔ MinuteAhead now := by
  obtain ⟨low, high⟩ := clock
  unfold i64Min i64Max at *
  unfold Ahead MinuteAhead i64Max
  by_cases inside : now ≤ 9223372036854775807 - 60000
  · rw [wrappingAdd, wrap_of_in_i64 _ ⟨by unfold i64Min; omega, by unfold i64Max; omega⟩]
    split
    · omega
    · omega
  · have wrapped : wrappingAdd now 60000 = now + 60000 - 18446744073709551616 := by
      unfold wrappingAdd wrapI64
      omega
    rw [wrapped, if_neg (by omega)]
    omega

theorem read_reset_ranged {parseRfc3339 : String → Option Int}
    (ranged : ∀ text value, parseRfc3339 text = some value → InI64 value)
    (implementation : Implementation) (now : Int) (text : String) (reset : Int)
    (reads : readReset parseRfc3339 implementation now text = some reset) : InI64 reset := by
  have either : (parseI64 text).or (parseRfc3339 text) = some reset → InI64 reset := by
    intro same
    cases parsed : parseI64 text with
    | some value =>
        rw [parsed] at same
        obtain rfl := Option.some.inj same
        exact parse_in_i64 text value parsed
    | none =>
        rw [parsed] at same
        exact ranged text reset same
  cases implementation with
  | zai =>
      obtain ⟨seconds, _, rfl⟩ := Option.map_eq_some_iff.mp reads
      exact wrap_in_i64 _
  | _ => exact either reads

theorem reported_iff (account : Account) (usage : UsageMap) (now : Int) :
    .activeRateLimit ∈ (evaluateAccountEligibility account usage now).blockedBy ↔
      activeRateLimit account now = true := by
  simp [evaluateAccountEligibility, blockReasons]

theorem active_iff (account : Account) (limit now : Int)
    (stored : account.rateLimitedUntil = some limit) :
    activeRateLimit account now = true ↔ now ≤ normalizeEpochMillis limit := by
  rw [activeRateLimit, stored, Option.any_some, decide_eq_true_iff]

/-- After status 429 the account is reported as rate-limited exactly if its headers name no
reset time that the check takes for past. -/
theorem limit_reported_iff {parseRfc3339 : String → Option Int}
    (ranged : ∀ text value, parseRfc3339 text = some value → InI64 value)
    (implementation : Implementation) (headers : Headers) (now : Int) (clock : InI64 now)
    (account : Account) (usage : UsageMap) :
    .activeRateLimit ∈ (evaluateAccountEligibility
        ((Statement.rateLimited (limitedUntil parseRfc3339 implementation headers now)).apply
          account) usage now).blockedBy ↔
      LimitAhead parseRfc3339 implementation headers now := by
  rw [reported_iff, active_iff _ _ _ rfl, limitedUntil, reset_time_eq, LimitAhead]
  cases reads : (resetText implementation headers).bind
      (readReset parseRfc3339 implementation now) with
  | none =>
      have minute := normalize_ge_iff now (wrappingAdd now 60000) (wrap_in_i64 (now + 60000))
      rw [minute_ahead_iff now clock] at minute
      rw [Option.getD_none]
      exact minute
  | some reset =>
      obtain ⟨text, _, read⟩ := Option.bind_eq_some_iff.mp reads
      exact normalize_ge_iff now reset
        (read_reset_ranged ranged implementation now text reset read)

theorem seconds_reset_reported :
    let row := (Statement.rateLimited (limitedUntil (fun _ => none) .claudeOauth
      [("anthropic-ratelimit-unified-reset", "1700000300")] 1700000000000)).apply
        (makeAccount "acc1" "anthropic" 0)
    .activeRateLimit ∈ (evaluateAccountEligibility row (fun _ => none) 1700000000000).blockedBy := by
  apply (limit_reported_iff (by simp) .claudeOauth
    [("anthropic-ratelimit-unified-reset", "1700000300")] 1700000000000 (by decide)
    (makeAccount "acc1" "anthropic" 0) fun _ => none).mpr
  have reset : (resetText .claudeOauth [("anthropic-ratelimit-unified-reset", "1700000300")]).bind
      (readReset (fun _ => none) .claudeOauth 1700000000000) = some 1700000300 := by decide
  rw [LimitAhead, reset]
  norm_num [Ahead]

/-- Thirty seconds to wait are stored as an instant of 1970. -/
theorem relative_reset_missed :
    let row := (Statement.rateLimited (limitedUntil (fun _ => none)
      (.openaiCompatible openaiCompatibleDefault)
      [("x-ratelimit-reset-requests", "30")] 1700000000000)).apply
        (makeAccount "acc1" "openai-compatible" 0)
    .activeRateLimit ∉
      (evaluateAccountEligibility row (fun _ => none) 1700000000000).blockedBy := by
  decide

end Ccflare.RateLimitReset
