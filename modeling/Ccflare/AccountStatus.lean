import Ccflare.Eligibility

/-!
The two readings of an account's upstream status: the accounts API looks for the words of an
auth failure, the load balancer goes through a chain of cases, of which the warning comes first.
-/

namespace Ccflare.AccountStatus

open Eligibility

def lowered (raw : String) : String := Text.toAsciiLowercase (Text.trim raw)

/-- `is_auth_failure_status` of the accounts API; the dashboard's asks `UpstreamStatus`. -/
def isAuthFailureStatus (status : Option String) : Bool :=
  status.any fun s =>
    let lowered := Text.toAsciiLowercase (Text.trim s)
    Text.startsWith "auth failed" lowered ||
      Text.startsWith "authentication failed" lowered ||
      Text.contains "unauthorized" lowered ||
      Text.contains "forbidden" lowered ||
      Text.contains "re-authentication" lowered ||
      Text.contains "reauth" lowered ||
      Text.contains "refresh token revoked" lowered

def warns (raw : String) : Bool := Text.contains "allowed_warning" (lowered raw)

/-- The status has the words of an auth failure. -/
def namesFailure (raw : String) : Bool :=
  ["auth failed", "authentication failed"].any (fun start => Text.startsWith start (lowered raw)) ||
    ["unauthorized", "forbidden", "re-authentication", "reauth", "refresh token revoked"].any
      fun word => Text.contains word (lowered raw)

theorem is_auth_failure_iff (raw : String) :
    isAuthFailureStatus (some raw) = namesFailure raw := by
  simp [isAuthFailureStatus, namesFailure, lowered, Bool.or_assoc]

theorem healthy_names_none (raw : String)
    (healthy : lowered raw = "" ∨ lowered raw = "ok" ∨ lowered raw = "allowed") :
    namesFailure raw = false := by
  unfold namesFailure
  rcases healthy with empty | ok | allowed
  · rw [empty]
    decide
  · rw [ok]
    decide
  · rw [allowed]
    decide

-- Past the warning the order of the tests does not matter: all that they lead to are failures.
theorem chain_failure (raw : String) (warned failed unauthenticated renew reauth unauthorized
    forbidden revoked : Bool) :
    (if warned = true then UpstreamStatus.allowedWarning
      else if failed = true ∨ unauthenticated = true then .authFailed
      else if renew = true ∨ reauth = true then .reauthRequired
      else if unauthorized = true then .unauthorized
      else if forbidden = true then .forbidden
      else if revoked = true then .refreshTokenRevoked
      else .other raw).isAuthFailure =
    (!warned && (failed || unauthenticated ||
      (unauthorized || (forbidden || (renew || (reauth || revoked)))))) := by
  cases warned with
  | true => rfl
  | false =>
      cases failed <;> cases unauthenticated <;> cases renew <;> cases reauth <;>
        cases unauthorized <;> cases forbidden <;> cases revoked <;> rfl

/-- The chain finds a failure where one is named, unless a warning hides it. -/
theorem from_raw_failure (raw : String) :
    (UpstreamStatus.fromRaw (some raw)).isAuthFailure = (!warns raw && namesFailure raw) := by
  by_cases healthy : lowered raw = "" ∨ lowered raw = "ok" ∨ lowered raw = "allowed"
  · rw [healthy_names_none raw healthy, Bool.and_false]
    rcases healthy with empty | named
    · rw [lowered] at empty
      simp [UpstreamStatus.fromRaw, empty, UpstreamStatus.isAuthFailure]
    · rw [lowered] at named
      have some : ¬ Text.toAsciiLowercase (Text.trim raw) = "" := by
        rcases named with same | same <;> simp [same]
      simp only [UpstreamStatus.fromRaw, if_neg some, if_pos named, UpstreamStatus.isAuthFailure]
  · simp only [lowered, not_or] at healthy
    simp only [UpstreamStatus.fromRaw, if_neg healthy.1, healthy.2.1, healthy.2.2, or_self, if_false,
      warns, namesFailure, lowered, List.any_cons, List.any_nil, Bool.or_false]
    exact chain_failure raw _ _ _ _ _ _ _ _

/-- The API and the load balancer agree on a status unless it both warns and names a failure. -/
theorem classified_alike_iff (status : Option String) :
    isAuthFailureStatus status = (UpstreamStatus.fromRaw status).isAuthFailure ↔
      ∀ raw, status = some raw → warns raw = true → namesFailure raw = false := by
  cases status with
  | none => simp [isAuthFailureStatus, UpstreamStatus.fromRaw, UpstreamStatus.isAuthFailure]
  | some raw =>
      rw [is_auth_failure_iff, from_raw_failure]
      simp only [Option.some.injEq, forall_eq']
      cases warns raw with
      | false => simp
      | true => simp

/-- An upstream that warns and names the failure of its token. -/
theorem warning_hides_failure :
    isAuthFailureStatus (some "allowed_warning: token unauthorized") = true ∧
      (UpstreamStatus.fromRaw (some "allowed_warning: token unauthorized")).isAuthFailure = false := by
  decide

end Ccflare.AccountStatus
