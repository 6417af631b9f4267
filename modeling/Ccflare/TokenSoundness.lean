import Ccflare.TokenManager

/-!
One call of `get_valid_access_token` that nothing else runs beside, as a function of what it reads:
the account, its failure record, its row and the answer of the refresher. The steps of the token
manager, taken alone, compute it. A token that is returned without a refresh is judged by a
difference of 64-bit times, and only a difference that leaves their range is judged wrongly.
-/

namespace Ccflare.TokenManager

open MachineNumber TokenHealth TokenRefresh

/-- What a call reads. -/
structure Setting where
  account : Account
  record : Option FailureRecord
  lastCleanup : Int
  row : Option Account
  refresherAnswer : Except ProviderError TokenRefreshResult
  now : Int

/-- What a call leaves: its result, the account, and whether it has called the refresher. -/
structure Answered where
  outcome : Except TokenError String
  account : Account
  refreshed : Bool

section Call
variable (s : Setting)

/-- The failure record after `cleanup_expired_failures`. -/
def cleanedRecord : Option FailureRecord :=
  if wrappingSub s.now s.lastCleanup < cleanupIntervalMs then s.record
  else s.record.filter fun record => wrappingSub s.now record.timestamp ≤ failureTtlMs

def backoffAction : Option BackoffAction :=
  (cleanedRecord s).map fun record => (checkBackoff record s.now).2

/-- From the lock of the account on. -/
def refreshLocked : Answered :=
  match freshToken s.account s.now with
  | some token => ⟨.ok token, s.account, false⟩
  | none =>
      match s.refresherAnswer with
      | .ok result => ⟨.ok result.accessToken, acceptRefresh s.account result, true⟩
      | .error error => ⟨.error (.refreshFailed s.account.id
          (getOauthErrorMessage s.account (errorText error) s.now)), s.account, true⟩

def refreshAccessToken : Answered :=
  match backoffAction s with
  | some .inBackoff => ⟨.error (.inBackoff s.account.id), s.account, false⟩
  | some .tryDbRecovery =>
      match recoverFromDb s.account s.row s.now with
      | some (token, account) => ⟨.ok token, account, false⟩
      | none => ⟨.error (.inBackoff s.account.id), s.account, false⟩
  | some .backoffExpired | none => refreshLocked s

def getValidAccessToken : Answered :=
  match withoutRefresh s.account s.now with
  | some outcome => ⟨outcome, s.account, false⟩
  | none => refreshAccessToken s

end Call

section Alone

/-- The steps of a call to the last, with the answer it gets of the refresher. -/
def alone (refresherAnswer : Except ProviderError TokenRefreshResult) :
    Nat → Shared × Call → Shared × Call
  | 0, reached => reached
  | fuel + 1, (shared, call) =>
      match (advance shared call).or (answer shared refresherAnswer call) with
      | none => (shared, call)
      | some next => alone refresherAnswer fuel next

/-- What a call has returned, and the account it leaves. -/
def Returned (reached : Shared × Call) (answered : Answered) : Prop :=
  reached.2.phase = .returned answered.outcome ∧ reached.2.account = answered.account

variable {refresherAnswer : Except ProviderError TokenRefreshResult}

theorem alone_step (fuel : Nat) (shared : Shared) (call : Call) (next : Shared × Call)
    (stepped : advance shared call = some next) :
    alone refresherAnswer (fuel + 1) (shared, call) = alone refresherAnswer fuel next := by
  rw [alone, stepped]
  rfl

theorem alone_returned (fuel : Nat) (shared : Shared) (call : Call)
    (outcome : Except TokenError String) (phase : call.phase = .returned outcome) :
    alone refresherAnswer fuel (shared, call) = (shared, call) := by
  cases fuel with
  | zero => rfl
  | succ fuel => simp [alone, advance, answer, phase]

theorem alone_answer (fuel : Nat) (shared : Shared) (call : Call) (mutex : Nat)
    (phase : call.phase = .refreshing mutex) (next : Shared × Call)
    (answered : answer shared refresherAnswer call = some next) :
    alone refresherAnswer (fuel + 1) (shared, call) = alone refresherAnswer fuel next := by
  have waits : advance shared call = none := by simp [advance, phase]
  rw [alone, waits, answered]
  rfl

theorem lock_held (shared : Shared) (accountId : String) :
    (shared.lockFor accountId).1.held = shared.held := by
  unfold Shared.lockFor
  split <;> rfl

section Steps
variable (original account : Account) (now : Int) (shared : Shared) (fuel : Nat)

/-- From the lock on, no other call holding a mutex. -/
theorem alone_locked (free : ∀ mutex, shared.held mutex = false) (record : Option FailureRecord)
    (lastCleanup : Int) (row : Option Account) :
    Returned (alone refresherAnswer (fuel + 7) (shared, ⟨original, account, now, .locking⟩))
      (refreshLocked ⟨account, record, lastCleanup, row, refresherAnswer, now⟩) := by
  have heldNow := lock_held shared account.id
  rw [alone_step (fuel + 6) shared _ ((shared.lockFor account.id).1,
    ⟨original, account, now, .waiting (shared.lockFor account.id).2⟩) rfl]
  generalize (shared.lockFor account.id).1 = locked at heldNow ⊢
  generalize (shared.lockFor account.id).2 = mutex
  rw [alone_step (fuel + 5) locked _ (locked.setHeld mutex true,
    ⟨original, account, now, .holding mutex⟩) (by simp [advance, heldNow, free, Call.to])]
  generalize locked.setHeld mutex true = owned
  unfold refreshLocked
  dsimp only
  cases fresh : freshToken account now with
  | some token =>
      rw [alone_step (fuel + 4) owned _ (owned, ⟨original, account, now, .leaving mutex (.ok token)⟩)
        (by simp [advance, fresh, Call.to]), alone_step (fuel + 3) owned _ (_, ⟨original, account, now,
        .returned (.ok token)⟩) rfl, alone_returned _ _ _ _ rfl]
      exact ⟨rfl, rfl⟩
  | none =>
      rw [alone_step (fuel + 4) owned _ (owned, ⟨original, account, now, .refreshing mutex⟩)
        (by simp [advance, fresh, Call.to])]
      cases refresherAnswer with
      | ok result =>
          rw [alone_answer (fuel + 3) owned _ mutex rfl (owned, ⟨original, account, now,
            .refreshed mutex result⟩) rfl, alone_step (fuel + 2) owned _ (_, ⟨original,
            acceptRefresh account result, now, .persisted mutex result.accessToken⟩) rfl,
            alone_step (fuel + 1) _ _ (_, ⟨original, acceptRefresh account result, now,
            .leaving mutex (.ok result.accessToken)⟩) rfl, alone_step fuel _ _ (_, ⟨original,
            acceptRefresh account result, now, .returned (.ok result.accessToken)⟩) rfl,
            alone_returned _ _ _ _ rfl]
          exact ⟨rfl, rfl⟩
      | error error =>
          rw [alone_answer (fuel + 3) owned _ mutex rfl (owned, ⟨original, account, now,
            .failed mutex error⟩) rfl, alone_step (fuel + 2) owned _ (_, ⟨original, account, now,
            .leaving mutex _⟩) rfl, alone_step (fuel + 1) _ _ (_, ⟨original, account, now,
            .returned _⟩) rfl, alone_returned _ _ _ _ rfl]
          exact ⟨rfl, rfl⟩

/-- From the check of the failure record on. -/
theorem alone_checked (free : ∀ mutex, shared.held mutex = false) (record : Option FailureRecord)
    (lastCleanup : Int) (here : cleanedRecord ⟨account, record, lastCleanup,
      loadAccount shared.rows account.id, refresherAnswer, now⟩ = shared.failures account.id) :
    Returned (alone refresherAnswer (fuel + 9) (shared, ⟨original, account, now, .checking⟩))
      (refreshAccessToken ⟨account, record, lastCleanup, loadAccount shared.rows account.id,
        refresherAnswer, now⟩) := by
  unfold refreshAccessToken backoffAction
  rw [here]
  cases held : shared.failures account.id with
  | none =>
      rw [alone_step (fuel + 8) shared _ (shared, ⟨original, account, now, .locking⟩)
        (by simp [advance, held, Call.to])]
      exact alone_locked original account now shared (fuel + 1) free _ _ _
  | some failure =>
      cases checked : checkBackoff failure now with
      | mk counted action =>
          rw [alone_step (fuel + 8) shared _ (shared.setFailure account.id (some counted),
            ⟨original, account, now, action.phase account.id⟩)
            (by simp [advance, held, checked, Call.to])]
          simp only [Option.map_some, checked]
          cases action with
          | inBackoff =>
              rw [alone_returned _ _ _ _ rfl]
              exact ⟨rfl, rfl⟩
          | tryDbRecovery =>
              dsimp only [BackoffAction.phase]
              cases found : recoverFromDb account (loadAccount shared.rows account.id) now with
              | none =>
                  rw [alone_step (fuel + 7) _ _ (_, ⟨original, account, now,
                    .returned (.error (.inBackoff account.id))⟩)
                    (by simp [advance, Shared.setFailure, found, Call.to]; rfl),
                    alone_returned _ _ _ _ rfl]
                  exact ⟨rfl, rfl⟩
              | some recovery =>
                  obtain ⟨token, recovered⟩ := recovery
                  rw [alone_step (fuel + 7) _ _ (_, ⟨original, recovered, now, .recovered token⟩)
                    (by simp [advance, Shared.setFailure, found]; rfl),
                    alone_step (fuel + 6) _ _ (_, ⟨original, recovered, now, .returned (.ok token)⟩)
                    rfl, alone_returned _ _ _ _ rfl]
                  exact ⟨rfl, rfl⟩
          | backoffExpired =>
              dsimp only [BackoffAction.phase]
              rw [alone_step (fuel + 7) _ _ (_, ⟨original, account, now, .locking⟩) rfl]
              exact alone_locked original account now
                ((shared.setFailure account.id (some counted)).setFailure account.id none) fuel free
                _ _ _

/-- A call that runs alone returns what the function computes. -/
theorem alone_computes (free : ∀ mutex, shared.held mutex = false) :
    let s : Setting := ⟨account, shared.failures account.id, shared.lastCleanup,
      loadAccount shared.rows account.id, refresherAnswer, now⟩
    Returned (alone refresherAnswer (fuel + 12) (shared, newCall account now))
      (getValidAccessToken s) := by
  intro s
  unfold getValidAccessToken newCall
  cases settled : withoutRefresh account now with
  | some outcome =>
      rw [alone_returned _ _ _ _ rfl]
      exact ⟨rfl, rfl⟩
  | none =>
      dsimp only
      by_cases recent : wrappingSub now shared.lastCleanup < cleanupIntervalMs
      · rw [alone_step (fuel + 11) _ _ (shared, ⟨account, account, now, .checking⟩)
          (by simp [advance, recent, Call.to])]
        exact alone_checked account account now shared (fuel + 2) free _ _
          (by simp [cleanedRecord, recent])
      · rw [alone_step (fuel + 11) _ _ (shared, ⟨account, account, now,
          .cleaning shared.lastCleanup⟩) (by simp [advance, recent, Call.to]),
          alone_step (fuel + 10) _ _ ({ shared with lastCleanup := now },
          ⟨account, account, now, .sweeping⟩) (by simp [advance, Call.to]),
          alone_step (fuel + 9) _ _ (_, ⟨account, account, now, .checking⟩) rfl]
        exact alone_checked account account now (Shared.sweep { shared with lastCleanup := now } now)
          fuel free (shared.failures account.id) shared.lastCleanup
          (by simp [cleanedRecord, recent, Shared.sweep])

end Steps

end Alone

/-- The token is the account's, and good for longer than the safety window. -/
def Good (account : Account) (token : String) (now : Int) : Prop :=
  account.accessToken = some token ∧
    ∃ expiresAt, account.expiresAt = some expiresAt ∧ tokenSafetyWindowMs < expiresAt - now

/-- What a call promises of the token it returns, and of the account where it returns none. -/
structure Sound (s : Setting) : Prop where
  unrefreshed : ∀ token, (getValidAccessToken s).outcome = .ok token →
    (getValidAccessToken s).refreshed = false → Good (getValidAccessToken s).account token s.now
  refreshed : ∀ result, (getValidAccessToken s).refreshed = true →
    s.refresherAnswer = .ok result → (getValidAccessToken s).outcome = .ok result.accessToken
  failed : ∀ error, (getValidAccessToken s).outcome = .error error →
    (getValidAccessToken s).account = s.account

/-- An account whose calls may come to the refresher. -/
structure OAuth (account : Account) : Prop where
  provider : isApiKeyProvider account.provider = false
  keyless : ¬ (account.refreshToken = "" ∧ account.apiKey.isSome = true)

/-- The times are those of 64-bit variables. -/
structure TimesInI64 (s : Setting) : Prop where
  now : InI64 s.now
  account : ∀ expiresAt, s.account.expiresAt = some expiresAt → InI64 expiresAt
  row : ∀ row expiresAt, s.row = some row → row.expiresAt = some expiresAt → InI64 expiresAt

/-- A token so long expired that the difference of the times wraps to one above the window. -/
def WrappedToken (account : Account) (now : Int) : Prop :=
  account.accessToken.isSome = true ∧ ∃ expiresAt, account.expiresAt = some expiresAt ∧
    expiresAt - now < -9223372036854775808 ∧
    tokenSafetyWindowMs - 18446744073709551616 < expiresAt - now

/-- The call looks for a token of the database. -/
def Recovers (s : Setting) : Prop :=
  freshToken s.account s.now = none ∧ backoffAction s = some .tryDbRecovery

/-- Neither the token of the account nor one that is recovered is so long expired. -/
def Unwrapped (s : Setting) : Prop :=
  ¬ WrappedToken s.account s.now ∧
    (Recovers s → ∀ row, s.row = some row → row.accessToken ≠ s.account.accessToken →
      ¬ WrappedToken row s.now)

theorem wrapped_sub_iff (expiresAt now : Int) (first : InI64 expiresAt) (second : InI64 now) :
    wrappingSub expiresAt now > tokenSafetyWindowMs ↔
      (tokenSafetyWindowMs < expiresAt - now ∧ expiresAt - now ≤ 9223372036854775807) ∨
      (expiresAt - now < -9223372036854775808 ∧
        tokenSafetyWindowMs - 18446744073709551616 < expiresAt - now) := by
  unfold InI64 i64Min i64Max at first second
  unfold wrappingSub wrapI64 tokenSafetyWindowMs
  omega

theorem fresh_token_iff (account : Account) (now : Int) (token : String) :
    freshToken account now = some token ↔ account.accessToken = some token ∧
      ∃ expiresAt, account.expiresAt = some expiresAt ∧
        wrappingSub expiresAt now > tokenSafetyWindowMs := by
  unfold freshToken
  cases account.accessToken <;> cases account.expiresAt <;> simp [and_comm]

/-- A token that passes the test is good, unless the difference has wrapped. -/
theorem fresh_good (account : Account) (now : Int) (token : String) (inNow : InI64 now)
    (inTimes : ∀ expiresAt, account.expiresAt = some expiresAt → InI64 expiresAt)
    (fresh : freshToken account now = some token) (unwrapped : ¬ WrappedToken account now) :
    Good account token now := by
  obtain ⟨held, expiresAt, expires, passed⟩ := (fresh_token_iff account now token).mp fresh
  rcases (wrapped_sub_iff expiresAt now (inTimes expiresAt expires) inNow).mp passed with
    ⟨good, -⟩ | wrapped
  · exact ⟨held, expiresAt, expires, good⟩
  · exact absurd ⟨by rw [held]; rfl, expiresAt, expires, wrapped⟩ unwrapped

theorem wrapped_fresh (account : Account) (now : Int) (inNow : InI64 now)
    (inTimes : ∀ expiresAt, account.expiresAt = some expiresAt → InI64 expiresAt)
    (wrapped : WrappedToken account now) :
    ∃ token, freshToken account now = some token ∧ ¬ Good account token now := by
  obtain ⟨hasToken, expiresAt, expires, below, above⟩ := wrapped
  obtain ⟨token, held⟩ := Option.isSome_iff_exists.mp hasToken
  refine ⟨token, (fresh_token_iff account now token).mpr ⟨held, expiresAt, expires,
    (wrapped_sub_iff expiresAt now (inTimes expiresAt expires) inNow).mpr (Or.inr ⟨below, above⟩)⟩, ?_⟩
  rintro ⟨-, other, same, good⟩
  obtain rfl := Option.some.inj (expires.symm.trans same)
  unfold tokenSafetyWindowMs at good
  omega

/-- The account with the token of its row. -/
def withRow (account row : Account) (token : String) : Account :=
  { account with
    accessToken := some token
    expiresAt := row.expiresAt
    refreshToken := if row.refreshToken = "" then account.refreshToken else row.refreshToken }

theorem recovered_some (account row : Account) (now : Int) (token : String)
    (fresh : freshToken row now = some token) (other : account.accessToken ≠ some token) :
    recoverFromDb account (some row) now = some (token, withRow account row token) := by
  simp only [recoverFromDb, fresh, other, if_false]
  rfl

theorem recovered_inv (account recovered : Account) (held : Option Account) (now : Int)
    (token : String) (found : recoverFromDb account held now = some (token, recovered)) :
    ∃ row, held = some row ∧ freshToken row now = some token ∧
      account.accessToken ≠ some token ∧ recovered = withRow account row token := by
  cases held with
  | none => cases found
  | some row =>
      cases fresh : freshToken row now with
      | none => simp [recoverFromDb, fresh] at found
      | some other =>
          by_cases same : account.accessToken = some other
          · simp [recoverFromDb, fresh, same] at found
          · rw [recovered_some account row now other fresh same] at found
            cases found
            exact ⟨row, rfl, fresh, same, rfl⟩

theorem oauth_settled (s : Setting) (oauth : OAuth s.account) :
    withoutRefresh s.account s.now = (freshToken s.account s.now).map .ok := by
  unfold withoutRefresh
  rw [if_neg (by simp [oauth.provider]), if_neg oauth.keyless]

theorem fresh_call (s : Setting) (oauth : OAuth s.account) (token : String)
    (fresh : freshToken s.account s.now = some token) :
    getValidAccessToken s = ⟨.ok token, s.account, false⟩ := by
  rw [getValidAccessToken, oauth_settled s oauth, fresh]
  rfl

theorem stale_call (s : Setting) (oauth : OAuth s.account)
    (stale : freshToken s.account s.now = none) :
    getValidAccessToken s = refreshAccessToken s := by
  rw [getValidAccessToken, oauth_settled s oauth, stale]
  rfl

-- The lock is free, so the refresher is asked, and its answer is the call's.
theorem locked_cases (s : Setting) (stale : freshToken s.account s.now = none) :
    (∃ failure error, s.refresherAnswer = .error failure ∧
      refreshLocked s = ⟨.error error, s.account, true⟩) ∨
    ∃ result, s.refresherAnswer = .ok result ∧
      refreshLocked s = ⟨.ok result.accessToken, acceptRefresh s.account result, true⟩ := by
  unfold refreshLocked
  rw [stale]
  cases s.refresherAnswer with
  | ok result => exact Or.inr ⟨result, rfl, rfl⟩
  | error failure => exact Or.inl ⟨failure, _, rfl, rfl⟩

/-- What a call on a stale account comes to: an error, a token of the database, or a refresh. -/
theorem refresh_cases (s : Setting) (stale : freshToken s.account s.now = none) :
    (∃ error refreshed, refreshAccessToken s = ⟨.error error, s.account, refreshed⟩ ∧
      (refreshed = true → ∃ failure, s.refresherAnswer = .error failure)) ∨
    (∃ row token, Recovers s ∧ s.row = some row ∧ freshToken row s.now = some token ∧
      s.account.accessToken ≠ some token ∧
      refreshAccessToken s = ⟨.ok token, withRow s.account row token, false⟩) ∨
    ∃ result, s.refresherAnswer = .ok result ∧
      refreshAccessToken s = ⟨.ok result.accessToken, acceptRefresh s.account result, true⟩ := by
  -- Without a backoff, or after it, the call goes to the lock.
  by_cases reaches : refreshAccessToken s = refreshLocked s
  · rw [reaches]
    rcases locked_cases s stale with ⟨failure, error, answered, left⟩ | done
    · exact Or.inl ⟨error, true, left, fun _ => ⟨failure, answered⟩⟩
    · exact Or.inr (Or.inr done)
  · cases action : backoffAction s with
    | none => exact absurd (by rw [refreshAccessToken, action]) reaches
    | some action' =>
        cases action' with
        | backoffExpired => exact absurd (by rw [refreshAccessToken, action]) reaches
        | inBackoff =>
            exact Or.inl ⟨_, false, by rw [refreshAccessToken, action], fun called => by cases called⟩
        | tryDbRecovery =>
            cases found : recoverFromDb s.account s.row s.now with
            | none =>
                exact Or.inl ⟨_, false, by rw [refreshAccessToken, action, found],
                  fun called => by cases called⟩
            | some recovery =>
                obtain ⟨token, recovered⟩ := recovery
                obtain ⟨row, held, fresh, other, rfl⟩ :=
                  recovered_inv s.account recovered s.row s.now token found
                exact Or.inr (Or.inl ⟨row, token, ⟨stale, action⟩, held, fresh, other,
                  by rw [refreshAccessToken, action, found]⟩)

-- A token that is returned without a refresh is all that such a call promises.
theorem returned_sound_iff (s : Setting) (token : String) (account : Account)
    (call : getValidAccessToken s = ⟨.ok token, account, false⟩) :
    Sound s ↔ Good account token s.now := by
  constructor
  · intro sound
    have good := sound.unrefreshed token
    rw [call] at good
    exact good rfl rfl
  · intro good
    refine ⟨fun other same _ => ?_, fun _ called => ?_, fun error failed => ?_⟩
    · rw [call] at same ⊢
      cases same
      exact good
    · rw [call] at called
      cases called
    · rw [call] at failed
      cases failed

theorem refreshed_sound (s : Setting) (result : TokenRefreshResult) (account : Account)
    (answered : s.refresherAnswer = .ok result)
    (call : getValidAccessToken s = ⟨.ok result.accessToken, account, true⟩) : Sound s := by
  refine ⟨fun token _ called => ?_, fun other _ again => ?_, fun error failed => ?_⟩
  · rw [call] at called
    cases called
  · rw [answered] at again
    cases again
    rw [call]
  · rw [call] at failed
    cases failed

theorem failed_sound (s : Setting) (error : TokenError) (refreshed : Bool)
    (call : getValidAccessToken s = ⟨.error error, s.account, refreshed⟩)
    (failure : refreshed = true → ∃ failure, s.refresherAnswer = .error failure) : Sound s := by
  refine ⟨fun token same _ => ?_, fun result called answered => ?_, fun _ _ => by rw [call]⟩
  · rw [call] at same
    cases same
  · rw [call] at called
    obtain ⟨failure, failed⟩ := failure called
    rw [failed] at answered
    cases answered

/-- A call leaves what it promises unless a token it does not refresh is so long expired that the
difference of the times wraps: the account's own, or the one of the row it recovers. -/
theorem sound_iff (s : Setting) (oauth : OAuth s.account) (times : TimesInI64 s) :
    Sound s ↔ Unwrapped s := by
  constructor
  · intro sound
    constructor
    · intro wrapped
      obtain ⟨token, fresh, bad⟩ := wrapped_fresh s.account s.now times.now times.account wrapped
      exact bad ((returned_sound_iff s token _ (fresh_call s oauth token fresh)).mp sound)
    · rintro ⟨stale, action⟩ row held differs wrapped
      obtain ⟨token, fresh, bad⟩ := wrapped_fresh row s.now times.now
        (fun expiresAt expires => times.row row expiresAt held expires) wrapped
      obtain ⟨hasToken, expires⟩ := (fresh_token_iff row s.now token).mp fresh
      have other : s.account.accessToken ≠ some token := fun same => differs (hasToken.trans same.symm)
      have recovered : refreshAccessToken s = ⟨.ok token, withRow s.account row token, false⟩ := by
        rw [refreshAccessToken, action, held, recovered_some s.account row s.now token fresh other]
      have call := (stale_call s oauth stale).trans recovered
      exact bad ⟨hasToken, ((returned_sound_iff s token _ call).mp sound).2⟩
  · rintro ⟨unwrapped, rowUnwrapped⟩
    cases fresh : freshToken s.account s.now with
    | some token =>
        apply (returned_sound_iff s token _ (fresh_call s oauth token fresh)).mpr
        exact fresh_good s.account s.now token times.now times.account fresh unwrapped
    | none =>
        have call := stale_call s oauth fresh
        rcases refresh_cases s fresh with ⟨error, refreshed, left, failure⟩ |
          ⟨row, token, recovers, held, rowFresh, other, left⟩ | ⟨result, answered, left⟩
        · exact failed_sound s error refreshed (call.trans left) failure
        · obtain ⟨hasToken, -⟩ := (fresh_token_iff row s.now token).mp rowFresh
          have good := fresh_good row s.now token times.now
            (fun expiresAt expires => times.row row expiresAt held expires) rowFresh
            (rowUnwrapped recovers row held fun same => other (same.symm.trans hasToken))
          exact (returned_sound_iff s token _ (call.trans left)).mpr ⟨rfl, good.2⟩
        · exact refreshed_sound s result _ answered (call.trans left)

def settingOf (account : Account) (now : Int) : Setting where
  account := account
  record := none
  lastCleanup := 0
  row := none
  refresherAnswer := .ok freshTokens
  now := now

theorem stale_call_sound : Sound (settingOf staleAccount 1000) := by
  refine (sound_iff (settingOf staleAccount 1000) ⟨by decide +kernel, by decide⟩
    ⟨by decide, fun expiresAt expires => ?_, fun row _ held => by cases held⟩).mpr
    ⟨?_, fun _ row held => by cases held⟩
  · cases expires
    decide
  · rintro ⟨-, expiresAt, expires, below, -⟩
    cases expires
    revert below
    decide

def longExpired : Account := { staleAccount with expiresAt := some i64Min }

/-- A token that expired at the least time there is passes for a fresh one. -/
theorem long_expired_returned :
    getValidAccessToken (settingOf longExpired 1) = ⟨.ok "t0", longExpired, false⟩ ∧
      ¬ Sound (settingOf longExpired 1) := by
  have returned : getValidAccessToken (settingOf longExpired 1) = ⟨.ok "t0", longExpired, false⟩ :=
    fresh_call _ ⟨by decide +kernel, by decide⟩ "t0" (by decide)
  refine ⟨returned, fun sound => ?_⟩
  obtain ⟨-, expiresAt, expires, later⟩ := (returned_sound_iff _ "t0" _ returned).mp sound
  cases expires
  revert later
  decide

end Ccflare.TokenManager
