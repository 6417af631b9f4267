import Mathlib.Logic.Function.Basic
import Ccflare.TokenHealth
import Ccflare.TokenRefresh
import Ccflare.Transition

/-!
The token manager. A call of `get_valid_access_token` works on its own clone of an
account; calls meet in the failure records, in the mutexes of the accounts and in the
database. `advance` is the call's program, one step of shared memory at a time, and a
run interleaves any number of calls.
-/

namespace Ccflare.TokenManager

open MachineNumber TokenHealth TokenRefresh Transition

def tokenSafetyWindowMs : Int := 30 * 60 * 1000

def tokenRefreshBackoffMs : Int := 60000

def failureTtlMs : Int := 5 * 60 * 1000

def maxBackoffRetries : Nat := 10

def cleanupIntervalMs : Int := 60000

inductive TokenError where
  | refreshFailed (accountId message : String)
  | inBackoff (accountId : String)
  | noApiKey (accountName : String)
  deriving DecidableEq

def errorText : ProviderError → String
  | .auth message => "Auth error: " ++ message
  | .tokenRefresh message => "Token refresh failed: " ++ message
  | .requestBuild message => "Request build failed: " ++ message
  | .requestTransform message => "Request transform failed: " ++ message
  | .http message => "HTTP error: " ++ message
  | .json message => "JSON error: " ++ message
  | .configuration message => "Configuration error: " ++ message
  | .notFound message => "Provider not found: " ++ message
  | .pkce message => "PKCE error: " ++ message
  | .other message => message

structure FailureRecord where
  timestamp : Int
  backoffCount : Nat
  deriving DecidableEq

/-- The token of an account that is good for longer than the safety window. -/
def freshToken (account : Account) (now : Int) : Option String :=
  match account.accessToken, account.expiresAt with
  | some token, some expiresAt =>
      if wrappingSub expiresAt now > tokenSafetyWindowMs then some token else none
  | _, _ => none

/-- What `get_valid_access_token` returns where it does not refresh. -/
def withoutRefresh (account : Account) (now : Int) : Option (Except TokenError String) :=
  if isApiKeyProvider account.provider then
    match account.apiKey with
    | some key => some (.ok key)
    | none =>
        if account.refreshToken ≠ "" then some (.ok account.refreshToken)
        else some (.error (.noApiKey account.name))
  else if account.refreshToken = "" ∧ account.apiKey.isSome then some (.ok "")
  else (freshToken account now).map .ok

inductive BackoffAction where
  | inBackoff
  | tryDbRecovery
  | backoffExpired
  deriving DecidableEq

/-- A check within the backoff is counted on the record. -/
def checkBackoff (record : FailureRecord) (now : Int) : FailureRecord × BackoffAction :=
  if wrappingSub now record.timestamp < tokenRefreshBackoffMs then
    let count := (record.backoffCount + 1) % 4294967296
    ({ record with backoffCount := count },
      if maxBackoffRetries ≤ count then .tryDbRecovery else .inBackoff)
  else (record, .backoffExpired)

def loadAccount (rows : List Account) (accountId : String) : Option Account :=
  rows.find? fun row => row.id = accountId

/-- A fresh token of the row that is not the one the account already has. -/
def recoverFromDb (account : Account) (dbAccount : Option Account) (now : Int) :
    Option (String × Account) :=
  match dbAccount with
  | none => none
  | some row =>
      match freshToken row now with
      | none => none
      | some dbToken =>
          if account.accessToken = some dbToken then none
          else some (dbToken, { account with
            accessToken := some dbToken
            expiresAt := row.expiresAt
            refreshToken :=
              if row.refreshToken = "" then account.refreshToken else row.refreshToken })

/-- The clone after a refresh. -/
def acceptRefresh (account : Account) (result : TokenRefreshResult) : Account :=
  { account with
    accessToken := some result.accessToken
    expiresAt := some result.expiresAt
    refreshToken := if result.refreshToken = "" then account.refreshToken else result.refreshToken
    subscriptionTier := result.subscriptionTier.or account.subscriptionTier
    email := result.email.or account.email }

/-- Where a call stands. A phase with a mutex holds it, save `waiting`. -/
inductive Phase where
  | entered
  | cleaning (last : Int)
  | sweeping
  | checking
  | expired
  | recovering
  | recovered (token : String)
  | locking
  | waiting (mutex : Nat)
  | holding (mutex : Nat)
  | refreshing (mutex : Nat)
  | refreshed (mutex : Nat) (result : TokenRefreshResult)
  | persisted (mutex : Nat) (token : String)
  | failed (mutex : Nat) (error : ProviderError)
  | leaving (mutex : Nat) (outcome : Except TokenError String)
  | returned (outcome : Except TokenError String)
  | dropped

structure Call where
  /-- The account the clone was made of. -/
  original : Account
  account : Account
  now : Int
  phase : Phase

def Call.to (call : Call) (phase : Phase) : Call := { call with phase := phase }

def newCall (account : Account) (now : Int) : Call where
  original := account
  account := account
  now := now
  phase :=
    match withoutRefresh account now with
    | some outcome => .returned outcome
    | none => .entered

/-- The maps of the manager, its mutexes with those that are held, and the rows. -/
structure Shared where
  refreshLocks : String → Option Nat
  failures : String → Option FailureRecord
  lastCleanup : Int
  mutexes : Nat
  held : Nat → Bool
  rows : List Account

def Shared.setFailure (shared : Shared) (accountId : String) (record : Option FailureRecord) :
    Shared :=
  { shared with failures := Function.update shared.failures accountId record }

def Shared.setHeld (shared : Shared) (mutex : Nat) (held : Bool) : Shared :=
  { shared with held := Function.update shared.held mutex held }

/-- `retain(|_, record| now - record.timestamp <= FAILURE_TTL_MS)`. -/
def Shared.sweep (shared : Shared) (now : Int) : Shared :=
  { shared with
    failures := fun accountId => (shared.failures accountId).filter fun record =>
      wrappingSub now record.timestamp ≤ failureTtlMs }

/-- `entry(account.id).or_insert_with(...)`. -/
def Shared.lockFor (shared : Shared) (accountId : String) : Shared × Nat :=
  match shared.refreshLocks accountId with
  | some mutex => (shared, mutex)
  | none =>
      ({ shared with
          refreshLocks := Function.update shared.refreshLocks accountId (some shared.mutexes)
          mutexes := shared.mutexes + 1 }, shared.mutexes)

def BackoffAction.phase (accountId : String) : BackoffAction → Phase
  | .inBackoff => .returned (.error (.inBackoff accountId))
  | .tryDbRecovery => .recovering
  | .backoffExpired => .expired

/-- The next step of a call; `none` where it waits for the mutex or for the refresher,
and after its end. -/
def advance (shared : Shared) (call : Call) : Option (Shared × Call) :=
  let id := call.account.id
  match call.phase with
  | .entered =>
      if wrappingSub call.now shared.lastCleanup < cleanupIntervalMs then
        some (shared, call.to .checking)
      else some (shared, call.to (.cleaning shared.lastCleanup))
  -- A compare-and-swap: of the calls that find the cleanup due, one sweeps.
  | .cleaning last =>
      if shared.lastCleanup = last then
        some ({ shared with lastCleanup := call.now }, call.to .sweeping)
      else some (shared, call.to .checking)
  | .sweeping => some (shared.sweep call.now, call.to .checking)
  | .checking =>
      match shared.failures id with
      | none => some (shared, call.to .locking)
      | some record =>
          let (counted, action) := checkBackoff record call.now
          some (shared.setFailure id (some counted), call.to (action.phase id))
  | .expired => some (shared.setFailure id none, call.to .locking)
  | .recovering =>
      match recoverFromDb call.account (loadAccount shared.rows id) call.now with
      | some (token, account) => some (shared, { call with
          account := account
          phase := .recovered token })
      | none => some (shared, call.to (.returned (.error (.inBackoff id))))
  | .recovered token => some (shared.setFailure id none, call.to (.returned (.ok token)))
  | .locking =>
      let (locked, mutex) := shared.lockFor id
      some (locked, call.to (.waiting mutex))
  | .waiting mutex =>
      if shared.held mutex then none
      else some (shared.setHeld mutex true, call.to (.holding mutex))
  -- The token is looked at again, on the call's own clone, which no other call refreshes.
  | .holding mutex =>
      match freshToken call.account call.now with
      | some token => some (shared, call.to (.leaving mutex (.ok token)))
      | none => some (shared, call.to (.refreshing mutex))
  | .refreshing _ => none
  | .refreshed mutex result =>
      some ({ shared with rows := shared.rows.map fun row =>
          if row.id = id then persistResult dbPersister result row else row },
        { call with
          account := acceptRefresh call.account result
          phase := .persisted mutex result.accessToken })
  | .persisted mutex token =>
      some (shared.setFailure id none, call.to (.leaving mutex (.ok token)))
  -- The record bears the time the call came with, not that of the failure.
  | .failed mutex error =>
      some (shared.setFailure id (some ⟨call.now, 0⟩), call.to (.leaving mutex
        (.error (.refreshFailed id
          (getOauthErrorMessage call.account (errorText error) call.now)))))
  | .leaving mutex outcome => some (shared.setHeld mutex false, call.to (.returned outcome))
  | .returned _ | .dropped => none

def answer (shared : Shared) (result : Except ProviderError TokenRefreshResult) (call : Call) :
    Option (Shared × Call) :=
  match call.phase, result with
  | .refreshing mutex, .ok tokens => some (shared, call.to (.refreshed mutex tokens))
  | .refreshing mutex, .error error => some (shared, call.to (.failed mutex error))
  | _, _ => none

/-- A request whose client is gone is dropped where it awaits. -/
def dropCall (shared : Shared) (call : Call) : Option (Shared × Call) :=
  match call.phase with
  | .waiting _ => some (shared, call.to .dropped)
  -- The guard goes with the future; nothing is put on record.
  | .refreshing mutex => some (shared.setHeld mutex false, call.to .dropped)
  | _ => none

structure State where
  shared : Shared
  calls : Nat → Option Call

def State.move (s : State) (task : Nat) (step : Call → Option (Shared × Call)) : Option State :=
  (s.calls task).bind fun call => (step call).map fun (shared, moved) =>
    { shared := shared
      calls := Function.update s.calls task (some moved) }

inductive Event where
  | call (task : Nat) (account : Account) (now : Int)
  | advance (task : Nat)
  | answer (task : Nat) (result : Except ProviderError TokenRefreshResult)
  | drop (task : Nat)
  -- The two halves of `clear_account_state`.
  | clearLock (accountId : String)
  | clearFailure (accountId : String)
  -- Any other writer of the database.
  | store (rows : List Account)

def perform (s : State) : Event → Option State
  | .call task account now =>
      if (s.calls task).isSome then none
      else some { s with calls := Function.update s.calls task (some (newCall account now)) }
  | .advance task => s.move task (advance s.shared)
  | .answer task result => s.move task (answer s.shared result)
  | .drop task => s.move task (dropCall s.shared)
  | .clearLock accountId => some { s with shared := { s.shared with
      refreshLocks := Function.update s.shared.refreshLocks accountId none } }
  | .clearFailure accountId => some { s with shared := s.shared.setFailure accountId none }
  | .store rows => some { s with shared := { s.shared with rows := rows } }

abbrev Taken := State × Event × State

abbrev Step : State → Event → State → Prop := Does perform

/-- `TokenManager::new` over some rows, before any call. -/
def newState (rows : List Account) : State where
  shared :=
    { refreshLocks := fun _ => none
      failures := fun _ => none
      lastCleanup := 0
      mutexes := 0
      held := fun _ => false
      rows := rows }
  calls _ := none

def StartsRefresh (taken : Taken) (task : Nat) (call : Call) : Prop :=
  taken.2.1 = .advance task ∧ taken.1.calls task = some call ∧
    (∃ mutex, call.phase = .holding mutex) ∧ freshToken call.account call.now = none

def RecordsFailure (taken : Taken) (task : Nat) (call : Call) : Prop :=
  taken.2.1 = .advance task ∧ taken.1.calls task = some call ∧
    ∃ mutex error, call.phase = .failed mutex error

/-- A move of a call, whichever event makes it. -/
def Moves (shared : Shared) (task : Nat) (call : Call) (event : Event) (after : Shared)
    (next : Call) : Prop :=
  event = .advance task ∧ advance shared call = some (after, next) ∨
  (∃ result, event = .answer task result ∧ answer shared result call = some (after, next)) ∨
  event = .drop task ∧ dropCall shared call = some (after, next)

theorem moved (s t : State) (task : Nat) (step : Call → Option (Shared × Call))
    (moves : s.move task step = some t) :
    ∃ call next, s.calls task = some call ∧ step call = some (t.shared, next) ∧
      t.calls = Function.update s.calls task (some next) := by
  simp only [State.move, Option.bind_eq_some_iff, Option.map_eq_some_iff] at moves
  obtain ⟨call, held, ⟨shared, next⟩, taken, rfl⟩ := moves
  exact ⟨call, next, held, taken, rfl⟩

/-- A call stands still when another one moves. -/
theorem moved_or_still (s t : State) (task other : Nat) (step : Call → Option (Shared × Call))
    (moves : s.move other step = some t) :
    t.calls task = s.calls task ∨ task = other ∧ ∃ call next, s.calls task = some call ∧
      step call = some (t.shared, next) ∧ t.calls task = some next := by
  obtain ⟨call, next, held, taken, calls⟩ := moved s t other step moves
  rw [calls]
  by_cases same : task = other
  · subst same
    exact Or.inr ⟨rfl, call, next, held, taken, Function.update_self ..⟩
  · exact Or.inl (Function.update_of_ne same ..)

theorem step_call (s t : State) (event : Event) (step : Step s event t) (task : Nat) :
    t.calls task = s.calls task ∨
    (∃ account now, event = .call task account now ∧ t.calls task = some (newCall account now)) ∨
    ∃ call next, s.calls task = some call ∧ t.calls task = some next ∧
      Moves s.shared task call event t.shared next := by
  cases event with
  | call other account now =>
      simp only [Does, perform] at step
      split at step
      · cases step
      · obtain rfl := Option.some.inj step
        by_cases same : task = other
        · subst same
          exact Or.inr (Or.inl ⟨account, now, rfl, Function.update_self ..⟩)
        · exact Or.inl (Function.update_of_ne same ..)
  | advance other =>
      rcases moved_or_still s t task other _ step with
        still | ⟨rfl, call, next, held, taken, after⟩
      · exact Or.inl still
      · exact Or.inr (Or.inr ⟨call, next, held, after, Or.inl ⟨rfl, taken⟩⟩)
  | answer other result =>
      rcases moved_or_still s t task other _ step with
        still | ⟨rfl, call, next, held, taken, after⟩
      · exact Or.inl still
      · exact Or.inr (Or.inr ⟨call, next, held, after, Or.inr (Or.inl ⟨result, rfl, taken⟩)⟩)
  | drop other =>
      rcases moved_or_still s t task other _ step with
        still | ⟨rfl, call, next, held, taken, after⟩
      · exact Or.inl still
      · exact Or.inr (Or.inr ⟨call, next, held, after, Or.inr (Or.inr ⟨rfl, taken⟩)⟩)
  | clearLock accountId =>
      obtain rfl := Option.some.inj step
      exact Or.inl rfl
  | clearFailure accountId =>
      obtain rfl := Option.some.inj step
      exact Or.inl rfl
  | store rows =>
      obtain rfl := Option.some.inj step
      exact Or.inl rfl

/-- The call that advances, with what it does to the shared state. -/
theorem advanced (s t : State) (task : Nat) (step : Step s (.advance task) t) :
    ∃ call next, s.calls task = some call ∧ advance s.shared call = some (t.shared, next) ∧
      t.calls task = some next := by
  obtain ⟨call, next, held, taken, calls⟩ := moved s t task _ step
  refine ⟨call, next, held, taken, ?_⟩
  rw [calls]
  exact Function.update_self ..

theorem recovered_id (account : Account) (row : Option Account) (now : Int) (token : String)
    (recovered : Account) (found : recoverFromDb account row now = some (token, recovered)) :
    recovered.id = account.id := by
  unfold recoverFromDb at found
  split at found
  · cases found
  · split at found
    · cases found
    · split at found
      · cases found
      · simp only [Option.some.injEq, Prod.mk.injEq] at found
        rw [← found.2]

/-- A call keeps the account it works for and its clock. -/
theorem advance_keeps (shared after : Shared) (call next : Call)
    (taken : advance shared call = some (after, next)) :
    next.original = call.original ∧ next.now = call.now ∧
      next.account.id = call.account.id := by
  obtain ⟨original, account, now, phase⟩ := call
  cases phase with
  | recovering =>
      simp only [advance] at taken
      split at taken
      · rename_i token recovered found
        simp only [Option.some.injEq, Prod.mk.injEq] at taken
        rw [← taken.2]
        exact ⟨rfl, rfl, recovered_id account _ now token recovered found⟩
      · simp only [Option.some.injEq, Prod.mk.injEq] at taken
        rw [← taken.2]
        exact ⟨rfl, rfl, rfl⟩
  | refreshed mutex result =>
      simp only [advance, Option.some.injEq, Prod.mk.injEq] at taken
      rw [← taken.2]
      exact ⟨rfl, rfl, rfl⟩
  | refreshing mutex => cases taken
  | returned outcome => cases taken
  | dropped => cases taken
  | _ =>
      simp only [advance] at taken
      grind [Call.to]

theorem moves_keep (shared after : Shared) (task : Nat) (call next : Call) (event : Event)
    (moves : Moves shared task call event after next) :
    next.original = call.original ∧ next.now = call.now ∧
      next.account.id = call.account.id := by
  rcases moves with ⟨-, taken⟩ | ⟨result, -, taken⟩ | ⟨-, taken⟩
  · exact advance_keeps shared after call next taken
  · unfold answer at taken
    grind [Call.to]
  · unfold dropCall at taken
    grind [Call.to]

def staleAccount : Account :=
  { makeAccount "a" "anthropic" 0 with
    refreshToken := "r0"
    accessToken := some "t0"
    expiresAt := some 0 }

def freshTokens : TokenRefreshResult := ⟨"t1", 28800000, "r1", none, none⟩

/-- Two calls on clones of one account, the first at the refresher, the second at the lock. -/
def queuedCalls : List Event :=
  [.call 0 staleAccount 1000, .call 1 staleAccount 1000] ++ List.replicate 5 (.advance 0) ++
    List.replicate 3 (.advance 1)

def isAsking (s : State) (task : Nat) : Bool :=
  (s.calls task).any fun call => call.phase matches .holding _ &&
    (freshToken call.account call.now).isNone

theorem is_asking (s t : State) (task : Nat) (asks : isAsking s task = true) :
    ∃ call, StartsRefresh (s, .advance task, t) task call := by
  simp only [isAsking, Option.any_eq_true, Bool.and_eq_true, Option.isNone_iff_eq_none] at asks
  obtain ⟨call, held, holding, stale⟩ := asks
  refine ⟨call, rfl, held, ?_, stale⟩
  cases phase : call.phase with
  | holding mutex => exact ⟨mutex, rfl⟩
  | _ => simp [phase] at holding

end Ccflare.TokenManager
