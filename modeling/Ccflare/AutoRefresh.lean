import Ccflare.AuthMarker

/-!
The auto-refresh scheduler: each check forgets the accounts that are not on its list any
more and picks those whose usage window looks new; a dummy request is sent for each of
them, one after the other, and what its answer reports is tracked. The rest of the server
works on the same table of accounts. `chrono`'s parser of dates is a parameter; its clock
stays far from the ends of an `i64`.
-/

namespace Ccflare.AutoRefresh

open MachineNumber Eligibility ProxyRequest Providers Transition
open AuthMarker (AuthStatus successStatement)
open RefreshRace (updateRow)
open TokenRefresh (isSuccess)

def staleThresholdMs : Int := 24 * 60 * 60 * 1000

def modelCascade : List String :=
  ["claude-haiku-4-5-20251001", "claude-3-5-haiku-20241022", "claude-3-haiku-20240307",
    "claude-3-5-sonnet-20241022", "claude-3-sonnet-20240229"]

structure RefreshableAccount where
  id : String
  name : String
  rateLimitReset : Option Int
  deriving DecidableEq

/-- The maps of the state, read by account id only. -/
structure SchedulerState where
  lastRefreshReset : String → Option Int
  consecutiveFailures : String → Option Nat
  backoffMultiplier : Nat

namespace SchedulerState

def new : SchedulerState := ⟨fun _ => none, fun _ => none, 1⟩

def shouldRefresh (state : SchedulerState) (account : RefreshableAccount) (now : Int) : Bool :=
  match state.lastRefreshReset account.id with
  | none => true
  | some last =>
      match account.rateLimitReset with
      | none => false
      | some reset => reset ≤ now || reset > last || reset < now - staleThresholdMs

def recordSuccess (state : SchedulerState) (accountId : String) (resetTime : Option Int) :
    SchedulerState :=
  { state with
    lastRefreshReset := match resetTime with
      | some reset => Function.update state.lastRefreshReset accountId (some reset)
      | none => state.lastRefreshReset
    consecutiveFailures := Function.update state.consecutiveFailures accountId none }

/-- The count it returns decides only whether an error is logged. -/
def recordFailure (state : SchedulerState) (accountId : String) : SchedulerState :=
  { state with
    consecutiveFailures := Function.update state.consecutiveFailures accountId
      (some ((state.consecutiveFailures accountId).getD 0 + 1)) }

def cleanup (state : SchedulerState) (activeIds : List String) : SchedulerState :=
  { state with
    lastRefreshReset := fun id => if id ∈ activeIds then state.lastRefreshReset id else none
    consecutiveFailures := fun id => if id ∈ activeIds then state.consecutiveFailures id else none }

end SchedulerState

structure Response where
  status : Nat
  headers : Headers
  body : String

inductive RefreshResult where
  | success (resetTime : Option Int)
  | rateLimited
  | failed
  | authFailed (status : AuthStatus)
  deriving DecidableEq

/-- The first model whose answer is not a 404 and no network error decides. -/
def decidingAnswer (upstream : String → Option Response) : List String → Option Response
  | [] => none
  | model :: rest =>
      match upstream model with
      | some response =>
          if response.status = 404 then decidingAnswer upstream rest else some response
      | none => decidingAnswer upstream rest

def resetHeader : String := "anthropic-ratelimit-unified-reset"

section Dates

variable (parseRfc3339 : String → Option Int)

def readAnswer (now : Int) (response : Response) : RefreshResult :=
  if response.status = 429 ∨ response.status = 503 then .rateLimited
  else if isSuccess response.status then
    .success ((headerReset parseRfc3339 response.headers resetHeader).or (some now))
  else if response.status = 401 ∨ response.status = 403 then
    -- The proxy's own refusals do not mark the account.
    if (headerGet response.headers "anthropic-organization-id").isNone ∧
        (headerGet response.headers "request-id").isNone then .failed
    else if Text.contains "API key required" response.body ∨
        Text.contains "Invalid API key" response.body then .failed
    else .authFailed (if response.status = 401 then .unauthorized else .forbidden)
  else .failed

def sendDummyRequest (now : Int) (upstream : String → Option Response) : RefreshResult :=
  match decidingAnswer upstream modelCascade with
  | some response => readAnswer parseRfc3339 now response
  | none => .failed

structure AccountTable where
  rows : List Account
  keyed : (rows.map Account.id).Nodup

def isRefreshed (row : Account) : Bool := row.autoRefreshEnabled && isAnthropicFamily row.provider

def refreshable (row : Account) : RefreshableAccount := ⟨row.id, row.name, row.rateLimitReset⟩

def getRefreshableAccounts (table : AccountTable) : List RefreshableAccount :=
  (table.rows.filter fun row => isRefreshed row && !row.paused).map refreshable

def getActiveRefreshAccountIds (table : AccountTable) : List String :=
  (table.rows.filter isRefreshed).map Account.id

def markAuthFailed (table : AccountTable) (id : String) (status : AuthStatus) : AccountTable where
  rows := updateRow id (AuthMarker.markAuthFailed status) table.rows
  keyed := by
    have ids : (updateRow id (AuthMarker.markAuthFailed status) table.rows).map Account.id =
        table.rows.map Account.id := by
      unfold updateRow
      rw [List.map_map]
      apply List.map_congr_left
      intro row _
      rw [Function.comp_apply]
      split <;> rfl
    rw [ids]
    exact table.keyed

/-- The scheduler's task with the accounts that a check has still to send for. -/
structure Scheduler where
  state : SchedulerState
  pending : List RefreshableAccount
  accounts : AccountTable
  now : Int

/-- A read of the table that fails is an empty list; a write that fails is logged. -/
inductive Event where
  | check (idsRead accountsRead : Bool)
  | answer (upstream : String → Option Response) (written : Bool)
  | database (accounts : AccountTable)
  | tick (elapsed : Nat)

def checkAndRefresh (s : Scheduler) (idsRead accountsRead : Bool) : Scheduler :=
  let activeIds := if idsRead then getActiveRefreshAccountIds s.accounts else []
  let state := s.state.cleanup activeIds
  let accounts := if accountsRead then getRefreshableAccounts s.accounts else []
  { s with state := state, pending := accounts.filter fun a => state.shouldRefresh a s.now }

def recordResult (s : Scheduler) (account : RefreshableAccount) (rest : List RefreshableAccount)
    (written : Bool) : RefreshResult → Scheduler
  | .success resetTime =>
      { s with
        state := { s.state.recordSuccess account.id resetTime with backoffMultiplier := 1 }
        pending := rest }
  | .rateLimited =>
      -- The accounts that are left wait for the next check.
      { s with
        state := { s.state with backoffMultiplier := min (s.state.backoffMultiplier * 2) 8 }
        pending := [] }
  | .failed => { s with state := s.state.recordFailure account.id, pending := rest }
  | .authFailed status =>
      { s with
        state := s.state.recordFailure account.id
        pending := rest
        accounts := if written then markAuthFailed s.accounts account.id status else s.accounts }

/-- One task checks and awaits the answers, so no check begins while one is pending. -/
def perform (s : Scheduler) : Event → Option Scheduler
  | .check idsRead accountsRead =>
      match s.pending with
      | [] => some (checkAndRefresh s idsRead accountsRead)
      | _ :: _ => none
  | .answer upstream written =>
      match s.pending with
      | [] => none
      | account :: rest =>
          some (recordResult s account rest written (sendDummyRequest parseRfc3339 s.now upstream))
  | .database accounts => some { s with accounts := accounts }
  | .tick elapsed => some { s with now := s.now + elapsed }

end Dates

abbrev Taken := Scheduler × Event × Scheduler

section Windows

variable (parseRfc3339 : String → Option Int)

/-- What is stored of a header, by the scheduler and by the response handler alike. -/
def storedReset (text : String) : Option Int := (parseI64 text).or (parseRfc3339 text)

/-- The instant that a header denotes, in milliseconds: an integer counts seconds or
milliseconds by its size. -/
def instant (text : String) : Option Int :=
  ((parseI64 text).map normalizeEpochMillis).or (parseRfc3339 text)

/-- A refresh has succeeded: the header's value is tracked and stored in the row, and no
answer for the account is awaited. -/
structure Refreshed (s : Scheduler) (id : String) (reset : Int) : Prop where
  tracked : s.state.lastRefreshReset id = some reset
  answered : ∀ account ∈ s.pending, account.id ≠ id
  stored : ∃ row ∈ s.accounts.rows, row.id = id ∧ row.rateLimitReset = some reset

/-- The row of the account, if there is one, has no other reset time. -/
def Keeps (id : String) (reset : Int) (s : Scheduler) : Prop :=
  ∀ row ∈ s.accounts.rows, row.id = id → ∀ other, row.rateLimitReset = some other → other = reset

def Listed (id : String) (taken : Taken) : Prop :=
  match taken.2.1 with
  | .check idsRead _ => idsRead = true ∧ id ∈ getActiveRefreshAccountIds taken.1.accounts
  | .answer _ _ | .database _ | .tick _ => True

/-- No check would send for the account, nor is one about to. -/
def Quiet (id : String) (s : Scheduler) : Prop :=
  (∀ row ∈ s.accounts.rows, row.id = id →
    s.state.shouldRefresh (refreshable row) s.now = false) ∧
  ∀ account ∈ s.pending, account.id ≠ id

/-- Until the row gets another reset time, and as long as the account stays listed, the
account is quiet at every time before the instant. -/
def OncePerWindow (s : Scheduler) (id : String) (reset before : Int) : Prop :=
  ∀ (trace : List Taken) (final : Scheduler), Run (Does (perform parseRfc3339)) s trace final →
    (∀ taken ∈ trace, Listed id taken ∧ Keeps id reset taken.2.2) → final.now < before →
    Quiet id final

/-- The header counts seconds, and its instant is still to come. -/
def CountsSeconds (text : String) (now : Int) : Prop :=
  ∃ seconds, parseI64 text = some seconds ∧ 0 < seconds ∧ seconds < 1000000000000 ∧
    now < seconds * 1000

end Windows

section Steps

variable {parseRfc3339 : String → Option Int} {s t : Scheduler} {id text : String}
  {reset before : Int}

theorem handler_stores (headers : Headers) (status : Nat) (now : Int)
    (reported : (headerGet headers resetHeader).bind headerText = some text) :
    ∃ label remaining, successStatement parseRfc3339 .claudeOauth headers status now =
      .rateLimitMeta label remaining (storedReset parseRfc3339 text) := by
  have read : headerReset parseRfc3339 headers resetHeader = storedReset parseRfc3339 text := by
    unfold headerReset
    rw [reported]
    rfl
  exact ⟨_, _, by rw [← read]; rfl⟩

theorem answer_reads (now : Int) (response : Response) (done : isSuccess response.status = true)
    (reported : (headerGet response.headers resetHeader).bind headerText = some text)
    (reads : storedReset parseRfc3339 text = some reset) :
    readAnswer parseRfc3339 now response = .success (some reset) := by
  have limited : ¬(response.status = 429 ∨ response.status = 503) := by
    rintro (same | same) <;> rw [same] at done <;> exact absurd done (by decide)
  have read : headerReset parseRfc3339 response.headers resetHeader = some reset := by
    unfold headerReset
    rw [reported]
    exact reads
  unfold readAnswer
  rw [if_neg limited, if_pos done, read]
  rfl

theorem step_cases (event : Event) (taken : Does (perform parseRfc3339) s event t) :
    (∃ idsRead accountsRead, event = .check idsRead accountsRead ∧
      t = checkAndRefresh s idsRead accountsRead) ∨
    (∃ upstream written account rest, event = .answer upstream written ∧
      s.pending = account :: rest ∧
      t = recordResult s account rest written (sendDummyRequest parseRfc3339 s.now upstream)) ∨
    (∃ accounts, event = .database accounts ∧ t = { s with accounts := accounts }) ∨
    ∃ elapsed : Nat, event = .tick elapsed ∧ t = { s with now := s.now + elapsed } := by
  change perform parseRfc3339 s event = some t at taken
  cases event with
  | check idsRead accountsRead =>
      simp only [perform] at taken
      split at taken
      · exact .inl ⟨idsRead, accountsRead, rfl, (Option.some.inj taken).symm⟩
      · cases taken
  | answer upstream written =>
      simp only [perform] at taken
      split at taken
      · cases taken
      · rename_i account rest awaiting
        exact .inr (.inl ⟨upstream, written, account, rest, rfl, awaiting,
          (Option.some.inj taken).symm⟩)
  | database accounts => exact .inr (.inr (.inl ⟨accounts, rfl, (Option.some.inj taken).symm⟩))
  | tick elapsed => exact .inr (.inr (.inr ⟨elapsed, rfl, (Option.some.inj taken).symm⟩))

theorem pending_step (event : Event) (once : (s.pending.map RefreshableAccount.id).Nodup)
    (taken : Does (perform parseRfc3339) s event t) :
    (t.pending.map RefreshableAccount.id).Nodup := by
  rcases step_cases event taken with ⟨idsRead, accountsRead, -, rfl⟩ |
    ⟨upstream, written, account, rest, -, awaiting, rfl⟩ | ⟨accounts, -, rfl⟩ | ⟨elapsed, -, rfl⟩
  · have rows : ((getRefreshableAccounts s.accounts).map RefreshableAccount.id).Nodup := by
      unfold getRefreshableAccounts
      rw [List.map_map]
      exact s.accounts.keyed.sublist (List.filter_sublist.map Account.id)
    cases accountsRead with
    | true => exact rows.sublist (List.filter_sublist.map RefreshableAccount.id)
    | false => exact List.nodup_nil
  · rw [awaiting] at once
    have later := (List.nodup_cons.mp once).2
    cases sendDummyRequest parseRfc3339 s.now upstream with
    | success resetTime => exact later
    | rateLimited => exact List.nodup_nil
    | failed => exact later
    | authFailed status => exact later
  · exact once
  · exact once

theorem success_refreshed (start : Scheduler) (trace : List Taken) (fresh : start.pending = [])
    (run : Run (Does (perform parseRfc3339)) start trace s) (upstream : String → Option Response)
    (written : Bool) (taken : Does (perform parseRfc3339) s (.answer upstream written) t)
    (account : RefreshableAccount) (rest : List RefreshableAccount)
    (awaiting : s.pending = account :: rest) (response : Response)
    (decides : decidingAnswer upstream modelCascade = some response)
    (done : isSuccess response.status = true)
    (reported : (headerGet response.headers resetHeader).bind headerText = some text)
    (reads : storedReset parseRfc3339 text = some reset)
    (stored : ∃ row ∈ t.accounts.rows, row.id = account.id ∧ row.rateLimitReset = some reset) :
    Refreshed t account.id reset := by
  have once : (s.pending.map RefreshableAccount.id).Nodup := by
    apply run.invariant (fun s => (s.pending.map RefreshableAccount.id).Nodup)
    · simp [fresh]
    · exact fun source event target => pending_step event
  rw [awaiting, List.map_cons, List.nodup_cons] at once
  have result : sendDummyRequest parseRfc3339 s.now upstream = .success (some reset) := by
    unfold sendDummyRequest
    rw [decides]
    exact answer_reads s.now response done reported reads
  change perform parseRfc3339 s (.answer upstream written) = some t at taken
  simp only [perform, awaiting, result, recordResult, Option.some.injEq] at taken
  subst taken
  refine ⟨?_, ?_, stored⟩
  · simp [SchedulerState.recordSuccess]
  · rintro other member same
    exact once.1 (List.mem_map.mpr ⟨other, member, same⟩)

theorem clock_step (event : Event) (taken : Does (perform parseRfc3339) s event t) :
    s.now ≤ t.now := by
  rcases step_cases event taken with ⟨idsRead, accountsRead, -, rfl⟩ |
    ⟨upstream, written, account, rest, -, -, rfl⟩ | ⟨accounts, -, rfl⟩ | ⟨elapsed, -, rfl⟩
  · exact le_rfl
  · cases sendDummyRequest parseRfc3339 s.now upstream <;> exact le_rfl
  · exact le_rfl
  · exact Int.le_add_of_nonneg_right (Int.natCast_nonneg elapsed)

theorem tracked_quiet (state : SchedulerState) (account : RefreshableAccount) (now : Int)
    (tracked : state.lastRefreshReset account.id = some reset)
    (keeps : ∀ other, account.rateLimitReset = some other → other = reset) (early : now < reset) :
    state.shouldRefresh account now = false := by
  unfold SchedulerState.shouldRefresh
  rw [tracked]
  cases stored : account.rateLimitReset with
  | none => rfl
  | some other =>
      obtain rfl := keeps other stored
      have fresh : ¬other < now - staleThresholdMs := by
        unfold staleThresholdMs
        omega
      simp [early, fresh]

/-- The account is tracked and not sent for. -/
structure Settled (s : Scheduler) (id : String) (reset : Int) : Prop where
  tracked : s.state.lastRefreshReset id = some reset
  answered : ∀ account ∈ s.pending, account.id ≠ id

theorem settled_quiet (settled : Settled s id reset) (keeps : Keeps id reset s)
    (early : s.now < reset) : Quiet id s := by
  refine ⟨?_, settled.answered⟩
  rintro row member rfl
  exact tracked_quiet s.state (refreshable row) s.now settled.tracked (keeps row member rfl) early

theorem check_settled (idsRead accountsRead : Bool) (settled : Settled s id reset)
    (keeps : Keeps id reset s) (early : s.now < reset)
    (listed : idsRead = true ∧ id ∈ getActiveRefreshAccountIds s.accounts) :
    Settled (checkAndRefresh s idsRead accountsRead) id reset := by
  have tracked : (checkAndRefresh s idsRead accountsRead).state.lastRefreshReset id =
      some reset := by
    simp only [checkAndRefresh, SchedulerState.cleanup, listed.1, if_true, listed.2]
    exact settled.tracked
  refine ⟨tracked, ?_⟩
  rintro account member rfl
  -- What a check picks it would refresh, and this account it would not.
  obtain ⟨picked, due⟩ := List.mem_filter.mp member
  cases accountsRead with
  | false => cases picked
  | true =>
      obtain ⟨row, held, rfl⟩ := List.mem_map.mp picked
      have stays := keeps row (List.mem_filter.mp held).1 rfl
      have quiet := tracked_quiet _ (refreshable row) s.now tracked stays early
      cases due.symm.trans quiet

theorem record_settled (account : RefreshableAccount) (rest : List RefreshableAccount)
    (written : Bool) (result : RefreshResult) (settled : Settled s id reset)
    (awaiting : s.pending = account :: rest) :
    Settled (recordResult s account rest written result) id reset := by
  have other : id ≠ account.id := fun same =>
    settled.answered account (by simp [awaiting]) same.symm
  have later : ∀ next ∈ rest, next.id ≠ id := fun next member =>
    settled.answered next (by simp [awaiting, member])
  cases result with
  | success resetTime =>
      refine ⟨?_, later⟩
      cases resetTime with
      | none => exact settled.tracked
      | some time =>
          simp only [recordResult, SchedulerState.recordSuccess]
          rw [Function.update_of_ne other]
          exact settled.tracked
  | rateLimited => exact ⟨settled.tracked, by simp [recordResult]⟩
  | failed => exact ⟨settled.tracked, later⟩
  | authFailed status => exact ⟨settled.tracked, later⟩

theorem step_settled (event : Event) (settled : Settled s id reset) (keeps : Keeps id reset s)
    (early : s.now < reset) (listed : Listed id (s, event, t))
    (taken : Does (perform parseRfc3339) s event t) : Settled t id reset := by
  rcases step_cases event taken with ⟨idsRead, accountsRead, rfl, rfl⟩ |
    ⟨upstream, written, account, rest, -, awaiting, rfl⟩ | ⟨accounts, -, rfl⟩ | ⟨elapsed, -, rfl⟩
  · exact check_settled idsRead accountsRead settled keeps early listed
  · exact record_settled account rest written _ settled awaiting
  · exact ⟨settled.tracked, settled.answered⟩
  · exact ⟨settled.tracked, settled.answered⟩

theorem refreshed_keeps (refreshed : Refreshed s id reset) : Keeps id reset s := by
  obtain ⟨row, member, rfl, stored⟩ := refreshed.stored
  intro same held key other has
  obtain rfl := List.inj_on_of_nodup_map s.accounts.keyed held member key
  exact Option.some.inj (has.symm.trans stored)

theorem run_settled (refreshed : Refreshed s id reset) (trace : List Taken) (final : Scheduler)
    (run : Run (Does (perform parseRfc3339)) s trace final)
    (guarded : ∀ taken ∈ trace, Listed id taken ∧ Keeps id reset taken.2.2) :
    Keeps id reset final ∧ s.now ≤ final.now ∧
      (final.now < reset → Settled final id reset) := by
  have kept := run.guarded
    (fun at_ => Keeps id reset at_ ∧ s.now ≤ at_.now ∧ (at_.now < reset → Settled at_ id reset))
    (fun taken => Listed id taken ∧ Keeps id reset taken.2.2) (fun _ => True)
    ⟨refreshed_keeps refreshed, le_rfl, fun _ => ⟨refreshed.tracked, refreshed.answered⟩⟩
  apply (kept _ guarded).1
  intro source event target holds guard taken
  have forward := clock_step event taken
  refine ⟨⟨guard.2, holds.2.1.trans forward, ?_⟩, trivial⟩
  intro early
  have before := lt_of_le_of_lt forward early
  exact step_settled event (holds.2.2 before) holds.1 before guard.1 taken

end Steps

theorem normalize_seconds (seconds : Int) (positive : 0 < seconds)
    (small : seconds < 1000000000000) : normalizeEpochMillis seconds = seconds * 1000 := by
  unfold normalizeEpochMillis wrappingAbs wrapI64 saturatingMul clampI64 i64Min i64Max
  omega

theorem normalize_le (value : Int) (inside : InI64 value)
    (other : value ≤ 0 ∨ 1000000000000 ≤ value) : normalizeEpochMillis value ≤ value := by
  unfold InI64 i64Min i64Max at inside
  unfold normalizeEpochMillis wrappingAbs wrapI64 saturatingMul clampI64 i64Min i64Max
  omega

section Windows

variable {parseRfc3339 : String → Option Int} {s : Scheduler} {id text : String}
  {reset before : Int}

theorem instant_le (now : Int) (reads : storedReset parseRfc3339 text = some reset)
    (denotes : instant parseRfc3339 text = some before) (later : now < before)
    (other : ¬CountsSeconds text now) : before ≤ reset := by
  unfold storedReset at reads
  unfold instant at denotes
  cases parsed : parseI64 text with
  | none =>
      rw [parsed] at reads denotes
      exact (Option.some.inj (denotes.symm.trans reads)).le
  | some value =>
      rw [parsed] at reads denotes
      obtain rfl : value = reset := Option.some.inj reads
      obtain rfl : normalizeEpochMillis value = before := Option.some.inj denotes
      apply normalize_le value (parse_in_i64 text value parsed)
      by_contra range
      have positive : 0 < value := by omega
      have small : value < 1000000000000 := by omega
      rw [normalize_seconds value positive small] at later
      exact other ⟨value, parsed, positive, small, later⟩

theorem seconds_stored (now : Int) (reads : storedReset parseRfc3339 text = some reset)
    (denotes : instant parseRfc3339 text = some before) (counts : CountsSeconds text now) :
    now < before ∧ reset < before := by
  obtain ⟨seconds, parsed, positive, small, later⟩ := counts
  unfold storedReset at reads
  unfold instant at denotes
  rw [parsed] at reads denotes
  obtain rfl : seconds = reset := Option.some.inj reads
  obtain rfl : normalizeEpochMillis seconds = before := Option.some.inj denotes
  rw [normalize_seconds seconds positive small]
  exact ⟨later, by omega⟩

/-- A wait until the stored time, taken for milliseconds, makes the account due again. -/
theorem seconds_fire (refreshed : Refreshed s id reset) (later : s.now < before)
    (short : reset < before) : ¬OncePerWindow parseRfc3339 s id reset before := by
  intro once
  obtain ⟨row, member, rfl, stored⟩ := refreshed.stored
  have start : Run (Does (perform parseRfc3339)) s [] s := .nil
  have run := start.performs (.tick (reset - s.now).toNat) rfl
  have waited : s.now + (reset - s.now).toNat = max s.now reset := by omega
  have quiet := once _ _ run ?_ ?_
  · have same := quiet.1 row member rfl
    simp only [waited] at same
    unfold SchedulerState.shouldRefresh at same
    rw [show (refreshable row).id = row.id from rfl, refreshed.tracked,
      show (refreshable row).rateLimitReset = some reset from stored] at same
    simp at same
  · intro taken held
    obtain rfl := List.mem_singleton.mp held
    have keeps : Keeps row.id reset s := refreshed_keeps refreshed
    exact ⟨trivial, keeps⟩
  · change s.now + (reset - s.now).toNat < before
    omega

/-- A refreshed account is quiet until its window ends, unless the header counts seconds. -/
theorem refreshes_once_iff (refreshed : Refreshed s id reset)
    (reads : storedReset parseRfc3339 text = some reset)
    (denotes : instant parseRfc3339 text = some before) :
    OncePerWindow parseRfc3339 s id reset before ↔ ¬CountsSeconds text s.now := by
  constructor
  · intro once counts
    obtain ⟨later, short⟩ := seconds_stored s.now reads denotes counts
    exact seconds_fire refreshed later short once
  · intro other trace final run guarded early
    obtain ⟨keeps, forward, settled⟩ := run_settled refreshed trace final run guarded
    have bound := instant_le s.now reads denotes (lt_of_le_of_lt forward early) other
    have first := lt_of_lt_of_le early bound
    exact settled_quiet (settled first) keeps first

end Windows

def launch (accounts : AccountTable) (now : Int) : Scheduler := ⟨.new, [], accounts, now⟩

/-- Whatever an account's header reports, the account is quiet until the instant it denotes. -/
def FiresOnce : Prop :=
  ∀ (parseRfc3339 : String → Option Int) (accounts : AccountTable) (began : Int)
    (earlier : List Taken) (s : Scheduler) (id text : String) (reset before : Int),
    Run (Does (perform parseRfc3339)) (launch accounts began) earlier s → Refreshed s id reset →
    storedReset parseRfc3339 text = some reset → instant parseRfc3339 text = some before →
    ∀ (trace : List Taken) (final : Scheduler), Run (Does (perform parseRfc3339)) s trace final →
      (∀ taken ∈ trace, Keeps id reset taken.2.2) → final.now < before → Quiet id final

def account (reset : Option Int) : Account :=
  { makeAccount "a" "anthropic" 0 with
    autoRefreshEnabled := true
    rateLimitReset := reset }

def table (reset : Option Int) : AccountTable := ⟨[account reset], List.nodup_singleton _⟩

def noDates (_ : String) : Option Int := none

def reports (text : String) (_ : String) : Option Response :=
  some ⟨200, [(resetHeader, text)], ""⟩

def awaiting (reset : Int) : Scheduler :=
  { checkAndRefresh (launch (table none) 1700000000000) true true with
    accounts := table (some reset) }

theorem launched_refreshed (text : String) (reset : Int) (visible : headerText text = some text)
    (reads : storedReset noDates text = some reset) :
    ∃ trace s, Run (Does (perform noDates)) (launch (table none) 1700000000000) trace s ∧
      Refreshed s "a" reset ∧ s.now = 1700000000000 := by
  have picked : (awaiting reset).pending = [refreshable (account none)] := by
    change (checkAndRefresh (launch (table none) 1700000000000) true true).pending = _
    decide +kernel
  have start : Run (Does (perform noDates)) (launch (table none) 1700000000000) [] _ := .nil
  have run := (start.performs (.check true true) rfl).performs (.database (table (some reset))) rfl
  have result : sendDummyRequest noDates (awaiting reset).now (reports text) =
      .success (some reset) :=
    answer_reads _ ⟨200, [(resetHeader, text)], ""⟩ rfl visible reads
  have answer : Does (perform noDates) (awaiting reset) (.answer (reports text) true)
      (recordResult (awaiting reset) (refreshable (account none)) [] true
        (.success (some reset))) := by
    change perform noDates _ _ = some _
    simp only [perform, picked, result]
  refine ⟨_, _, run.snoc answer, ?_, rfl⟩
  exact success_refreshed _ _ rfl run (reports text) true answer (refreshable (account none)) []
    picked ⟨200, [(resetHeader, text)], ""⟩ rfl rfl visible reads
    ⟨account (some reset), List.mem_singleton_self _, rfl, rfl⟩

theorem milliseconds_refresh_once :
    ∃ trace s, Run (Does (perform noDates)) (launch (table none) 1700000000000) trace s ∧
      OncePerWindow noDates s "a" 1700018000000 1700018000000 := by
  have reads : storedReset noDates "1700018000000" = some 1700018000000 := by decide +kernel
  have denotes : instant noDates "1700018000000" = some 1700018000000 := by decide +kernel
  obtain ⟨trace, s, run, refreshed, -⟩ :=
    launched_refreshed "1700018000000" 1700018000000 (by decide +kernel) reads
  refine ⟨trace, s, run, ?_⟩
  apply (refreshes_once_iff refreshed reads denotes).mpr
  rintro ⟨seconds, parsed, -, small, -⟩
  have value : parseI64 "1700018000000" = some 1700018000000 := by decide +kernel
  obtain rfl := Option.some.inj (value.symm.trans parsed)
  omega

/-- The same window in seconds: the account is due again as soon as it is refreshed. -/
theorem seconds_refresh_again : ¬FiresOnce := by
  intro once
  have reads : storedReset noDates "1700018000" = some 1700018000 := by decide +kernel
  have denotes : instant noDates "1700018000" = some 1700018000000 := by decide +kernel
  obtain ⟨earlier, s, begun, refreshed, now⟩ :=
    launched_refreshed "1700018000" 1700018000 (by decide +kernel) reads
  have later : s.now < 1700018000000 := by omega
  have fires : ¬OncePerWindow noDates s "a" 1700018000 1700018000000 :=
    seconds_fire refreshed later (by omega)
  apply fires
  intro trace final run guarded early
  exact once noDates _ _ earlier s "a" "1700018000" 1700018000 1700018000000 begun refreshed
    reads denotes trace final run (fun taken member => (guarded taken member).2) early

end Ccflare.AutoRefresh
