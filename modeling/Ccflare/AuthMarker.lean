import Ccflare.Eligibility
import Ccflare.Providers
import Ccflare.RefreshRace

/-!
The auth-failure marker of an account under requests in flight. Each answer spawns at
most one statement on the row of its account, which is executed some time later; all but
two of the answers that are not turned away write the status column from a header that
most providers do not send.
-/

namespace Ccflare.AuthMarker

open Eligibility MachineNumber Providers ProxyRequest RefreshRace TokenRefresh Transition

/-- The two statuses of a refused credential. -/
inductive AuthStatus where
  | unauthorized
  | forbidden
  deriving DecidableEq

def AuthStatus.code : AuthStatus → Nat
  | unauthorized => 401
  | forbidden => 403

def authFailedLabel (status : AuthStatus) : String :=
  "Auth failed (" ++ toString status.code ++ ")"

/-- What the handlers write to the row of the account. -/
inductive Statement where
  | rateLimited (until_ : Int)
  | authFailed (status : AuthStatus) (expiresAt : Int)
  | rateLimitMeta (status : Option String) (remaining reset : Option Int)
  deriving DecidableEq

def Statement.apply : Statement → Account → Account
  | .rateLimited until_, row => { row with rateLimitedUntil := some until_ }
  | .authFailed status expiresAt, row =>
      { row with
        rateLimitStatus := some (authFailedLabel status)
        rateLimitReset := none
        rateLimitRemaining := none
        expiresAt := if row.apiKey = none then some expiresAt else row.expiresAt }
  | .rateLimitMeta status remaining reset, row =>
      { row with
        rateLimitStatus := status
        rateLimitRemaining := remaining
        rateLimitReset := reset }

/-- `mark_auth_failed` of the auto-refresh. -/
def markAuthFailed (status : AuthStatus) (row : Account) : Account :=
  { row with
    rateLimitStatus := some (authFailedLabel status)
    rateLimitReset := none
    rateLimitRemaining := none }

/-- `clear_expired_rate_limits` on one row. -/
def clearRateLimits (row : Account) : Account :=
  if row.rateLimitedUntil.isSome || row.rateLimitStatus.isSome then
    { row with
      rateLimitedUntil := none
      rateLimitStatus := none
      rateLimitReset := none }
  else row

/-- A request that was sent, with the credentials of the clone it was signed with. -/
structure Request where
  accountId : String
  accessToken : Option String
  apiKey : Option String
  implementation : Implementation
  /-- It was sent again without thinking blocks, after an answer with status 400. -/
  retry : Bool

/-- A statement on its way, with whether its answer proves the credentials good. -/
structure Pending where
  accountId : String
  statement : Statement
  proves : Bool

structure State where
  rows : List Account
  inFlight : Nat → Option Request
  pending : Nat → Option Pending

section Answers

variable (parseRfc3339 : String → Option Int)

/-- The write of `build_success_response`. -/
def successStatement (implementation : Implementation) (headers : Headers) (status : Nat)
    (now : Int) : Statement :=
  let info := parseRateLimit parseRfc3339 now implementation headers status
  .rateLimitMeta info.statusHeader info.remaining info.resetTime

/-- The statement an answer spawns. An answer with status 400 is handed on as it is, or
sent again; only a success is written the second time. -/
def answerStatement (request : Request) (headers : Headers) (status : Nat) (now : Int) :
    Option Statement :=
  if request.retry then
    if isSuccess status then
      some (successStatement parseRfc3339 request.implementation headers status now)
    else none
  else if status = 429 then
    let info := parseRateLimit parseRfc3339 now request.implementation headers status
    some (.rateLimited (info.resetTime.getD (wrappingAdd now 60000)))
  else if status = 401 then some (.authFailed .unauthorized (wrappingSub now 1))
  else if status = 403 then some (.authFailed .forbidden (wrappingSub now 1))
  else if status = 400 then none
  else some (successStatement parseRfc3339 request.implementation headers status now)

/-- The answer is a success received with the credentials the account has. -/
def provesGood (rows : List Account) (request : Request) (status : Nat) : Bool :=
  isSuccess status && rows.any fun row =>
    row.id = request.accountId && row.accessToken = request.accessToken &&
      row.apiKey = request.apiKey

inductive Event where
  | send (task : Nat) (request : Request)
  | answer (task : Nat) (status : Nat) (headers : Headers) (now : Int)
  | sendAgain (task : Nat)
  | write (task : Nat)
  | lose (task : Nat)
  | autoRefreshFails (accountId : String) (status : AuthStatus)
  | reauthenticate (accountId : String) (tokens : TokenRefreshResult) (stamp : Clock)
  | startupClear
  | delete (accountId : String)
  -- Any other statement, on all columns but the id and the status.
  | edit (accountId : String) (columns : Account)

def answered (s : State) (task : Nat) (request : Request) (status : Nat) (headers : Headers)
    (now : Int) : State :=
  { s with
    inFlight := Function.update s.inFlight task none
    pending := Function.update s.pending task
      ((answerStatement parseRfc3339 request headers status now).map fun statement =>
        ⟨request.accountId, statement, provesGood s.rows request status⟩) }

def perform (s : State) : Event → Option State
  | .send task request =>
      if (s.inFlight task).isNone && (s.pending task).isNone && !request.retry then
        some { s with inFlight := Function.update s.inFlight task (some request) }
      else none
  | .answer task status headers now =>
      (s.inFlight task).map fun request => answered parseRfc3339 s task request status headers now
  -- The second attempt is signed with the credentials of the first.
  | .sendAgain task =>
      match s.inFlight task with
      | none => none
      | some request =>
          if request.retry then none
          else some { s with
            inFlight := Function.update s.inFlight task (some { request with retry := true }) }
  | .write task =>
      (s.pending task).map fun pending =>
        { s with
          rows := updateRow pending.accountId pending.statement.apply s.rows
          pending := Function.update s.pending task none }
  | .lose task => some { s with pending := Function.update s.pending task none }
  | .autoRefreshFails accountId status =>
      some { s with rows := updateRow accountId (markAuthFailed status) s.rows }
  | .reauthenticate accountId tokens stamp =>
      some { s with rows := updateRow accountId (persistExchange stamp tokens) s.rows }
  -- Every marker goes when the proxy starts.
  | .startupClear => some { s with rows := s.rows.map clearRateLimits }
  | .delete accountId => some { s with rows := s.rows.filter fun row => row.id ≠ accountId }
  | .edit accountId columns =>
      some { s with rows := updateRow accountId (fun row => { columns with
        id := row.id
        rateLimitStatus := row.rateLimitStatus }) s.rows }

end Answers

abbrev Taken := State × Event × State

def MarkedRow (row : Account) : Prop :=
  (UpstreamStatus.fromRaw row.rateLimitStatus).isAuthFailure = true

def Marked (accountId : String) (rows : List Account) : Prop :=
  ∀ row ∈ rows, row.id = accountId → MarkedRow row

/-- The write of the statement of an answer is executed. -/
def Executes (taken : Taken) (accountId : String) (pending : Pending) : Prop :=
  ∃ task, taken.2.1 = .write task ∧ taken.1.pending task = some pending ∧
    pending.accountId = accountId

/-- The handler of the statuses 401 and 403 writes the marker. -/
def WritesMarker (accountId : String) (taken : Taken) : Prop :=
  ∃ pending status expiresAt, Executes taken accountId pending ∧
    pending.statement = .authFailed status expiresAt

/-- A re-authentication, the clear of a start, a success with the current credentials, or
the end of the account. -/
def Clears (accountId : String) (taken : Taken) : Prop :=
  (∃ tokens stamp, taken.2.1 = .reauthenticate accountId tokens stamp) ∨
  taken.2.1 = .startupClear ∨ taken.2.1 = .delete accountId ∨
  ∃ pending, Executes taken accountId pending ∧ pending.proves = true

/-- From the marker on the account is not routable, unless something cleared it. -/
def MarkerStays (accountId : String) (trace : List Taken) (final : State) : Prop :=
  ∀ before marking after, trace = before ++ marking :: after → WritesMarker accountId marking →
    (∀ taken ∈ after, ¬ Clears accountId taken) →
    ∀ row ∈ final.rows, row.id = accountId → ∀ usage now,
      (evaluateAccountEligibility row usage now).routable = false

/-- Where the status column is written under a marker, it is from a success with the
current credentials, or the header itself tells of an auth failure. -/
def WritesSoundly (accountId : String) (taken : Taken) : Prop :=
  ∀ pending status remaining reset, Executes taken accountId pending →
    pending.statement = .rateLimitMeta status remaining reset →
    Marked accountId taken.1.rows →
    pending.proves = true ∨ (UpstreamStatus.fromRaw status).isAuthFailure = true

theorem label_auth_failure (status : AuthStatus) :
    (UpstreamStatus.fromRaw (some (authFailedLabel status))).isAuthFailure = true := by
  cases status <;> decide +kernel

theorem marked_not_routable (row : Account) (usage : UsageMap) (now : Int)
    (marked : MarkedRow row) : (evaluateAccountEligibility row usage now).routable = false := by
  rw [← Bool.not_eq_true]
  intro routable
  have clear := ((routable_iff row usage now).mp routable).2.1
  rw [marked] at clear
  cases clear

theorem marked_update (target accountId : String) (change : Account → Account)
    (rows : List Account) (marked : Marked accountId rows) (keepsId : ∀ row, (change row).id = row.id)
    (kept : target = accountId → ∀ row, MarkedRow row → MarkedRow (change row)) :
    Marked accountId (updateRow target change rows) := by
  intro row member same
  obtain ⟨old, held, rfl⟩ := List.mem_map.mp member
  by_cases there : old.id = target
  · rw [if_pos there] at same ⊢
    rw [keepsId] at same
    exact kept (there.symm.trans same) old (marked old held same)
  · rw [if_neg there] at same ⊢
    exact marked old held same

theorem apply_id (statement : Statement) (row : Account) : (statement.apply row).id = row.id := by
  cases statement <;> rfl

theorem exchange_id (stamp : Clock) (tokens : TokenRefreshResult) (row : Account) :
    (persistExchange stamp tokens row).id = row.id := by
  unfold persistExchange
  cases tokens.subscriptionTier <;> cases tokens.email <;> rfl

section Runs

variable (parseRfc3339 : String → Option Int) (accountId : String)

theorem written_marked (s t : State) (event : Event) (taken : Does (perform parseRfc3339) s event t)
    (marks : WritesMarker accountId (s, event, t)) : Marked accountId t.rows := by
  obtain ⟨pending, status, expiresAt, ⟨task, rfl, held, same⟩, statement⟩ := marks
  obtain ⟨executed, found, rfl⟩ := Option.map_eq_some_iff.mp taken
  obtain rfl := Option.some.inj (held.symm.trans found)
  intro row member there
  obtain ⟨old, -, rfl⟩ := List.mem_map.mp member
  by_cases own : old.id = pending.accountId
  · simpa [MarkedRow, own, statement, Statement.apply] using label_auth_failure status
  · rw [if_neg own] at there
    exact absurd (there.trans same.symm) own

theorem marked_step (s t : State) (event : Event) (marked : Marked accountId s.rows)
    (taken : Does (perform parseRfc3339) s event t) (sound : WritesSoundly accountId (s, event, t))
    (uncleared : ¬ Clears accountId (s, event, t)) : Marked accountId t.rows := by
  cases event with
  | send task request =>
      simp only [Does, perform] at taken
      split at taken
      · obtain rfl := Option.some.inj taken
        exact marked
      · cases taken
  | answer task status headers now =>
      obtain ⟨request, -, rfl⟩ := Option.map_eq_some_iff.mp taken
      exact marked
  | sendAgain task =>
      simp only [Does, perform] at taken
      split at taken
      · cases taken
      · split at taken
        · cases taken
        · obtain rfl := Option.some.inj taken
          exact marked
  | write task =>
      obtain ⟨pending, held, rfl⟩ := Option.map_eq_some_iff.mp taken
      apply marked_update _ accountId _ s.rows marked (apply_id pending.statement)
      intro own row before
      have executes : ∀ after, Executes (s, .write task, after) accountId pending :=
        fun _ => ⟨task, rfl, held, own⟩
      -- The statement meets the row as it is now, however long ago its answer came.
      cases statement : pending.statement with
      | rateLimited until_ => exact before
      | authFailed status expiresAt => exact label_auth_failure status
      | rateLimitMeta status remaining reset =>
          rcases sound pending status remaining reset (executes _) statement marked with proves | header
          · exact absurd (Or.inr (Or.inr (Or.inr ⟨pending, executes _, proves⟩))) uncleared
          · exact header
  | lose task =>
      obtain rfl := Option.some.inj taken
      exact marked
  | autoRefreshFails target status =>
      obtain rfl := Option.some.inj taken
      exact marked_update _ _ _ s.rows marked (fun _ => rfl) fun _ _ _ => label_auth_failure status
  | reauthenticate target tokens stamp =>
      obtain rfl := Option.some.inj taken
      apply marked_update _ _ _ s.rows marked (exchange_id stamp tokens)
      rintro rfl
      exact absurd (Or.inl ⟨tokens, stamp, rfl⟩) uncleared
  | startupClear => exact absurd (Or.inr (Or.inl rfl)) uncleared
  | delete target =>
      obtain rfl := Option.some.inj taken
      intro row member same
      exact marked row (List.mem_of_mem_filter member) same
  | edit target columns =>
      obtain rfl := Option.some.inj taken
      exact marked_update _ _ _ s.rows marked (fun _ => rfl) fun _ _ before => before

/-- The marker stays in the runs in which it is written over soundly. -/
theorem marker_stays (start final : State) (trace : List Taken)
    (run : Run (Does (perform parseRfc3339)) start trace final)
    (sound : ∀ taken ∈ trace, WritesSoundly accountId taken) :
    MarkerStays accountId trace final := by
  intro before marking after split marks uncleared row member same usage now
  rw [split] at run sound
  obtain ⟨source, event, target⟩ := marking
  obtain ⟨-, step, rest⟩ := run.cut
  have first := written_marked parseRfc3339 accountId source target event step marks
  have carried := rest.history
    (fun passed s => (∀ taken ∈ passed, WritesSoundly accountId taken ∧ ¬ Clears accountId taken) →
      Marked accountId s.rows)
    (fun _ => first)
    (fun passed source event target ih step kept => by
      obtain ⟨sound, uncleared⟩ := kept _ (List.mem_append_right _ (List.mem_singleton_self _))
      exact marked_step parseRfc3339 accountId source target event
        (ih fun taken held => kept taken (List.mem_append_left _ held)) step sound uncleared)
  apply marked_not_routable row usage now
  exact carried (fun taken held => ⟨sound taken (List.mem_append_right _
    (List.mem_cons_of_mem _ held)), uncleared taken held⟩) row member same

end Runs

def unread : String → Option Int := fun _ => none

def signedRow : Account :=
  { makeAccount "a" "anthropic" 0 with
    refreshToken := "r0"
    accessToken := some "t0"
    expiresAt := some 28800000 }

def signedRequest : Request := ⟨"a", some "t0", none, .claudeOauth, false⟩

def oneAccount : State where
  rows := [signedRow]
  inFlight _ := none
  pending _ := none

/-- Two requests are in flight, and the first is answered with status 401. -/
def oneRefused : List Event :=
  [.send 0 signedRequest, .send 1 signedRequest, .answer 0 401 [] 1000]

def pends (s : State) (task : Nat) (statement : Statement) : Bool :=
  (s.pending task).any fun pending =>
    pending.accountId = "a" && pending.statement = statement && !pending.proves

theorem pends_executes (s t : State) (task : Nat) (statement : Statement)
    (waits : pends s task statement = true) :
    ∃ pending, Executes (s, .write task, t) "a" pending ∧ pending.statement = statement ∧
      ∀ other, Executes (s, .write task, t) "a" other → other = pending ∧ other.proves = false := by
  simp only [pends, Option.any_eq_true, Bool.and_eq_true, decide_eq_true_eq,
    Bool.not_eq_true'] at waits
  obtain ⟨pending, held, ⟨same, written⟩, unproven⟩ := waits
  refine ⟨pending, ⟨task, rfl, held, same⟩, written, ?_⟩
  rintro other ⟨otherTask, event, found, -⟩
  obtain rfl := Event.write.inj event
  obtain rfl := Option.some.inj (held.symm.trans found)
  exact ⟨rfl, unproven⟩

theorem unwritten_sound (taken : Taken) (accountId : String)
    (unwritten : ∀ task, taken.2.1 ≠ .write task) : WritesSoundly accountId taken := by
  rintro pending status remaining reset ⟨task, event, -⟩
  exact absurd event (unwritten task)

theorem pends_sound (s t : State) (task : Nat) (statement : Statement)
    (waits : pends s task statement = true)
    (other : ∀ status remaining reset, statement ≠ .rateLimitMeta status remaining reset) :
    WritesSoundly "a" (s, .write task, t) := by
  intro pending status remaining reset executes written
  obtain ⟨only, -, stated, same⟩ := pends_executes s t task statement waits
  obtain ⟨rfl, -⟩ := same pending executes
  exact absurd (stated.symm.trans written) (other status remaining reset)

/-- The marker stays when the other request is answered with status 429. -/
theorem limited_answer_keeps_marker :
    ∃ trace final, Run (Does (perform unread)) oneAccount trace final ∧
      (∃ taken ∈ trace, WritesMarker "a" taken) ∧ MarkerStays "a" trace final := by
  obtain ⟨before, s, run, same, ready⟩ := @performed _ _ oneAccount (perform unread) oneRefused
    (fun s => pends s 0 (.authFailed .unauthorized 999) && (perform unread s (.write 0)).any fun t =>
      (perform unread t (.answer 1 429 [] 2000)).any fun u => pends u 1 (.rateLimited 62000) &&
        (perform unread u (.write 1)).any fun _ => true) (by decide +kernel)
  obtain ⟨marks, afterMark⟩ := Bool.and_eq_true_iff.mp ready
  obtain ⟨t, marking, answered⟩ := performed_once (perform unread) _ _ afterMark
  obtain ⟨u, answer, limited⟩ := performed_once (perform unread) _ _ answered
  obtain ⟨limits, afterLimit⟩ := Bool.and_eq_true_iff.mp limited
  obtain ⟨final, limiting, -⟩ := performed_once (perform unread) _ _ afterLimit
  have whole := run.trans (.cons marking (.cons answer (.cons limiting .nil)))
  refine ⟨_, final, whole, ?_, ?_⟩
  · obtain ⟨pending, executes, stated, -⟩ := pends_executes s t 0 _ marks
    exact ⟨_, List.mem_append_right _ List.mem_cons_self, pending, .unauthorized, 999, executes,
      stated⟩
  · apply marker_stays unread "a" oneAccount final _ whole
    intro taken member
    rcases List.mem_append.mp member with early | late
    · apply unwritten_sound
      intro task event
      have listed := event_listed oneRefused same taken early
      simp [oneRefused, event] at listed
    · simp only [List.mem_cons, List.not_mem_nil, or_false] at late
      rcases late with rfl | rfl | rfl
      · exact pends_sound s t 0 _ marks (by simp)
      · exact unwritten_sound _ _ (by simp)
      · exact pends_sound u final 1 _ limits (by simp)

/-- An answer with status 500 without a status header clears the marker. -/
theorem failed_answer_clears_marker :
    ∃ trace final, Run (Does (perform unread)) oneAccount trace final ∧
      ¬ MarkerStays "a" trace final := by
  obtain ⟨before, s, run, -, ready⟩ := @performed _ _ oneAccount (perform unread) oneRefused
    (fun s => pends s 0 (.authFailed .unauthorized 999) && (perform unread s (.write 0)).any fun t =>
      (perform unread t (.answer 1 500 [] 2000)).any fun u =>
        pends u 1 (.rateLimitMeta none none none) && (perform unread u (.write 1)).any fun v =>
          v.rows.any fun row => row.id = "a" &&
            (evaluateAccountEligibility row (fun _ => none) 2000).routable) (by decide +kernel)
  obtain ⟨marks, afterMark⟩ := Bool.and_eq_true_iff.mp ready
  obtain ⟨t, marking, answered⟩ := performed_once (perform unread) _ _ afterMark
  obtain ⟨u, answer, cleared⟩ := performed_once (perform unread) _ _ answered
  obtain ⟨clears, afterClear⟩ := Bool.and_eq_true_iff.mp cleared
  obtain ⟨final, clearing, routes⟩ := performed_once (perform unread) _ _ afterClear
  refine ⟨_, final, run.trans (.cons marking (.cons answer (.cons clearing .nil))), ?_⟩
  intro stays
  obtain ⟨pending, executes, stated, -⟩ := pends_executes s t 0 _ marks
  obtain ⟨row, member, same, routable⟩ : ∃ row ∈ final.rows, row.id = "a" ∧
      (evaluateAccountEligibility row (fun _ => none) 2000).routable = true := by
    simpa using routes
  have blocked := stays before _ _ rfl ⟨pending, .unauthorized, 999, executes, stated⟩ ?_ row member
    same (fun _ => none) 2000
  · rw [routable] at blocked
    cases blocked
  · obtain ⟨waiting, -, -, only⟩ := pends_executes u final 1 _ clears
    intro taken late
    simp only [List.mem_cons, List.not_mem_nil, or_false] at late
    rcases late with rfl | rfl
    · simp [Clears, Executes]
    · rintro (⟨tokens, stamp, event⟩ | event | event | ⟨other, executed, proves⟩)
      · cases event
      · cases event
      · cases event
      · rw [(only other executed).2] at proves
        cases proves

end Ccflare.AuthMarker
