import Ccflare.FailoverTrace
import Ccflare.Forwarding
import Ccflare.StreamTee

/-!
What the post-processor is told of a proxied request. Every exit of an attempt makes its own
message: a plain answer at once, a stream when its tee is done, a refused body before it is
passed on. The attempts that fail tell nothing.
-/

namespace Ccflare.AnsweredRequests

open Failover Forwarding JsonValue ProxyRequest SseParser StreamTee

def invalidThinkingSignature : String := "Invalid `signature` in `thinking` block"

def thinkingBlockRequired : String := "final `assistant` message must start with a thinking block"

def isThinkingBlockError (codec : Codec) (status : Nat) (body : ByteArray) : Bool :=
  decide (status = 400) &&
    (((codec.fromSlice body).bind (Json.get "error")).bind (Json.getStr "message")).any fun msg =>
      Text.contains invalidThinkingSignature msg || Text.contains thinkingBlockRequired msg

def isThinkingBlock (block : Json) : Bool := decide (block.getStr "type" = some "thinking")

/-- Nothing is left, or one text block without a text. -/
def isEmptyContent : List Json → Bool
  | [] => true
  | [block] =>
      decide (block.getStr "type" = some "text") && ((block.getStr "text").all fun t => t = "")
  | _ :: _ :: _ => false

/-- A message of the loop: the message after it, whether it lost a block, and whether it is to be
removed. -/
structure Filtered where
  message : Json
  changed : Bool
  empty : Bool
  deriving DecidableEq

def filterMessage (msg : Json) : Filtered :=
  match msg with
  | .object fields =>
      match msg.getStr "role", msg.get "content" with
      | some "assistant", some (.array content) =>
          let kept := content.filter fun block => !isThinkingBlock block
          ⟨.object (Json.insert "content" (.array kept) fields),
            decide (kept.length ≠ content.length), isEmptyContent kept⟩
      | _, _ => ⟨msg, false, false⟩
  | _ => ⟨msg, false, false⟩

def filterThinkingBlocks (codec : Codec) (body : ByteArray) : Option ByteArray := do
  -- Fast reject: the word has to occur among the bytes.
  guard ("thinking".toUTF8.data.toList <:+: body.data.toList)
  let fields ← (← codec.fromSlice body).asObject
  let messages ← (← Json.field "messages" fields).asArray
  let filtered := messages.map filterMessage
  guard (filtered.any Filtered.changed)
  let kept := (filtered.filter fun entry => !entry.empty).map Filtered.message
  return codec.toVec (.object (Json.remove "thinking" (Json.insert "messages" (.array kept) fields)))

inductive PostProcessorMsg where
  | streamComplete (record : RequestRecord) (buffer : AnalyticsBuffer)
  | responseComplete (record : RequestRecord) (body : ByteArray)

def PostProcessorMsg.record : PostProcessorMsg → RequestRecord
  | .streamComplete record _ | .responseComplete record _ => record

/-- What one attempt meets: its account, the request, the answers to its first and its second
sending, and the polls a client makes of a streamed body until it lets go of it. -/
structure Setting where
  codec : Codec
  exchange : Exchange
  provider : Option ProxyRequest.Provider
  applyModelMapping : Account → ByteArray → ByteArray
  baseHeaders : Headers
  reqBody : ByteArray
  upstream : Nat → UpstreamRequest → Except String UpstreamResponse
  inRange : ∀ sending request answer, upstream sending request = .ok answer →
    100 ≤ answer.status ∧ answer.status < 1000
  start : Nat
  polls : List (Nat × Polled Empty)

structure Served where
  result : AccountResult Response
  messages : List PostProcessorMsg

def isSuccess (status : Nat) : Bool := decide (200 ≤ status ∧ status < 300)

section Attempt
variable (s : Setting)

/-- The task that waits for the tee sends one message for what it receives. -/
def streamMessages (record : RequestRecord) : List PostProcessorMsg :=
  (consumed (teeStream s.start) s.polls).2.drop.sent.map (.streamComplete record)

def successMessages (answer : UpstreamResponse) : List PostProcessorMsg :=
  (buildSuccessResponse s.exchange answer).record.toList.flatMap fun record =>
    if isStreamingResponse answer.headers then streamMessages s record
    else (collectBody answer.items).toOption.toList.map (.responseComplete record)

def buildSuccess (answer : UpstreamResponse) : Served :=
  ⟨(buildSuccessResponse s.exchange answer).result, successMessages s answer⟩

def badRequest (body : ByteArray) : Response :=
  ⟨400, [("content-type", "application/json")], [body]⟩

/-- The request sent again without its thinking blocks, where that succeeds. -/
def retryFiltered (request : UpstreamRequest) : Option UpstreamResponse :=
  (filterThinkingBlocks s.codec request.body).bind fun filtered =>
    match s.upstream 1 { request with body := filtered } with
    | .ok answer => if isSuccess answer.status then some answer else none
    | .error _ => none

/-- An answer with status 400 whose body has been read. -/
def handleBadRequest (request : UpstreamRequest) (body : ByteArray) : Served :=
  if s.exchange.requestMeta.agentUsed.isSome && isThinkingBlockError s.codec 400 body then
    match retryFiltered s request with
    | some answer => buildSuccess s answer
    -- The original error is returned, and nothing is recorded.
    | none => ⟨.success (badRequest body), []⟩
  else
    ⟨.success (badRequest body),
      (s.exchange.record 400).toList.map fun record => .responseComplete record body⟩

def handleAnswer (request : UpstreamRequest) (answer : UpstreamResponse) : Served :=
  if answer.status = 429 then
    ⟨.rateLimited (s.exchange.parseRateLimit answer.headers answer.status), []⟩
  else if answer.status = 401 ∨ answer.status = 403 then ⟨.authFailed answer.status, []⟩
  else if answer.status = 400 then
    match collectBody answer.items with
    | .error message => ⟨.error message, []⟩
    | .ok body => handleBadRequest s request body
  else buildSuccess s answer

/-- The closure that tries one account; it has no value where the body transformation panics. -/
def tryAccount : Option Served :=
  match s.provider with
  | none =>
      some ⟨.error ("No provider implementation for '" ++ s.exchange.account.provider ++ "'"), []⟩
  | some provider =>
      (upstreamRequest provider s.applyModelMapping s.exchange.account s.exchange.requestMeta
        s.baseHeaders s.reqBody).map fun
        | .error status => ⟨.authFailed status, []⟩
        | .ok request =>
            match s.upstream 0 request with
            | .error message => ⟨.error message, []⟩
            | .ok answer => handleAnswer s request answer

/-- An answer is recorded by one message, with its request, account and status; a failed attempt
by none. -/
def RecordedOnce (served : Served) : Prop :=
  match served.result with
  | .success response => ∃ message, served.messages = [message] ∧
      message.record.requestId = s.exchange.requestMeta.id ∧
      message.record.accountId = some s.exchange.account.id ∧
      message.record.responseStatus = response.status
  | .rateLimited _ | .authFailed _ | .error _ => served.messages = []

/-- An agent's request is refused for its thinking blocks, and sending it without them is not
possible or does not succeed. -/
def Silent : Prop :=
  ∃ provider request answer body, s.provider = some provider ∧
    upstreamRequest provider s.applyModelMapping s.exchange.account s.exchange.requestMeta
      s.baseHeaders s.reqBody = some (.ok request) ∧
    s.upstream 0 request = .ok answer ∧ answer.status = 400 ∧
    collectBody answer.items = .ok body ∧
    s.exchange.requestMeta.agentUsed.isSome = true ∧
    isThinkingBlockError s.codec 400 body = true ∧ retryFiltered s request = none

end Attempt

section Recorded
variable {s : Setting}

theorem stream_sent_once (record : RequestRecord) :
    ∃ buffer, streamMessages s record = [.streamComplete record buffer] := by
  obtain ⟨-, copy, -, -, sent⟩ := tee_transparent s.start s.polls
  exact ⟨copy, by rw [streamMessages, sent, List.map_singleton]⟩

theorem record_of (hasPostProcessor : s.exchange.hasPostProcessor = true) (status : Nat) :
    ∃ record, s.exchange.record status = some record ∧
      record.requestId = s.exchange.requestMeta.id ∧
      record.accountId = some s.exchange.account.id ∧ record.responseStatus = status := by
  unfold Exchange.record
  rw [if_pos hasPostProcessor]
  exact ⟨_, rfl, rfl, rfl, rfl⟩

theorem success_recorded (hasPostProcessor : s.exchange.hasPostProcessor = true)
    (answer : UpstreamResponse) (inRange : 100 ≤ answer.status ∧ answer.status < 1000) :
    RecordedOnce s (buildSuccess s answer) := by
  obtain ⟨record, found, request, account, status⟩ := record_of hasPostProcessor answer.status
  have delivered : record.responseStatus = validStatus answer.status := by
    rw [status, validStatus, if_pos inRange]
  unfold RecordedOnce buildSuccess successMessages buildSuccessResponse
  by_cases streaming : isStreamingResponse answer.headers = true
  · obtain ⟨buffer, sent⟩ := stream_sent_once (s := s) record
    simp only [streaming, if_true, found, Option.toList_some, List.flatMap_cons, List.flatMap_nil,
      List.append_nil, sent]
    exact ⟨_, rfl, request, account, delivered⟩
  · simp only [Bool.not_eq_true] at streaming
    simp only [streaming, Bool.false_eq_true, if_false]
    cases read : collectBody answer.items with
    | error message => rfl
    | ok body =>
        simp only [found, Option.toList_some, List.flatMap_cons, List.flatMap_nil, List.append_nil,
          Except.toOption, List.map_cons, List.map_nil]
        exact ⟨_, rfl, request, account, delivered⟩

theorem retry_in_range (request : UpstreamRequest) (answer : UpstreamResponse)
    (retried : retryFiltered s request = some answer) :
    100 ≤ answer.status ∧ answer.status < 1000 := by
  obtain ⟨filtered, -, sent⟩ := Option.bind_eq_some_iff.mp retried
  cases result : s.upstream 1 { request with body := filtered } with
  | error message =>
      rw [result] at sent
      cases sent
  | ok second =>
      rw [result] at sent
      dsimp only at sent
      split at sent
      · obtain rfl := Option.some.inj sent
        exact s.inRange 1 _ second result
      · cases sent

theorem bad_request_recorded (hasPostProcessor : s.exchange.hasPostProcessor = true)
    (request : UpstreamRequest) (body : ByteArray)
    (spoken : ¬ (s.exchange.requestMeta.agentUsed.isSome = true ∧
      isThinkingBlockError s.codec 400 body = true ∧ retryFiltered s request = none)) :
    RecordedOnce s (handleBadRequest s request body) := by
  unfold handleBadRequest
  split
  · rename_i filters
    obtain ⟨agent, thinking⟩ := Bool.and_eq_true_iff.mp filters
    cases retried : retryFiltered s request with
    | none => exact absurd ⟨agent, thinking, retried⟩ spoken
    | some answer =>
        exact success_recorded hasPostProcessor answer (retry_in_range request answer retried)
  · obtain ⟨record, found, named⟩ := record_of hasPostProcessor 400
    rw [found]
    exact ⟨_, rfl, named⟩

theorem answer_recorded (hasPostProcessor : s.exchange.hasPostProcessor = true)
    (request : UpstreamRequest) (answer : UpstreamResponse)
    (inRange : 100 ≤ answer.status ∧ answer.status < 1000)
    (spoken : ∀ body, answer.status = 400 → collectBody answer.items = .ok body →
      ¬ (s.exchange.requestMeta.agentUsed.isSome = true ∧
        isThinkingBlockError s.codec 400 body = true ∧ retryFiltered s request = none)) :
    RecordedOnce s (handleAnswer s request answer) := by
  unfold handleAnswer
  split
  · rfl
  · split
    · rfl
    · split
      · rename_i refused
        cases read : collectBody answer.items with
        | error message => rfl
        | ok body => exact bad_request_recorded hasPostProcessor request body (spoken body refused read)
      · exact success_recorded hasPostProcessor answer inRange

theorem silent_served (silent : Silent s) :
    ∃ body, tryAccount s = some ⟨.success (badRequest body), []⟩ := by
  obtain ⟨provider, request, answer, body, known, prepared, answered, refused, read, agent,
    thinking, kept⟩ := silent
  refine ⟨body, ?_⟩
  unfold tryAccount
  rw [known]
  dsimp only
  rw [prepared, Option.map_some]
  dsimp only
  rw [answered]
  simp [handleAnswer, refused, read, handleBadRequest, agent, thinking, kept]

/-- An attempt is recorded as it should be exactly where it is not silent. -/
theorem attempt_recorded_iff (hasPostProcessor : s.exchange.hasPostProcessor = true)
    (served : Served) (returned : tryAccount s = some served) :
    RecordedOnce s served ↔ ¬ Silent s := by
  constructor
  · intro recorded silent
    obtain ⟨body, silently⟩ := silent_served silent
    obtain rfl := Option.some.inj (returned.symm.trans silently)
    obtain ⟨message, one, -⟩ := recorded
    cases one
  · intro spoken
    unfold tryAccount at returned
    cases known : s.provider with
    | none =>
        rw [known] at returned
        obtain rfl := Option.some.inj returned
        rfl
    | some provider =>
        rw [known] at returned
        dsimp only at returned
        obtain ⟨prepared, transformed, same⟩ := Option.map_eq_some_iff.mp returned
        cases prepared with
        | error status =>
            obtain rfl := same
            rfl
        | ok request =>
            dsimp only at same
            cases answered : s.upstream 0 request with
            | error message =>
                rw [answered] at same
                obtain rfl := same
                rfl
            | ok answer =>
                rw [answered] at same
                obtain rfl := same
                refine answer_recorded hasPostProcessor request answer
                  (s.inRange 0 request answer answered) ?_
                rintro body refused read ⟨agent, thinking, kept⟩
                exact spoken ⟨provider, request, answer, body, known, transformed, answered, refused,
                  read, agent, thinking, kept⟩

theorem failed_quiet (hasPostProcessor : s.exchange.hasPostProcessor = true) (served : Served)
    (returned : tryAccount s = some served) (failed : served.result.isSuccess = false) :
    served.messages = [] ∧ ¬ Silent s := by
  have spoken : ¬ Silent s := by
    intro silent
    obtain ⟨body, silently⟩ := silent_served silent
    obtain rfl := Option.some.inj (returned.symm.trans silently)
    cases failed
  refine ⟨?_, spoken⟩
  have recorded := (attempt_recorded_iff hasPostProcessor served returned).mpr spoken
  unfold RecordedOnce at recorded
  cases result : served.result with
  | success response =>
      rw [result] at failed
      cases failed
  | rateLimited info => rwa [result] at recorded
  | authFailed status => rwa [result] at recorded
  | error message => rwa [result] at recorded

end Recorded

/-- The attempts of one request: each is on its account, and none panics. -/
structure OneRequest (id : String) (settings : Account → Nat → Setting)
    (served : Account → Nat → Served) : Prop where
  hasPostProcessor : ∀ account index, (settings account index).exchange.hasPostProcessor = true
  request : ∀ account index, (settings account index).exchange.requestMeta.id = id
  account : ∀ account index, (settings account index).exchange.account.id = account.id
  returned : ∀ account index, tryAccount (settings account index) = some (served account index)

section Request
variable {id : String} {settings : Account → Nat → Setting} {served : Account → Nat → Served}

def requestRun (served : Account → Nat → Served) (accounts : List Account) : Run Response :=
  tryAccountsInOrder accounts () () fun account _ _ index => (served account index).result

def attemptMessages (served : Account → Nat → Served) (attempt : Attempt Response) :
    List PostProcessorMsg :=
  (served attempt.account attempt.index).messages

def runMessages (served : Account → Nat → Served) (run : Run Response) : List PostProcessorMsg :=
  run.attempts.flatMap (attemptMessages served)

/-- The answer of a request is recorded by one message, and a request without one by none. -/
def RequestRecorded (id : String) (served : Account → Nat → Served) (run : Run Response) : Prop :=
  match run.answer with
  | some (response, accountId) => ∃ message, runMessages served run = [message] ∧
      message.record.requestId = id ∧ message.record.accountId = some accountId ∧
      message.record.responseStatus = response.status
  | none => runMessages served run = []

theorem request_asked (accounts : List Account) :
    ∀ attempt ∈ (requestRun served accounts).attempts,
      attempt.result = (served attempt.account attempt.index).result := by
  intro attempt member
  obtain ⟨-, -, -, result⟩ := attempts_asked _ [] 0 _ attempt member
  exact result

/-- Without an answer no attempt has succeeded. -/
theorem unanswered_failed (accounts : List Account)
    (unanswered : (requestRun served accounts).answer = none) :
    ∀ attempt ∈ (requestRun served accounts).attempts, attempt.result.isSuccess = false := by
  intro attempt member
  by_contra succeeded
  obtain ⟨before, after, split⟩ := List.append_of_mem member
  have stopped : (requestRun served accounts).attempts.Pairwise fun earlier _ =>
      earlier.result.isSuccess = false := attempts_stopped _ [] 0 _
  rw [split, List.pairwise_append] at stopped
  cases result : attempt.result with
  | success response =>
      have first : FirstSuccess (requestRun served accounts).attempts response attempt.account.id :=
        ⟨before, attempt, after, split,
          fun earlier early => stopped.2.2 earlier early attempt List.mem_cons_self, result, rfl⟩
      have answered := (answer_first_success _ [] 0 _ response attempt.account.id).mpr first
      change (requestRun served accounts).answer = _ at answered
      rw [unanswered] at answered
      cases answered
  | rateLimited info => exact succeeded (by rw [result]; rfl)
  | authFailed status => exact succeeded (by rw [result]; rfl)
  | error message => exact succeeded (by rw [result]; rfl)

/-- An answer is that of the last attempt, and the others have failed. -/
theorem answered_last (accounts : List Account) (response : Response) (accountId : String)
    (answered : (requestRun served accounts).answer = some (response, accountId)) :
    ∃ before attempt, (requestRun served accounts).attempts = before ++ [attempt] ∧
      (∀ earlier ∈ before, earlier.result.isSuccess = false) ∧
      attempt.result = .success response ∧ attempt.account.id = accountId := by
  obtain ⟨before, attempt, after, split, failures, result, same⟩ :=
    (answer_first_success _ [] 0 _ response accountId).mp answered
  refine ⟨before, attempt, ?_, failures, result, same⟩
  have stopped : (requestRun served accounts).attempts.Pairwise fun earlier _ =>
      earlier.result.isSuccess = false := attempts_stopped _ [] 0 _
  change (requestRun served accounts).attempts = _ at split
  rw [split] at stopped ⊢
  cases after with
  | nil => rfl
  | cons later rest =>
      have failed := (List.pairwise_cons.mp (List.pairwise_append.mp stopped).2.1).1 later
        List.mem_cons_self
      rw [result] at failed
      cases failed

/-- An attempt that does not succeed tells nothing and is not silent. -/
theorem failed_attempt (one : OneRequest id settings served) (accounts : List Account)
    (attempt : Attempt Response) (member : attempt ∈ (requestRun served accounts).attempts)
    (failed : attempt.result.isSuccess = false) :
    attemptMessages served attempt = [] ∧ ¬ Silent (settings attempt.account attempt.index) := by
  rw [request_asked accounts attempt member] at failed
  exact failed_quiet (one.hasPostProcessor _ _) _ (one.returned attempt.account attempt.index) failed

/-- A request is recorded as it is answered exactly where none of its attempts is silent. -/
theorem request_recorded_iff (one : OneRequest id settings served) (accounts : List Account) :
    (∀ account index, RecordedOnce (settings account index) (served account index) ↔
      ¬ Silent (settings account index)) ∧
    (RequestRecorded id served (requestRun served accounts) ↔
      ∀ attempt ∈ (requestRun served accounts).attempts,
        ¬ Silent (settings attempt.account attempt.index)) := by
  have each : ∀ account index, RecordedOnce (settings account index) (served account index) ↔
      ¬ Silent (settings account index) := fun account index =>
    attempt_recorded_iff (one.hasPostProcessor account index) _ (one.returned account index)
  refine ⟨each, ?_⟩
  unfold RequestRecorded
  cases answer : (requestRun served accounts).answer with
  | none =>
      have failed := unanswered_failed accounts answer
      refine iff_of_true (List.flatMap_eq_nil_iff.mpr fun attempt member => ?_)
        fun attempt member => ?_
      · exact (failed_attempt one accounts attempt member (failed attempt member)).1
      · exact (failed_attempt one accounts attempt member (failed attempt member)).2
  | some answered =>
      obtain ⟨response, accountId⟩ := answered
      obtain ⟨before, attempt, split, failures, result, same⟩ :=
        answered_last accounts response accountId answer
      have early : ∀ earlier ∈ before, attemptMessages served earlier = [] ∧
          ¬ Silent (settings earlier.account earlier.index) := fun earlier member =>
        failed_attempt one accounts earlier (by rw [split]; exact List.mem_append_left _ member)
          (failures earlier member)
      have messages : runMessages served (requestRun served accounts) =
          (served attempt.account attempt.index).messages := by
        unfold runMessages
        rw [split, List.flatMap_append, List.flatMap_singleton,
          List.flatMap_eq_nil_iff.mpr fun earlier member => (early earlier member).1]
        rfl
      have here := request_asked accounts attempt (by rw [split]; simp)
      have recorded := each attempt.account attempt.index
      unfold RecordedOnce at recorded
      rw [← here, result] at recorded
      dsimp only at recorded ⊢
      rw [messages, ← one.request attempt.account attempt.index, ← same,
        ← one.account attempt.account attempt.index, recorded, split]
      constructor
      · intro spoken other member
        rcases List.mem_append.mp member with earlier | last
        · exact (early other earlier).2
        · rwa [List.mem_singleton.mp last]
      · exact fun spoken => spoken attempt (List.mem_append_right _ List.mem_cons_self)

end Request

def refusedBody : String :=
  "\x7b\"error\":\x7b\"message\":\"final `assistant` message must start with a thinking block\"\x7d\x7d"

def refusedCodec : Codec := .ofTable
  [(refusedBody, Json.make [("error", Json.make [("message", .string thinkingBlockRequired)])])]

def plainProvider : ProxyRequest.Provider where
  buildUrl path _ _ := path
  prepareHeaders headers _ _ := .ok headers
  transformRequestBody _ _ := some (.ok none)

/-- The refusal of a request, or the answers to one whose first account is not let in. -/
def answerOf (refused : Bool) (index : Nat) : UpstreamResponse :=
  if refused then ⟨400, [], [.ok refusedBody.toUTF8]⟩
  else if index = 0 then ⟨401, [], []⟩
  else ⟨200, [("content-type", "application/json")], [.ok greetingAnswer.toUTF8]⟩

/-- An agent's request on an account. -/
def agentSetting (refused : Bool) (account : Account) (index : Nat) : Setting where
  codec := refusedCodec
  exchange := { greetingExchange with
    account := account
    requestMeta := ⟨"req-1", "POST", "/v1/messages", "", some "claude-code", none⟩
    attempt := index }
  provider := some plainProvider
  applyModelMapping _ body := body
  baseHeaders := []
  reqBody := greetingRequest.toUTF8
  upstream _ _ := .ok (answerOf refused index)
  inRange _ _ answer same := by
    obtain rfl := Except.ok.inj same
    cases refused with
    | true => simp [answerOf]
    | false => cases index <;> simp [answerOf]
  start := 0
  polls := []

def agentRequest : UpstreamRequest :=
  ⟨validMethod "POST", "/v1/messages", filterRequestHeaders [], greetingRequest.toUTF8⟩

def agentServed (refused : Bool) (account : Account) (index : Nat) : Served :=
  handleAnswer (agentSetting refused account index) agentRequest (answerOf refused index)

theorem agent_one (refused : Bool) : OneRequest "req-1" (agentSetting refused) (agentServed refused) where
  hasPostProcessor _ _ := rfl
  request _ _ := rfl
  account _ _ := rfl
  returned _ _ := rfl

/-- The first account is refused, the second answers. -/
theorem agent_answer_recorded :
    let run := requestRun (agentServed false)
      [makeAccount "a" "anthropic" 0, makeAccount "b" "anthropic" 1]
    RequestRecorded "req-1" (agentServed false) run ∧
      run.attempts.map (fun attempt => attempt.account.id) = ["a", "b"] ∧
      run.answer.map Prod.snd = some "b" := by
  refine ⟨(request_recorded_iff (agent_one false) [makeAccount "a" "anthropic" 0,
    makeAccount "b" "anthropic" 1]).2.mpr ?_, by decide +kernel, by decide +kernel⟩
  rintro attempt - ⟨_, _, answer, _, _, _, answered, refused, -⟩
  obtain rfl := Except.ok.inj answered
  revert refused
  cases attempt.index <;> simp [answerOf]

/-- A body without thinking blocks cannot be sent again. -/
theorem agent_refusal_silent : Silent (agentSetting true (makeAccount "a" "anthropic" 0) 0) :=
  ⟨plainProvider, agentRequest, answerOf true 0, refusedBody.toUTF8, rfl, rfl, rfl, rfl,
    by decide +kernel, rfl, by decide +kernel, by decide +kernel⟩

/-- The client is answered with status 400, and no message is sent. -/
theorem agent_refusal_unrecorded :
    ∃ response, tryAccount (agentSetting true (makeAccount "a" "anthropic" 0) 0) =
        some ⟨.success response, []⟩ ∧ response.status = 400 ∧
      ¬ RecordedOnce (agentSetting true (makeAccount "a" "anthropic" 0) 0)
        ⟨.success response, []⟩ := by
  obtain ⟨body, served⟩ := silent_served agent_refusal_silent
  refine ⟨badRequest body, served, rfl, ?_⟩
  rintro ⟨message, one, -⟩
  cases one

end Ccflare.AnsweredRequests
