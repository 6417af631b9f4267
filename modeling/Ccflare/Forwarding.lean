import Ccflare.Failover
import Ccflare.ModelMapping
import Ccflare.ProxyRequest
import Ccflare.StreamItems

/-!
The answer path of the proxy for translated requests: `build_success_response`
hands the upstream body to the client as it is. A translated answer would differ
from it for every body, except a stream that says nothing or that is already the
bare start the translator would emit for it.
-/

namespace Ccflare.Forwarding

open Failover JsonValue MessageStream OpenAiFormat OpenAiStream OpenAiStreamContext ProxyRequest
  StreamItems Transducer

def isStreamingResponse (headers : Headers) : Bool :=
  ((headerGet headers "content-type").bind headerText).any (Text.contains "text/event-stream")

def shouldForwardResponseHeader (name : String) : Bool :=
  let lower := Text.toAsciiLowercase name
  lower = "content-type" || lower = "cache-control" || lower = "retry-after" ||
    lower = "expires" || lower = "x-request-id" || lower = "request-id" ||
    lower = "x-correlation-id" || Text.startsWith "anthropic-" lower ||
    Text.startsWith "x-ratelimit-" lower

/-- An upstream answer; the body arrives in items that are bytes or an error. -/
structure UpstreamResponse where
  status : Nat
  headers : Headers
  items : List (Except String ByteArray)

structure Response where
  status : Nat
  headers : Headers
  body : List ByteArray

structure AuthInfo where
  apiKeyId : Option String
  apiKeyName : Option String
  deriving DecidableEq

/-- What the post-processor is told of an answered request. -/
structure RequestRecord where
  requestId : String
  accountId : Option String
  path : String
  responseStatus : Nat
  agentUsed : Option String
  project : Option String
  apiKeyId : Option String
  apiKeyName : Option String
  failoverAttempts : Nat
  deriving DecidableEq

structure Exchange where
  account : Account
  requestMeta : RequestMeta
  authInfo : AuthInfo
  attempt : Nat
  parseRateLimit : Headers → Nat → RateLimitInfo
  hasPool : Bool
  hasPostProcessor : Bool

structure Forwarded where
  result : AccountResult Response
  rateLimits : Option (String × RateLimitInfo)
  record : Option RequestRecord

def Exchange.record (exchange : Exchange) (status : Nat) : Option RequestRecord :=
  if exchange.hasPostProcessor then
    some ⟨exchange.requestMeta.id, some exchange.account.id, exchange.requestMeta.path, status,
      exchange.requestMeta.agentUsed, exchange.requestMeta.project, exchange.authInfo.apiKeyId,
      exchange.authInfo.apiKeyName, exchange.attempt⟩
  else none

def validStatus (status : Nat) : Nat := if 100 ≤ status ∧ status < 1000 then status else 200

def collectBody : List (Except String ByteArray) → Except String ByteArray
  | [] => .ok .empty
  | .error message :: _ => .error message
  | .ok chunk :: rest => (collectBody rest).map (chunk ++ ·)

def forwardedChunks (items : List (Except String ByteArray)) : List ByteArray :=
  items.filterMap Except.toOption

def joinBytes : List ByteArray → ByteArray
  | [] => .empty
  | chunk :: rest => chunk ++ joinBytes rest

def buildSuccessResponse (exchange : Exchange) (upstream : UpstreamResponse) : Forwarded :=
  let rateLimits :=
    if exchange.hasPool then
      some (exchange.account.id, exchange.parseRateLimit upstream.headers upstream.status)
    else none
  let headers := upstream.headers.filter fun header => shouldForwardResponseHeader header.1
  let record := exchange.record upstream.status
  if isStreamingResponse upstream.headers then
    ⟨.success ⟨validStatus upstream.status, headers, forwardedChunks upstream.items⟩, rateLimits,
      record⟩
  else
    match collectBody upstream.items with
    | .error message => ⟨.error ("Failed to read response: " ++ message), rateLimits, none⟩
    | .ok body => ⟨.success ⟨validStatus upstream.status, headers, [body]⟩, rateLimits, record⟩

/-- `OpenAiCompatibleProvider::transform_request_body`. -/
def transformRequestBody (codec : Codec) (body : ByteArray) (account : Option Account) :
    Except ProviderError (Option ByteArray) :=
  match anthropicToOpenaiRequest codec body with
  | none => .error (.requestTransform "Failed to translate request body")
  | some translated =>
      .ok (some ((ModelMapping.transformBodyModel codec translated account).getD translated))

/-- All events the stream translator emits for the chunks, as one text. -/
def translateStream (codec : Codec) (order : ValueOrder) (texts : List String) : String :=
  Text.joinWith "" ((run (transformChunk codec order) new texts).1.map (sseEvent codec))

/-- The delivered bytes are the translation of the upstream answer. -/
def TranslatedBack (codec : Codec) (order : ValueOrder) (upstream : UpstreamResponse)
    (texts : List String) (delivered : ByteArray) : Prop :=
  if isStreamingResponse upstream.headers then
    delivered = (translateStream codec order texts).toUTF8
  else
    ∃ body, collectBody upstream.items = .ok body ∧
      openaiToAnthropicResponse codec body = some delivered

theorem join_bytes_texts (texts : List String) :
    joinBytes (texts.map String.toUTF8) = (Text.joinWith "" texts).toUTF8 := by
  induction texts with
  | nil => rfl
  | cons text rest ih =>
      rw [List.map_cons, joinBytes, ih, Text.join_empty_cons]
      rfl

theorem event_data_unnamed (event : StreamEvent) (key : String)
    (absent : key ≠ "type" ∧ key ≠ "message" ∧ key ≠ "index" ∧ key ≠ "content_block" ∧
      key ≠ "delta" ∧ key ≠ "usage") : (eventData event).get key = none := by
  obtain ⟨type, message, index, block, delta, usage⟩ := absent
  unfold eventData
  cases event <;> simp [Json.get_make, Json.field, *]

theorem event_type_one_line (event : StreamEvent) :
    '\n' ∉ ("event: " ++ eventType event).toList ∧ '\r' ∉ ("event: " ++ eventType event).toList := by
  cases event <;> simp only [eventType] <;> decide

def dataLine (codec : Codec) (event : StreamEvent) : String :=
  "data: " ++ codec.toString (eventData event)

/-- The lines of one event as the translator writes it. -/
def eventLines (codec : Codec) (event : StreamEvent) : List String :=
  ["event: " ++ eventType event, dataLine codec event, ""]

theorem data_line_one_line (codec : Codec) (lawful : codec.Lawful) (event : StreamEvent) :
    '\n' ∉ (dataLine codec event).toList ∧ '\r' ∉ (dataLine codec event).toList := by
  obtain ⟨newline, carriage⟩ := lawful.oneLine (eventData event)
  simp [dataLine, String.toList_append, newline, carriage]

theorem rendered_lines (codec : Codec) (lawful : codec.Lawful) (events : List StreamEvent) :
    Text.completeLines (Text.joinWith "" (events.map (sseEvent codec))) =
      (events.flatMap (eventLines codec), "") := by
  induction events with
  | nil => rfl
  | cons event rest ih =>
      have shape : sseEvent codec event ++ Text.joinWith "" (rest.map (sseEvent codec)) =
          ("event: " ++ eventType event) ++ "\n" ++ (dataLine codec event ++ "\n" ++
            ("" ++ "\n" ++ Text.joinWith "" (rest.map (sseEvent codec)))) := by
        simp only [sseEvent, dataLine, String.append_assoc]
        rfl
      rw [List.map_cons, Text.join_empty_cons, shape,
        Text.complete_lines_line _ _ (event_type_one_line event).1,
        Text.complete_lines_line _ _ (data_line_one_line codec lawful event).1,
        Text.complete_lines_line _ _ (by simp), ih]
      rfl

/-- What the translator says to a stream of Anthropic events, if anything. -/
def bareStart : List StreamEvent := [.messageStart (.string "msg_unknown") "" 0, .ping]

/-- A line whose data is a document. -/
def speaks (codec : Codec) (line : String) : Bool :=
  ((Text.stripPrefix "data: " line).bind codec.fromStr).isSome

structure Fresh (ctx : OpenAiStreamContext) : Prop where
  unsent : ctx.hasSentStart = false
  unnamed : ctx.model = ""
  free : ctx.promptTokens = 0

theorem process_unnamed (ctx : OpenAiStreamContext) (json : Json)
    (noId : json.get "id" = none) (noModel : json.get "model" = none)
    (noChoices : json.get "choices" = none) :
    (ctx.hasSentStart = true → (processJson ctx json).1 = []) ∧
      (Fresh ctx → (processJson ctx json).1 = bareStart) ∧
      (processJson ctx json).2.hasSentStart = true := by
  have silent : chunkChoices json = [] := by simp [chunkChoices, noChoices]
  have named : readModel ctx json = { ctx with hasStarted := true } := by
    unfold readModel Json.getStr
    rw [noModel]
    split
    · cases ctx
      simp_all
    · rfl
  simp only [processJson, silent, run_nil, named, List.append_nil]
  refine ⟨fun sent => ?_, fun fresh => ?_, ?_⟩
  · simp [sendStart, sent]
  · simp [sendStart, fresh.unsent, fresh.unnamed, fresh.free, noId, bareStart]
  · unfold readUsage sendStart
    cases json.get "usage" <;> cases ctx.hasSentStart <;> simp

variable (codec : Codec) (order : ValueOrder)

theorem quiet_line (ctx : OpenAiStreamContext) (line : String)
    (noData : Text.stripPrefix "data: " line = none) : readLine codec order ctx line = ([], ctx) := by
  unfold readLine processLine
  by_cases skipped : line = "" ∨ Text.startsWith ":" line = true
  · simp [skipped]
  · simp [skipped, noData]

/-- A started translator stays silent; a fresh one gives its bare start when it
is spoken to. -/
def Reacts (spoken : Bool) (ctx : OpenAiStreamContext)
    (out : List StreamEvent × OpenAiStreamContext) : Prop :=
  (ctx.hasSentStart = true → out.1 = [] ∧ out.2.hasSentStart = true) ∧
    (Fresh ctx → if spoken then out.1 = bareStart ∧ out.2.hasSentStart = true
      else out.1 = [] ∧ Fresh out.2)

theorem quiet_line_reacts (ctx : OpenAiStreamContext) (line : String)
    (noData : Text.stripPrefix "data: " line = none)
    (untouched : Text.trimEndMatches '\r' line = line) :
    Reacts (speaks codec line) ctx (feedLine codec order ctx line) := by
  have mute : speaks codec line = false := by simp [speaks, noData]
  rw [mute, feedLine, untouched, quiet_line codec order ctx line noData]
  exact ⟨fun sent => ⟨rfl, sent⟩, fun fresh => ⟨rfl, fresh⟩⟩

theorem data_line_reacts (lawful : codec.Lawful) (ctx : OpenAiStreamContext)
    (event : StreamEvent) :
    Reacts (speaks codec (dataLine codec event)) ctx
      (feedLine codec order ctx (dataLine codec event)) := by
  have untouched := Text.trim_end_absent _ _ (data_line_one_line codec lawful event).2
  have data : Text.stripPrefix "data: " (dataLine codec event) =
      some (codec.toString (eventData event)) := Text.strip_prefix_append _ _
  have read := data_line_read codec order ctx (codec.toString (eventData event))
  rw [if_neg (lawful.notDone _)] at read
  simp only [feedLine, untouched, speaks, data, Option.bind_some]
  cases parsed : codec.fromStr (codec.toString (eventData event)) with
  | none =>
      rw [parsed] at read
      simp only [readLine, dataLine, read]
      exact ⟨fun sent => ⟨rfl, sent⟩, fun fresh => ⟨rfl, fresh⟩⟩
  | some json =>
      have absent : ∀ key, (eventData event).get key = none → json.get key = none := by
        intro key none
        have same := lawful.keys _ json parsed key
        rw [none] at same
        exact Option.isNone_iff_eq_none.mp (by simpa using same)
      obtain ⟨silent, starts, sent⟩ := process_unnamed ctx json
        (absent _ (event_data_unnamed event "id" (by decide)))
        (absent _ (event_data_unnamed event "model" (by decide)))
        (absent _ (event_data_unnamed event "choices" (by decide)))
      have events : readLine codec order ctx (dataLine codec event) = processJson ctx json := by
        rw [parsed] at read
        simp only [readLine, dataLine, read]
        cases emitted : (processJson ctx json).1 with
        | nil => exact Prod.ext emitted.symm rfl
        | cons first rest => exact Prod.ext emitted.symm rfl
      rw [events]
      exact ⟨fun already => ⟨silent already, sent⟩, fun fresh => ⟨starts fresh, sent⟩⟩

theorem Reacts.followed {first later : Bool} {ctx : OpenAiStreamContext}
    {out next : List StreamEvent × OpenAiStreamContext} (moved : Reacts first ctx out)
    (movedLater : Reacts later out.2 next) :
    Reacts (first || later) ctx (out.1 ++ next.1, next.2) := by
  constructor
  · intro sent
    obtain ⟨silent, still⟩ := moved.1 sent
    obtain ⟨silentLater, stillLater⟩ := movedLater.1 still
    exact ⟨by rw [silent, silentLater]; rfl, stillLater⟩
  · intro fresh
    have now := moved.2 fresh
    cases first with
    | true =>
        obtain ⟨silentLater, stillLater⟩ := movedLater.1 now.2
        exact ⟨by rw [now.1, silentLater, List.append_nil], stillLater⟩
    | false =>
        have after := movedLater.2 now.2
        rwa [now.1, Bool.false_or, List.nil_append]

theorem event_line_reacts (lawful : codec.Lawful) (ctx : OpenAiStreamContext)
    (event : StreamEvent) (line : String) (member : line ∈ eventLines codec event) :
    Reacts (speaks codec line) ctx (feedLine codec order ctx line) := by
  simp only [eventLines, List.mem_cons, List.not_mem_nil, or_false] at member
  rcases member with rfl | rfl | rfl
  · apply quiet_line_reacts
    · rw [Text.stripPrefix, String.toList_append]
      rfl
    · exact Text.trim_end_absent _ _ (event_type_one_line event).2
  · exact data_line_reacts codec order lawful ctx event
  · exact quiet_line_reacts codec order ctx "" rfl rfl

/-- The same for many lines at once. -/
theorem lines_react (lawful : codec.Lawful) (ctx : OpenAiStreamContext) (lines : List String)
    (events : ∀ line ∈ lines, ∃ event, line ∈ eventLines codec event) :
    Reacts (lines.any (speaks codec)) ctx (run (feedLine codec order) ctx lines) := by
  induction lines generalizing ctx with
  | nil => exact ⟨fun sent => ⟨rfl, sent⟩, fun fresh => ⟨rfl, fresh⟩⟩
  | cons line rest ih =>
      obtain ⟨event, member⟩ := events line List.mem_cons_self
      have first := event_line_reacts codec order lawful ctx event line member
      have later := ih (feedLine codec order ctx line).2
        fun next inRest => events next (List.mem_cons_of_mem _ inRest)
      rw [run_cons, List.any_cons]
      exact first.followed later

theorem Reacts.rebuffered {spoken : Bool} {ctx : OpenAiStreamContext}
    {out : List StreamEvent × OpenAiStreamContext} (moved : Reacts spoken ctx out)
    (buffer : String) : Reacts spoken ctx (out.1, { out.2 with buffer := buffer }) := by
  refine ⟨moved.1, fun fresh => ?_⟩
  have now := moved.2 fresh
  cases spoken with
  | true => exact now
  | false => exact ⟨now.1, now.2.unsent, now.2.unnamed, now.2.free⟩

/-- However the text is cut, only its complete lines count. -/
theorem chunks_react (lawful : codec.Lawful) (ctx : OpenAiStreamContext) (chunks : List String)
    (unbroken : '\n' ∉ ctx.buffer.toList)
    (events : ∀ line ∈ (Text.completeLines (ctx.buffer ++ Text.joinWith "" chunks)).1,
      ∃ event, line ∈ eventLines codec event) :
    Reacts ((Text.completeLines (ctx.buffer ++ Text.joinWith "" chunks)).1.any (speaks codec)) ctx
      (run (transformChunk codec order) ctx chunks) := by
  induction chunks generalizing ctx with
  | nil =>
      have none : (Text.completeLines (ctx.buffer ++ Text.joinWith "" [])).1 = [] :=
        congrArg Prod.fst (Text.complete_lines_unbroken _ (by simpa [Text.joinWith] using unbroken))
      rw [none]
      exact ⟨fun sent => ⟨rfl, sent⟩, fun fresh => ⟨rfl, fresh⟩⟩
  | cons chunk rest ih =>
      rw [Text.join_empty_cons, ← String.append_assoc, Text.complete_lines_append] at events ⊢
      have first := lines_react codec order lawful ctx
        (Text.completeLines (ctx.buffer ++ chunk)).1
        fun line member => events line (List.mem_append_left _ member)
      have now : Reacts ((Text.completeLines (ctx.buffer ++ chunk)).1.any (speaks codec)) ctx
          (transformChunk codec order ctx chunk) := first.rebuffered _
      have later := ih (transformChunk codec order ctx chunk).2
        (Text.complete_lines_rest (ctx.buffer ++ chunk))
        fun line member => events line (List.mem_append_right _ member)
      rw [run_cons, List.any_append]
      exact now.followed later

theorem new_fresh : Fresh new := ⟨rfl, rfl, rfl⟩

def render (events : List StreamEvent) : String := Text.joinWith "" (events.map (sseEvent codec))

theorem rendered_reacts (lawful : codec.Lawful) (texts : List String) (events : List StreamEvent)
    (whole : Text.joinWith "" texts = render codec events) :
    (run (transformChunk codec order) new texts).1 =
      if (events.flatMap (eventLines codec)).any (speaks codec) then bareStart else [] := by
  have lines : (Text.completeLines (new.buffer ++ Text.joinWith "" texts)).1 =
      events.flatMap (eventLines codec) := by
    rw [show new.buffer = "" from rfl, String.empty_append, whole]
    exact congrArg Prod.fst (rendered_lines codec lawful events)
  have reacts := chunks_react codec order lawful new texts (by simp [new])
    fun line member => by
      rw [lines] at member
      obtain ⟨event, -, inLines⟩ := List.mem_flatMap.mp member
      exact ⟨event, inLines⟩
  have moved := reacts.2 new_fresh
  rw [lines] at moved
  split at moved <;> rename_i spoken
  · rw [if_pos spoken]
    exact moved.1
  · rw [if_neg spoken]
    exact moved.1

/-- A stream is its own translation when it is empty or the bare start. -/
theorem stream_fixed_iff (lawful : codec.Lawful)
    (pingReads : (codec.fromStr (codec.toString (eventData .ping))).isSome = true)
    (texts : List String) :
    Text.joinWith "" texts = translateStream codec order texts ↔
      Text.joinWith "" texts = "" ∨ Text.joinWith "" texts = render codec bareStart := by
  constructor
  · intro fixed
    have events := rendered_reacts codec order lawful texts _ fixed
    rw [translateStream, events] at fixed
    split at fixed
    · exact Or.inr fixed
    · exact Or.inl fixed
  · rintro (empty | bare)
    · have events := rendered_reacts codec order lawful texts [] empty
      rw [empty, translateStream, events]
      rfl
    · have events := rendered_reacts codec order lawful texts bareStart bare
      have spoken : (bareStart.flatMap (eventLines codec)).any (speaks codec) = true := by
        refine List.any_eq_true.mpr ⟨dataLine codec .ping, ?_, ?_⟩
        · exact List.mem_flatMap.mpr ⟨.ping, by simp [bareStart], by simp [eventLines]⟩
        · simpa [speaks, dataLine, Text.strip_prefix_append] using pingReads
      rw [if_pos spoken] at events
      rw [bare, translateStream, events]
      rfl

theorem response_keyless (input response : Json)
    (translated : anthropicResponse codec input = some response) :
    response.get "choices" = none ∧ (input.get "choices").isSome = true := by
  unfold anthropicResponse at translated
  cases choices : input.get "choices" with
  | none => simp [choices] at translated
  | some held =>
      refine ⟨?_, rfl⟩
      simp only [choices, Option.bind_some, Option.bind_eq_some_iff, bind] at translated
      obtain ⟨_, -, _, -, _, -, made⟩ := translated
      cases made
      simp [Json.get_make, Json.field]

/-- No whole body is its own translation: the choices are gone. -/
theorem whole_never_fixed (lawful : codec.Lawful) (body : ByteArray) :
    openaiToAnthropicResponse codec body ≠ some body := by
  intro fixed
  unfold openaiToAnthropicResponse at fixed
  simp only [Option.bind_eq_some_iff, bind] at fixed
  obtain ⟨input, parsed, response, translated, printed⟩ := fixed
  obtain ⟨gone, was⟩ := response_keyless codec input response translated
  have again : codec.fromStr (codec.toString response) = some input := by
    rw [← parsed, ← Option.some.inj printed]
    rfl
  have same := lawful.keys response input again "choices"
  rw [gone, was] at same
  exact absurd same (by simp)

/-- The client gets the translated answer only if the answer is a stream that is
empty or that is the bare start; for a body that is not streamed, never. -/
theorem translated_back_iff (lawful : codec.Lawful)
    (pingReads : (codec.fromStr (codec.toString (eventData .ping))).isSome = true)
    (exchange : Exchange) (requestBody sent : ByteArray)
    (_request : transformRequestBody codec requestBody (some exchange.account) = .ok (some sent))
    (answer : ByteArray → UpstreamResponse) (texts : List String)
    (decoded : isStreamingResponse (answer sent).headers = true →
      forwardedChunks (answer sent).items = texts.map String.toUTF8) :
    (∃ response, (buildSuccessResponse exchange (answer sent)).result = .success response ∧
      TranslatedBack codec order (answer sent) texts (joinBytes response.body)) ↔
    isStreamingResponse (answer sent).headers = true ∧
      (Text.joinWith "" texts = "" ∨ Text.joinWith "" texts = render codec bareStart) := by
  unfold TranslatedBack buildSuccessResponse
  cases streaming : isStreamingResponse (answer sent).headers with
  | true =>
      rw [← stream_fixed_iff codec order lawful pingReads texts]
      simp only [↓reduceIte, AccountResult.success.injEq, exists_eq_left', true_and,
        decoded streaming, join_bytes_texts]
      exact String.toByteArray_inj
  | false =>
      simp only [Bool.false_eq_true, ↓reduceIte, false_and, iff_false, not_exists, not_and]
      intro response succeeded
      cases collected : collectBody (answer sent).items with
      | error message => simp [collected] at succeeded
      | ok body =>
          simp only [collected, AccountResult.success.injEq] at succeeded
          intro whole same translated
          rw [← Except.ok.inj same, ← succeeded] at translated
          have delivered : joinBytes [body] = body := ByteArray.append_empty
          rw [delivered] at translated
          exact whole_never_fixed codec lawful body translated

def greetingRequest : String := "\x7b\"messages\":[],\"model\":\"m\"\x7d"

def greetingAnswer : String :=
  "\x7b\"choices\":[\x7b\"message\":\x7b\"content\":\"hi\"\x7d\x7d]\x7d"

def greetingTable : List (String × Json) :=
  [(greetingRequest, Json.make [("messages", .array []), ("model", .string "m")]),
    (greetingAnswer, Json.make [("choices", .array [Json.make [("message",
      Json.make [("content", .string "hi")])]])]),
    ("\x7b\"type\":\"ping\"\x7d", eventData .ping)]

def greetingCodec : Codec := .ofTable greetingTable

def greetingExchange : Exchange where
  account := makeAccount "a" "openai-compatible" 0
  requestMeta := ⟨"req-1", "POST", "/v1/messages", "", none, none⟩
  authInfo := ⟨none, none⟩
  attempt := 0
  parseRateLimit _ status := ⟨status = 429, none, none, none⟩
  hasPool := true
  hasPostProcessor := true

def greetingUpstream (_ : ByteArray) : UpstreamResponse where
  status := 200
  headers := [("content-type", "application/json")]
  items := [.ok greetingAnswer.toUTF8]

theorem greeting_lawful : greetingCodec.Lawful :=
  Codec.of_table_lawful greetingTable (by decide +kernel)

theorem greeting_translated_back_iff :
    (∃ response, (buildSuccessResponse greetingExchange
        (greetingUpstream greetingRequest.toUTF8)).result = .success response ∧
      TranslatedBack greetingCodec insertionOrder (greetingUpstream greetingRequest.toUTF8) []
        (joinBytes response.body)) ↔
    isStreamingResponse (greetingUpstream greetingRequest.toUTF8).headers = true ∧
      (Text.joinWith "" [] = "" ∨ Text.joinWith "" [] = render greetingCodec bareStart) :=
  translated_back_iff greetingCodec insertionOrder greeting_lawful (by decide +kernel)
    greetingExchange greetingRequest.toUTF8 greetingRequest.toUTF8 (by decide +kernel)
    greetingUpstream [] (by decide +kernel)

/-- A plain answer reaches the client in the format of the upstream. -/
theorem greeting_not_translated :
    transformRequestBody greetingCodec greetingRequest.toUTF8 (some greetingExchange.account) =
        .ok (some greetingRequest.toUTF8) ∧
      ¬ ∃ response, (buildSuccessResponse greetingExchange
          (greetingUpstream greetingRequest.toUTF8)).result = .success response ∧
        TranslatedBack greetingCodec insertionOrder (greetingUpstream greetingRequest.toUTF8) []
          (joinBytes response.body) := by
  refine ⟨by decide +kernel, ?_⟩
  rintro ⟨response, succeeded, body, collected, translated⟩
  have plain : isStreamingResponse (greetingUpstream greetingRequest.toUTF8).headers = false := by
    decide +kernel
  have whole : collectBody (greetingUpstream greetingRequest.toUTF8).items =
      .ok greetingAnswer.toUTF8 := by decide +kernel
  simp only [buildSuccessResponse, plain, whole, Bool.false_eq_true, ↓reduceIte,
    AccountResult.success.injEq] at succeeded
  rw [← Except.ok.inj (whole.symm.trans collected), ← succeeded] at translated
  exact whole_never_fixed greetingCodec greeting_lawful _
    (translated.trans (congrArg some ByteArray.append_empty))

end Ccflare.Forwarding
