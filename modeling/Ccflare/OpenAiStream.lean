import Ccflare.MessageStream
import Ccflare.OpenAiFormat
import Mathlib.Data.List.AList

/-!
The stream translator of `openai_stream.rs`: lines of an OpenAI chunk stream in,
Anthropic events out. The tool accumulators are a map from the upstream index;
the order in which a hash map lists its values is left open.
-/

namespace Ccflare.OpenAiStream

open JsonValue MessageStream Transducer

def maxToolCallArgsLen : Nat := 1000000

def maxToolCallIndex : Nat := 100

structure ToolCallAccumulator where
  id : String
  name : String
  arguments : String
  started : Bool
  blockIndex : Nat
  deriving DecidableEq

abbrev Accumulators := AList fun _ : Nat => ToolCallAccumulator

structure OpenAiStreamContext where
  buffer : String
  hasStarted : Bool
  hasSentStart : Bool
  hasSentContentBlockStart : Bool
  model : String
  hasToolCalls : Bool
  toolAccumulators : Accumulators
  promptTokens : Int
  completionTokens : Int
  blockIndex : Nat
  finishReason : Option String

/-- How `values()` lists the accumulators. -/
structure ValueOrder where
  values : Accumulators → List ToolCallAccumulator
  perm : ∀ accumulators, (values accumulators).Perm (accumulators.entries.map Sigma.snd)

def insertionOrder : ValueOrder where
  values accumulators := accumulators.entries.map Sigma.snd
  perm _ := .refl _

namespace OpenAiStreamContext

def new : OpenAiStreamContext where
  buffer := ""
  hasStarted := false
  hasSentStart := false
  hasSentContentBlockStart := false
  model := ""
  hasToolCalls := false
  toolAccumulators := ∅
  promptTokens := 0
  completionTokens := 0
  blockIndex := 0
  finishReason := none

/-- The text block is taken to be block 0, whatever index it was started with. -/
def currentTextIndex (_ : OpenAiStreamContext) : Nat := 0

def openTools (accumulators : List ToolCallAccumulator) : List Nat :=
  (accumulators.filter (·.started)).map (·.blockIndex)

def finish (order : ValueOrder) (ctx : OpenAiStreamContext) : List StreamEvent :=
  (if ctx.hasSentContentBlockStart then [.contentBlockStop ctx.currentTextIndex] else []) ++
    (openTools (order.values ctx.toolAccumulators)).map .contentBlockStop ++
    [.messageDelta (OpenAiFormat.mapFinishReason ctx.finishReason) ctx.completionTokens,
      .messageStop]

/-- The first tool call closes the text block that is open. -/
def closeText (ctx : OpenAiStreamContext) : List StreamEvent × OpenAiStreamContext :=
  if ctx.hasToolCalls then ([], ctx)
  else if ctx.hasSentContentBlockStart then
    ([.contentBlockStop ctx.currentTextIndex],
      { ctx with hasToolCalls := true, blockIndex := ctx.blockIndex + 1,
                 hasSentContentBlockStart := false })
  else ([], { ctx with hasToolCalls := true })

/-- The part of a tool-call delta the translator reads. -/
structure ToolDelta where
  index : Nat
  id : Option String
  name : Option String
  arguments : Option String
  deriving DecidableEq

def readToolDelta (tc : Json) : ToolDelta where
  index := ((tc.get "index").bind Json.asU64).getD 0
  id := tc.getStr "id"
  name := (tc.get "function").bind (·.getStr "name")
  arguments := (tc.get "function").bind (·.getStr "arguments")

def ToolCallAccumulator.update (acc : ToolCallAccumulator) (delta : ToolDelta) :
    ToolCallAccumulator :=
  let args := delta.arguments.getD ""
  { acc with
    id := delta.id.getD acc.id
    name := delta.name.getD acc.name
    arguments :=
      if acc.arguments.utf8ByteSize + args.utf8ByteSize ≤ maxToolCallArgsLen then
        acc.arguments ++ args
      else acc.arguments }

def accumulator (ctx : OpenAiStreamContext) (index : Nat) : ToolCallAccumulator :=
  (ctx.toolAccumulators.lookup index).getD ⟨"", "", "", false, ctx.blockIndex + index⟩

def startTool (acc : ToolCallAccumulator) : List StreamEvent × ToolCallAccumulator :=
  if acc.started = false ∧ acc.name ≠ "" then
    ([.contentBlockStart acc.blockIndex (.toolUse acc.id acc.name)], { acc with started := true })
  else ([], acc)

def toolArguments (acc : ToolCallAccumulator) (delta : ToolDelta) : List StreamEvent :=
  match delta.arguments with
  | some args =>
      if args ≠ "" ∧ acc.started then [.contentBlockDelta acc.blockIndex (.inputJson args)] else []
  | none => []

def processToolDelta (ctx : OpenAiStreamContext) (delta : ToolDelta) :
    List StreamEvent × OpenAiStreamContext :=
  if delta.index > maxToolCallIndex then ([], ctx)
  else
    let (closed, ctx) := closeText ctx
    let (started, acc) := startTool (ToolCallAccumulator.update (accumulator ctx delta.index) delta)
    (closed ++ started ++ toolArguments acc delta,
      { ctx with toolAccumulators := ctx.toolAccumulators.insert delta.index acc })

def processToolCallDelta (ctx : OpenAiStreamContext) (tc : Json) :
    List StreamEvent × OpenAiStreamContext :=
  processToolDelta ctx (readToolDelta tc)

def processText (ctx : OpenAiStreamContext) (content : String) :
    List StreamEvent × OpenAiStreamContext :=
  if content = "" then ([], ctx)
  else
    ((if ctx.hasSentContentBlockStart then [] else [.contentBlockStart ctx.blockIndex .text]) ++
      [.contentBlockDelta ctx.currentTextIndex (.text content)],
      { ctx with hasSentContentBlockStart := true })

def processContent (ctx : OpenAiStreamContext) (delta : Json) :
    List StreamEvent × OpenAiStreamContext :=
  match delta.getStr "content" with
  | some content => processText ctx content
  | none => ([], ctx)

def deltaTools (delta : Json) : List Json := ((delta.get "tool_calls").bind Json.asArray).getD []

def processDelta (ctx : OpenAiStreamContext) (delta : Json) :
    List StreamEvent × OpenAiStreamContext :=
  let (text, ctx) := processContent ctx delta
  let (tools, ctx) := run processToolCallDelta ctx (deltaTools delta)
  (text ++ tools, ctx)

def readFinishReason (ctx : OpenAiStreamContext) (choice : Json) : OpenAiStreamContext :=
  match choice.getStr "finish_reason" with
  | some reason => { ctx with finishReason := some reason }
  | none => ctx

def processChoice (ctx : OpenAiStreamContext) (choice : Json) :
    List StreamEvent × OpenAiStreamContext :=
  let ctx := readFinishReason ctx choice
  match choice.get "delta" with
  | some delta => processDelta ctx delta
  | none => ([], ctx)

def readModel (ctx : OpenAiStreamContext) (json : Json) : OpenAiStreamContext :=
  if ctx.hasStarted then ctx
  else { ctx with hasStarted := true, model := (json.getStr "model").getD ctx.model }

def sendStart (ctx : OpenAiStreamContext) (json : Json) : List StreamEvent × OpenAiStreamContext :=
  if ctx.hasSentStart then ([], ctx)
  else
    ([.messageStart ((json.get "id").getD (.string "msg_unknown")) ctx.model ctx.promptTokens,
      .ping], { ctx with hasSentStart := true })

def readUsage (ctx : OpenAiStreamContext) (json : Json) : OpenAiStreamContext :=
  match json.get "usage" with
  | some usage =>
      { ctx with
        promptTokens := ((usage.get "prompt_tokens").bind Json.asI64).getD ctx.promptTokens
        completionTokens :=
          ((usage.get "completion_tokens").bind Json.asI64).getD ctx.completionTokens }
  | none => ctx

def chunkChoices (json : Json) : List Json := ((json.get "choices").bind Json.asArray).getD []

/-- What `process_line` does with a parsed chunk. -/
def processJson (ctx : OpenAiStreamContext) (json : Json) :
    List StreamEvent × OpenAiStreamContext :=
  let (started, ctx) := sendStart (readModel ctx json) json
  let (events, ctx) := run processChoice (readUsage ctx json) (chunkChoices json)
  (started ++ events, ctx)

def processLine (codec : Codec) (order : ValueOrder) (ctx : OpenAiStreamContext) (line : String) :
    Option (List StreamEvent) × OpenAiStreamContext :=
  if line = "" ∨ Text.startsWith ":" line then (none, ctx)
  else
    match Text.stripPrefix "data: " line with
    | none => (none, ctx)
    | some data =>
        if data = "[DONE]" then (some (finish order ctx), ctx)
        else
          match codec.fromStr data with
          | none => (none, ctx)
          | some json =>
              let (events, ctx) := processJson ctx json
              (if events.isEmpty then none else some events, ctx)

def readLine (codec : Codec) (order : ValueOrder) (ctx : OpenAiStreamContext) (line : String) :
    List StreamEvent × OpenAiStreamContext :=
  let (events, ctx) := processLine codec order ctx line
  (events.getD [], ctx)

/-- One pass of the loop of `transform_chunk` over the complete lines. -/
def feedLine (codec : Codec) (order : ValueOrder) (ctx : OpenAiStreamContext) (line : String) :
    List StreamEvent × OpenAiStreamContext :=
  readLine codec order ctx (Text.trimEndMatches '\r' line)

def transformChunk (codec : Codec) (order : ValueOrder) (ctx : OpenAiStreamContext)
    (chunk : String) : List StreamEvent × OpenAiStreamContext :=
  let (lines, rest) := Text.completeLines (ctx.buffer ++ chunk)
  let (events, ctx) := run (feedLine codec order) ctx lines
  (events, { ctx with buffer := rest })

end OpenAiStreamContext

def blockJson : ContentBlock → Json
  | .text => Json.make [("type", .string "text"), ("text", .string "")]
  | .toolUse id name => Json.make [("type", .string "tool_use"), ("id", .string id),
      ("name", .string name), ("input", Json.make [])]

def deltaJson : Delta → Json
  | .text text => Json.make [("type", .string "text_delta"), ("text", .string text)]
  | .inputJson partialJson => Json.make [("type", .string "input_json_delta"),
      ("partial_json", .string partialJson)]

def eventType : StreamEvent → String
  | .messageStart _ _ _ => "message_start"
  | .ping => "ping"
  | .contentBlockStart _ _ => "content_block_start"
  | .contentBlockDelta _ _ => "content_block_delta"
  | .contentBlockStop _ => "content_block_stop"
  | .messageDelta _ _ => "message_delta"
  | .messageStop => "message_stop"

def eventData (event : StreamEvent) : Json :=
  Json.make (("type", .string (eventType event)) :: match event with
    | .messageStart id model inputTokens =>
        [("message", Json.make [("id", id), ("type", .string "message"),
          ("role", .string "assistant"), ("model", .string model), ("content", .array []),
          ("stop_reason", .null), ("stop_sequence", .null),
          ("usage", Json.make [("input_tokens", .ofInt inputTokens),
            ("output_tokens", .ofInt 0)])])]
    | .contentBlockStart index block =>
        [("index", .ofInt index), ("content_block", blockJson block)]
    | .contentBlockDelta index delta => [("index", .ofInt index), ("delta", deltaJson delta)]
    | .contentBlockStop index => [("index", .ofInt index)]
    | .messageDelta stopReason outputTokens =>
        [("delta", Json.make [("stop_reason", .string stopReason), ("stop_sequence", .null)]),
          ("usage", Json.make [("output_tokens", .ofInt outputTokens)])]
    | .ping | .messageStop => [])

def sseEvent (codec : Codec) (event : StreamEvent) : String :=
  "event: " ++ eventType event ++ "\ndata: " ++ codec.toString (eventData event) ++ "\n\n"

end Ccflare.OpenAiStream
