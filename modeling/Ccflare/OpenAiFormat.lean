import Ccflare.JsonValue
import Ccflare.Text

/-!
Translation of whole bodies between the Anthropic Messages format and the
OpenAI Chat Completions format, after `openai_format.rs`. Each message of a
request yields a group of OpenAI messages; the request holds the system message
and then the groups one after another.
-/

namespace Ccflare.OpenAiFormat

open JsonValue

def mapFinishReason (reason : Option String) : String :=
  if reason = some "stop" then "end_turn"
  else if reason = some "length" then "max_tokens"
  else if reason = some "function_call" ∨ reason = some "tool_calls" then "tool_use"
  else if reason = some "content_filter" then "stop_sequence"
  else "end_turn"

/-- The three buckets `convert_content_blocks` sorts the blocks into. -/
structure Buckets where
  textParts : List String
  toolCalls : List Json
  toolResults : List (String × String)

def toolCall (codec : Codec) (block : Json) : Json :=
  let input := (block.get "input").getD (Json.make [])
  Json.make [("id", .string ((block.getStr "id").getD "")), ("type", .string "function"),
    ("function", Json.make [("name", .string ((block.getStr "name").getD "")),
      ("arguments", .string (codec.toString input))])]

-- A string, or the text of the first block of an array.
def resultContent (block : Json) : String :=
  ((block.get "content").bind fun content =>
    content.asStr.or (content.asArray.bind fun blocks =>
      blocks.head?.bind fun first => first.getStr "text")).getD ""

def toolResult (block : Json) : String × String :=
  ((block.getStr "tool_use_id").getD "", resultContent block)

def Buckets.add (codec : Codec) (buckets : Buckets) (block : Json) : Buckets :=
  let blockType := (block.getStr "type").getD ""
  if blockType = "text" then
    match block.getStr "text" with
    | some text => { buckets with textParts := buckets.textParts ++ [text] }
    | none => buckets
  else if blockType = "tool_use" then
    { buckets with toolCalls := buckets.toolCalls ++ [toolCall codec block] }
  else if blockType = "tool_result" then
    { buckets with toolResults := buckets.toolResults ++ [toolResult block] }
  else buckets

def toolMessage (result : String × String) : Json :=
  Json.make [("role", .string "tool"), ("tool_call_id", .string result.1),
    ("content", .string result.2)]

/-- The messages `convert_content_blocks` pushes. -/
def convertContentBlocks (codec : Codec) (role : String) (blocks : List Json) : List Json :=
  let buckets := blocks.foldl (Buckets.add codec) ⟨[], [], []⟩
  if role = "assistant" then
    let content := if buckets.textParts.isEmpty then .null
      else Json.string (Text.joinWith "" buckets.textParts)
    if buckets.toolCalls.isEmpty then
      [Json.make [("role", .string "assistant"), ("content", content)]]
    else
      [Json.make [("role", .string "assistant"), ("content", content),
        ("tool_calls", .array buckets.toolCalls)]]
  else if ¬ buckets.toolResults.isEmpty then buckets.toolResults.map toolMessage
  else
    [Json.make [("role", .string role),
      ("content", .string (Text.joinWith "" buckets.textParts))]]

def systemMessages (body : Json) : List Json :=
  let message text := if text = "" then []
    else [Json.make [("role", .string "system"), ("content", .string text)]]
  match body.get "system" with
  | some (.string text) => message text
  | some (.array blocks) =>
      message (Text.joinWith "\n" (blocks.filterMap fun block => block.getStr "text"))
  | _ => []

/-- The messages one message of the request is turned into. -/
def messageGroup (codec : Codec) (msg : Json) : List Json :=
  let role := (msg.getStr "role").getD ""
  match msg.get "content" with
  | some (.string text) => [Json.make [("role", .string role), ("content", .string text)]]
  | some (.array blocks) => convertContentBlocks codec role blocks
  | _ => [Json.make [("role", .string role), ("content", .null)]]

def requestMessages (body : Json) : List Json := ((body.get "messages").bind Json.asArray).getD []

def kept (body : Json) (key target : String) : List (String × Json) :=
  ((body.get key).map fun value => (target, value)).toList

def streamFields (body : Json) : List (String × Json) :=
  match body.get "stream" with
  | some stream => ("stream", stream) ::
      if stream.asBool = some true then
        [("stream_options", Json.make [("include_usage", .bool true)])]
      else []
  | none => []

def functionTool (tool : Json) : Option Json :=
  (tool.getStr "name").map fun name =>
    Json.make [("type", .string "function"), ("function", Json.make
      ([("name", .string name)] ++ kept tool "description" "description" ++
        kept tool "input_schema" "parameters"))]

def toolFields (body : Json) : List (String × Json) :=
  match body.get "tools" with
  | some (.array tools) =>
      let oaiTools := tools.filterMap functionTool
      if oaiTools.isEmpty then [] else [("tools", .array oaiTools)]
  | _ => []

def openaiRequest (codec : Codec) (body : Json) : Json :=
  let messages := systemMessages body ++ (requestMessages body).flatMap (messageGroup codec)
  Json.make (kept body "model" "model" ++ [("messages", .array messages)] ++
    kept body "max_tokens" "max_tokens" ++ kept body "temperature" "temperature" ++
    kept body "top_p" "top_p" ++ kept body "top_k" "top_k" ++
    kept body "stop_sequences" "stop" ++ streamFields body ++ toolFields body)

def anthropicToOpenaiRequest (codec : Codec) (body : ByteArray) : Option ByteArray := do
  let input ← codec.fromSlice body
  let _ ← input.asObject
  return codec.toVec (openaiRequest codec input)

def textBlocks (message : Json) : List Json :=
  match message.getStr "content" with
  | some text => if text = "" then []
      else [Json.make [("type", .string "text"), ("text", .string text)]]
  | none => []

def toolUseBlock (codec : Codec) (tc : Json) : Option Json :=
  (tc.get "function").map fun func =>
    let argsStr := (func.getStr "arguments").getD "\x7b\x7d"
    let input := (codec.fromStr argsStr).getD (Json.make [])
    Json.make [("type", .string "tool_use"), ("id", .string ((tc.getStr "id").getD "")),
      ("name", .string ((func.getStr "name").getD "")), ("input", input)]

def messageContent (codec : Codec) (message : Json) : List Json :=
  textBlocks message ++
    (((message.get "tool_calls").bind Json.asArray).getD []).filterMap (toolUseBlock codec)

def anthropicResponse (codec : Codec) (input : Json) : Option Json := do
  let choices ← (input.get "choices").bind Json.asArray
  let choice ← choices.head?
  let message ← choice.get "message"
  let usage := (input.get "usage").getD (Json.make [])
  return Json.make [("id", (input.get "id").getD (.string "msg_unknown")),
    ("type", .string "message"), ("role", .string "assistant"),
    ("model", .string ((input.getStr "model").getD "unknown")),
    ("content", .array (messageContent codec message)),
    ("stop_reason", .string (mapFinishReason (choice.getStr "finish_reason"))),
    ("stop_sequence", .null),
    ("usage", Json.make [("input_tokens", (usage.get "prompt_tokens").getD (.ofInt 0)),
      ("output_tokens", (usage.get "completion_tokens").getD (.ofInt 0))])]

def openaiToAnthropicResponse (codec : Codec) (body : ByteArray) : Option ByteArray := do
  let input ← codec.fromSlice body
  let response ← anthropicResponse codec input
  return codec.toVec response

end Ccflare.OpenAiFormat
