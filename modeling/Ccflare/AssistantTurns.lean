import Ccflare.ConversationTranslation

/-!
An assistant turn on its way to an OpenAI upstream and back. The encoder joins the texts and
writes each tool input into a string; the decoder of responses reads both again. An answer whose
message is the one that was sent holds the turn: its text, then its tool uses.
-/

namespace Ccflare.AssistantTurns

open ConversationTranslation hiding toolUseBlock
open JsonValue OpenAiFormat

/-- The one OpenAI message an assistant turn is sent as. -/
def turnMessage (codec : Codec) (texts : List String) (uses : List (String × String × Json)) :
    Json :=
  Json.make ([("role", .string "assistant"), ("content",
    if texts = [] then .null else .string (Text.joinWith "" texts))] ++
      if uses = [] then [] else [("tool_calls", .array (uses.map (callEntry codec)))])

/-- A tool-use block with its three fields. -/
def useBlock (use : String × String × Json) : Json :=
  Json.make [("type", .string "tool_use"), ("id", .string use.1), ("name", .string use.2.1),
    ("input", use.2.2)]

/-- One text block with all of the text, or none. -/
def joinedText (texts : List String) : List Json :=
  if Text.joinWith "" texts = "" then []
  else [Json.make [("type", .string "text"), ("text", .string (Text.joinWith "" texts))]]

theorem turn_converted (codec : Codec) (blocks : List Json) (items : List Block)
    (blocksRead : blocks.mapM Block.read = some items) :
    convertContentBlocks codec "assistant" blocks =
      [turnMessage codec (items.filterMap Block.textPart)
        (items.filterMap Block.toolUsePart)] := by
  have buckets := buckets_read codec blocks [] items blocksRead
  have empty : sorted codec [] = ⟨[], [], []⟩ := rfl
  rw [empty, List.nil_append] at buckets
  unfold convertContentBlocks turnMessage
  rw [buckets]
  simp only [sorted, if_true, List.isEmpty_iff, List.map_eq_nil_iff]
  split <;> simp

theorem message_content_field (codec : Codec) (texts : List String)
    (uses : List (String × String × Json)) :
    (turnMessage codec texts uses).get "content" =
      some (if texts = [] then .null else .string (Text.joinWith "" texts)) := by
  unfold turnMessage
  rw [Json.get_make]
  by_cases none : uses = [] <;> simp [none, Json.field]

theorem message_tool_calls (codec : Codec) (texts : List String)
    (uses : List (String × String × Json)) :
    (((turnMessage codec texts uses).get "tool_calls").bind Json.asArray).getD [] =
      uses.map (callEntry codec) := by
  unfold turnMessage
  rw [Json.get_make]
  by_cases none : uses = [] <;> simp [none, Json.field, Json.asArray]

theorem text_decoded (codec : Codec) (texts : List String) (uses : List (String × String × Json)) :
    textBlocks (turnMessage codec texts uses) = joinedText texts := by
  unfold textBlocks Json.getStr joinedText
  rw [message_content_field]
  by_cases none : texts = []
  · simp [none, Json.asStr, Text.joinWith]
  · simp [none, Json.asStr]

/-- The arguments of a call are parsed back into the input they were printed from. -/
theorem use_decoded (codec : Codec) (use : String × String × Json)
    (reread : codec.fromStr (codec.toString use.2.2) = some use.2.2) :
    toolUseBlock codec (callEntry codec use) = some (useBlock use) := by
  have func : (callEntry codec use).get "function" = some (Json.make [("name", .string use.2.1),
      ("arguments", .string (codec.toString use.2.2))]) := by
    rw [callEntry, Json.get_make]
    rfl
  have id : (callEntry codec use).getStr "id" = some use.1 := by
    rw [Json.getStr, callEntry, Json.get_make]
    rfl
  have name : (Json.make [("name", .string use.2.1),
      ("arguments", .string (codec.toString use.2.2))]).getStr "name" = some use.2.1 := by
    rw [Json.getStr, Json.get_make]
    rfl
  have arguments : (Json.make [("name", .string use.2.1),
      ("arguments", .string (codec.toString use.2.2))]).getStr "arguments" =
        some (codec.toString use.2.2) := by
    rw [Json.getStr, Json.get_make]
    rfl
  simp [toolUseBlock, func, id, name, arguments, reread, useBlock]

theorem uses_decoded (codec : Codec) (uses : List (String × String × Json))
    (reread : ∀ use ∈ uses, codec.fromStr (codec.toString use.2.2) = some use.2.2) :
    (uses.map (callEntry codec)).filterMap (toolUseBlock codec) = uses.map useBlock := by
  induction uses with
  | nil => rfl
  | cons use rest ih =>
      rw [List.map_cons, List.filterMap_cons_some (use_decoded codec use (reread use (by simp))),
        ih fun later member => reread later (List.mem_cons_of_mem _ member), List.map_cons]

theorem response_content (codec : Codec) (response choice message : Json) (others : List Json)
    (choices : (response.get "choices").bind Json.asArray = some (choice :: others))
    (chosen : choice.get "message" = some message) :
    ∃ answer, anthropicResponse codec response = some answer ∧
      answer.get "content" = some (.array (messageContent codec message)) := by
  obtain ⟨value, held, isArray⟩ := Option.bind_eq_some_iff.mp choices
  refine ⟨_, by simp only [anthropicResponse, held, isArray, Option.bind_some, chosen,
    List.head?_cons, Option.bind_eq_bind, Option.pure_def]; rfl, ?_⟩
  rw [Json.get_make]
  rfl

/-- A turn of text and tool-use blocks comes back as its joined text and its tool uses, whatever
else the response says around the message. -/
theorem turn_round_trip (codec : Codec) (blocks : List Json) (items : List Block)
    (blocksRead : blocks.mapM Block.read = some items)
    (inputs : ∀ use ∈ items.filterMap Block.toolUsePart,
      codec.fromStr (codec.toString use.2.2) = some use.2.2) :
    ∃ message, convertContentBlocks codec "assistant" blocks = [message] ∧
      ∀ response choice others,
        (response.get "choices").bind Json.asArray = some (choice :: others) →
        choice.get "message" = some message →
        codec.fromSlice (codec.toVec response) = some response →
        ∃ answer, openaiToAnthropicResponse codec (codec.toVec response) =
            some (codec.toVec answer) ∧
          answer.get "content" = some (.array (joinedText (items.filterMap Block.textPart) ++
            (items.filterMap Block.toolUsePart).map useBlock)) := by
  refine ⟨_, turn_converted codec blocks items blocksRead,
    fun response choice others choices chosen reread => ?_⟩
  obtain ⟨answer, decoded, content⟩ := response_content codec response choice _ others choices chosen
  refine ⟨answer, by simp [openaiToAnthropicResponse, reread, decoded], ?_⟩
  rw [content, messageContent, text_decoded, message_tool_calls, uses_decoded codec _ inputs]

def lookBlocks : List Json :=
  [textBlock "I ", useBlock ("t1", "ls", Json.make []), textBlock "look."]

def lookResponse : Json := Json.make [("choices", .array [Json.make
  [("message", Json.make [("role", .string "assistant"), ("content", .string "I look."),
    ("tool_calls", .array [listingCall])])]])]

def lookResponseText : String :=
  "\x7b\"choices\":[\x7b\"message\":\x7b\"content\":\"I look.\",\"role\":\"assistant\"," ++
    "\"tool_calls\":[\x7b\"function\":\x7b\"arguments\":\"\x7b\x7d\",\"name\":\"ls\"\x7d,\"id\":\"t1\"," ++
    "\"type\":\"function\"\x7d]\x7d\x7d]\x7d"

def lookAnswer : Json := Json.make [("id", .string "msg_unknown"), ("type", .string "message"),
  ("role", .string "assistant"), ("model", .string "unknown"),
  ("content", .array [textBlock "I look.", useBlock ("t1", "ls", Json.make [])]),
  ("stop_reason", .string "end_turn"), ("stop_sequence", .null),
  ("usage", Json.make [("input_tokens", .ofInt 0), ("output_tokens", .ofInt 0)])]

def lookAnswerText : String :=
  "\x7b\"content\":[\x7b\"text\":\"I look.\",\"type\":\"text\"\x7d," ++
    "\x7b\"id\":\"t1\",\"input\":\x7b\x7d,\"name\":\"ls\",\"type\":\"tool_use\"\x7d],\"id\":\"msg_unknown\"," ++
    "\"model\":\"unknown\",\"role\":\"assistant\",\"stop_reason\":\"end_turn\"," ++
    "\"stop_sequence\":null,\"type\":\"message\"," ++
    "\"usage\":\x7b\"input_tokens\":0,\"output_tokens\":0\x7d\x7d"

def lookCodec : Codec := .ofTable [("\x7b\x7d", Json.make []), (lookResponseText, lookResponse),
  (lookAnswerText, lookAnswer)]

theorem look_response_reread :
    lookCodec.fromSlice (lookCodec.toVec lookResponse) = some lookResponse := by
  have printed : lookCodec.toString lookResponse = lookResponseText := by decide +kernel
  rw [Codec.toVec, printed]
  exact Codec.of_table_reads _ (by decide +kernel) _ _ (by simp)

theorem look_round_trip :
    openaiToAnthropicResponse lookCodec (lookCodec.toVec lookResponse) =
      some lookAnswerText.toUTF8 ∧
    ∃ answer, openaiToAnthropicResponse lookCodec (lookCodec.toVec lookResponse) =
        some (lookCodec.toVec answer) ∧
      answer.get "content" = some (.array (joinedText ["I ", "look."] ++
        [useBlock ("t1", "ls", Json.make [])])) := by
  obtain ⟨message, converted, decoded⟩ := turn_round_trip lookCodec lookBlocks
    [.text "I ", .toolUse "t1" "ls" (Json.make []), .text "look."] (by decide +kernel)
    (by decide +kernel)
  have sent : convertContentBlocks lookCodec "assistant" lookBlocks =
      [Json.make [("role", .string "assistant"), ("content", .string "I look."),
        ("tool_calls", .array [listingCall])]] := by
    decide +kernel
  obtain rfl := (List.cons.inj (sent.symm.trans converted)).1
  have answered : anthropicResponse lookCodec lookResponse = some lookAnswer := by decide +kernel
  have printed : lookCodec.toString lookAnswer = lookAnswerText := by decide +kernel
  have written : lookAnswerText.toUTF8 = lookCodec.toVec lookAnswer := by
    rw [Codec.toVec, printed]
  refine ⟨?_, decoded lookResponse _ [] rfl rfl look_response_reread⟩
  rw [written]
  simp [openaiToAnthropicResponse, look_response_reread, answered]

end Ccflare.AssistantTurns
