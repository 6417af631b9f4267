import Ccflare.OpenAiFormat

/-!
What a translated conversation keeps. A request is read as messages of text,
tool-use and tool-result blocks, with whatever other fields its documents hold.
The buckets of a message are what its blocks say, in order; one of three output
shapes then decides which of the buckets is sent. The condition under which
nothing is dropped is a condition on the blocks of each message alone.
-/

namespace Ccflare.ConversationTranslation

open JsonValue OpenAiFormat

inductive ResultContent where
  | text (value : String)
  | blocks (texts : List String)
  deriving DecidableEq

inductive Block where
  | text (value : String)
  | toolUse (id name : String) (input : Json)
  | toolResult (toolUseId : String) (content : ResultContent)
  deriving DecidableEq

inductive Content where
  | text (value : String)
  | blocks (items : List Block)
  deriving DecidableEq

structure Message where
  role : String
  content : Content
  deriving DecidableEq

def textOf (block : Json) : Option String :=
  if block.getStr "type" = some "text" then block.getStr "text" else none

def ResultContent.read : Json → Option ResultContent
  | .string value => some (.text value)
  | .array items => (items.mapM textOf).map ResultContent.blocks
  | .null | .bool _ | .number _ | .object _ => none

def Block.read (block : Json) : Option Block :=
  if block.getStr "type" = some "tool_use" then do
    let id ← block.getStr "id"
    let name ← block.getStr "name"
    let input ← block.get "input"
    return .toolUse id name input
  else if block.getStr "type" = some "tool_result" then do
    let toolUseId ← block.getStr "tool_use_id"
    let content ← (block.get "content").bind ResultContent.read
    return .toolResult toolUseId content
  else (textOf block).map .text

def Content.read : Json → Option Content
  | .string value => some (.text value)
  | .array items => (items.mapM Block.read).map Content.blocks
  | .null | .bool _ | .number _ | .object _ => none

def Message.read (msg : Json) : Option Message := do
  let role ← msg.getStr "role"
  let content ← (msg.get "content").bind Content.read
  return ⟨role, content⟩

/-- The conversation a request holds, if its messages have the documented shapes. -/
def conversation (input : Json) : Option (List Message) := do
  let messages ← (input.get "messages").bind Json.asArray
  messages.mapM Message.read

def ResultContent.fullText : ResultContent → String
  | .text value => value
  | .blocks texts => Text.joinWith "" texts

/-- The one text of a tool result that is sent on. -/
def ResultContent.sent : ResultContent → String
  | .text value => value
  | .blocks texts => texts.head?.getD ""

def Block.textPart : Block → Option String
  | .text value => some value
  | .toolUse _ _ _ | .toolResult _ _ => none

def Block.toolUsePart : Block → Option (String × String × Json)
  | .toolUse id name input => some (id, name, input)
  | .text _ | .toolResult _ _ => none

def Block.toolResultPart : Block → Option (String × ResultContent)
  | .toolResult toolUseId content => some (toolUseId, content)
  | .text _ | .toolUse _ _ _ => none

def Content.texts : Content → List String
  | .text value => [value]
  | .blocks items => items.filterMap Block.textPart

def Content.toolUses : Content → List (String × String × Json)
  | .text _ => []
  | .blocks items => items.filterMap Block.toolUsePart

def Content.toolResults : Content → List (String × ResultContent)
  | .text _ => []
  | .blocks items => items.filterMap Block.toolResultPart

/-- A text can be read in a group of output messages; an empty one is never missing. -/
def Occurs (text : String) (group : List Json) : Prop :=
  text = "" ∨ ∃ message ∈ group, ∃ content, message.getStr "content" = some content ∧
    Text.contains text content = true

def Called (codec : Codec) (use : String × String × Json) (group : List Json) : Prop :=
  ∃ message ∈ group, ∃ calls, (message.get "tool_calls").bind Json.asArray = some calls ∧
    ∃ call ∈ calls, call.getStr "id" = some use.1 ∧ ∃ func, call.get "function" = some func ∧
      func.getStr "name" = some use.2.1 ∧
      func.getStr "arguments" = some (codec.toString use.2.2)

def outputs (group : List Json) : List Json :=
  group.filter fun message => message.getStr "role" = some "tool"

/-- The whole text of a tool result is in its own output message, that of its place among the
results, under its id. -/
def Returned (place : Nat) (result : String × ResultContent) (group : List Json) : Prop :=
  result.2.fullText = "" ∨ ∃ message, (outputs group)[place]? = some message ∧
    message.getStr "tool_call_id" = some result.1 ∧
    ∃ content, message.getStr "content" = some content ∧
      Text.contains result.2.fullText content = true

/-- A group of output messages carries the whole content of a message. -/
structure Carries (codec : Codec) (content : Content) (group : List Json) : Prop where
  texts : ∀ text ∈ content.texts, Occurs text group
  toolUses : ∀ use ∈ content.toolUses, Called codec use group
  results : ∀ place result, content.toolResults[place]? = some result → Returned place result group

/-- The translated request holds one group for each message, in the order of the
messages, and each group carries its message. -/
structure LosesNothing (codec : Codec) (body : ByteArray) (input : Json)
    (messages : List Message) : Prop where
  translated : anthropicToOpenaiRequest codec body = some (codec.toVec (openaiRequest codec input))
  ordered : (openaiRequest codec input).get "messages" = some (.array
    (systemMessages input ++ ((requestMessages input).map (messageGroup codec)).flatten))
  carried : List.Forall₂ (fun message group => Carries codec message.content group) messages
    ((requestMessages input).map (messageGroup codec))

-- A text among the parts that are joined, or in a text that contains it.
def ReadIn (text : String) (sent : List String) : Prop :=
  text = "" ∨ ∃ content ∈ sent, Text.contains text content = true

/-- Of a result of several blocks only the first is sent: the others are empty. -/
def ResultContent.Whole : ResultContent → Prop
  | .text _ => True
  | .blocks texts => ∀ text ∈ texts.tail, text = ""

/-- The tool results of an assistant turn are not sent: they are empty. -/
def Content.ReturnsNothing (content : Content) : Prop :=
  ∀ result ∈ content.toolResults, result.2.fullText = ""

/-- Beside tool results nothing else of a turn is sent: what is sent of them says it all. -/
def Content.ReadInResults (content : Content) : Prop :=
  content.toolUses = [] ∧ (content.toolResults = [] ∨
    (∀ text ∈ content.texts,
      ReadIn text (content.toolResults.map fun result => result.2.sent)) ∧
    ∀ result ∈ content.toolResults, result.2.Whole)

/-- The messages whose content survives the choice of an output shape. -/
def Keeps (message : Message) : Prop :=
  match message.content with
  | .text _ => True
  | .blocks items =>
      if message.role = "assistant" then (Content.blocks items).ReturnsNothing
      else (Content.blocks items).ReadInResults

instance (text : String) (sent : List String) : Decidable (ReadIn text sent) :=
  inferInstanceAs (Decidable (_ ∨ _))

instance (result : ResultContent) : Decidable result.Whole :=
  match result with
  | .text _ => inferInstanceAs (Decidable True)
  | .blocks texts => inferInstanceAs (Decidable (∀ text ∈ texts.tail, text = ""))

instance (content : Content) : Decidable content.ReturnsNothing :=
  inferInstanceAs (Decidable (∀ result ∈ content.toolResults, result.2.fullText = ""))

instance (content : Content) : Decidable content.ReadInResults :=
  inferInstanceAs (Decidable (_ ∧ (_ ∨ (∀ text ∈ _, ReadIn text _) ∧
    ∀ result ∈ content.toolResults, result.2.Whole)))

instance (message : Message) : Decidable (Keeps message) :=
  match message with
  | ⟨_, .text _⟩ => inferInstanceAs (Decidable True)
  | ⟨_, .blocks _⟩ => inferInstanceAs (Decidable (ite _ _ _))

/-- The entry of `tool_calls` a tool use becomes. -/
def callEntry (codec : Codec) (use : String × String × Json) : Json :=
  Json.make [("id", .string use.1), ("type", .string "function"),
    ("function", Json.make [("name", .string use.2.1),
      ("arguments", .string (codec.toString use.2.2))])]

/-- What the three buckets hold of some blocks. -/
def sorted (codec : Codec) (items : List Block) : Buckets where
  textParts := items.filterMap Block.textPart
  toolCalls := (items.filterMap Block.toolUsePart).map (callEntry codec)
  toolResults := (items.filterMap Block.toolResultPart).map fun result =>
    (result.1, result.2.sent)

theorem all_read {α β : Type} (read : α → Option β) (inputs : List α) (outputs : List β)
    (success : inputs.mapM read = some outputs) :
    List.Forall₂ (fun input output => read input = some output) inputs outputs := by
  induction inputs generalizing outputs with
  | nil =>
      obtain rfl : outputs = [] := by simpa using success.symm
      exact List.Forall₂.nil
  | cons input rest ih =>
      simp only [List.mapM_cons, Option.bind_eq_bind, Option.bind_eq_some_iff, Option.pure_def,
        Option.some.injEq] at success
      obtain ⟨output, first, others, later, rfl⟩ := success
      exact List.Forall₂.cons first (ih others later)

theorem result_content_read (json : Json) (content : ResultContent)
    (success : ResultContent.read json = some content) :
    (json.asStr.or (json.asArray.bind fun blocks =>
      blocks.head?.bind fun first => first.getStr "text")).getD "" = content.sent := by
  cases json with
  | string value =>
      obtain rfl := Option.some.inj success
      rfl
  | array items =>
      obtain ⟨texts, found, rfl⟩ := Option.map_eq_some_iff.mp success
      cases all_read _ _ _ found with
      | nil => rfl
      | cons first _ =>
          unfold textOf at first
          split at first
          · simp [Json.asStr, Json.asArray, first, ResultContent.sent]
          · cases first
  | null | bool _ | number _ | object _ => cases success

/-- Reading a block, the converter fills the bucket the block belongs to. -/
theorem add_read (codec : Codec) (block : Json) (item : Block) (items : List Block)
    (success : Block.read block = some item) :
    Buckets.add codec (sorted codec items) block = sorted codec (items ++ [item]) := by
  unfold Block.read at success
  split at success
  case isTrue use =>
    simp only [Option.bind_eq_bind, Option.bind_eq_some_iff, Option.pure_def,
      Option.some.injEq] at success
    obtain ⟨id, hasId, name, hasName, input, hasInput, rfl⟩ := success
    simp [Buckets.add, use, sorted, toolCall, callEntry, hasId, hasName, hasInput,
      Block.textPart, Block.toolUsePart, Block.toolResultPart]
  case isFalse notUse =>
    split at success
    case isTrue result =>
      simp only [Option.bind_eq_bind, Option.bind_eq_some_iff, Option.pure_def,
        Option.some.injEq] at success
      obtain ⟨toolUseId, hasId, content, ⟨json, hasContent, contentRead⟩, rfl⟩ := success
      have sent := result_content_read json content contentRead
      simp [Buckets.add, result, sorted, toolResult, resultContent, hasId, hasContent, sent,
        Block.textPart, Block.toolUsePart, Block.toolResultPart]
    case isFalse notResult =>
      obtain ⟨value, found, rfl⟩ := Option.map_eq_some_iff.mp success
      unfold textOf at found
      split at found
      case isTrue text =>
        simp [Buckets.add, text, sorted, found, Block.textPart, Block.toolUsePart,
          Block.toolResultPart]
      case isFalse notText => cases found

theorem buckets_read (codec : Codec) (blocks : List Json) (before items : List Block)
    (success : blocks.mapM Block.read = some items) :
    blocks.foldl (Buckets.add codec) (sorted codec before) = sorted codec (before ++ items) := by
  have blockwise := all_read _ _ _ success
  clear success
  induction blockwise generalizing before with
  | nil => simp
  | @cons block item rest others first _ ih =>
      rw [List.foldl_cons, add_read codec block item before first, ih (before ++ [item]),
        List.append_assoc, List.singleton_append]

/-- The group of a message, from what was read of it. -/
def group (codec : Codec) (message : Message) : List Json :=
  match message.content with
  | .text value => [Json.make [("role", .string message.role), ("content", .string value)]]
  | .blocks items =>
      let texts := (Content.blocks items).texts
      let calls := (Content.blocks items).toolUses.map (callEntry codec)
      let results := (Content.blocks items).toolResults
      if message.role = "assistant" then
        [Json.make ([("role", .string "assistant"), ("content",
          if texts = [] then .null else .string (Text.joinWith "" texts))] ++
          if calls = [] then [] else [("tool_calls", .array calls)])]
      else if results = [] then
        [Json.make [("role", .string message.role),
          ("content", .string (Text.joinWith "" texts))]]
      else results.map fun result => toolMessage (result.1, result.2.sent)

theorem group_read (codec : Codec) (msg : Json) (message : Message)
    (success : Message.read msg = some message) :
    messageGroup codec msg = group codec message := by
  simp only [Message.read, Option.bind_eq_bind, Option.bind_eq_some_iff, Option.pure_def,
    Option.some.injEq] at success
  obtain ⟨role, hasRole, content, ⟨json, hasContent, contentRead⟩, rfl⟩ := success
  cases json with
  | string value =>
      obtain rfl := Option.some.inj contentRead
      simp [messageGroup, group, hasRole, hasContent]
  | array blocks =>
      obtain ⟨items, found, rfl⟩ := Option.map_eq_some_iff.mp contentRead
      have buckets : blocks.foldl (Buckets.add codec) ⟨[], [], []⟩ = sorted codec items :=
        buckets_read codec blocks [] items found
      simp only [messageGroup, hasRole, hasContent, Option.getD_some, convertContentBlocks,
        buckets, sorted, group, Content.texts, Content.toolUses,
        Content.toolResults, List.isEmpty_iff, List.map_eq_nil_iff, List.map_map]
      by_cases assistant : role = "assistant"
      · by_cases calls : items.filterMap Block.toolUsePart = [] <;> simp [assistant, calls]
      · by_cases results : items.filterMap Block.toolResultPart = []
        · simp [assistant, results]
        · simp only [assistant, results, not_false_eq_true, ↓reduceIte]
          rfl
  | null | bool _ | number _ | object _ => cases contentRead

theorem occurs_iff (text : String) (messages : List Json) :
    Occurs text messages ↔ ReadIn text (messages.filterMap (Json.getStr "content")) := by
  simp only [Occurs, ReadIn, List.mem_filterMap]
  apply or_congr_right
  constructor
  · rintro ⟨message, member, content, said, hit⟩
    exact ⟨content, ⟨message, member, said⟩, hit⟩
  · rintro ⟨content, ⟨message, member, said⟩, hit⟩
    exact ⟨message, member, content, said, hit⟩

theorem read_in_parts (parts : List String) (text : String) (member : text ∈ parts) :
    ReadIn text [Text.joinWith "" parts] :=
  Or.inr ⟨_, List.mem_singleton_self _, Text.join_contains parts text member⟩

theorem joined_empty_iff (parts : List String) :
    Text.joinWith "" parts = "" ↔ ∀ part ∈ parts, part = "" := by
  induction parts with
  | nil => simp [Text.joinWith]
  | cons first rest ih =>
      cases rest with
      | nil => simp [Text.joinWith]
      | cons next rest =>
          rw [Text.join_with_cons, String.append_empty, String.append_eq_empty_iff, ih]
          simp

theorem read_in_nothing (text : String) : ReadIn text [""] ↔ ReadIn text [] := by
  simp only [ReadIn, List.mem_singleton, exists_eq_left, List.not_mem_nil, false_and,
    exists_false, or_false, or_iff_left_iff_imp]
  intro hit
  obtain ⟨before, after, same⟩ := (Text.contains_iff text "").mp hit
  have empty : before = "" ∧ text = "" ∧ after = "" := by
    simpa [String.append_eq_empty_iff, and_assoc] using same
  exact empty.2.1

/-- What is sent of a result holds all of it exactly if no block after the first has a text. -/
theorem sent_whole_iff (result : ResultContent) :
    Text.contains result.fullText result.sent = true ↔ result.Whole := by
  cases result with
  | text value => exact iff_of_true (Text.contains_self value) trivial
  | blocks texts =>
      cases texts with
      | nil => exact iff_of_true (Text.contains_self "") nofun
      | cons first rest =>
          have joined : Text.joinWith "" (first :: rest) = first ++ Text.joinWith "" rest := by
            cases rest with
            | nil => simp [Text.joinWith]
            | cons next rest => rw [Text.join_with_cons, String.append_empty]
          have whole : Text.contains (first ++ Text.joinWith "" rest) first = true ↔
              Text.joinWith "" rest = "" := by
            constructor
            · intro hit
              obtain ⟨before, after, same⟩ := (Text.contains_iff _ first).mp hit
              have lengths := congrArg String.length same
              simp only [String.length_append] at lengths
              exact String.length_eq_zero_iff.mp (by omega)
            · intro empty
              rw [empty, String.append_empty]
              exact Text.contains_self first
          change Text.contains (Text.joinWith "" (first :: rest)) first = true ↔ _
          rw [joined, whole, joined_empty_iff]
          rfl

section Shapes

variable (codec : Codec) (items : List Block) (role : String)

theorem assistant_carries :
    Carries codec (.blocks items) (group codec ⟨"assistant", .blocks items⟩) ↔
      (Content.blocks items).ReturnsNothing := by
  generalize shape : group codec ⟨"assistant", .blocks items⟩ = messages
  have said (text : String) : Occurs text messages ↔
      ReadIn text [Text.joinWith "" (Content.blocks items).texts] := by
    rw [occurs_iff, ← shape]
    by_cases texts : (Content.blocks items).texts = []
    · rw [texts]
      refine Iff.trans ?_ (read_in_nothing text).symm
      by_cases calls : (Content.blocks items).toolUses = [] <;>
        simp [group, texts, calls, Json.getStr, Json.get_make, Json.field, Json.asStr]
    · by_cases calls : (Content.blocks items).toolUses = [] <;>
        simp [group, texts, calls, Json.getStr, Json.get_make, Json.field, Json.asStr]
  -- The one message of the turn is the assistant's own.
  have silent : outputs messages = [] := by
    rw [← shape]
    by_cases calls : (Content.blocks items).toolUses = [] <;>
      simp [outputs, group, calls, Json.getStr, Json.get_make, Json.field, Json.asStr]
  constructor
  · intro carries result member
    obtain ⟨place, found⟩ := List.mem_iff_getElem?.mp member
    rcases carries.results place result found with empty | ⟨message, held, -⟩
    · exact empty
    · rw [silent] at held
      cases held
  · intro nothing
    constructor
    · intro text member
      exact (said text).mpr (read_in_parts _ text member)
    · intro use member
      have calls : (Content.blocks items).toolUses ≠ [] := List.ne_nil_of_mem member
      simp only [← shape, group, ↓reduceIte, List.map_eq_nil_iff, calls]
      refine ⟨_, List.mem_singleton_self _, _, ?_, callEntry codec use,
        List.mem_map_of_mem member, ?_, ?_⟩
      · simp [Json.get_make, Json.field, Json.asArray]
      · simp [callEntry, Json.getStr, Json.get_make, Json.field, Json.asStr]
      · simp [callEntry, Json.getStr, Json.get_make, Json.field, Json.asStr]
    · intro place result found
      exact Or.inl (nothing result (List.mem_of_getElem? found))

/-- No other turn sends tool calls. -/
theorem other_calls_nothing (other : role ≠ "assistant") (use : String × String × Json) :
    ¬ Called codec use (group codec ⟨role, .blocks items⟩) := by
  rintro ⟨message, member, calls, has, -⟩
  simp only [group, other, ↓reduceIte] at member
  split at member
  · obtain rfl := List.mem_singleton.mp member
    simp [Json.get_make, Json.field] at has
  · obtain ⟨result, -, rfl⟩ := List.mem_map.mp member
    simp [toolMessage, Json.get_make, Json.field] at has

/-- Where no tool is called, what is said and what is returned decide. -/
theorem said_carries (content : Content) (messages : List Json) (sent : List String)
    (uncalled : ∀ use, ¬ Called codec use messages)
    (said : ∀ text, Occurs text messages ↔ ReadIn text sent) :
    Carries codec content messages ↔ content.toolUses = [] ∧
      (∀ text ∈ content.texts, ReadIn text sent) ∧
      ∀ place result, content.toolResults[place]? = some result →
        Returned place result messages := by
  constructor
  · intro carries
    refine ⟨?_, fun text member => (said text).mp (carries.texts text member), carries.results⟩
    apply List.eq_nil_iff_forall_not_mem.mpr
    intro use member
    exact uncalled use (carries.toolUses use member)
  · rintro ⟨noUse, spoken, returned⟩
    refine ⟨fun text member => (said text).mpr (spoken text member), ?_, returned⟩
    simp [noUse]

theorem output_message (result : String × String) :
    (toolMessage result).getStr "role" = some "tool" ∧
      (toolMessage result).getStr "tool_call_id" = some result.1 ∧
      (toolMessage result).getStr "content" = some result.2 := by
  simp [toolMessage, Json.getStr, Json.get_make, Json.field, Json.asStr]

/-- Each result has an output message of its own, with what is sent of it. -/
theorem returned_iff (results : List (String × ResultContent)) :
    (∀ place result, results[place]? = some result →
      Returned place result (results.map fun result => toolMessage (result.1, result.2.sent))) ↔
    ∀ result ∈ results, result.2.Whole := by
  have all : outputs (results.map fun result => toolMessage (result.1, result.2.sent)) =
      results.map fun result => toolMessage (result.1, result.2.sent) := by
    apply List.filter_eq_self.mpr
    intro message member
    obtain ⟨result, -, rfl⟩ := List.mem_map.mp member
    simpa using (output_message (result.1, result.2.sent)).1
  constructor
  · intro returned result member
    obtain ⟨place, found⟩ := List.mem_iff_getElem?.mp member
    rw [← sent_whole_iff]
    rcases returned place result found with empty | ⟨message, held, -, content, said, hit⟩
    · rw [empty]
      exact (Text.contains_iff "" _).mpr ⟨"", result.2.sent, by simp⟩
    · rw [all, List.getElem?_map, found, Option.map_some] at held
      obtain rfl := Option.some.inj held
      rw [(output_message _).2.2] at said
      obtain rfl := Option.some.inj said
      exact hit
  · intro whole place result found
    obtain ⟨-, named, said⟩ := output_message (result.1, result.2.sent)
    refine Or.inr ⟨_, ?_, named, _, said, ?_⟩
    · rw [all, List.getElem?_map, found, Option.map_some]
    · exact (sent_whole_iff result.2).mpr (whole result (List.mem_of_getElem? found))

theorem other_carries (other : role ≠ "assistant") :
    Carries codec (.blocks items) (group codec ⟨role, .blocks items⟩) ↔
      (Content.blocks items).ReadInResults := by
  have uncalled := other_calls_nothing codec items role other
  by_cases results : (Content.blocks items).toolResults = []
  · have said (text : String) : Occurs text (group codec ⟨role, .blocks items⟩) ↔
        ReadIn text [Text.joinWith "" (Content.blocks items).texts] := by
      rw [occurs_iff]
      simp [group, other, results, Json.getStr, Json.get_make, Json.field, Json.asStr]
    rw [said_carries codec _ _ _ uncalled said, Content.ReadInResults]
    apply and_congr_right
    intro _
    exact iff_of_true ⟨fun text => read_in_parts _ text, by simp [results]⟩ (Or.inl results)
  · have shape : group codec ⟨role, .blocks items⟩ = (Content.blocks items).toolResults.map
        fun result => toolMessage (result.1, result.2.sent) := by
      simp [group, other, results]
    have said (text : String) : Occurs text (group codec ⟨role, .blocks items⟩) ↔
        ReadIn text ((Content.blocks items).toolResults.map fun result => result.2.sent) := by
      rw [occurs_iff, shape]
      simp [List.filterMap_map, (output_message _).2.2]
    rw [said_carries codec _ _ _ uncalled said, Content.ReadInResults, or_iff_right results, shape,
      returned_iff]

end Shapes

/-- The group of a message carries it when the message keeps its content. -/
theorem group_carries_iff (codec : Codec) (message : Message) :
    Carries codec message.content (group codec message) ↔ Keeps message := by
  obtain ⟨role, value | items⟩ := message
  · refine iff_of_true ⟨?_, ?_, ?_⟩ trivial
    · intro text member
      obtain rfl := List.mem_singleton.mp member
      rw [occurs_iff]
      exact Or.inr ⟨text, by simp [group, Json.getStr, Json.get_make, Json.field, Json.asStr],
        Text.contains_self text⟩
    · exact fun use member => absurd member List.not_mem_nil
    · exact fun place result found => absurd (List.mem_of_getElem? found) List.not_mem_nil
  · by_cases assistant : role = "assistant"
    · subst assistant
      exact assistant_carries codec items
    · simpa [Keeps, assistant] using other_carries codec items role assistant

theorem kept_elsewhere (body : Json) (key target other : String) (differs : other ≠ target) :
    Json.field other (kept body key target).reverse = none := by
  cases held : body.get key with
  | none => simp [kept, held, Json.field]
  | some value => simp [kept, held, Json.field, differs]

/-- No other field of the request takes the place of its messages. -/
theorem openai_messages (codec : Codec) (body : Json) :
    (openaiRequest codec body).get "messages" = some (.array
      (systemMessages body ++ (requestMessages body).flatMap (messageGroup codec))) := by
  have stream : Json.field "messages" (streamFields body).reverse = none := by
    unfold streamFields
    split
    · split <;> simp [Json.field]
    · rfl
  have tools : Json.field "messages" (toolFields body).reverse = none := by
    unfold toolFields
    split
    · dsimp only
      split <;> simp [Json.field]
    · rfl
  simp [openaiRequest, Json.get_make, Json.field_append, Json.field, kept_elsewhere, stream,
    tools]

theorem groups_carry_iff (codec : Codec) (inputs : List Json) (messages : List Message)
    (success : inputs.mapM Message.read = some messages) :
    List.Forall₂ (fun message group => Carries codec message.content group) messages
      (inputs.map (messageGroup codec)) ↔ ∀ message ∈ messages, Keeps message := by
  have paired := all_read _ _ _ success
  clear success
  induction paired with
  | nil => simp
  | @cons input message inputs messages first _ ih =>
      simp only [List.map_cons, List.forall₂_cons, ih, group_read codec input message first,
        group_carries_iff, List.forall_mem_cons]

/-- A request is translated without loss exactly when each of its messages keeps
its content. -/
theorem loses_nothing_iff (codec : Codec) (body : ByteArray) (input : Json)
    (messages : List Message) (parsed : codec.fromSlice body = some input)
    (read : conversation input = some messages) :
    LosesNothing codec body input messages ↔ ∀ message ∈ messages, Keeps message := by
  simp only [conversation, Option.bind_eq_bind, Option.bind_eq_some_iff] at read
  obtain ⟨inputs, ⟨array, hasMessages, isArray⟩, success⟩ := read
  have requested : requestMessages input = inputs := by
    simp [requestMessages, hasMessages, isArray]
  rw [← groups_carry_iff codec inputs messages success, ← requested]
  constructor
  · exact LosesNothing.carried
  · intro carried
    refine ⟨?_, ?_, carried⟩
    · cases input with
      | object fields => simp [anthropicToOpenaiRequest, parsed, Json.asObject]
      | null | bool _ | number _ | string _ | array _ => cases hasMessages
    · rw [openai_messages, List.flatMap_def]

def turn (role : String) (blocks : List Json) : Json :=
  Json.make [("role", .string role), ("content", .array blocks)]

def textBlock (text : String) : Json :=
  Json.make [("type", .string "text"), ("text", .string text)]

def toolUseBlock (id name : String) (input : Json) : Json :=
  Json.make [("type", .string "tool_use"), ("id", .string id), ("name", .string name),
    ("input", input)]

def toolResultBlock (toolUseId content : String) : Json :=
  Json.make [("type", .string "tool_result"), ("tool_use_id", .string toolUseId),
    ("content", .string content)]

def request (messages : List Json) : Json := Json.make [("messages", .array messages)]

def listing : Json := request
  [turn "assistant" [textBlock "I look.", toolUseBlock "t1" "ls" (Json.make [])],
    turn "user" [toolResultBlock "t1" "a.rs"]]

def listingText : String :=
  "\x7b\"messages\":[\x7b\"content\":[\x7b\"text\":\"I look.\",\"type\":\"text\"\x7d," ++
    "\x7b\"id\":\"t1\",\"input\":\x7b\x7d,\"name\":\"ls\",\"type\":\"tool_use\"\x7d]," ++
    "\"role\":\"assistant\"\x7d,\x7b\"content\":[\x7b\"content\":\"a.rs\"," ++
    "\"tool_use_id\":\"t1\",\"type\":\"tool_result\"\x7d],\"role\":\"user\"\x7d]\x7d"

def listingCall : Json :=
  Json.make [("id", .string "t1"), ("type", .string "function"), ("function",
    Json.make [("name", .string "ls"), ("arguments", .string "\x7b\x7d")])]

def listingTranslated : Json :=
  request [Json.make [("role", .string "assistant"), ("content", .string "I look."),
    ("tool_calls", .array [listingCall])], toolMessage ("t1", "a.rs")]

def listingTranslatedText : String :=
  "\x7b\"messages\":[\x7b\"content\":\"I look.\",\"role\":\"assistant\",\"tool_calls\":[" ++
    "\x7b\"function\":\x7b\"arguments\":\"\x7b\x7d\",\"name\":\"ls\"\x7d,\"id\":\"t1\"," ++
    "\"type\":\"function\"\x7d]\x7d,\x7b\"content\":\"a.rs\",\"role\":\"tool\"," ++
    "\"tool_call_id\":\"t1\"\x7d]\x7d"

def listingCodec : Codec := .ofTable [("\x7b\x7d", Json.make []), (listingText, listing),
  (listingTranslatedText, listingTranslated)]

theorem listing_loses_nothing :
    openaiRequest listingCodec listing = listingTranslated ∧
      LosesNothing listingCodec listingText.toUTF8 listing
        [⟨"assistant", .blocks [.text "I look.", .toolUse "t1" "ls" (Json.make [])]⟩,
          ⟨"user", .blocks [.toolResult "t1" (.text "a.rs")]⟩] := by
  constructor
  · decide +kernel
  · exact (loses_nothing_iff listingCodec listingText.toUTF8 listing
      [⟨"assistant", .blocks [.text "I look.", .toolUse "t1" "ls" (Json.make [])]⟩,
        ⟨"user", .blocks [.toolResult "t1" (.text "a.rs")]⟩]
      (Codec.of_table_reads _ (by decide +kernel) _ _ (by simp)) (by decide +kernel)).mpr
        (by decide +kernel)

def interrupted : Json := request [turn "user" [toolResultBlock "t1" "a.rs", textBlock "now b"]]

def interruptedText : String :=
  "\x7b\"messages\":[\x7b\"content\":[\x7b\"content\":\"a.rs\",\"tool_use_id\":\"t1\"," ++
    "\"type\":\"tool_result\"\x7d,\x7b\"text\":\"now b\",\"type\":\"text\"\x7d]," ++
    "\"role\":\"user\"\x7d]\x7d"

def interruptedCodec : Codec := .ofTable [(interruptedText, interrupted)]

/-- What the user says beside a tool result is not sent. -/
theorem text_beside_result_lost :
    interruptedCodec.fromSlice interruptedText.toUTF8 = some interrupted ∧
      conversation interrupted = some
        [⟨"user", .blocks [.toolResult "t1" (.text "a.rs"), .text "now b"]⟩] ∧
      ¬ LosesNothing interruptedCodec interruptedText.toUTF8 interrupted
        [⟨"user", .blocks [.toolResult "t1" (.text "a.rs"), .text "now b"]⟩] := by
  refine ⟨Codec.of_table_reads _ (by decide) _ _ (by simp), by decide +kernel, ?_⟩
  intro nothing
  have kept := (groups_carry_iff _ (requestMessages interrupted) _
    (by decide +kernel)).mp nothing.carried
  revert kept
  decide +kernel

-- Of a result of several blocks only the first is sent.
example : ¬ Keeps
    ⟨"user", .blocks [.toolResult "t1" (.blocks ["error: file not found", "file not found"])]⟩ := by
  decide

end Ccflare.ConversationTranslation
