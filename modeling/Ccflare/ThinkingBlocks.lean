import Ccflare.AnsweredRequests

/-!
What the filter of thinking blocks leaves of a request. The loop over the messages keeps the
positions of those to drop and removes them from the last to the first; that is a filter of the
messages. A document that was written and is read again keeps its shape, so it has nothing left
to filter.
-/

namespace Ccflare.ThinkingBlocks

open AnsweredRequests JsonValue

section Positions
variable {α : Type} (drop : α → Bool)

def positions : List α → List Nat
  | [] => []
  | item :: rest =>
      let later := (positions rest).map Nat.succ
      if drop item then 0 :: later else later

/-- The positions are removed from the last to the first. -/
def removeAt (indices : List Nat) (items : List α) : List α :=
  indices.reverse.foldl List.eraseIdx items

theorem remove_shifted (indices : List Nat) (item : α) (rest : List α) :
    removeAt (indices.map Nat.succ) (item :: rest) = item :: removeAt indices rest := by
  induction indices using List.reverseRecOn generalizing rest with
  | nil => rfl
  | append_singleton indices index ih =>
      simpa [removeAt] using ih (rest.eraseIdx index)

theorem remove_first (indices : List Nat) (items : List α) :
    removeAt (0 :: indices) items = (removeAt indices items).eraseIdx 0 := by
  simp [removeAt, List.foldl_append]

theorem remove_positions (items : List α) :
    removeAt (positions drop items) items = items.filter fun item => !drop item := by
  induction items with
  | nil => rfl
  | cons item rest ih =>
      cases dropped : drop item with
      | false =>
          rw [List.filter_cons_of_pos (by simp [dropped]), ← ih, ← remove_shifted]
          simp [positions, dropped]
      | true =>
          rw [List.filter_cons_of_neg (by simp [dropped]), ← ih]
          simp only [positions, dropped, if_true]
          rw [remove_first, remove_shifted, List.eraseIdx_cons_zero]

theorem positions_append (items : List α) (item : α) :
    positions drop (items ++ [item]) =
      positions drop items ++ if drop item then [items.length] else [] := by
  induction items with
  | nil => cases dropped : drop item <;> simp [positions, dropped]
  | cons first rest ih =>
      simp only [List.cons_append, positions, ih, List.map_append, List.length_cons]
      cases drop first <;> cases drop item <;> simp

end Positions

/-- The variables of the loop over the messages. -/
structure Pass where
  messages : List Json
  hasChanges : Bool
  indicesToRemove : List Nat

def Pass.visit (pass : Pass) (msg : Json) : Pass :=
  let entry := filterMessage msg
  { messages := pass.messages ++ [entry.message]
    hasChanges := pass.hasChanges || entry.changed
    indicesToRemove :=
      if entry.empty then pass.indicesToRemove ++ [pass.messages.length]
      else pass.indicesToRemove }

def visitAll (messages : List Json) : Pass := messages.foldl Pass.visit ⟨[], false, []⟩

theorem visit_all_eq (messages : List Json) :
    visitAll messages =
      { messages := (messages.map filterMessage).map Filtered.message
        hasChanges := (messages.map filterMessage).any Filtered.changed
        indicesToRemove := positions Filtered.empty (messages.map filterMessage) } := by
  induction messages using List.reverseRecOn with
  | nil => rfl
  | append_singleton messages msg ih =>
      have visited : visitAll (messages ++ [msg]) = (visitAll messages).visit msg := by
        simp [visitAll]
      rw [visited, ih, List.map_append, List.map_singleton, positions_append]
      simp only [Pass.visit]
      cases (filterMessage msg).empty <;> simp

theorem remove_map {α β : Type} (f : α → β) (indices : List Nat) (items : List α) :
    removeAt indices (items.map f) = (removeAt indices items).map f := by
  induction indices using List.reverseRecOn generalizing items with
  | nil => rfl
  | append_singleton indices index ih =>
      simpa [removeAt, ← List.eraseIdx_map] using ih (items.eraseIdx index)

/-- The removal by positions takes exactly the messages that were found empty. -/
theorem loop_filters (messages : List Json) :
    removeAt (visitAll messages).indicesToRemove (visitAll messages).messages =
      ((messages.map filterMessage).filter fun entry => !entry.empty).map Filtered.message := by
  rw [visit_all_eq, remove_map, remove_positions]

theorem loop_changes (messages : List Json) :
    (visitAll messages).hasChanges = (messages.map filterMessage).any Filtered.changed := by
  rw [visit_all_eq]

/-- The loop runs over the messages of a document whose bytes hold the word. -/
theorem filter_runs_loop (codec : Codec) (body : ByteArray) (out : ByteArray) :
    filterThinkingBlocks codec body = some out ↔
      "thinking".toUTF8.data.toList <:+: body.data.toList ∧
      ∃ fields messages, codec.fromSlice body = some (.object fields) ∧
        Json.field "messages" fields = some (.array messages) ∧
        (visitAll messages).hasChanges = true ∧
        out = codec.toVec (.object (Json.remove "thinking" (Json.insert "messages"
          (.array (removeAt (visitAll messages).indicesToRemove (visitAll messages).messages))
          fields))) := by
  simp only [loop_filters, loop_changes, filterThinkingBlocks, Option.bind_eq_bind,
    Option.bind_eq_some_iff, Option.guard_eq_some', Option.some.injEq, exists_const, Option.pure_def]
  constructor
  · rintro ⟨word, document, parsed, fields, isObject, listed, held, messages, isArray, changed, rfl⟩
    cases document <;> cases isObject
    cases listed <;> cases isArray
    exact ⟨word, fields, messages, parsed, held, changed, rfl⟩
  · rintro ⟨word, fields, messages, parsed, held, changed, rfl⟩
    exact ⟨word, _, parsed, fields, rfl, _, held, messages, rfl, changed, rfl⟩

/-- The blocks of an assistant message with an array content that are not thinking blocks. -/
def remaining (msg : Json) : Option (List Json) :=
  if msg.getStr "role" = some "assistant" then
    ((msg.get "content").bind Json.asArray).map fun content =>
      content.filter fun block => !isThinkingBlock block
  else none

/-- Nothing is left to send of a turn, or one text block with a missing or empty text. -/
def Emptied (blocks : List Json) : Prop :=
  blocks = [] ∨ ∃ block, blocks = [block] ∧ block.getStr "type" = some "text" ∧
    (block.getStr "text" = none ∨ block.getStr "text" = some "")

def Dropped (msg : Json) : Prop := ∃ blocks, remaining msg = some blocks ∧ Emptied blocks

/-- A message that is sent again: the message itself, or an assistant message whose array content
has lost its thinking blocks. -/
inductive SentFor (msg : Json) : Json → Prop where
  | same (untouched : remaining msg = none) : SentFor msg msg
  | filtered (blocks : List Json) (left : remaining msg = some blocks) (sent : Json)
      (content : sent.get "content" = some (.array blocks))
      (others : ∀ key, key ≠ "content" → sent.get key = msg.get key) : SentFor msg sent

theorem empty_content_iff (blocks : List Json) : isEmptyContent blocks = true ↔ Emptied blocks := by
  match blocks with
  | [] => simp [isEmptyContent, Emptied]
  | [block] =>
      cases text : block.getStr "text" <;> simp [isEmptyContent, Emptied, text]
  | first :: second :: rest => simp [isEmptyContent, Emptied]

/-- The three things the loop finds of a message. -/
theorem filter_message_cases (msg : Json) :
    (remaining msg = none ∧ filterMessage msg = ⟨msg, false, false⟩) ∨
    ∃ fields content, msg = .object fields ∧ msg.getStr "role" = some "assistant" ∧
      msg.get "content" = some (.array content) ∧
      remaining msg = some (content.filter fun block => !isThinkingBlock block) ∧
      filterMessage msg =
        { message := .object (Json.insert "content"
            (.array (content.filter fun block => !isThinkingBlock block)) fields)
          changed := decide ((content.filter fun block => !isThinkingBlock block).length ≠
            content.length)
          empty := isEmptyContent (content.filter fun block => !isThinkingBlock block) } := by
  by_cases assistant : msg.getStr "role" = some "assistant"
  · cases listed : (msg.get "content").bind Json.asArray with
    | none =>
        refine Or.inl ⟨by simp [remaining, listed], ?_⟩
        cases msg <;> try rfl
        simp only [filterMessage, assistant]
        split
        · next content role held => simp [held, Json.asArray] at listed
        · rfl
    | some content =>
        obtain ⟨value, held, isArray⟩ := Option.bind_eq_some_iff.mp listed
        cases value <;> cases isArray
        cases msg <;> try cases held
        case object fields =>
          refine Or.inr ⟨fields, content, rfl, assistant, held,
            by simp [remaining, assistant, listed], ?_⟩
          simp only [filterMessage, assistant, held]
  · refine Or.inl ⟨by simp [remaining, assistant], ?_⟩
    cases msg <;> try rfl
    simp only [filterMessage]
    split
    · next role held => exact absurd role assistant
    · rfl

theorem dropped_iff (msg : Json) : (filterMessage msg).empty = true ↔ Dropped msg := by
  rcases filter_message_cases msg with ⟨untouched, found⟩ | ⟨fields, content, -, -, -, left, found⟩
  · simp [found, Dropped, untouched]
  · rw [found, empty_content_iff]
    simp [Dropped, left]

instance (msg : Json) : Decidable (Dropped msg) :=
  decidable_of_iff ((filterMessage msg).empty = true) (dropped_iff msg)

theorem sent_for (msg : Json) : SentFor msg (filterMessage msg).message := by
  rcases filter_message_cases msg with
    ⟨untouched, found⟩ | ⟨fields, content, rfl, -, -, left, found⟩
  · rw [found]
    exact .same untouched
  · rw [found]
    refine .filtered _ left _ ?_ fun key differs => ?_
    · simp [Json.get, Json.field_insert]
    · simp [Json.get, Json.field_insert, differs]

/-- An assistant message with a thinking block in its array content. -/
def HasThinking (msg : Json) : Prop :=
  msg.getStr "role" = some "assistant" ∧ ∃ content, msg.get "content" = some (.array content) ∧
    ∃ block ∈ content, block.getStr "type" = some "thinking"

theorem changed_iff (msg : Json) : (filterMessage msg).changed = true ↔ HasThinking msg := by
  rcases filter_message_cases msg with
    ⟨untouched, found⟩ | ⟨fields, content, -, assistant, held, -, found⟩
  · rw [found]
    simp only [Bool.false_eq_true, false_iff]
    rintro ⟨assistant, content, held, -⟩
    simp [remaining, assistant, held, Json.asArray] at untouched
  · rw [found]
    simp [HasThinking, assistant, held, List.length_filter_eq_length_iff, isThinkingBlock]

theorem filtered_clean (msg : Json) : ¬ HasThinking (filterMessage msg).message := by
  rcases filter_message_cases msg with
    ⟨untouched, found⟩ | ⟨fields, content, rfl, -, -, -, found⟩
  · rw [← changed_iff, found]
    simp [found]
  · rw [found]
    rintro ⟨-, kept, held, block, member, thinking⟩
    simp only [Json.get, Json.field_insert, if_true, Option.some.injEq, Json.array.injEq] at held
    rw [← held, List.mem_filter] at member
    simp [isThinkingBlock, thinking] at member

mutual

/-- A document with its numbers left out: what two documents share that differ only in how a
number is rounded. -/
def shape : Json → Json
  | .null => .null
  | .bool value => .bool value
  | .number _ => .number (.posInt 0)
  | .string value => .string value
  | .array items => .array (shapeItems items)
  | .object fields => .object (shapeFields fields)

def shapeItems : List Json → List Json
  | [] => []
  | item :: rest => shape item :: shapeItems rest

def shapeFields : List (String × Json) → List (String × Json)
  | [] => []
  | (key, value) :: rest => (key, shape value) :: shapeFields rest

end

theorem shape_items_eq (items : List Json) : shapeItems items = items.map shape := by
  induction items with
  | nil => rfl
  | cons item rest ih => simp [shapeItems, ih]

theorem field_shape (key : String) (fields : List (String × Json)) :
    Json.field key (shapeFields fields) = (Json.field key fields).map shape := by
  induction fields with
  | nil => rfl
  | cons entry rest ih =>
      obtain ⟨other, value⟩ := entry
      by_cases here : key = other <;> simp [shapeFields, Json.field, here, ih]

theorem get_shape (key : String) (value : Json) :
    (shape value).get key = (value.get key).map shape := by
  cases value <;> simp [shape, Json.get, field_shape]

theorem str_shape (key : String) (value : Json) :
    (shape value).getStr key = value.getStr key := by
  unfold Json.getStr
  rw [get_shape]
  cases value.get key with
  | none => rfl
  | some held => cases held <;> rfl

theorem has_thinking_shape (msg : Json) : HasThinking (shape msg) ↔ HasThinking msg := by
  unfold HasThinking
  rw [str_shape, get_shape]
  refine and_congr_right fun _ => ?_
  cases held : msg.get "content" with
  | none => simp
  | some content =>
      cases content <;> simp [shape, shape_items_eq, str_shape]

/-- A document of which `after` keeps all but thinking. -/
structure OnlyThinkingRemoved (before after : List (String × Json)) : Prop where
  messages : ∃ messages sent, Json.field "messages" before = some (.array messages) ∧
    Json.field "messages" after = some (.array sent) ∧
    List.Forall₂ SentFor (messages.filter fun msg => ¬ Dropped msg) sent
  clean : ∀ sent, Json.field "messages" after = some (.array sent) → ∀ msg ∈ sent,
    ¬ HasThinking msg
  disabled : Json.field "thinking" after = none
  others : ∀ key, key ≠ "messages" → key ≠ "thinking" →
    Json.field key after = Json.field key before

theorem sent_for_kept (messages : List Json) :
    List.Forall₂ SentFor (messages.filter fun msg => ¬ Dropped msg)
      (((messages.map filterMessage).filter fun entry => !entry.empty).map Filtered.message) := by
  have same : (fun msg => !(filterMessage msg).empty) = fun msg => decide (¬ Dropped msg) := by
    funext msg
    rw [Bool.eq_iff_iff, decide_eq_true_eq, Bool.not_eq_true', Bool.eq_false_iff, ne_eq, dropped_iff]
  rw [List.filter_map, List.map_map, Function.comp_def, Function.comp_def, same,
    List.forall₂_map_right_iff, List.forall₂_same]
  exact fun msg _ => sent_for msg

theorem kept_clean (messages : List Json) (msg : Json)
    (member : msg ∈ ((messages.map filterMessage).filter fun entry => !entry.empty).map
      Filtered.message) : ¬ HasThinking msg := by
  obtain ⟨entry, kept, rfl⟩ := List.mem_map.mp member
  obtain ⟨msg, -, rfl⟩ := List.mem_map.mp (List.mem_filter.mp kept).1
  exact filtered_clean msg

/-- The filter takes no document whose messages are without thinking blocks. -/
theorem clean_rejected (codec : Codec) (body : ByteArray)
    (clean : ∀ fields messages, codec.fromSlice body = some (.object fields) →
      Json.field "messages" fields = some (.array messages) → ∀ msg ∈ messages,
      ¬ HasThinking msg) : filterThinkingBlocks codec body = none := by
  rw [Option.eq_none_iff_forall_ne_some]
  intro out written
  obtain ⟨-, fields, messages, parsed, held, changed, -⟩ :=
    (filter_runs_loop codec body out).mp written
  rw [loop_changes, List.any_map, List.any_eq_true] at changed
  obtain ⟨msg, member, lost⟩ := changed
  exact clean fields messages parsed held msg member ((changed_iff msg).mp lost)

theorem clean_shape (again after : List (String × Json))
    (same : shape (.object again) = shape (.object after))
    (messages : List Json) (held : Json.field "messages" again = some (.array messages))
    (clean : ∀ sent, Json.field "messages" after = some (.array sent) → ∀ msg ∈ sent,
      ¬ HasThinking msg) (msg : Json) (member : msg ∈ messages) : ¬ HasThinking msg := by
  have fields : (shape (.object again)).get "messages" = (shape (.object after)).get "messages" := by
    rw [same]
  rw [get_shape, get_shape] at fields
  simp only [Json.get, held, Option.map_some, shape, shape_items_eq] at fields
  cases written : Json.field "messages" after with
  | none => simp [written] at fields
  | some value =>
      cases value <;> simp [written, shape, shape_items_eq] at fields
      case array sent =>
        have listed : shape msg ∈ sent.map shape := fields ▸ List.mem_map_of_mem member
        obtain ⟨other, found, alike⟩ := List.mem_map.mp listed
        rw [← has_thinking_shape, ← alike, has_thinking_shape]
        exact clean sent written other found

/-- Filtering removes thinking and nothing else, and leaves nothing to be filtered. -/
theorem only_thinking_removed (codec : Codec)
    (reread : ∀ value again, codec.fromStr (codec.toString value) = some again →
      shape again = shape value)
    (body out : ByteArray) (written : filterThinkingBlocks codec body = some out) :
    ∃ before after, codec.fromSlice body = some (.object before) ∧
      out = codec.toVec (.object after) ∧ OnlyThinkingRemoved before after ∧
      filterThinkingBlocks codec out = none := by
  obtain ⟨-, before, messages, parsed, held, -, rfl⟩ := (filter_runs_loop codec body out).mp written
  rw [loop_filters]
  refine ⟨before, _, parsed, rfl, ?_, clean_rejected codec _ ?_⟩
  · refine ⟨⟨messages, _, held, ?_, sent_for_kept messages⟩, fun sent found => ?_, ?_, ?_⟩
    · simp [Json.field_remove, Json.field_insert]
    · simp only [Json.field_remove, Json.field_insert] at found
      cases found
      exact kept_clean messages
    · simp [Json.field_remove]
    · intro key notMessages notThinking
      simp [Json.field_remove, Json.field_insert, notMessages, notThinking]
  · intro again inner reparsed found msg member
    refine clean_shape again _ (reread _ _ reparsed) inner found (fun sent listed => ?_) msg member
    simp only [Json.field_remove, Json.field_insert] at listed
    cases listed
    exact kept_clean messages

def question : Json := Json.make [("role", .string "user"), ("content", .string "hi")]

def thought : Json := Json.make [("type", .string "thinking"), ("thinking", .string "hm")]

def greetingBlock : Json := Json.make [("type", .string "text"), ("text", .string "hello")]

def turn (blocks : List Json) : Json :=
  Json.make [("role", .string "assistant"), ("content", .array blocks)]

def thoughtful : Json := Json.make [("thinking", Json.make [("type", .string "enabled")]),
  ("messages", .array [question, turn [thought], turn [thought, greetingBlock]])]

def plain : Json := Json.make [("messages", .array [question, turn [greetingBlock]])]

def thoughtfulText : String :=
  "\x7b\"messages\":[\x7b\"content\":\"hi\",\"role\":\"user\"\x7d," ++
    "\x7b\"content\":[\x7b\"thinking\":\"hm\",\"type\":\"thinking\"\x7d],\"role\":\"assistant\"\x7d," ++
    "\x7b\"content\":[\x7b\"thinking\":\"hm\",\"type\":\"thinking\"\x7d," ++
    "\x7b\"text\":\"hello\",\"type\":\"text\"\x7d],\"role\":\"assistant\"\x7d]," ++
    "\"thinking\":\x7b\"type\":\"enabled\"\x7d\x7d"

def plainText : String :=
  "\x7b\"messages\":[\x7b\"content\":\"hi\",\"role\":\"user\"\x7d," ++
    "\x7b\"content\":[\x7b\"text\":\"hello\",\"type\":\"text\"\x7d],\"role\":\"assistant\"\x7d]\x7d"

def thinkingCodec : Codec := .ofTable [(thoughtfulText, thoughtful), (plainText, plain)]

/-- A turn that only thinks is dropped, and a turn that speaks after it stays. -/
theorem thoughtful_filtered :
    filterThinkingBlocks thinkingCodec thoughtfulText.toUTF8 =
      some plainText.toUTF8 ∧
    ∃ before after, thinkingCodec.fromSlice thoughtfulText.toUTF8 = some (.object before) ∧
      plainText.toUTF8 = thinkingCodec.toVec (.object after) ∧ OnlyThinkingRemoved before after ∧
      filterThinkingBlocks thinkingCodec plainText.toUTF8 = none := by
  have distinct : ([(thoughtfulText, thoughtful), (plainText, plain)].map Prod.fst).Nodup := by
    decide +kernel
  have parsed : thinkingCodec.fromSlice thoughtfulText.toUTF8 = some thoughtful :=
    Codec.of_table_reads _ distinct _ _ (by simp)
  have printed : thinkingCodec.toString plain = plainText := by decide +kernel
  have written : filterThinkingBlocks thinkingCodec thoughtfulText.toUTF8 =
      some plainText.toUTF8 := by
    refine (filter_runs_loop _ _ _).mpr
      ⟨by decide +kernel, _, _, parsed, rfl, by decide +kernel, ?_⟩
    rw [← printed]
    exact congrArg thinkingCodec.toVec (by decide +kernel)
  refine ⟨written, only_thinking_removed thinkingCodec (fun value again reread => ?_) _ _ written⟩
  rw [Codec.of_table_reread _ distinct (by decide +kernel) value again reread]

end Ccflare.ThinkingBlocks
