import Ccflare.MachineNumber
import Ccflare.StreamItems

/-!
The two translations of one chat response: the whole body, and any cut of it
into stream chunks, folded the way a client folds the stream. They give the same
content and stop reason for up to 101 tool calls; the input tokens agree only
when there are none, since the stream reports them before it has read the usage.
-/

namespace Ccflare.StreamAgreement

open JsonValue MachineNumber MessageStream OpenAiFormat OpenAiStream OpenAiStreamContext
  StreamItems Transducer

/-- A tool call whose arguments are the text of a JSON object. -/
structure Call (codec : Codec) where
  id : String
  name : String
  arguments : String
  input : List (String × Json)
  identified : id ≠ ""
  named : name ≠ ""
  written : arguments ≠ ""
  parses : codec.fromStr arguments = some (.object input)

structure ChatResponse (codec : Codec) where
  text : String
  calls : List (Call codec)
  finishReason : String
  promptTokens : Int
  completionTokens : Int
  promptInRange : InI64 promptTokens
  completionInRange : InI64 completionTokens

variable {codec : Codec}

def IsCall (tc : Json) (call : Call codec) : Prop :=
  tc.getStr "id" = some call.id ∧ ∃ func, tc.get "function" = some func ∧
    func.getStr "name" = some call.name ∧ func.getStr "arguments" = some call.arguments

/-- A body with one choice that carries the response. Missing or null text
stands for no text, missing tool calls for none. -/
structure IsResponse (response : ChatResponse codec) (json : Json) : Prop where
  carried : ∃ choice message usage,
    json.get "choices" = some (.array [choice]) ∧ choice.get "message" = some message ∧
    (message.getStr "content").getD "" = response.text ∧
    List.Forall₂ IsCall (((message.get "tool_calls").bind Json.asArray).getD [])
      response.calls ∧
    choice.getStr "finish_reason" = some response.finishReason ∧
    json.get "usage" = some usage ∧
    usage.get "prompt_tokens" = some (.ofInt response.promptTokens) ∧
    usage.get "completion_tokens" = some (.ofInt response.completionTokens)

/-- The arguments of a call cut into the part of its first delta and the rest. -/
structure CallCut (codec : Codec) where
  call : Call codec
  opening : Option String
  fragments : List String
  whole : opening.getD "" ++ Text.joinWith "" fragments = call.arguments

def CallCut.deltas (index : Nat) (cut : CallCut codec) : List ToolDelta :=
  ⟨index, some cut.call.id, some cut.call.name, cut.opening⟩ ::
    cut.fragments.map fun fragment => ⟨index, none, none, some fragment⟩

def callDeltas : Nat → List (CallCut codec) → List ToolDelta
  | _, [] => []
  | index, cut :: rest => cut.deltas index ++ callDeltas (index + 1) rest

/-- The chunks carry the text, then the calls in index order, the finish reason
in the chunk before the last, and the usage in the last. -/
structure IsCut (response : ChatResponse codec) (texts : List String)
    (cuts : List (CallCut codec)) (jsons : List Json) : Prop where
  text : Text.joinWith "" texts = response.text
  calls : cuts.map CallCut.call = response.calls
  pieces : jsons.flatMap chunkPieces = texts.map Piece.text ++ (callDeltas 0 cuts).map Piece.tool
  ended : ∃ before finishChunk usageChunk choice usage,
    jsons = before ++ [finishChunk, usageChunk] ∧
    finishChunk.get "choices" = some (.array [choice]) ∧
    choice.getStr "finish_reason" = some response.finishReason ∧
    usageChunk.get "choices" = some (.array []) ∧ usageChunk.get "usage" = some usage ∧
    usage.get "prompt_tokens" = some (.ofInt response.promptTokens) ∧
    usage.get "completion_tokens" = some (.ofInt response.completionTokens)

/-- The folded stream and the translated body say the same. -/
structure Agrees (codec : Codec) (message : Message) (translated : Json) : Prop where
  numbered : message.blocks.map Prod.fst = List.range message.blocks.length
  content : ∃ content, message.blocks.mapM (fun entry => entry.2.toJson codec) = some content ∧
    translated.get "content" = some (.array content)
  stopReason : translated.getStr "stop_reason" = message.stopReason
  inputTokens : (translated.get "usage").bind (Json.get "input_tokens") =
    some (.ofInt message.inputTokens)
  outputTokens : (translated.get "usage").bind (Json.get "output_tokens") =
    some (.ofInt message.outputTokens)

def textJson (text : String) : Json :=
  Json.make [("type", .string "text"), ("text", .string text)]

def callJson (call : Call codec) : Json :=
  Json.make [("type", .string "tool_use"), ("id", .string call.id), ("name", .string call.name),
    ("input", .object call.input)]

def responseContent (response : ChatResponse codec) : List Json :=
  (if response.text = "" then [] else [textJson response.text]) ++ response.calls.map callJson

theorem tool_use_blocks (toolCalls : List Json) (calls : List (Call codec))
    (carried : List.Forall₂ IsCall toolCalls calls) :
    toolCalls.filterMap (toolUseBlock codec) = calls.map callJson := by
  induction carried with
  | nil => rfl
  | cons isCall _ ih =>
      obtain ⟨id, func, function, name, arguments⟩ := isCall
      rename_i tc call _ _ _
      have block : toolUseBlock codec tc = some (callJson call) := by
        simp [toolUseBlock, function, id, name, arguments, call.parses, callJson]
      rw [List.filterMap_cons_some block, ih, List.map_cons]

theorem text_blocks (message : Json) (text : String)
    (carried : (message.getStr "content").getD "" = text) :
    textBlocks message = if text = "" then [] else [textJson text] := by
  unfold textBlocks
  cases content : message.getStr "content" with
  | none =>
      rw [content] at carried
      simp [← carried]
  | some held =>
      rw [content] at carried
      simp [← carried, textJson]

/-- What the translation of the whole body says. -/
theorem body_translated (response : ChatResponse codec) (json : Json)
    (carried : IsResponse response json) :
    ∃ translated, anthropicResponse codec json = some translated ∧
      translated.get "content" = some (.array (responseContent response)) ∧
      translated.getStr "stop_reason" =
        some (mapFinishReason (some response.finishReason)) ∧
      (translated.get "usage").bind (Json.get "input_tokens") =
        some (.ofInt response.promptTokens) ∧
      (translated.get "usage").bind (Json.get "output_tokens") =
        some (.ofInt response.completionTokens) := by
  obtain ⟨choice, message, usage, choices, held, text, calls, finished, counted, prompt,
    completion⟩ := carried.carried
  have content : messageContent codec message = responseContent response := by
    rw [messageContent, text_blocks message response.text text, tool_use_blocks _ _ calls]
    rfl
  refine ⟨_, by simp [anthropicResponse, choices, Json.asArray, held]; rfl, ?_, ?_, ?_, ?_⟩
  · simp [Json.get_make, Json.field, content]
  · rw [Json.getStr, Json.get_make]
    simp [Json.field, Json.asStr, finished]
  · simp [Json.get_make, Json.field, counted, prompt]
  · simp [Json.get_make, Json.field, counted, completion]

/-- Text once begun is extended by every later text. -/
theorem text_continued (ctx : OpenAiStreamContext) (message : Message) (held : String)
    (texts : List String) (flag : ctx.hasSentContentBlockStart = true)
    (blocks : message.blocks = [(0, .text held)]) :
    run feedPiece ctx (texts.map Piece.text) =
        ((run feedPiece ctx (texts.map Piece.text)).1, ctx) ∧
      message.fold (run feedPiece ctx (texts.map Piece.text)).1 =
        { message with blocks := [(0, .text (held ++ Text.joinWith "" texts))] } := by
  induction texts generalizing message held with
  | nil => exact ⟨rfl, by simp [Message.fold, Text.joinWith, ← blocks]⟩
  | cons text rest ih =>
      by_cases blank : text = ""
      · have idle : feedPiece ctx (.text text) = ([], ctx) := by simp [feedPiece, processText, blank]
        rw [List.map_cons, run_cons, idle, Text.join_empty_cons, blank]
        simpa using ih message held blocks
      · have still : ({ ctx with hasSentContentBlockStart := true } : OpenAiStreamContext) = ctx := by
          cases ctx
          simp_all
        have extends_ : feedPiece ctx (.text text) =
            ([.contentBlockDelta 0 (.text text)], ctx) := by
          simp [feedPiece, processText, blank, flag, still, currentTextIndex]
        have received := fold_delta message [] 0 (.text held) (.text text) (by simp) blocks
        obtain ⟨state, folded⟩ := ih (message.receive (.contentBlockDelta 0 (.text text)))
          (held ++ text) (by rw [received]; rfl)
        rw [List.map_cons, run_cons, extends_, Text.join_empty_cons]
        refine ⟨by rw [state], ?_⟩
        rw [fold_append]
        refine folded.trans ?_
        rw [received, String.append_assoc]

/-- The text of a stream ends up in block 0, if there is any. -/
theorem text_folded (ctx : OpenAiStreamContext) (message : Message) (texts : List String)
    (idle : ctx.hasSentContentBlockStart = false) (first : ctx.blockIndex = 0)
    (blocks : message.blocks = []) :
    (run feedPiece ctx (texts.map Piece.text)).2 =
        { ctx with hasSentContentBlockStart := decide (Text.joinWith "" texts ≠ "") } ∧
      message.fold (run feedPiece ctx (texts.map Piece.text)).1 =
        { message with blocks := if Text.joinWith "" texts = "" then []
            else [(0, .text (Text.joinWith "" texts))] } := by
  induction texts with
  | nil =>
      refine ⟨?_, ?_⟩
      · cases ctx
        simp_all [Text.joinWith]
      · cases message
        simp_all [Message.fold, Text.joinWith]
  | cons text rest ih =>
      -- The first text that is not empty opens the block; what follows goes into it.
      by_cases blank : text = ""
      · have silent : feedPiece ctx (.text text) = ([], ctx) := by
          simp [feedPiece, processText, blank]
        rw [List.map_cons, run_cons, silent, Text.join_empty_cons, blank]
        simpa using ih
      · have begins : feedPiece ctx (.text text) =
            ([.contentBlockStart 0 .text, .contentBlockDelta 0 (.text text)],
              { ctx with hasSentContentBlockStart := true }) := by
          simp [feedPiece, processText, blank, idle, first, currentTextIndex]
        have received : message.fold
            [.contentBlockStart 0 .text, .contentBlockDelta 0 (.text text)] =
            { message with blocks := [(0, .text text)] } := by
          simp [Message.fold, Message.receive, blocks, ContentBlock.empty, Content.extend]
        have whole : text ++ Text.joinWith "" rest ≠ "" := by
          simp [String.append_eq_empty_iff, blank]
        obtain ⟨state, folded⟩ := text_continued { ctx with hasSentContentBlockStart := true }
          { message with blocks := [(0, .text text)] } text rest rfl rfl
        rw [List.map_cons, run_cons, begins, Text.join_empty_cons]
        refine ⟨?_, ?_⟩
        · rw [state]
          simp [whole]
        · rw [fold_append, received, folded, if_neg whole]

/-- The translator is past the text and has not seen calls from `index` on. -/
structure Ready (base index : Nat) (ctx : OpenAiStreamContext) : Prop where
  tools : ctx.hasToolCalls = true
  based : ctx.blockIndex = base
  unseen : ∀ later, index ≤ later → ctx.toolAccumulators.lookup later = none

/-- The translator has started the block of the call `index`, the last so far. -/
structure Filling (base index : Nat) (ctx : OpenAiStreamContext) : Prop where
  tools : ctx.hasToolCalls = true
  based : ctx.blockIndex = base
  begun : ∃ acc, ctx.toolAccumulators.lookup index = some acc ∧ acc.started = true ∧
    acc.blockIndex = base + index
  unseen : ∀ later, index + 1 ≤ later → ctx.toolAccumulators.lookup later = none

theorem Filling.ready {base index : Nat} {ctx : OpenAiStreamContext}
    (filling : Filling base index ctx) : Ready base (index + 1) ctx :=
  ⟨filling.tools, filling.based, filling.unseen⟩

def argumentEvents (index : Nat) (arguments : String) : List StreamEvent :=
  if arguments = "" then [] else [.contentBlockDelta index (.inputJson arguments)]

theorem argument_events_folded (message : Message) (before : List (Nat × Content)) (index : Nat)
    (id name held more : String) (others : ∀ entry ∈ before, entry.1 ≠ index)
    (blocks : message.blocks = before ++ [(index, .toolUse id name held)]) :
    message.fold (argumentEvents index more) =
      { message with blocks := before ++ [(index, .toolUse id name (held ++ more))] } := by
  unfold argumentEvents
  by_cases blank : more = ""
  · cases message
    simp_all [Message.fold]
  · rw [if_neg blank]
    exact fold_delta message before index (.toolUse id name held) (.inputJson more) others blocks

theorem tool_arguments_started (acc : ToolCallAccumulator) (delta : ToolDelta)
    (started : acc.started = true) :
    toolArguments acc delta = argumentEvents acc.blockIndex (delta.arguments.getD "") := by
  unfold toolArguments argumentEvents
  cases delta.arguments with
  | none => rfl
  | some args => by_cases blank : args = "" <;> simp [blank, started]

theorem closed_already (ctx : OpenAiStreamContext) (tools : ctx.hasToolCalls = true) :
    closeText ctx = ([], ctx) :=
  if_pos tools

theorem first_delta (base index : Nat) (ctx : OpenAiStreamContext) (cut : CallCut codec)
    (ready : Ready base index ctx) (within : index ≤ maxToolCallIndex) :
    (processToolDelta ctx ⟨index, some cut.call.id, some cut.call.name, cut.opening⟩).1 =
        .contentBlockStart (base + index) (.toolUse cut.call.id cut.call.name) ::
          argumentEvents (base + index) (cut.opening.getD "") ∧
      Filling base index
        (processToolDelta ctx ⟨index, some cut.call.id, some cut.call.name, cut.opening⟩).2 := by
  have inside := Nat.not_lt_of_le within
  have fresh := ready.unseen index le_rfl
  simp only [processToolDelta, inside, ↓reduceIte, closed_already ctx ready.tools, accumulator,
    fresh, ready.based, Option.getD_none, ToolCallAccumulator.update, startTool,
    Option.getD_some, cut.call.named, ne_eq, not_false_eq_true, and_self, List.nil_append]
  constructor
  · rw [tool_arguments_started _ _ rfl]
    rfl
  · refine ⟨ready.tools, rfl, ⟨_, AList.lookup_insert _, rfl, rfl⟩, ?_⟩
    intro later beyond
    rw [AList.lookup_insert_ne (by omega)]
    exact ready.unseen later (by omega)

theorem fragment_delta (base index : Nat) (ctx : OpenAiStreamContext) (fragment : String)
    (filling : Filling base index ctx) (within : index ≤ maxToolCallIndex) :
    (processToolDelta ctx ⟨index, none, none, some fragment⟩).1 =
        argumentEvents (base + index) fragment ∧
      Filling base index (processToolDelta ctx ⟨index, none, none, some fragment⟩).2 := by
  have inside := Nat.not_lt_of_le within
  obtain ⟨acc, found, started, number⟩ := filling.begun
  simp only [processToolDelta, inside, ↓reduceIte, closed_already ctx filling.tools, accumulator,
    found, Option.getD_none, ToolCallAccumulator.update, startTool, started,
    Bool.true_eq_false, false_and, Option.getD_some, List.nil_append]
  constructor
  · rw [tool_arguments_started _ _ rfl, number]
    rfl
  · refine ⟨filling.tools, filling.based, ⟨_, AList.lookup_insert _, rfl, number⟩, ?_⟩
    intro later beyond
    rw [AList.lookup_insert_ne (by omega)]
    exact filling.unseen later beyond

/-- The fragments of a call are appended to its block. -/
theorem fragments_folded (base index : Nat) (ctx : OpenAiStreamContext) (message : Message)
    (before : List (Nat × Content)) (id name held : String) (fragments : List String)
    (filling : Filling base index ctx) (within : index ≤ maxToolCallIndex)
    (others : ∀ entry ∈ before, entry.1 ≠ base + index)
    (blocks : message.blocks = before ++ [(base + index, .toolUse id name held)]) :
    Filling base index (run feedPiece ctx
        (fragments.map fun fragment => .tool ⟨index, none, none, some fragment⟩)).2 ∧
      message.fold (run feedPiece ctx
        (fragments.map fun fragment => .tool ⟨index, none, none, some fragment⟩)).1 =
        { message with blocks := before ++
          [(base + index, .toolUse id name (held ++ Text.joinWith "" fragments))] } := by
  induction fragments generalizing ctx message held with
  | nil =>
      refine ⟨filling, ?_⟩
      cases message
      simp_all [Message.fold, Text.joinWith]
  | cons fragment rest ih =>
      obtain ⟨events, after⟩ := fragment_delta base index ctx fragment filling within
      have folded := argument_events_folded message before (base + index) id name held fragment
        others blocks
      obtain ⟨last, done⟩ := ih (processToolDelta ctx ⟨index, none, none, some fragment⟩).2
        (message.fold (argumentEvents (base + index) fragment)) (held ++ fragment) after
        (by rw [folded])
      rw [List.map_cons, run_cons, Text.join_empty_cons]
      refine ⟨last, ?_⟩
      rw [fold_append]
      simp only [feedPiece, events]
      rw [done, folded, String.append_assoc]

/-- A whole call is folded into one block with its arguments joined again. -/
theorem call_folded (base index : Nat) (ctx : OpenAiStreamContext) (message : Message)
    (cut : CallCut codec) (ready : Ready base index ctx) (within : index ≤ maxToolCallIndex)
    (others : ∀ entry ∈ message.blocks, entry.1 ≠ base + index) :
    Ready base (index + 1) (run feedPiece ctx ((cut.deltas index).map Piece.tool)).2 ∧
      message.fold (run feedPiece ctx ((cut.deltas index).map Piece.tool)).1 =
        { message with blocks := message.blocks ++
          [(base + index, .toolUse cut.call.id cut.call.name cut.call.arguments)] } := by
  obtain ⟨events, filling⟩ := first_delta base index ctx cut ready within
  have begun := argument_events_folded
    (message.receive (.contentBlockStart (base + index)
      (.toolUse cut.call.id cut.call.name))) message.blocks (base + index) cut.call.id
    cut.call.name "" (cut.opening.getD "") others rfl
  obtain ⟨last, done⟩ := fragments_folded base index _
    { message with blocks := message.blocks ++
      [(base + index, .toolUse cut.call.id cut.call.name (cut.opening.getD ""))] }
    message.blocks cut.call.id cut.call.name (cut.opening.getD "") cut.fragments filling within
    others rfl
  rw [CallCut.deltas, List.map_cons, run_cons, List.map_map]
  refine ⟨last.ready, ?_⟩
  rw [fold_append, ← cut.whole]
  simp only [feedPiece, events]
  refine Eq.trans (congrArg (Message.fold · _) ?_) done
  rw [String.empty_append] at begun
  exact begun

def callBlocks : Nat → List (CallCut codec) → List (Nat × Content)
  | _, [] => []
  | index, cut :: rest =>
      (index, .toolUse cut.call.id cut.call.name cut.call.arguments) ::
        callBlocks (index + 1) rest

theorem call_deltas_from (index : Nat) (cuts : List (CallCut codec)) :
    ∀ delta ∈ callDeltas index cuts, index ≤ delta.index := by
  induction cuts generalizing index with
  | nil => simp [callDeltas]
  | cons cut rest ih =>
      intro delta member
      rcases List.mem_append.mp member with own | later
      · rcases List.mem_cons.mp own with rfl | fragment
        · exact le_rfl
        · obtain ⟨_, -, rfl⟩ := List.mem_map.mp fragment
          exact le_rfl
      · exact Nat.le_of_succ_le (ih (index + 1) delta later)

theorem beyond_silent (ctx : OpenAiStreamContext) (deltas : List ToolDelta)
    (beyond : ∀ delta ∈ deltas, maxToolCallIndex < delta.index) :
    run feedPiece ctx (deltas.map Piece.tool) = ([], ctx) := by
  induction deltas with
  | nil => rfl
  | cons delta rest ih =>
      have silent : feedPiece ctx (.tool delta) = ([], ctx) :=
        if_pos (beyond delta List.mem_cons_self)
      rw [List.map_cons, run_cons, silent,
        ih fun later member => beyond later (List.mem_cons_of_mem _ member)]
      rfl

/-- The calls up to the limit become blocks numbered one after another. -/
theorem calls_folded (base index : Nat) (ctx : OpenAiStreamContext) (message : Message)
    (cuts : List (CallCut codec)) (ready : Ready base index ctx)
    (labels : ∀ entry ∈ message.blocks, entry.1 < base + index) :
    message.fold (run feedPiece ctx ((callDeltas index cuts).map Piece.tool)).1 =
      { message with
        blocks := message.blocks ++
          callBlocks (base + index) (cuts.take (maxToolCallIndex + 1 - index)) } := by
  induction cuts generalizing index ctx message with
  | nil => simp [callDeltas, callBlocks, Message.fold]
  | cons cut rest ih =>
      by_cases within : index ≤ maxToolCallIndex
      · have others : ∀ entry ∈ message.blocks, entry.1 ≠ base + index :=
          fun entry member => Nat.ne_of_lt (labels entry member)
        obtain ⟨readyNext, folded⟩ := call_folded base index ctx message cut ready within others
        have remaining : maxToolCallIndex + 1 - index =
            (maxToolCallIndex + 1 - (index + 1)) + 1 := by omega
        rw [callDeltas, List.map_append, run_append, fold_append, folded, remaining,
          List.take_succ_cons, callBlocks, ih (index + 1) _ _ readyNext]
        · simp [Nat.add_assoc]
        · intro entry member
          rcases List.mem_append.mp member with old | new
          · have bound := labels entry old
            omega
          · rw [List.mem_singleton.mp new]
            simp
      · have none : maxToolCallIndex + 1 - index = 0 := by omega
        rw [beyond_silent ctx _ fun delta member => by
          have from_ := call_deltas_from index (cut :: rest) delta member
          omega]
        simp [none, callBlocks, Message.fold]

theorem close_first (ctx : OpenAiStreamContext) (delta : ToolDelta)
    (within : delta.index ≤ maxToolCallIndex) :
    processToolDelta ctx delta =
      ((closeText ctx).1 ++ (processToolDelta (closeText ctx).2 delta).1,
        (processToolDelta (closeText ctx).2 delta).2) := by
  have inside := Nat.not_lt_of_le within
  have tools : (closeText ctx).2.hasToolCalls = true := by
    unfold closeText
    by_cases seen : ctx.hasToolCalls = true
    · simp [seen]
    · by_cases flag : ctx.hasSentContentBlockStart = true <;> simp [seen, flag]
  simp [processToolDelta, inside, closed_already _ tools]

theorem close_folded (ctx : OpenAiStreamContext) (message : Message) :
    message.fold (closeText ctx).1 = message := by
  unfold closeText
  by_cases seen : ctx.hasToolCalls = true
  · simp [seen, Message.fold]
  · by_cases flag : ctx.hasSentContentBlockStart = true <;>
      simp [seen, flag, Message.fold, Message.receive]

def foldedBlocks (text : String) (cuts : List (CallCut codec)) : List (Nat × Content) :=
  if text = "" then callBlocks 0 (cuts.take (maxToolCallIndex + 1))
  else (0, .text text) :: callBlocks 1 (cuts.take (maxToolCallIndex + 1))

-- The first call closes the text block, which leaves the message as it is.
theorem first_call_folded (base : Nat) (ctx : OpenAiStreamContext) (message : Message)
    (cuts : List (CallCut codec)) (ready : Ready base 0 (closeText ctx).2)
    (labels : ∀ entry ∈ message.blocks, entry.1 < base) :
    message.fold (run feedPiece ctx ((callDeltas 0 cuts).map Piece.tool)).1 =
      { message with
        blocks := message.blocks ++ callBlocks base (cuts.take (maxToolCallIndex + 1)) } := by
  have closed := calls_folded base 0 (closeText ctx).2 message cuts ready labels
  cases cuts with
  | nil => simp [callDeltas, callBlocks, Message.fold]
  | cons cut rest =>
      rw [callDeltas, CallCut.deltas, List.cons_append, List.map_cons, run_cons] at closed ⊢
      rw [feedPiece, close_first ctx _ (Nat.zero_le _), List.append_assoc, fold_append,
        close_folded]
      exact closed

theorem pieces_folded (message : Message) (texts : List String) (cuts : List (CallCut codec))
    (blocks : message.blocks = []) :
    message.fold (run feedPiece opening
      (texts.map Piece.text ++ (callDeltas 0 cuts).map Piece.tool)).1 =
      { message with blocks := foldedBlocks (Text.joinWith "" texts) cuts } := by
  obtain ⟨state, folded⟩ := text_folded opening message texts rfl rfl blocks
  rw [run_append, fold_append, folded, state]
  unfold foldedBlocks
  by_cases blank : Text.joinWith "" texts = ""
  · rw [first_call_folded 0 _ _ cuts]
    · simp [blank]
    · refine ⟨?_, ?_, ?_⟩ <;> simp [closeText, opening, new, blank]
    · simp [blank]
  · rw [first_call_folded 1 _ _ cuts]
    · simp [blank]
    · refine ⟨?_, ?_, ?_⟩ <;> simp [closeText, opening, new, blank]
    · simp [blank]

theorem feed_piece_reason (ctx : OpenAiStreamContext) (piece : Piece) :
    (feedPiece ctx piece).2.finishReason = ctx.finishReason := by
  cases piece with
  | text content => by_cases blank : content = "" <;> simp [feedPiece, processText, blank]
  | tool delta =>
      have closed : (closeText ctx).2.finishReason = ctx.finishReason := by
        unfold closeText
        by_cases seen : ctx.hasToolCalls = true
        · simp [seen]
        · by_cases flag : ctx.hasSentContentBlockStart = true <;> simp [seen, flag]
      by_cases beyond : delta.index > maxToolCallIndex
      · simp [feedPiece, processToolDelta, beyond]
      · simp [feedPiece, processToolDelta, beyond, closed]

theorem process_delta_reason (ctx : OpenAiStreamContext) (delta : Json) :
    (processDelta ctx delta).2.finishReason = ctx.finishReason := by
  have content : (processContent ctx delta).2.finishReason = ctx.finishReason := by
    unfold processContent
    cases delta.getStr "content" with
    | none => rfl
    | some text => exact feed_piece_reason ctx (.text text)
  exact run_invariant processToolCallDelta
    (fun state => state.finishReason = ctx.finishReason)
    (fun state tc same => (feed_piece_reason state (.tool (readToolDelta tc))).trans same) _ _
    content

theorem finish_chunk_reason (ctx : OpenAiStreamContext) (chunk choice : Json) (reason : String)
    (choices : chunk.get "choices" = some (.array [choice]))
    (finished : choice.getStr "finish_reason" = some reason) :
    (processJson ctx chunk).2.finishReason = some reason := by
  have one : chunkChoices chunk = [choice] := by simp [chunkChoices, choices, Json.asArray]
  simp only [processJson, one, run_singleton, processChoice]
  cases choice.get "delta" with
  | none => simp [readFinishReason, finished]
  | some delta =>
      rw [process_delta_reason]
      simp [readFinishReason, finished]

theorem usage_chunk_read (ctx : OpenAiStreamContext) (chunk usage : Json) (tokens : Int)
    (bounded : InI64 tokens) (choices : chunk.get "choices" = some (.array []))
    (counted : chunk.get "usage" = some usage)
    (completion : usage.get "completion_tokens" = some (.ofInt tokens)) :
    (processJson ctx chunk).2.finishReason = ctx.finishReason ∧
      (processJson ctx chunk).2.completionTokens = tokens := by
  have none : chunkChoices chunk = [] := by simp [chunkChoices, choices, Json.asArray]
  have value := Json.as_i64_of_int tokens bounded.1 bounded.2
  have kept : (sendStart (readModel ctx chunk) chunk).2.finishReason = ctx.finishReason := by
    unfold sendStart readModel
    by_cases started : ctx.hasStarted = true <;> by_cases sent : ctx.hasSentStart = true <;>
      simp [started, sent]
  simp [processJson, none, readUsage, counted, completion, value, kept]

theorem finish_folded (order : ValueOrder) (ctx : OpenAiStreamContext) (message : Message) :
    message.fold (finish order ctx) =
      { message with
        stopReason := some (mapFinishReason ctx.finishReason)
        outputTokens := ctx.completionTokens } := by
  have text : message.fold (if ctx.hasSentContentBlockStart then
      [.contentBlockStop ctx.currentTextIndex] else []) = message := by
    split <;> rfl
  rw [finish, fold_append, fold_append, text, fold_stops]
  rfl

/-- The message a client holds after any cut of the response. -/
theorem stream_folded (order : ValueOrder) (response : ChatResponse codec) (texts : List String)
    (cuts : List (CallCut codec)) (chunks : List (ChunkLine codec))
    (cut : IsCut response texts cuts (chunks.map ChunkLine.json)) :
    Message.empty.fold (translate codec order (chunks.map ChunkLine.line ++ [doneLine])) =
      { inputTokens := 0
        outputTokens := response.completionTokens
        stopReason := some (mapFinishReason (some response.finishReason))
        blocks := foldedBlocks response.text cuts } := by
  obtain ⟨before, finishChunk, usageChunk, choice, usage, ends, choices, finished, noChoices,
    counted, -, completion⟩ := cut.ended
  have last : (run processJson new (chunks.map ChunkLine.json)).2.finishReason =
        some response.finishReason ∧
      (run processJson new (chunks.map ChunkLine.json)).2.completionTokens =
        response.completionTokens := by
    rw [ends, run_append, run_cons, run_singleton]
    obtain ⟨reason, tokens⟩ := usage_chunk_read
      (processJson (run processJson new before).2 finishChunk).2 usageChunk usage
      response.completionTokens response.completionInRange noChoices counted completion
    exact ⟨reason.trans (finish_chunk_reason _ finishChunk choice response.finishReason choices
      finished), tokens⟩
  cases chunks with
  | nil => simp at ends
  | cons first rest =>
      rw [translate_events, cut.pieces, fold_append, fold_start, finish_folded, last.1, last.2,
        pieces_folded Message.empty texts cuts rfl, cut.text]
      rfl

theorem call_blocks_labels (index : Nat) (cuts : List (CallCut codec)) :
    (callBlocks index cuts).map Prod.fst = List.range' index cuts.length := by
  induction cuts generalizing index with
  | nil => rfl
  | cons cut rest ih => rw [callBlocks, List.map_cons, ih, List.length_cons, List.range'_succ]

theorem call_blocks_json (index : Nat) (cuts : List (CallCut codec)) :
    (callBlocks index cuts).mapM (fun entry => entry.2.toJson codec) =
      some (cuts.map fun cut => callJson cut.call) := by
  induction cuts generalizing index with
  | nil => rfl
  | cons cut rest ih =>
      have block : (Content.toolUse cut.call.id cut.call.name cut.call.arguments).toJson codec =
          some (callJson cut.call) := by
        simp [Content.toJson, toolInput, cut.call.written, cut.call.parses, callJson]
      rw [callBlocks, List.mapM_cons, block, ih]
      rfl

theorem folded_blocks_labels (text : String) (cuts : List (CallCut codec)) :
    (foldedBlocks text cuts).map Prod.fst = List.range (foldedBlocks text cuts).length := by
  have labels : ∀ base, (callBlocks base (cuts.take (maxToolCallIndex + 1))).length =
      (cuts.take (maxToolCallIndex + 1)).length := by
    intro base
    have same := congrArg List.length
      (call_blocks_labels base (cuts.take (maxToolCallIndex + 1)))
    simpa using same
  unfold foldedBlocks
  by_cases blank : text = ""
  · rw [if_pos blank, call_blocks_labels, labels, List.range_eq_range']
  · rw [if_neg blank, List.map_cons, call_blocks_labels, List.length_cons, labels,
      List.range_eq_range', List.range'_succ]

theorem folded_blocks_json (text : String) (cuts : List (CallCut codec)) :
    (foldedBlocks text cuts).mapM (fun entry => entry.2.toJson codec) =
      some ((if text = "" then [] else [textJson text]) ++
        (cuts.take (maxToolCallIndex + 1)).map fun cut => callJson cut.call) := by
  unfold foldedBlocks
  by_cases blank : text = ""
  · rw [if_pos blank, call_blocks_json, if_pos blank, List.nil_append]
  · rw [if_neg blank, List.mapM_cons, call_blocks_json, if_neg blank]
    rfl

/-- The stream and the body agree exactly when there are no prompt tokens to
report and no more calls than the stream lets through. -/
theorem streaming_agrees_iff (order : ValueOrder) (response : ChatResponse codec)
    (body : ByteArray) (json : Json) (parsed : codec.fromSlice body = some json)
    (carried : IsResponse response json) (texts : List String) (cuts : List (CallCut codec))
    (chunks : List (ChunkLine codec))
    (cut : IsCut response texts cuts (chunks.map ChunkLine.json)) :
    ∃ translated, anthropicResponse codec json = some translated ∧
      openaiToAnthropicResponse codec body = some (codec.toVec translated) ∧
      (Agrees codec (Message.empty.fold
          (translate codec order (chunks.map ChunkLine.line ++ [doneLine]))) translated ↔
        response.promptTokens = 0 ∧ response.calls.length ≤ 101) := by
  obtain ⟨translated, whole, content, stopReason, inputTokens, outputTokens⟩ :=
    body_translated response json carried
  refine ⟨translated, whole, by simp [openaiToAnthropicResponse, parsed, whole], ?_⟩
  rw [stream_folded order response texts cuts chunks cut]
  have blocks := folded_blocks_json response.text cuts
  have count : cuts.length = response.calls.length := by
    rw [← cut.calls, List.length_map]
  constructor
  · intro agrees
    have tokens := agrees.inputTokens
    rw [inputTokens, Option.some.injEq] at tokens
    refine ⟨Json.of_int_injective tokens, ?_⟩
    -- The stream keeps as many calls as it has accumulators for, the body keeps all.
    obtain ⟨listed, folded, same⟩ := agrees.content
    rw [blocks, Option.some.injEq] at folded
    rw [content, Option.some.injEq, Json.array.injEq, ← folded, responseContent,
      List.append_cancel_left_eq] at same
    have lengths := congrArg List.length same
    simp only [List.length_map, List.length_take, maxToolCallIndex] at lengths
    omega
  · rintro ⟨free, few⟩
    refine ⟨folded_blocks_labels _ _, ⟨_, blocks, ?_⟩, stopReason, ?_, outputTokens⟩
    · have all : cuts.take (maxToolCallIndex + 1) = cuts :=
        List.take_of_length_le (by rw [count]; exact few)
      rw [content, all, responseContent, ← cut.calls, List.map_map]
      rfl
    · rw [inputTokens, free]

section Listing

/-- A short answer with one tool call, whole and in four chunks. -/
def listingUsage : Json := Json.make [("prompt_tokens", .ofInt 5), ("completion_tokens", .ofInt 2)]

def listingFunction : Json := Json.make [("name", .string "ls"), ("arguments", .string "\x7b\x7d")]

def listingCall : Json :=
  Json.make [("index", .ofInt 0), ("id", .string "t1"), ("function", listingFunction)]

def deltaChunk (field : String) (value : Json) : Json :=
  Json.make [("choices", .array [Json.make [("delta", Json.make [(field, value)])]])]

def listingFinish : Json :=
  Json.make [("choices", .array [Json.make [("finish_reason", .string "tool_calls")]])]

def listingCount : Json := Json.make [("choices", .array []), ("usage", listingUsage)]

def listingJson : Json :=
  Json.make [("choices", .array [Json.make [("finish_reason", .string "tool_calls"),
    ("message", Json.make [("content", .string "hi"), ("tool_calls", .array [listingCall])])]]),
    ("usage", listingUsage)]

def listingTable : List (String × Json) :=
  [("\x7b\"choices\":[\x7b\"finish_reason\":\"tool_calls\",\"message\":\x7b\"content\":\"hi\"," ++
      "\"tool_calls\":[\x7b\"index\":0,\"id\":\"t1\",\"function\":\x7b\"name\":\"ls\"," ++
      "\"arguments\":\"\x7b\x7d\"\x7d\x7d]\x7d\x7d]," ++
      "\"usage\":\x7b\"prompt_tokens\":5,\"completion_tokens\":2\x7d\x7d", listingJson),
    ("\x7b\"choices\":[\x7b\"delta\":\x7b\"content\":\"hi\"\x7d\x7d]\x7d",
      deltaChunk "content" (.string "hi")),
    ("\x7b\"choices\":[\x7b\"delta\":\x7b\"tool_calls\":[\x7b\"index\":0,\"id\":\"t1\"," ++
      "\"function\":\x7b\"name\":\"ls\",\"arguments\":\"\x7b\x7d\"\x7d\x7d]\x7d\x7d]\x7d",
      deltaChunk "tool_calls" (.array [listingCall])),
    ("\x7b\"choices\":[\x7b\"finish_reason\":\"tool_calls\"\x7d]\x7d", listingFinish),
    ("\x7b\"choices\":[],\"usage\":\x7b\"prompt_tokens\":5,\"completion_tokens\":2\x7d\x7d",
      listingCount),
    ("\x7b\x7d", Json.make [])]

def listingCodec : Codec := .ofTable listingTable

def listingChunk (position : Nat) : String × Json := listingTable.getD position ("", .null)

theorem listing_read (position : Nat) (inside : position < listingTable.length) :
    listingCodec.fromStr (listingChunk position).1 = some (listingChunk position).2 := by
  apply Codec.of_table_reads listingTable (by decide +kernel)
  rw [listingChunk, List.getD_eq_getElem listingTable _ inside]
  exact List.getElem_mem inside

def listingChunks : List (ChunkLine listingCodec) :=
  [⟨(listingChunk 1).1, (listingChunk 1).2, listing_read 1 (by decide), by decide +kernel⟩,
    ⟨(listingChunk 2).1, (listingChunk 2).2, listing_read 2 (by decide), by decide +kernel⟩,
    ⟨(listingChunk 3).1, (listingChunk 3).2, listing_read 3 (by decide), by decide +kernel⟩,
    ⟨(listingChunk 4).1, (listingChunk 4).2, listing_read 4 (by decide), by decide +kernel⟩]

def listCall : Call listingCodec where
  id := "t1"
  name := "ls"
  arguments := "\x7b\x7d"
  input := []
  identified := by decide
  named := by decide
  written := by decide
  parses := by decide +kernel

def listing : ChatResponse listingCodec where
  text := "hi"
  calls := [listCall]
  finishReason := "tool_calls"
  promptTokens := 5
  completionTokens := 2
  promptInRange := by decide
  completionInRange := by decide

def listingCut : CallCut listingCodec where
  call := listCall
  opening := some "\x7b\x7d"
  fragments := []
  whole := by decide

theorem listing_carried : IsResponse listing listingJson := by
  refine ⟨_, _, _, rfl, rfl, rfl, ?_, rfl, rfl, rfl, rfl⟩
  exact .cons ⟨rfl, _, rfl, rfl, rfl⟩ .nil

theorem listing_cut :
    IsCut listing ["hi"] [listingCut] (listingChunks.map ChunkLine.json) := by
  refine ⟨by decide, rfl, by decide, ?_⟩
  exact ⟨[(listingChunk 1).2, (listingChunk 2).2], _, _, _, _, rfl, rfl, rfl, rfl, rfl, rfl, rfl⟩

theorem listing_agrees_iff :
    ∃ translated, anthropicResponse listingCodec listingJson = some translated ∧
      openaiToAnthropicResponse listingCodec (listingChunk 0).1.toUTF8 =
        some (listingCodec.toVec translated) ∧
      (Agrees listingCodec (Message.empty.fold (translate listingCodec insertionOrder
          (listingChunks.map ChunkLine.line ++ [doneLine]))) translated ↔
        listing.promptTokens = 0 ∧ listing.calls.length ≤ 101) :=
  streaming_agrees_iff insertionOrder listing (listingChunk 0).1.toUTF8 listingJson
    (listing_read 0 (by decide)) listing_carried ["hi"] [listingCut] listingChunks listing_cut

/-- The stream reports no input tokens where the body reports five. -/
theorem listing_tokens_lost :
    IsResponse listing listingJson ∧
    IsCut listing ["hi"] [listingCut] (listingChunks.map ChunkLine.json) ∧
    ∃ translated, anthropicResponse listingCodec listingJson = some translated ∧
      ¬ Agrees listingCodec (Message.empty.fold (translate listingCodec insertionOrder
        (listingChunks.map ChunkLine.line ++ [doneLine]))) translated := by
  refine ⟨listing_carried, listing_cut, ?_⟩
  obtain ⟨translated, whole, -, -, inputTokens, -⟩ :=
    body_translated listing listingJson listing_carried
  refine ⟨translated, whole, fun agrees => ?_⟩
  have tokens := agrees.inputTokens
  rw [inputTokens, stream_folded insertionOrder listing _ _ _ listing_cut] at tokens
  exact absurd tokens (by decide)

end Listing

end Ccflare.StreamAgreement
