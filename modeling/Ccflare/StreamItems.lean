import Ccflare.OpenAiStream

/-!
What the stream translator does, chunk by chunk, seen as a run over items: the
text and tool-call deltas of the chunks in the order the translator reads them.
The rest of a chunk changes neither the events of its items nor the blocks.
-/

namespace Ccflare.StreamItems

open JsonValue MessageStream OpenAiStream OpenAiStreamContext Transducer

/-- What a delta of a chunk carries. -/
inductive Piece where
  | text (content : String)
  | tool (delta : ToolDelta)
  deriving DecidableEq

def deltaPieces (delta : Json) : List Piece :=
  ((delta.getStr "content").map Piece.text).toList ++
    (deltaTools delta).map fun tc => .tool (readToolDelta tc)

def choicePieces (choice : Json) : List Piece := ((choice.get "delta").map deltaPieces).getD []

def chunkPieces (json : Json) : List Piece := (chunkChoices json).flatMap choicePieces

def feedPiece (ctx : OpenAiStreamContext) : Piece → List StreamEvent × OpenAiStreamContext
  | .text content => processText ctx content
  | .tool delta => processToolDelta ctx delta

/-- The part of the context that decides which blocks are open. -/
def blockView (ctx : OpenAiStreamContext) : OpenAiStreamContext :=
  { new with
    hasSentStart := ctx.hasSentStart
    hasSentContentBlockStart := ctx.hasSentContentBlockStart
    hasToolCalls := ctx.hasToolCalls
    toolAccumulators := ctx.toolAccumulators
    blockIndex := ctx.blockIndex }

theorem process_text_view (ctx : OpenAiStreamContext) (content : String) :
    (processText ctx content).1 = (processText (blockView ctx) content).1 ∧
      blockView (processText ctx content).2 = (processText (blockView ctx) content).2 := by
  unfold processText
  split
  · exact ⟨rfl, rfl⟩
  · exact ⟨rfl, rfl⟩

theorem close_text_view (ctx : OpenAiStreamContext) :
    (closeText ctx).1 = (closeText (blockView ctx)).1 ∧
      blockView (closeText ctx).2 = (closeText (blockView ctx)).2 := by
  unfold closeText blockView
  by_cases seen : ctx.hasToolCalls = true
  · simp [seen]
  · by_cases opened : ctx.hasSentContentBlockStart = true <;>
      simp [seen, opened, currentTextIndex]

theorem process_tool_view (ctx : OpenAiStreamContext) (delta : ToolDelta) :
    (processToolDelta ctx delta).1 = (processToolDelta (blockView ctx) delta).1 ∧
      blockView (processToolDelta ctx delta).2 = (processToolDelta (blockView ctx) delta).2 := by
  unfold processToolDelta
  by_cases beyond : delta.index > maxToolCallIndex
  · simp [beyond, blockView]
  · obtain ⟨events, view⟩ := close_text_view ctx
    have lookup : accumulator (closeText ctx).2 delta.index =
        accumulator (blockView (closeText ctx).2) delta.index := rfl
    simp only [beyond, ↓reduceIte]
    rw [lookup, view, events]
    refine ⟨rfl, ?_⟩
    rw [← view]
    rfl

theorem feed_piece_view (ctx : OpenAiStreamContext) (piece : Piece) :
    (feedPiece ctx piece).1 = (feedPiece (blockView ctx) piece).1 ∧
      blockView (feedPiece ctx piece).2 = (feedPiece (blockView ctx) piece).2 := by
  cases piece with
  | text content => exact process_text_view ctx content
  | tool delta => exact process_tool_view ctx delta

theorem content_pieces (ctx : OpenAiStreamContext) (delta : Json) :
    (processContent ctx delta).1 = (run feedPiece (blockView ctx)
        ((delta.getStr "content").map Piece.text).toList).1 ∧
      blockView (processContent ctx delta).2 = (run feedPiece (blockView ctx)
        ((delta.getStr "content").map Piece.text).toList).2 := by
  unfold processContent
  cases delta.getStr "content" with
  | none => exact ⟨rfl, rfl⟩
  | some content =>
      rw [Option.map_some, Option.toList_some, run_singleton]
      exact feed_piece_view ctx (.text content)

theorem delta_pieces (ctx : OpenAiStreamContext) (delta : Json) :
    (processDelta ctx delta).1 = (run feedPiece (blockView ctx) (deltaPieces delta)).1 ∧
      blockView (processDelta ctx delta).2 =
        (run feedPiece (blockView ctx) (deltaPieces delta)).2 := by
  obtain ⟨texts, afterText⟩ := content_pieces ctx delta
  obtain ⟨tools, afterTools, -⟩ := run_groups feedPiece processToolCallDelta
    (fun tc => [.tool (readToolDelta tc)]) blockView (fun _ => True)
    (fun ctx tc _ => by
      rw [run_singleton]
      obtain ⟨events, view⟩ := feed_piece_view ctx (.tool (readToolDelta tc))
      exact ⟨events, view, trivial⟩)
    (processContent ctx delta).2 (deltaTools delta) trivial
  rw [deltaPieces, run_append, List.map_eq_flatMap, ← afterText, ← texts, ← tools]
  exact ⟨rfl, afterTools⟩

theorem finish_reason_view (ctx : OpenAiStreamContext) (choice : Json) :
    blockView (readFinishReason ctx choice) = blockView ctx := by
  unfold readFinishReason
  cases choice.getStr "finish_reason" <;> rfl

theorem choice_pieces (ctx : OpenAiStreamContext) (choice : Json) :
    (processChoice ctx choice).1 = (run feedPiece (blockView ctx) (choicePieces choice)).1 ∧
      blockView (processChoice ctx choice).2 =
        (run feedPiece (blockView ctx) (choicePieces choice)).2 := by
  unfold processChoice choicePieces
  cases choice.get "delta" with
  | none => exact ⟨rfl, finish_reason_view ctx choice⟩
  | some delta =>
      have pieces := delta_pieces (readFinishReason ctx choice) delta
      rwa [finish_reason_view] at pieces

theorem choices_pieces (ctx : OpenAiStreamContext) (json : Json) :
    (run processChoice ctx (chunkChoices json)).1 =
        (run feedPiece (blockView ctx) (chunkPieces json)).1 ∧
      blockView (run processChoice ctx (chunkChoices json)).2 =
        (run feedPiece (blockView ctx) (chunkPieces json)).2 := by
  obtain ⟨events, view, -⟩ := run_groups feedPiece processChoice choicePieces blockView
    (fun _ => True) (fun ctx choice _ => ⟨(choice_pieces ctx choice).1,
      (choice_pieces ctx choice).2, trivial⟩) ctx (chunkChoices json) trivial
  exact ⟨events, view⟩

theorem close_text_sent (ctx : OpenAiStreamContext) :
    (closeText ctx).2.hasSentStart = ctx.hasSentStart := by
  unfold closeText
  by_cases seen : ctx.hasToolCalls = true
  · simp [seen]
  · by_cases opened : ctx.hasSentContentBlockStart = true <;> simp [seen, opened]

theorem feed_piece_sent (ctx : OpenAiStreamContext) (piece : Piece)
    (sent : ctx.hasSentStart = true) : (feedPiece ctx piece).2.hasSentStart = true := by
  cases piece with
  | text content =>
      by_cases blank : content = ""
      · simpa [feedPiece, processText, blank] using sent
      · simpa [feedPiece, processText, blank] using sent
  | tool delta =>
      by_cases beyond : delta.index > maxToolCallIndex
      · simpa [feedPiece, processToolDelta, beyond] using sent
      · simpa [feedPiece, processToolDelta, beyond, close_text_sent] using sent

theorem read_model_view (ctx : OpenAiStreamContext) (json : Json) :
    blockView (readModel ctx json) = blockView ctx := by
  unfold readModel
  by_cases started : ctx.hasStarted = true
  · simp [started]
  · simp [started, blockView]

theorem read_usage_view (ctx : OpenAiStreamContext) (json : Json) :
    blockView (readUsage ctx json) = blockView ctx := by
  unfold readUsage
  cases json.get "usage" <;> rfl

/-- A chunk after the first is the run over its pieces. -/
theorem later_chunk_pieces (ctx : OpenAiStreamContext) (json : Json)
    (sent : ctx.hasSentStart = true) :
    (processJson ctx json).1 = (run feedPiece (blockView ctx) (chunkPieces json)).1 ∧
      blockView (processJson ctx json).2 = (run feedPiece (blockView ctx) (chunkPieces json)).2 ∧
      (processJson ctx json).2.hasSentStart = true := by
  have silent : sendStart (readModel ctx json) json = ([], readModel ctx json) := by
    have still : (readModel ctx json).hasSentStart = true := by
      have view := congrArg hasSentStart (read_model_view ctx json)
      exact view.trans sent
    simp [sendStart, still]
  obtain ⟨events, view⟩ := choices_pieces (readUsage (readModel ctx json) json) json
  rw [read_usage_view, read_model_view] at events view
  simp only [processJson, silent, List.nil_append]
  refine ⟨events, view, ?_⟩
  have kept := run_invariant feedPiece (fun state => state.hasSentStart = true) feed_piece_sent
    (blockView ctx) (chunkPieces json) sent
  rwa [← view] at kept

/-- The state in which the pieces of the first chunk are read. -/
def opening : OpenAiStreamContext := { new with hasSentStart := true }

theorem first_chunk_pieces (json : Json) :
    (processJson new json).1 =
        .messageStart ((json.get "id").getD (.string "msg_unknown"))
          ((json.getStr "model").getD "") 0 :: .ping ::
          (run feedPiece opening (chunkPieces json)).1 ∧
      blockView (processJson new json).2 = (run feedPiece opening (chunkPieces json)).2 ∧
      (processJson new json).2.hasSentStart = true := by
  have view : blockView (readUsage (sendStart (readModel new json) json).2 json) = opening := by
    rw [read_usage_view]
    rfl
  obtain ⟨events, after⟩ := choices_pieces (readUsage (sendStart (readModel new json) json).2 json)
    json
  rw [view] at events after
  refine ⟨?_, after, ?_⟩
  · simp only [processJson, events]
    rfl
  · have kept := run_invariant feedPiece (fun state => state.hasSentStart = true) feed_piece_sent
      opening (chunkPieces json) rfl
    rwa [← after] at kept

/-- A line that carries a chunk: the text after `data: ` parses, and it is not
the mark that ends the stream. -/
structure ChunkLine (codec : Codec) where
  data : String
  json : Json
  parses : codec.fromStr data = some json
  unfinished : data ≠ "[DONE]"

def ChunkLine.line {codec : Codec} (chunk : ChunkLine codec) : String := "data: " ++ chunk.data

def doneLine : String := "data: [DONE]"

variable (codec : Codec) (order : ValueOrder)

/-- All events of a stream of lines. -/
def translate (lines : List String) : List StreamEvent :=
  (run (readLine codec order) new lines).1

theorem data_line_read (ctx : OpenAiStreamContext) (data : String) :
    processLine codec order ctx ("data: " ++ data) =
      if data = "[DONE]" then (some (finish order ctx), ctx)
      else match codec.fromStr data with
        | none => (none, ctx)
        | some json => (if (processJson ctx json).1.isEmpty then none
            else some (processJson ctx json).1, (processJson ctx json).2) := by
  have notBlank : ¬ ("data: " ++ data = "" ∨ Text.startsWith ":" ("data: " ++ data) = true) := by
    simp [Text.startsWith, String.append_eq_empty_iff]
  by_cases done : data = "[DONE]"
  · simp only [processLine, if_neg notBlank, Text.strip_prefix_append, if_pos done]
  · cases parsed : codec.fromStr data with
    | none => simp only [processLine, if_neg notBlank, Text.strip_prefix_append, if_neg done, parsed]
    | some json =>
        simp only [processLine, if_neg notBlank, Text.strip_prefix_append, if_neg done, parsed]

theorem chunk_line_read (ctx : OpenAiStreamContext) (chunk : ChunkLine codec) :
    readLine codec order ctx chunk.line = processJson ctx chunk.json := by
  simp only [readLine, ChunkLine.line, data_line_read, chunk.unfinished, ↓reduceIte, chunk.parses]
  cases silent : (processJson ctx chunk.json).1 with
  | nil => exact Prod.ext silent.symm rfl
  | cons event rest => exact Prod.ext silent.symm rfl

theorem done_line_read (ctx : OpenAiStreamContext) :
    readLine codec order ctx doneLine = (finish order ctx, ctx) := by
  have read := data_line_read codec order ctx "[DONE]"
  simp only [readLine, doneLine]
  rw [show "data: [DONE]" = "data: " ++ "[DONE]" from rfl, read]
  rfl

theorem chunk_lines_read (ctx : OpenAiStreamContext) (chunks : List (ChunkLine codec)) :
    run (readLine codec order) ctx (chunks.map ChunkLine.line) =
      run processJson ctx (chunks.map ChunkLine.json) := by
  induction chunks generalizing ctx with
  | nil => rfl
  | cons chunk rest ih =>
      rw [List.map_cons, List.map_cons, run_cons, run_cons, chunk_line_read, ih]

theorem chunks_pieces (first : Json) (rest : List Json) :
    (run processJson new (first :: rest)).1 =
        .messageStart ((first.get "id").getD (.string "msg_unknown"))
          ((first.getStr "model").getD "") 0 :: .ping ::
          (run feedPiece opening ((first :: rest).flatMap chunkPieces)).1 ∧
      blockView (run processJson new (first :: rest)).2 =
        (run feedPiece opening ((first :: rest).flatMap chunkPieces)).2 := by
  obtain ⟨events, view, sent⟩ := first_chunk_pieces first
  obtain ⟨later, after, -⟩ := run_groups feedPiece processJson chunkPieces blockView
    (fun ctx => ctx.hasSentStart = true) later_chunk_pieces _ rest sent
  rw [run_cons, List.flatMap_cons, run_append, ← view, ← later, ← after, events]
  exact ⟨rfl, rfl⟩

/-- The events of a whole stream: the start, what the pieces emit, the end. -/
theorem translate_events (first : ChunkLine codec) (rest : List (ChunkLine codec)) :
    translate codec order ((first :: rest).map ChunkLine.line ++ [doneLine]) =
      .messageStart ((first.json.get "id").getD (.string "msg_unknown"))
        ((first.json.getStr "model").getD "") 0 :: .ping ::
        (run feedPiece opening
          (((first :: rest).map ChunkLine.json).flatMap chunkPieces)).1 ++
        finish order (run processJson new ((first :: rest).map ChunkLine.json)).2 := by
  rw [translate, run_append, chunk_lines_read, run_singleton, done_line_read, List.map_cons,
    (chunks_pieces first.json _).1]

/-- A piece that can reach a block: text that is not empty, or a tool call
within the limit. -/
inductive Item where
  | text (content : String) (nonempty : content ≠ "")
  | tool (delta : ToolDelta) (within : delta.index ≤ maxToolCallIndex)
  deriving DecidableEq

def Piece.item : Piece → Option Item
  | .text content => if nonempty : content ≠ "" then some (.text content nonempty) else none
  | .tool delta =>
      if within : delta.index ≤ maxToolCallIndex then some (.tool delta within) else none

def feedItem (ctx : OpenAiStreamContext) : Item → List StreamEvent × OpenAiStreamContext
  | .text content _ => processText ctx content
  | .tool delta _ => processToolDelta ctx delta

/-- The blocks a client tells apart: the text, and one tool per upstream index. -/
inductive Block where
  | text
  | tool (index : Nat)
  deriving DecidableEq

/-- The block an item asks for; a tool call has none before its name is known. -/
def Item.asks : Item → Option Block
  | .text _ _ => some .text
  | .tool delta _ => if delta.name.getD "" ≠ "" then some (.tool delta.index) else none

def Item.isTool : Item → Bool
  | .text _ _ => false
  | .tool _ _ => true

/-- All other pieces emit nothing and change nothing. -/
theorem feed_piece_item (ctx : OpenAiStreamContext) (piece : Piece) :
    feedPiece ctx piece = run feedItem ctx piece.item.toList := by
  cases piece with
  | text content =>
      by_cases blank : content = ""
      · simp [feedPiece, Piece.item, blank, processText]
      · simp [feedPiece, Piece.item, blank, feedItem]
  | tool delta =>
      by_cases within : delta.index ≤ maxToolCallIndex
      · simp [feedPiece, Piece.item, within, feedItem]
      · have beyond := Nat.lt_of_not_le within
        simp [feedPiece, Piece.item, within, processToolDelta, beyond]

theorem run_items (ctx : OpenAiStreamContext) (pieces : List Piece) :
    run feedPiece ctx pieces = run feedItem ctx (pieces.filterMap Piece.item) := by
  obtain ⟨events, states, -⟩ := run_groups feedItem feedPiece (fun piece => piece.item.toList) id
    (fun _ => True) (fun ctx piece _ => by simp [feed_piece_item]) ctx pieces trivial
  rw [List.filterMap_eq_flatMap_toList]
  exact Prod.ext events states

end Ccflare.StreamItems
