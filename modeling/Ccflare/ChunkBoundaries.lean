import Ccflare.OpenAiStream

/-!
Where the chunks of an upstream stream are cut. The loop over the buffer goes from one newline to
the next by a cursor and drains what it has read; no line of it looks at the buffer. What is held
back is read again in front of the next chunk, so only the joined text counts.
-/

namespace Ccflare.ChunkBoundaries

open JsonValue MessageStream OpenAiStream OpenAiStreamContext Transducer

def withBuffer (ctx : OpenAiStreamContext) (buffer : String) : OpenAiStreamContext :=
  { ctx with buffer := buffer }

@[simp]
theorem buffer_with (ctx : OpenAiStreamContext) (buffer : String) :
    (withBuffer ctx buffer).buffer = buffer := rfl

@[simp]
theorem with_with (ctx : OpenAiStreamContext) (first second : String) :
    withBuffer (withBuffer ctx first) second = withBuffer ctx second := rfl

/-- A step that neither reads nor writes the buffer. -/
def Blind {α β : Type} (step : OpenAiStreamContext → α → β × OpenAiStreamContext) : Prop :=
  ∀ ctx buffer input,
    step (withBuffer ctx buffer) input =
      ((step ctx input).1, withBuffer (step ctx input).2 buffer)

theorem run_blind {α : Type}
    {step : OpenAiStreamContext → α → List StreamEvent × OpenAiStreamContext} (blind : Blind step) :
    Blind (run step) := by
  intro ctx buffer inputs
  induction inputs generalizing ctx with
  | nil => rfl
  | cons input rest ih => rw [run_cons, blind, ih, run_cons]

theorem blind_keeps {α β : Type} {step : OpenAiStreamContext → α → β × OpenAiStreamContext}
    (blind : Blind step) (ctx : OpenAiStreamContext) (input : α) :
    (step ctx input).2.buffer = ctx.buffer := by
  have same := blind ctx ctx.buffer input
  exact congrArg (fun result => result.2.buffer) same

theorem close_text_blind (ctx : OpenAiStreamContext) (buffer : String) :
    closeText (withBuffer ctx buffer) =
      ((closeText ctx).1, withBuffer (closeText ctx).2 buffer) := by
  unfold closeText withBuffer
  split
  · rfl
  · split <;> rfl

theorem tool_delta_blind : Blind processToolDelta := by
  intro ctx buffer delta
  unfold processToolDelta
  split
  · rfl
  · rw [close_text_blind]
    rfl

theorem tool_call_blind : Blind processToolCallDelta := fun ctx buffer tc =>
  tool_delta_blind ctx buffer (readToolDelta tc)

theorem text_blind : Blind processText := by
  intro ctx buffer content
  unfold processText
  split <;> rfl

theorem content_blind : Blind processContent := by
  intro ctx buffer delta
  unfold processContent
  split
  · exact text_blind ctx buffer _
  · rfl

theorem delta_blind : Blind processDelta := by
  intro ctx buffer delta
  unfold processDelta
  rw [content_blind]
  dsimp only
  rw [run_blind tool_call_blind]

theorem choice_blind : Blind processChoice := by
  intro ctx buffer choice
  have read : readFinishReason (withBuffer ctx buffer) choice =
      withBuffer (readFinishReason ctx choice) buffer := by
    unfold readFinishReason
    split <;> rfl
  unfold processChoice
  rw [read]
  split
  · exact delta_blind _ buffer _
  · rfl

theorem json_blind : Blind processJson := by
  intro ctx buffer json
  have model : readModel (withBuffer ctx buffer) json = withBuffer (readModel ctx json) buffer := by
    unfold readModel withBuffer
    split <;> rfl
  have start (ctx : OpenAiStreamContext) : sendStart (withBuffer ctx buffer) json =
      ((sendStart ctx json).1, withBuffer (sendStart ctx json).2 buffer) := by
    unfold sendStart withBuffer
    split <;> rfl
  have usage (ctx : OpenAiStreamContext) : readUsage (withBuffer ctx buffer) json =
      withBuffer (readUsage ctx json) buffer := by
    unfold readUsage
    split <;> rfl
  unfold processJson
  rw [model, start]
  dsimp only
  rw [usage, run_blind choice_blind]

section Scan
variable (codec : Codec) (order : ValueOrder)

theorem line_blind : Blind (processLine codec order) := by
  intro ctx buffer line
  unfold processLine
  split
  · rfl
  · split
    · rfl
    · split
      · rfl
      · split
        · rfl
        · rw [json_blind]

theorem feed_blind : Blind (feedLine codec order) := by
  intro ctx buffer line
  unfold feedLine readLine
  rw [line_blind]

theorem newline_found (text : List Char) (pos : Nat)
    (found : text.findIdx? (· == '\n') = some pos) :
    text = text.take pos ++ '\n' :: text.drop (pos + 1) ∧ '\n' ∉ text.take pos := by
  induction text generalizing pos with
  | nil => simp at found
  | cons c rest ih =>
      by_cases breaks : c = '\n'
      · subst breaks
        obtain rfl : 0 = pos := by simpa [List.findIdx?_cons] using found
        simp
      · simp only [List.findIdx?_cons, beq_eq_false_iff_ne.mpr breaks, Bool.false_eq_true, if_false,
          Option.map_eq_some_iff] at found
        obtain ⟨later, found, rfl⟩ := found
        obtain ⟨split, unbroken⟩ := ih later found
        refine ⟨?_, by simp [unbroken, Ne.symm breaks]⟩
        rw [List.take_succ_cons, List.drop_succ_cons, List.cons_append, ← split]

/-- The loop of `transform_chunk`: what is left from the cursor on is searched for a newline, and
the line before it is copied and processed. -/
def scanLines (ctx : OpenAiStreamContext) (cursor : Nat) (events : List StreamEvent) :
    List StreamEvent × Nat × OpenAiStreamContext :=
  match _found : (ctx.buffer.toList.drop cursor).findIdx? (· == '\n') with
  | none => (events, cursor, ctx)
  | some pos =>
      let line := String.ofList ((ctx.buffer.toList.drop cursor).take pos)
      let answer := processLine codec order ctx (Text.trimEndMatches '\r' line)
      scanLines answer.2 (cursor + pos + 1) (events ++ answer.1.getD [])
termination_by ctx.buffer.toList.length - cursor
decreasing_by
  have kept := blind_keeps (line_blind codec order) ctx (Text.trimEndMatches '\r' line)
  obtain ⟨inside, -⟩ := List.findIdx?_eq_some_iff_getElem.mp _found
  rw [List.length_drop] at inside
  rw [kept]
  omega

def transformChunkByCursor (ctx : OpenAiStreamContext) (chunk : String) :
    List StreamEvent × OpenAiStreamContext :=
  let (events, cursor, ctx) := scanLines codec order (withBuffer ctx (ctx.buffer ++ chunk)) 0 []
  (events,
    if 0 < cursor then withBuffer ctx (String.ofList (ctx.buffer.toList.drop cursor)) else ctx)

/-- The loop reads the complete lines that are left, and stops in front of what follows the last
of them. -/
theorem scan_reads (ctx : OpenAiStreamContext) (cursor : Nat) (events : List StreamEvent) :
    let split := Text.completeLines (String.ofList (ctx.buffer.toList.drop cursor))
    let read := run (feedLine codec order) ctx split.1
    ∃ stop, scanLines codec order ctx cursor events = (events ++ read.1, stop, read.2) ∧
      ctx.buffer.toList.drop stop = split.2.toList := by
  fun_induction scanLines codec order ctx cursor events with
  | case1 ctx cursor events found =>
      have unbroken : '\n' ∉ ctx.buffer.toList.drop cursor := by
        intro member
        simpa using List.findIdx?_eq_none_iff.mp found '\n' member
      rw [Text.complete_lines_unbroken _ (by simpa using unbroken)]
      exact ⟨cursor, by simp, by simp⟩
  | case2 ctx cursor events pos found line answer ih =>
      obtain ⟨stop, scanned, rest⟩ := ih
      obtain ⟨split, unbroken⟩ := newline_found _ _ found
      have kept : answer.2.buffer = ctx.buffer := blind_keeps (line_blind codec order) ctx _
      have lines : Text.completeLines (String.ofList (ctx.buffer.toList.drop cursor)) =
          (line :: (Text.completeLines (String.ofList
            (ctx.buffer.toList.drop (cursor + pos + 1)))).1,
            (Text.completeLines (String.ofList (ctx.buffer.toList.drop (cursor + pos + 1)))).2) := by
        rw [← Text.complete_lines_line line _ (by simpa [line] using unbroken)]
        apply congrArg Text.completeLines
        rw [← String.toList_inj]
        simp only [String.toList_append, String.toList_ofList, line]
        rw [show cursor + pos + 1 = cursor + (pos + 1) by omega, ← List.drop_drop,
          List.append_assoc]
        exact split
      rw [kept] at scanned rest
      refine ⟨stop, ?_, ?_⟩
      · rw [scanned, lines, run_cons]
        simp [feedLine, readLine, answer]
      · rw [rest, lines]

theorem transform_chunk_eq (ctx : OpenAiStreamContext) (chunk : String) :
    let split := Text.completeLines (ctx.buffer ++ chunk)
    let read := run (feedLine codec order) ctx split.1
    transformChunk codec order ctx chunk = (read.1, withBuffer read.2 split.2) := rfl

theorem transform_by_cursor (ctx : OpenAiStreamContext) (chunk : String) :
    transformChunkByCursor codec order ctx chunk = transformChunk codec order ctx chunk := by
  obtain ⟨stop, scanned, rest⟩ :=
    scan_reads codec order (withBuffer ctx (ctx.buffer ++ chunk)) 0 []
  rw [buffer_with, List.drop_zero, String.ofList_toList] at scanned rest
  rw [run_blind (feed_blind codec order), List.nil_append] at scanned
  rw [transform_chunk_eq, ← String.ofList_toList (s := (Text.completeLines _).2), ← rest]
  unfold transformChunkByCursor
  rw [scanned]
  dsimp only
  by_cases moved : 0 < stop
  · rw [if_pos moved]
    rfl
  · obtain rfl : stop = 0 := by omega
    rw [if_neg moved, List.drop_zero, String.ofList_toList]

/-- A chunk cut in two is read as one. -/
theorem transform_two (ctx : OpenAiStreamContext) (left right : String) :
    transformChunk codec order ctx (left ++ right) =
      ((transformChunk codec order ctx left).1 ++
        (transformChunk codec order (transformChunk codec order ctx left).2 right).1,
        (transformChunk codec order (transformChunk codec order ctx left).2 right).2) := by
  have first := transform_chunk_eq codec order ctx left
  have second := transform_chunk_eq codec order (transformChunk codec order ctx left).2 right
  have whole := transform_chunk_eq codec order ctx (left ++ right)
  rw [← String.append_assoc, Text.complete_lines_append] at whole
  rw [whole, second, first]
  simp only [run_append, buffer_with, run_blind (feed_blind codec order) _ _ _, with_with]

theorem transform_drained (ctx : OpenAiStreamContext) (unbroken : '\n' ∉ ctx.buffer.toList) :
    transformChunk codec order ctx "" = ([], ctx) := by
  rw [transform_chunk_eq, String.append_empty, Text.complete_lines_unbroken _ unbroken]
  rfl

/-- Only the joined text counts: one call for each chunk and one call for all of them return the
same events and leave the same context. Where there are no chunks at all, the buffer has no
complete line, as every call leaves it. -/
theorem chunk_boundaries (ctx : OpenAiStreamContext) :
    (∀ chunk rest,
      run (transformChunkByCursor codec order) ctx (chunk :: rest) =
        transformChunkByCursor codec order ctx (Text.joinWith "" (chunk :: rest))) ∧
    ('\n' ∉ ctx.buffer.toList → transformChunkByCursor codec order ctx "" = ([], ctx)) ∧
    ∀ chunk, '\n' ∉ (transformChunkByCursor codec order ctx chunk).2.buffer.toList := by
  have loops : transformChunkByCursor codec order = transformChunk codec order := by
    funext ctx chunk
    exact transform_by_cursor codec order ctx chunk
  rw [loops]
  refine ⟨fun chunk rest => ?_, transform_drained codec order ctx,
    fun chunk => Text.complete_lines_rest (ctx.buffer ++ chunk)⟩
  induction rest generalizing ctx chunk with
  | nil => exact run_singleton _ ctx chunk
  | cons next rest ih =>
      rw [run_cons, ih, Text.join_empty_cons chunk, transform_two]

end Scan

end Ccflare.ChunkBoundaries
