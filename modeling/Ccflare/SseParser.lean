import Ccflare.JsonValue
import Ccflare.Text
import Ccflare.Transducer

/-!
The SSE parser of the proxy and the token usage it reads off a buffered stream.
The parser keeps the bytes of an unfinished line and the event type of the lines
so far. Feeding a chunk is the run of a machine that takes one byte at a time,
so where a stream is cut into chunks is not seen in what comes out.
-/

namespace Ccflare.SseParser

open JsonValue

structure SseEvent where
  eventType : Option String
  data : String
  deriving DecidableEq

structure Parser where
  byteBuffer : List UInt8
  currentEvent : Option String
  deriving DecidableEq

def Parser.new : Parser := ⟨[], none⟩

def newline : UInt8 := 10

def carriageReturn : UInt8 := 13

def stripCarriageReturn (line : List UInt8) : List UInt8 :=
  if line.getLast? = some carriageReturn then line.dropLast else line

def fromUtf8 (line : List UInt8) : Option String := String.fromUTF8? ⟨line.toArray⟩

/-- The value of a field, with or without the blank after the colon. -/
def fieldValue (name line : String) : Option String :=
  (Text.stripPrefix (name ++ ": ") line).or (Text.stripPrefix (name ++ ":") line)

/-- One complete line: the events it gives and the current event type after it. -/
def processLine (current : Option String) (lineBytes : List UInt8) :
    List SseEvent × Option String :=
  let lineBytes := stripCarriageReturn lineBytes
  if lineBytes.isEmpty then ([], none)
  else match fromUtf8 lineBytes with
    -- A malformed line is skipped.
    | none => ([], current)
    | some line =>
        match fieldValue "event" line with
        | some eventType => ([], some (Text.trim eventType))
        | none =>
            match fieldValue "data" line with
            | some data => ([⟨current, data⟩], current)
            | none => ([], current)

/-- The bytes before the first newline and those after it. -/
def takeLine : List UInt8 → Option (List UInt8 × List UInt8)
  | [] => none
  | byte :: rest =>
      if byte = newline then some ([], rest)
      else (takeLine rest).map fun split => (byte :: split.1, split.2)

theorem take_line_shorter (buffer line rest : List UInt8)
    (found : takeLine buffer = some (line, rest)) : rest.length < buffer.length := by
  induction buffer generalizing line with
  | nil => cases found
  | cons byte later ih =>
      simp only [takeLine] at found
      split at found
      · cases found
        exact Nat.lt_succ_self _
      · obtain ⟨⟨start, final⟩, ends, same⟩ := Option.map_eq_some_iff.mp found
        cases same
        exact Nat.lt_succ_of_lt (ih start ends)

/-- The loop of `feed` over the complete lines of the buffer. -/
def processLines (current : Option String) (buffer : List UInt8) : List SseEvent × Parser :=
  match _found : takeLine buffer with
  | none => ([], ⟨buffer, current⟩)
  | some (line, rest) =>
      let processed := processLine current line
      let later := processLines processed.2 rest
      (processed.1 ++ later.1, later.2)
  termination_by buffer.length
  decreasing_by exact take_line_shorter buffer line rest _found

def Parser.feed (parser : Parser) (chunk : List UInt8) : List SseEvent × Parser :=
  processLines parser.currentEvent (parser.byteBuffer ++ chunk)

def Parser.flush (parser : Parser) : List SseEvent × Parser :=
  if parser.byteBuffer.isEmpty then ([], parser)
  else
    let processed := processLine parser.currentEvent parser.byteBuffer
    (processed.1, ⟨[], processed.2⟩)

/-- The chunks fed in order, then the flush. -/
def streamEvents (chunks : List (List UInt8)) : List SseEvent :=
  let fed := Transducer.run Parser.feed Parser.new chunks
  fed.1 ++ fed.2.flush.1

/-- The parser one byte at a time: a newline ends the line held so far. -/
def Parser.byte (parser : Parser) (byte : UInt8) : List SseEvent × Parser :=
  if byte = newline then
    let processed := processLine parser.currentEvent parser.byteBuffer
    (processed.1, ⟨[], processed.2⟩)
  else ([], ⟨parser.byteBuffer ++ [byte], parser.currentEvent⟩)

/-- Between two calls no complete line is left in the buffer. -/
def Parser.Unfinished (parser : Parser) : Prop := newline ∉ parser.byteBuffer

theorem take_line_none (buffer : List UInt8) (unfinished : newline ∉ buffer) :
    takeLine buffer = none := by
  induction buffer with
  | nil => rfl
  | cons byte rest ih =>
      simp only [List.mem_cons, not_or] at unfinished
      obtain ⟨other, later⟩ := unfinished
      simp [takeLine, Ne.symm other, ih later]

theorem take_line_found (buffer rest : List UInt8) (unfinished : newline ∉ buffer) :
    takeLine (buffer ++ newline :: rest) = some (buffer, rest) := by
  induction buffer with
  | nil => simp [takeLine]
  | cons byte line ih =>
      simp only [List.mem_cons, not_or] at unfinished
      obtain ⟨other, later⟩ := unfinished
      simp [takeLine, Ne.symm other, ih later]

theorem process_lines_none (current : Option String) (buffer : List UInt8)
    (unfinished : newline ∉ buffer) : processLines current buffer = ([], ⟨buffer, current⟩) := by
  rw [processLines]
  split
  · rfl
  · rename_i found
    rw [take_line_none buffer unfinished] at found
    cases found

theorem process_lines_found (current : Option String) (buffer rest : List UInt8)
    (unfinished : newline ∉ buffer) :
    processLines current (buffer ++ newline :: rest) =
      ((processLine current buffer).1 ++
          (processLines (processLine current buffer).2 rest).1,
        (processLines (processLine current buffer).2 rest).2) := by
  rw [processLines]
  split
  · rename_i found
    rw [take_line_found buffer rest unfinished] at found
    cases found
  · rename_i found
    rw [take_line_found buffer rest unfinished] at found
    cases found
    rfl

theorem byte_unfinished (parser : Parser) (byte : UInt8) (unfinished : parser.Unfinished) :
    (parser.byte byte).2.Unfinished := by
  unfold Parser.byte Parser.Unfinished
  split
  · simp
  · rename_i other
    simpa using ⟨unfinished, Ne.symm other⟩

/-- The loop over complete lines takes the new bytes one by one. -/
theorem feed_bytes (parser : Parser) (chunk : List UInt8) (unfinished : parser.Unfinished) :
    parser.feed chunk = Transducer.run Parser.byte parser chunk := by
  induction chunk generalizing parser with
  | nil =>
      simp only [Parser.feed, List.append_nil, Transducer.run_nil]
      exact process_lines_none parser.currentEvent parser.byteBuffer unfinished
  | cons byte rest ih =>
      have later := ih (parser.byte byte).2 (byte_unfinished parser byte unfinished)
      rw [Transducer.run_cons, ← later]
      by_cases ends : byte = newline
      · subst ends
        simp only [Parser.feed, Parser.byte, if_true, List.nil_append]
        exact process_lines_found parser.currentEvent parser.byteBuffer rest unfinished
      · simp [Parser.feed, Parser.byte, ends]

theorem feed_chunks (parser : Parser) (chunks : List (List UInt8))
    (unfinished : parser.Unfinished) :
    Transducer.run Parser.feed parser chunks =
      Transducer.run Parser.byte parser chunks.flatten := by
  have groups := Transducer.run_groups Parser.byte Parser.feed id id Parser.Unfinished
    (by
      intro current chunk held
      have kept := Transducer.run_invariant Parser.byte Parser.Unfinished byte_unfinished
        current chunk held
      rw [feed_bytes current chunk held]
      exact ⟨rfl, rfl, kept⟩)
    parser chunks unfinished
  rw [List.flatMap_id] at groups
  exact Prod.ext groups.1 groups.2.1

theorem events_of_bytes (chunks : List (List UInt8)) :
    streamEvents chunks = streamEvents [chunks.flatten] := by
  have fresh : Parser.new.Unfinished := List.not_mem_nil
  unfold streamEvents
  rw [feed_chunks Parser.new chunks fresh, feed_chunks Parser.new [chunks.flatten] fresh,
    List.flatten_singleton]

structure StreamUsage where
  model : Option String
  inputTokens : Option Int
  outputTokens : Option Int
  cacheReadInputTokens : Option Int
  cacheCreationInputTokens : Option Int
  deriving DecidableEq

def StreamUsage.default : StreamUsage := ⟨none, none, none, none, none⟩

def tokens (key : String) (usage : Json) : Option Int := (usage.get key).bind Json.asI64

def messageStart (json : Json) (usage : StreamUsage) : StreamUsage :=
  match json.get "message" with
  | none => usage
  | some message =>
      let usage := { usage with model := (message.getStr "model").or usage.model }
      match message.get "usage" with
      | none => usage
      | some u =>
          { usage with
            inputTokens := (tokens "input_tokens" u).or usage.inputTokens
            cacheReadInputTokens :=
              (tokens "cache_read_input_tokens" u).or usage.cacheReadInputTokens
            cacheCreationInputTokens :=
              (tokens "cache_creation_input_tokens" u).or usage.cacheCreationInputTokens }

def messageDelta (json : Json) (usage : StreamUsage) : StreamUsage :=
  match json.get "usage" with
  | none => usage
  | some u =>
      { usage with outputTokens := (tokens "output_tokens" u).or usage.outputTokens }

def extractUsageFromSseData (codec : Codec) (usage : StreamUsage) (data : String) :
    StreamUsage :=
  if !Text.contains "message_start" data && !Text.contains "message_delta" data then usage
  else match codec.fromStr data with
    | none => usage
    | some json =>
        let eventType := (json.getStr "type").getD ""
        if eventType = "message_start" then messageStart json usage
        else if eventType = "message_delta" then messageDelta json usage
        else usage

def analyticsMaxBytes : Nat := 1048576

structure AnalyticsBuffer where
  chunks : List (List UInt8)
  totalBytes : Nat
  truncated : Bool
  deriving DecidableEq

def AnalyticsBuffer.new : AnalyticsBuffer := ⟨[], 0, false⟩

def AnalyticsBuffer.push (buffer : AnalyticsBuffer) (chunk : List UInt8) : AnalyticsBuffer :=
  if buffer.truncated then buffer
  else if buffer.totalBytes + chunk.length ≤ analyticsMaxBytes then
    { buffer with
      chunks := buffer.chunks ++ [chunk], totalBytes := buffer.totalBytes + chunk.length }
  else
    let remaining := analyticsMaxBytes - buffer.totalBytes
    if remaining > 0 then
      ⟨buffer.chunks ++ [chunk.take remaining], buffer.totalBytes + remaining, true⟩
    else { buffer with truncated := true }

def extractEvents (codec : Codec) (usage : StreamUsage) (events : List SseEvent) : StreamUsage :=
  events.foldl (fun held event => extractUsageFromSseData codec held event.data) usage

def extractUsageFromBuffer (codec : Codec) (buffer : AnalyticsBuffer) : StreamUsage :=
  let fed := buffer.chunks.foldl (fun state chunk =>
    let step := state.1.feed chunk
    (step.2, extractEvents codec state.2 step.1)) (Parser.new, StreamUsage.default)
  extractEvents codec fed.2 fed.1.flush.1

-- The usage follows the events of a chunk before the next chunk is fed.
theorem extract_interleaved (codec : Codec) (chunks : List (List UInt8)) (parser : Parser)
    (usage : StreamUsage) :
    chunks.foldl (fun state chunk =>
        let step := state.1.feed chunk
        (step.2, extractEvents codec state.2 step.1)) (parser, usage) =
      ((Transducer.run Parser.feed parser chunks).2,
        extractEvents codec usage (Transducer.run Parser.feed parser chunks).1) := by
  induction chunks generalizing parser usage with
  | nil => rfl
  | cons chunk rest ih =>
      rw [List.foldl_cons, ih, Transducer.run_cons]
      simp only [extractEvents, List.foldl_append]

theorem extract_of_events (codec : Codec) (buffer : AnalyticsBuffer) :
    extractUsageFromBuffer codec buffer =
      extractEvents codec StreamUsage.default (streamEvents buffer.chunks) := by
  simp only [extractUsageFromBuffer, extract_interleaved, streamEvents]
  simp only [extractEvents, List.foldl_append]

/-- What has been pushed is the start of the stream up to the cap, and the flag
tells that more has come. -/
structure Holds (buffer : AnalyticsBuffer) (bytes : List UInt8) : Prop where
  kept : buffer.chunks.flatten = bytes.take analyticsMaxBytes
  total : buffer.totalBytes = buffer.chunks.flatten.length
  capped : buffer.truncated = true ↔ analyticsMaxBytes < bytes.length

theorem push_holds (buffer : AnalyticsBuffer) (bytes chunk : List UInt8)
    (holds : Holds buffer bytes) : Holds (buffer.push chunk) (bytes ++ chunk) := by
  have total : buffer.totalBytes = min analyticsMaxBytes bytes.length := by
    rw [holds.total, holds.kept, List.length_take]
  unfold AnalyticsBuffer.push
  split
  · rename_i truncated
    have longer := holds.capped.mp truncated
    refine ⟨?_, holds.total, ?_⟩
    · rw [holds.kept, List.take_append_of_le_length (Nat.le_of_lt longer)]
    · simp only [truncated, List.length_append, true_iff]
      omega
  · rename_i open_
    have inside : bytes.length ≤ analyticsMaxBytes := by
      have notLonger := mt holds.capped.mpr open_
      omega
    have all : buffer.chunks.flatten = bytes := by
      rw [holds.kept, List.take_of_length_le inside]
    rw [Nat.min_eq_right inside] at total
    have part : (bytes ++ chunk).take analyticsMaxBytes =
        bytes ++ chunk.take (analyticsMaxBytes - bytes.length) := by
      rw [List.take_append, List.take_of_length_le inside]
    split
    · rename_i fits
      refine ⟨?_, ?_, ?_⟩
      · rw [part, List.take_of_length_le (by omega)]
        simp [all]
      · simp [all, total]
      · simp only [Bool.not_eq_true] at open_
        simp only [open_, List.length_append, Bool.false_eq_true, false_iff]
        omega
    · rename_i overflow
      dsimp only
      split
      · refine ⟨?_, ?_, ?_⟩
        · rw [part]
          simp [all, total]
        · simp only [List.flatten_append, List.flatten_singleton, all, List.length_append,
            List.length_take, total]
          omega
        · simp only [List.length_append, true_iff]
          omega
      · rename_i full
        refine ⟨?_, holds.total, ?_⟩
        · have none_ : analyticsMaxBytes - bytes.length = 0 := by omega
          rw [part, none_]
          simp [all]
        · simp only [List.length_append, true_iff]
          omega

theorem pushed_holds (chunks : List (List UInt8)) :
    Holds (chunks.foldl AnalyticsBuffer.push .new) chunks.flatten := by
  induction chunks using List.reverseRecOn with
  | nil => exact ⟨rfl, rfl, by simp [AnalyticsBuffer.new]⟩
  | append_singleton before chunk ih =>
      rw [List.foldl_append, List.flatten_append, List.flatten_singleton]
      exact push_holds _ _ chunk ih

/-- What a response reports depends on the bytes of its stream alone. -/
theorem usage_of_stream (codec : Codec) (left right : List (List UInt8))
    (same : left.flatten = right.flatten) :
    extractUsageFromBuffer codec (left.foldl AnalyticsBuffer.push .new) =
      extractUsageFromBuffer codec (right.foldl AnalyticsBuffer.push .new) := by
  rw [extract_of_events, extract_of_events, events_of_bytes, (pushed_holds left).kept, same,
    ← (pushed_holds right).kept, ← events_of_bytes]

theorem parser_ignores_chunks (codec : Codec) :
    (∀ chunks, streamEvents chunks = streamEvents [chunks.flatten]) ∧
      ∀ left right : AnalyticsBuffer, left.chunks.flatten = right.chunks.flatten →
        extractUsageFromBuffer codec left = extractUsageFromBuffer codec right := by
  constructor
  · exact events_of_bytes
  · intro left right same
    rw [extract_of_events, extract_of_events, events_of_bytes, same, ← events_of_bytes]

/-- A data line cut in its field name and inside a character of two bytes. -/
theorem split_across_chunks (codec : Codec) :
    extractUsageFromBuffer codec ⟨[[100, 97, 116], [97, 58, 32, 195], [169, 13, 10]], 10, false⟩ =
      extractUsageFromBuffer codec ⟨[[100, 97, 116, 97, 58, 32, 195, 169, 13, 10]], 10, false⟩ :=
  (parser_ignores_chunks codec).2 _ _ rfl

end Ccflare.SseParser
