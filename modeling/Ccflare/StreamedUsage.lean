import Ccflare.StreamTee
import Ccflare.Utf8

/-!
The usage of a streamed answer. The copy of a stream ends at the cap, wherever in an event that
is: the events whose data is complete are read, and what is left of the next one is no document.
So the last count of the copy stands for the last count of the stream.
-/

namespace Ccflare.StreamedUsage

open JsonValue SseParser StreamTee Utf8

/-- An event as it is sent, with the document its data is. -/
structure Frame where
  eventType : String
  data : String
  json : Json

def Frame.head (frame : Frame) : String := "event: " ++ frame.eventType

def Frame.line (frame : Frame) : String := "data: " ++ frame.data

/-- The text of an event up to the end of its data. -/
def Frame.opening (frame : Frame) : List Char := frame.head.toList ++ '\n' :: frame.line.toList

def Frame.text (frame : Frame) : List Char := frame.opening ++ ['\n', '\n']

def streamText (frames : List Frame) : List Char := frames.flatMap Frame.text

/-- An event of the messages format: its data is one line of a document that names its type, and
no part of the line is a document already. -/
structure WellFormed (codec : Codec) (frame : Frame) : Prop where
  plainType : '\n' ∉ frame.eventType.toList ∧ '\r' ∉ frame.eventType.toList
  plainData : '\n' ∉ frame.data.toList ∧ '\r' ∉ frame.data.toList
  parses : codec.fromStr frame.data = some frame.json
  cut : ∀ start, start.toList <+: frame.data.toList → start ≠ frame.data →
    codec.fromStr start = none
  typed : frame.json.getStr "type" = some frame.eventType
  named : Text.contains frame.eventType frame.data = true

/-- The events whose data ends within a number of bytes. -/
def keptFrames : Nat → List Frame → List Frame
  | _, [] => []
  | room, frame :: rest =>
      if (encode frame.opening).length ≤ room then
        frame :: keptFrames (room - (encode frame.text).length) rest
      else []

/-- The events of the bytes, and of what is left of them at the end. -/
def eventsOf (parser : Parser) (bytes : List UInt8) : List SseEvent :=
  let fed := Transducer.run Parser.byte parser bytes
  fed.1 ++ fed.2.flush.1

theorem stream_events (bytes : List UInt8) : streamEvents [bytes] = eventsOf .new bytes := by
  have fresh : Parser.new.Unfinished := List.not_mem_nil
  unfold streamEvents eventsOf
  rw [feed_chunks Parser.new [bytes] fresh, List.flatten_singleton]

section Lines

theorem not_encoded (c : Char) (byte : UInt8) (ascii : byte.toNat < 128) (same : c.toNat = byte.toNat)
    (text : List Char) (absent : c ∉ text) : byte ∉ encode text := by
  intro member
  obtain ⟨d, here, inside⟩ := List.mem_flatMap.mp member
  have code := ascii_byte d byte inside ascii
  have equal : d = c := Char.toNat_inj.mp (code.trans same.symm)
  exact absent (equal ▸ here)

theorem no_newline (text : List Char) (absent : '\n' ∉ text) : newline ∉ encode text :=
  not_encoded '\n' newline (by decide) (by decide) text absent

theorem no_return (text : List Char) (absent : '\r' ∉ text) : carriageReturn ∉ encode text :=
  not_encoded '\r' carriageReturn (by decide) (by decide) text absent

/-- Bytes without a newline are held. -/
theorem held_run (parser : Parser) (bytes : List UInt8) (unbroken : newline ∉ bytes) :
    Transducer.run Parser.byte parser bytes =
      ([], ⟨parser.byteBuffer ++ bytes, parser.currentEvent⟩) := by
  induction bytes generalizing parser with
  | nil => simp
  | cons byte rest ih =>
      simp only [List.mem_cons, not_or] at unbroken
      have step : parser.byte byte = ([], ⟨parser.byteBuffer ++ [byte], parser.currentEvent⟩) := by
        simp [Parser.byte, Ne.symm unbroken.1]
      rw [Transducer.run_cons, step, ih _ unbroken.2]
      simp

theorem newline_step (parser : Parser) :
    parser.byte newline = ((processLine parser.currentEvent parser.byteBuffer).1,
      ⟨[], (processLine parser.currentEvent parser.byteBuffer).2⟩) :=
  if_pos rfl

theorem strip_absent (bytes : List UInt8) (absent : carriageReturn ∉ bytes) :
    stripCarriageReturn bytes = bytes := by
  unfold stripCarriageReturn
  rw [if_neg]
  intro last
  exact absent (List.mem_of_getLast? last)

/-- The text of a line that is read, and without one no event. -/
theorem line_read (current : Option String) (bytes : List UInt8) (line : String)
    (absent : carriageReturn ∉ bytes) (some_ : bytes ≠ [])
    (decoded : fromUtf8 bytes = some line) :
    processLine current bytes =
      match fieldValue "event" line with
      | some eventType => ([], some (Text.trim eventType))
      | none =>
          match fieldValue "data" line with
          | some data => ([⟨current, data⟩], current)
          | none => ([], current) := by
  unfold processLine
  cases event : fieldValue "event" line with
  | some name => simp [strip_absent bytes absent, some_, decoded, event]
  | none =>
      cases data : fieldValue "data" line <;>
        simp [strip_absent bytes absent, some_, decoded, event, data]

theorem line_unread (current : Option String) (bytes : List UInt8)
    (absent : carriageReturn ∉ bytes) (malformed : fromUtf8 bytes = none) :
    (processLine current bytes).1 = [] := by
  unfold processLine
  rw [strip_absent bytes absent]
  dsimp only
  split
  · rfl
  · rw [malformed]

theorem from_utf8_encode (text : String) : fromUtf8 (encode text.toList) = some text :=
  decode_encode text

theorem field_event (eventType : String) :
    fieldValue "event" ("event: " ++ eventType) = some eventType := by
  have here := Text.strip_prefix_append "event: " eventType
  unfold fieldValue
  change ((Text.stripPrefix "event: " ("event: " ++ eventType)).or _) = _
  rw [here]
  rfl

theorem field_data (data : String) : fieldValue "data" ("data: " ++ data) = some data := by
  have here := Text.strip_prefix_append "data: " data
  unfold fieldValue
  change ((Text.stripPrefix "data: " ("data: " ++ data)).or _) = _
  rw [here]
  rfl

theorem strip_first (start line : String) (c d : Char) (later : List Char)
    (opens : start.toList = c :: later) (other : ∀ e ∈ line.toList.head?, e = d) (differ : c ≠ d) :
    Text.stripPrefix start line = none := by
  unfold Text.stripPrefix
  rw [opens]
  cases same : line.toList with
  | nil => rfl
  | cons e rest =>
      rw [same] at other
      have first := other e rfl
      simp [List.isPrefixOf?, first, differ]

/-- A line that begins as a field does is no other field. -/
theorem field_apart (name line : String) (c d : Char) (later : List Char)
    (opens : name.toList = c :: later) (other : ∀ e ∈ line.toList.head?, e = d) (differ : c ≠ d) :
    fieldValue name line = none := by
  unfold fieldValue
  rw [strip_first (name ++ ": ") line c d (later ++ [':', ' ']) (by simp [opens]) other differ,
    strip_first (name ++ ":") line c d (later ++ [':']) (by simp [opens]) other differ]
  rfl

end Lines

section Cut
variable {codec : Codec} {frame : Frame}

theorem head_chars : frame.head.toList = "event: ".toList ++ frame.eventType.toList :=
  String.toList_append

theorem line_chars : frame.line.toList = "data: ".toList ++ frame.data.toList :=
  String.toList_append

theorem encode_newline (rest : List Char) : encode ('\n' :: rest) = newline :: encode rest := rfl

theorem head_plain (formed : WellFormed codec frame) :
    '\n' ∉ frame.head.toList ∧ '\r' ∉ frame.head.toList := by
  rw [head_chars]
  simp [formed.plainType]

theorem line_plain (formed : WellFormed codec frame) :
    '\n' ∉ frame.line.toList ∧ '\r' ∉ frame.line.toList := by
  rw [line_chars]
  simp [formed.plainData]

theorem encoded_some (text : List Char) (some_ : text ≠ []) : encode text ≠ [] := by
  cases text with
  | nil => exact absurd rfl some_
  | cons c rest =>
      rw [encode_cons]
      exact List.append_ne_nil_of_left_ne_nil (encode_ne_nil c) _

theorem head_processed (formed : WellFormed codec frame) (current : Option String) :
    processLine current (encode frame.head.toList) = ([], some (Text.trim frame.eventType)) := by
  rw [line_read current _ frame.head (no_return _ (head_plain formed).2)
    (encoded_some _ (by rw [head_chars]; simp)) (from_utf8_encode _), Frame.head, field_event]

theorem line_processed (formed : WellFormed codec frame) (current : Option String) :
    processLine current (encode frame.line.toList) = ([⟨current, frame.data⟩], current) := by
  have apart : fieldValue "event" frame.line = none :=
    field_apart "event" frame.line 'e' 'd' "vent".toList rfl
      (by rw [line_chars]; simp) (by decide)
  rw [line_read current _ frame.line (no_return _ (line_plain formed).2)
    (encoded_some _ (by rw [line_chars]; simp)) (from_utf8_encode _), apart, Frame.line, field_data]

/-- Up to the end of its data an event gives nothing, and its data line is held. -/
theorem opening_run (formed : WellFormed codec frame) (more : List UInt8) :
    Transducer.run Parser.byte Parser.new (encode frame.head.toList ++ newline :: more) =
      Transducer.run Parser.byte ⟨[], some (Text.trim frame.eventType)⟩ more := by
  rw [Transducer.run_append, held_run _ _ (no_newline _ (head_plain formed).1),
    Transducer.run_cons, newline_step]
  change (_ ++ ((processLine none (encode frame.head.toList)).1 ++ _), _) = _
  have processed := head_processed formed none
  simp [Parser.new, processed]

theorem opening_encoded : encode frame.opening =
    encode frame.head.toList ++ newline :: encode frame.line.toList := by
  rw [Frame.opening, encode_append, encode_newline]

theorem text_encoded : encode frame.text = encode frame.opening ++ [newline, newline] := by
  rw [Frame.text, encode_append]
  rfl

/-- A whole event gives itself and leaves nothing. -/
theorem frame_run (formed : WellFormed codec frame) :
    Transducer.run Parser.byte Parser.new (encode frame.text) =
      ([⟨some (Text.trim frame.eventType), frame.data⟩], Parser.new) := by
  rw [text_encoded, opening_encoded, List.append_assoc, List.cons_append, opening_run formed,
    Transducer.run_append, held_run _ _ (no_newline _ (line_plain formed).1)]
  have blank : processLine (some (Text.trim frame.eventType)) [] = ([], none) := rfl
  simp [Transducer.run_cons, newline_step, line_processed formed, blank, Parser.new]

theorem empty_unread (usage : StreamUsage) : extractUsageFromSseData codec usage "" = usage := by
  unfold extractUsageFromSseData
  rw [if_pos (by decide)]

theorem cut_unread (formed : WellFormed codec frame) (usage : StreamUsage) (start : String)
    (begins : start.toList <+: frame.data.toList) (short : start ≠ frame.data) :
    extractUsageFromSseData codec usage start = usage := by
  unfold extractUsageFromSseData
  rw [formed.cut start begins short]
  split <;> rfl

/-- A cut data line has a cut value, or none. -/
theorem cut_value (formed : WellFormed codec frame) (usage : StreamUsage) (line data : String)
    (begins : line.toList <+: frame.line.toList) (short : line ≠ frame.line)
    (read : fieldValue "data" line = some data) :
    extractUsageFromSseData codec usage data = usage := by
  rw [line_chars] at begins
  have cases_ : line.toList <+: "data: ".toList ∨
      ∃ rest, line.toList = "data: ".toList ++ rest ∧ rest <+: frame.data.toList := by
    rcases List.prefix_or_prefix_of_prefix begins (List.prefix_append _ _) with early | late
    · exact Or.inl early
    · obtain ⟨rest, whole⟩ := late
      rw [← whole, List.prefix_append_right_inj] at begins
      exact Or.inr ⟨rest, whole.symm, begins⟩
  rcases cases_ with early | ⟨rest, whole, later⟩
  · have starts : ∀ start ∈ "data: ".toList.inits,
        fieldValue "data" (String.ofList start) = none ∨
          fieldValue "data" (String.ofList start) = some "" := by decide
    have here := starts line.toList ((List.mem_inits _ _).mpr early)
    rw [String.ofList_toList, read] at here
    rcases here with none_ | empty
    · cases none_
    · obtain rfl := Option.some.inj empty
      exact empty_unread usage
  · have same : line = "data: " ++ String.ofList rest := by
      rw [← String.toList_inj, whole]
      simp
    rw [same, field_data] at read
    obtain rfl := Option.some.inj read
    refine cut_unread formed usage _ (by rwa [String.toList_ofList]) ?_
    rintro complete
    exact short (by rw [same, complete, Frame.line])

/-- Bytes of one line alone are read at the end. -/
theorem held_events (current : Option String) (bytes : List UInt8) (unbroken : newline ∉ bytes) :
    eventsOf ⟨[], current⟩ bytes = if bytes.isEmpty then [] else (processLine current bytes).1 := by
  unfold eventsOf
  rw [held_run _ _ unbroken]
  dsimp only [Parser.flush]
  rw [List.nil_append, List.nil_append]
  split <;> rfl

theorem prefix_first (text whole later : List Char) (c : Char) (begins : text <+: whole)
    (opens : whole = c :: later) : ∀ d ∈ text.head?, d = c := by
  intro d first
  obtain ⟨rest, same⟩ := begins
  cases text with
  | nil => cases first
  | cons e others =>
      obtain rfl := Option.some.inj first
      rw [opens] at same
      exact (List.cons.inj same).1

/-- The start of a line is malformed, or the start of its text is read. -/
theorem held_start (whole : String) (plain : '\n' ∉ whole.toList ∧ '\r' ∉ whole.toList)
    (current : Option String) (bytes : List UInt8) (begins : bytes <+: encode whole.toList) :
    eventsOf ⟨[], current⟩ bytes = [] ∨ ∃ line, line.toList <+: whole.toList ∧
      bytes = encode line.toList ∧ eventsOf ⟨[], current⟩ bytes =
        match fieldValue "event" line with
        | some _ => []
        | none => (fieldValue "data" line).toList.map fun data => ⟨current, data⟩ := by
  have unreturned : carriageReturn ∉ bytes := fun member =>
    no_return _ plain.2 (begins.subset member)
  rw [held_events current bytes fun member => no_newline _ plain.1 (begins.subset member)]
  split
  · exact Or.inl rfl
  · rename_i some_
    cases decoded : fromUtf8 bytes with
    | none => exact Or.inl (line_unread current bytes unreturned decoded)
    | some line =>
        have same := decode_some bytes line decoded
        refine Or.inr ⟨line, encode_prefix _ _ (by rwa [← same]), same, ?_⟩
        rw [line_read current bytes line unreturned (by simpa using some_) decoded]
        cases fieldValue "event" line <;> cases fieldValue "data" line <;> rfl

/-- A line cut in its field name or its value tells nothing. -/
theorem cut_line (formed : WellFormed codec frame) (usage : StreamUsage) (current : Option String)
    (bytes : List UInt8) (begins : bytes <+: encode frame.line.toList)
    (short : bytes ≠ encode frame.line.toList) :
    extractEvents codec usage (eventsOf ⟨[], current⟩ bytes) = usage := by
  rcases held_start frame.line (line_plain formed) current bytes begins with
    nothing | ⟨line, starts, same, events⟩
  · rw [nothing]
    rfl
  · have apart : fieldValue "event" line = none :=
      field_apart "event" line 'e' 'd' "vent".toList rfl
        (prefix_first _ _ _ 'd' starts line_chars) (by decide)
    rw [events, apart]
    cases read : fieldValue "data" line with
    | none => rfl
    | some data =>
        refine cut_value formed usage line data starts ?_ read
        rintro rfl
        exact short same

theorem cut_head (formed : WellFormed codec frame) (usage : StreamUsage) (bytes : List UInt8)
    (begins : bytes <+: encode frame.head.toList) :
    extractEvents codec usage (eventsOf .new bytes) = usage := by
  change extractEvents codec usage (eventsOf ⟨[], none⟩ bytes) = usage
  rcases held_start frame.head (head_plain formed) none bytes begins with
    nothing | ⟨line, starts, -, events⟩
  · rw [nothing]
    rfl
  · have apart : fieldValue "data" line = none :=
      field_apart "data" line 'd' 'e' "ata".toList rfl
        (prefix_first _ _ _ 'e' starts head_chars) (by decide)
    rw [events, apart]
    cases fieldValue "event" line <;> rfl

theorem opening_events (formed : WellFormed codec frame) (more : List UInt8) :
    eventsOf .new (encode frame.head.toList ++ newline :: more) =
      eventsOf ⟨[], some (Text.trim frame.eventType)⟩ more := by
  unfold eventsOf
  rw [opening_run formed]

/-- A data line without its newline is read at the end. -/
theorem line_events (formed : WellFormed codec frame) (current : Option String) :
    eventsOf ⟨[], current⟩ (encode frame.line.toList) = [⟨current, frame.data⟩] := by
  have some_ : encode frame.line.toList ≠ [] := encoded_some _ (by rw [line_chars]; simp)
  rw [held_events current _ (no_newline _ (line_plain formed).1), if_neg (by simpa using some_),
    line_processed formed]

theorem ended_line_events (formed : WellFormed codec frame) (current : Option String) :
    eventsOf ⟨[], current⟩ (encode frame.line.toList ++ [newline]) = [⟨current, frame.data⟩] := by
  unfold eventsOf
  rw [Transducer.run_append, held_run _ _ (no_newline _ (line_plain formed).1),
    Transducer.run_singleton, newline_step]
  simp [line_processed formed, Parser.flush]

/-- What is read of a cut event: its data if that is complete, and else nothing. -/
theorem cut_frame (formed : WellFormed codec frame) (usage : StreamUsage) (room : Nat)
    (short : room < (encode frame.text).length) :
    extractEvents codec usage (eventsOf .new ((encode frame.text).take room)) =
      if (encode frame.opening).length ≤ room then extractUsageFromSseData codec usage frame.data
      else usage := by
  have length : (encode frame.opening).length =
      (encode frame.head.toList).length + 1 + (encode frame.line.toList).length := by
    rw [opening_encoded, List.length_append, List.length_cons]
    omega
  rw [text_encoded, List.length_append, length] at short
  rw [text_encoded, opening_encoded, List.append_assoc, List.cons_append]
  by_cases inHead : room ≤ (encode frame.head.toList).length
  · rw [if_neg (by rw [← opening_encoded, length]; omega), List.take_append_of_le_length inHead]
    exact cut_head formed usage _ (List.take_prefix _ _)
  · obtain ⟨more, rfl⟩ : ∃ more, room = (encode frame.head.toList).length + (more + 1) :=
      ⟨room - (encode frame.head.toList).length - 1, by omega⟩
    rw [List.take_length_add_append, List.take_succ_cons, opening_events formed,
      ← opening_encoded, length]
    rcases lt_trichotomy more (encode frame.line.toList).length with inLine | same | past
    · rw [if_neg (by omega), List.take_append_of_le_length (by omega)]
      refine cut_line formed usage _ _ (List.take_prefix _ _) fun whole => ?_
      have lengths := congrArg List.length whole
      rw [List.length_take] at lengths
      omega
    · rw [if_pos (by omega), same, List.take_left', line_events formed]
      · rfl
      · rfl
    · have last : more = (encode frame.line.toList).length + 1 := by
        simp only [List.length_cons, List.length_nil] at short
        omega
      rw [if_pos (by omega), last, List.take_length_add_append, List.take_succ_cons, List.take_zero,
        ended_line_events formed]
      rfl

end Cut

/-- The usage after the data of the events, one after the other. -/
def extractFrames (codec : Codec) (usage : StreamUsage) (frames : List Frame) : StreamUsage :=
  frames.foldl (fun held frame => extractUsageFromSseData codec held frame.data) usage

theorem extract_cons (codec : Codec) (usage : StreamUsage) (frame : Frame) (rest : List Frame) :
    extractFrames codec usage (frame :: rest) =
      extractFrames codec (extractUsageFromSseData codec usage frame.data) rest := rfl

theorem kept_none (frames : List Frame) : keptFrames 0 frames = [] := by
  cases frames with
  | nil => rfl
  | cons frame rest =>
      refine if_neg fun fits => ?_
      rw [opening_encoded, List.length_append, List.length_cons] at fits
      omega

theorem kept_begins (room : Nat) (frames : List Frame) : keptFrames room frames <+: frames := by
  induction frames generalizing room with
  | nil => exact List.nil_prefix
  | cons frame rest ih =>
      unfold keptFrames
      split
      · exact (List.prefix_cons_inj frame).mpr (ih _)
      · exact List.nil_prefix

/-- The start of a stream tells what its complete events tell. -/
theorem cut_stream (codec : Codec) (frames : List Frame)
    (formed : ∀ frame ∈ frames, WellFormed codec frame) (usage : StreamUsage) (room : Nat) :
    extractEvents codec usage (eventsOf .new ((encode (streamText frames)).take room)) =
      extractFrames codec usage (keptFrames room frames) := by
  induction frames generalizing usage room with
  | nil =>
      rw [streamText, List.flatMap_nil, encode_nil, List.take_nil]
      rfl
  | cons frame rest ih =>
      have here := formed frame List.mem_cons_self
      have later := ih fun other member => formed other (List.mem_cons_of_mem _ member)
      have whole : encode (streamText (frame :: rest)) =
          encode frame.text ++ encode (streamText rest) := by
        rw [streamText, List.flatMap_cons, encode_append]
        rfl
      rw [whole]
      unfold keptFrames
      by_cases fits : (encode frame.text).length ≤ room
      · obtain ⟨more, rfl⟩ := Nat.exists_eq_add_of_le fits
        have opening : (encode frame.opening).length ≤ (encode frame.text).length + more := by
          rw [text_encoded, List.length_append]
          omega
        rw [List.take_length_add_append, if_pos opening, Nat.add_sub_cancel_left]
        have split : eventsOf .new (encode frame.text ++ (encode (streamText rest)).take more) =
            ⟨some (Text.trim frame.eventType), frame.data⟩ ::
              eventsOf .new ((encode (streamText rest)).take more) := by
          unfold eventsOf
          rw [Transducer.run_append, frame_run here]
          rfl
        rw [split]
        exact later (extractUsageFromSseData codec usage frame.data) more
      · rw [List.take_append_of_le_length (by omega), cut_frame here usage room (by omega),
          Nat.sub_eq_zero_of_le (by omega), kept_none]
        split <;> rfl

def Frame.outputTokens (frame : Frame) : Option Int :=
  (frame.json.get "usage").bind (tokens "output_tokens")

def Frame.startTokens (key : String) (frame : Frame) : Option Int :=
  ((frame.json.get "message").bind (Json.get "usage")).bind (tokens key)

/-- The count of the last `message_delta`. -/
def lastOutput (frames : List Frame) : Option Int :=
  (frames.filter fun frame => frame.eventType = "message_delta").getLast?.bind Frame.outputTokens

/-- A count of the `message_start`. -/
def startCount (key : String) (frames : List Frame) : Option Int :=
  (frames.find? fun frame => frame.eventType = "message_start").bind (Frame.startTokens key)

/-- A stream of the messages format: it starts once, and each `message_delta` has its count. -/
structure AnthropicStream (codec : Codec) (frames : List Frame) : Prop where
  formed : ∀ frame ∈ frames, WellFormed codec frame
  starts : ∃ first rest, frames = first :: rest ∧ first.eventType = "message_start" ∧
    ∀ frame ∈ rest, frame.eventType ≠ "message_start"
  counted : ∀ frame ∈ frames, frame.eventType = "message_delta" →
    frame.outputTokens.isSome = true

/-- The counts are those of the last `message_delta` and of the `message_start`. -/
structure CompleteUsage (frames : List Frame) (usage : StreamUsage) : Prop where
  output : usage.outputTokens = lastOutput frames
  input : usage.inputTokens = startCount "input_tokens" frames
  cacheRead : usage.cacheReadInputTokens = startCount "cache_read_input_tokens" frames
  cacheCreation : usage.cacheCreationInputTokens = startCount "cache_creation_input_tokens" frames

/-- The events that are complete within the cap have the counts of the whole stream. -/
structure KeepsCounts (frames : List Frame) : Prop where
  output : lastOutput (keptFrames analyticsMaxBytes frames) = lastOutput frames
  starts : ∀ key ∈ ["input_tokens", "cache_read_input_tokens", "cache_creation_input_tokens"],
    startCount key (keptFrames analyticsMaxBytes frames) = startCount key frames

section Counts
variable {codec : Codec} {frames : List Frame}

theorem extract_formed (frame : Frame) (formed : WellFormed codec frame) (usage : StreamUsage) :
    extractUsageFromSseData codec usage frame.data =
      if frame.eventType = "message_start" then messageStart frame.json usage
      else if frame.eventType = "message_delta" then messageDelta frame.json usage else usage := by
  unfold extractUsageFromSseData
  rw [formed.parses]
  dsimp only
  rw [formed.typed, Option.getD_some]
  split
  · rename_i rejected
    rw [Bool.and_eq_true, Bool.not_eq_true', Bool.not_eq_true'] at rejected
    rw [if_neg, if_neg]
    · intro same
      have named := formed.named
      rw [same, rejected.2] at named
      cases named
    · intro same
      have named := formed.named
      rw [same, rejected.1] at named
      cases named
  · rfl

theorem delta_output (json : Json) (usage : StreamUsage) :
    (messageDelta json usage).outputTokens =
      ((json.get "usage").bind (tokens "output_tokens")).or usage.outputTokens := by
  unfold messageDelta
  cases json.get "usage" <;> rfl

theorem delta_starts (json : Json) (usage : StreamUsage) :
    (messageDelta json usage).inputTokens = usage.inputTokens ∧
      (messageDelta json usage).cacheReadInputTokens = usage.cacheReadInputTokens ∧
      (messageDelta json usage).cacheCreationInputTokens = usage.cacheCreationInputTokens := by
  unfold messageDelta
  cases json.get "usage" <;> exact ⟨rfl, rfl, rfl⟩

theorem start_output (json : Json) (usage : StreamUsage) :
    (messageStart json usage).outputTokens = usage.outputTokens := by
  unfold messageStart
  cases json.get "message" with
  | none => rfl
  | some message =>
      dsimp only
      cases message.get "usage" <;> rfl

theorem start_starts (frame : Frame) :
    (messageStart frame.json .default).inputTokens = frame.startTokens "input_tokens" ∧
      (messageStart frame.json .default).cacheReadInputTokens =
        frame.startTokens "cache_read_input_tokens" ∧
      (messageStart frame.json .default).cacheCreationInputTokens =
        frame.startTokens "cache_creation_input_tokens" := by
  unfold messageStart Frame.startTokens
  cases frame.json.get "message" with
  | none => exact ⟨rfl, rfl, rfl⟩
  | some message =>
      rw [Option.bind_some]
      dsimp only
      cases message.get "usage" with
      | none => exact ⟨rfl, rfl, rfl⟩
      | some usage => simp [StreamUsage.default]

/-- The output count is that of the last `message_delta`. -/
theorem frames_output (formed : ∀ frame ∈ frames, WellFormed codec frame)
    (counted : ∀ frame ∈ frames, frame.eventType = "message_delta" →
      frame.outputTokens.isSome = true) :
    (extractFrames codec .default frames).outputTokens = lastOutput frames := by
  induction frames using List.reverseRecOn with
  | nil => rfl
  | append_singleton before frame ih =>
      have earlier := ih (fun other member => formed other (List.mem_append_left _ member))
        fun other member => counted other (List.mem_append_left _ member)
      have here : frame ∈ before ++ [frame] := by simp
      have step : extractFrames codec .default (before ++ [frame]) =
          extractUsageFromSseData codec (extractFrames codec .default before) frame.data := by
        rw [extractFrames, List.foldl_append]
        rfl
      rw [step, extract_formed frame (formed frame here)]
      unfold lastOutput
      rw [List.filter_append]
      by_cases delta : frame.eventType = "message_delta"
      · obtain ⟨count, found⟩ := Option.isSome_iff_exists.mp (counted frame here delta)
        have output := delta_output frame.json (extractFrames codec .default before)
        change _ = frame.outputTokens.or _ at output
        rw [if_neg (by rw [delta]; decide), if_pos delta, output, found]
        simp [delta, found]
      · have same : (if frame.eventType = "message_start" then
            messageStart frame.json (extractFrames codec .default before)
            else extractFrames codec .default before).outputTokens =
              (extractFrames codec .default before).outputTokens := by
          split
          · exact start_output _ _
          · rfl
        rw [if_neg delta, same, earlier]
        simp [delta, lastOutput]

/-- After the start no event changes its counts. -/
theorem frames_later (formed : ∀ frame ∈ frames, WellFormed codec frame)
    (started : ∀ frame ∈ frames, frame.eventType ≠ "message_start") (usage : StreamUsage) :
    (extractFrames codec usage frames).inputTokens = usage.inputTokens ∧
      (extractFrames codec usage frames).cacheReadInputTokens = usage.cacheReadInputTokens ∧
      (extractFrames codec usage frames).cacheCreationInputTokens =
        usage.cacheCreationInputTokens := by
  induction frames generalizing usage with
  | nil => exact ⟨rfl, rfl, rfl⟩
  | cons frame rest ih =>
      obtain ⟨input, cacheRead, cacheCreation⟩ :=
        ih (fun other member => formed other (List.mem_cons_of_mem _ member))
          (fun other member => started other (List.mem_cons_of_mem _ member))
          (extractUsageFromSseData codec usage frame.data)
      rw [extract_cons, input, cacheRead, cacheCreation, extract_formed frame (formed frame List.mem_cons_self),
        if_neg (started frame List.mem_cons_self)]
      split
      · exact delta_starts _ _
      · exact ⟨rfl, rfl, rfl⟩

/-- What is read of the first events of a stream is their usage. -/
theorem read_complete (stream : AnthropicStream codec frames) (kept : List Frame)
    (begins : kept <+: frames) : CompleteUsage kept (extractFrames codec .default kept) := by
  have formed := fun frame member => stream.formed frame (begins.subset member)
  have output := frames_output formed fun frame member =>
    stream.counted frame (begins.subset member)
  obtain ⟨first, rest, rfl, isStart, others⟩ := stream.starts
  cases kept with
  | nil => exact ⟨rfl, rfl, rfl, rfl⟩
  | cons frame later =>
      obtain ⟨rfl, tail⟩ := List.cons_prefix_cons.mp begins
      obtain ⟨input, cacheRead, cacheCreation⟩ :=
        frames_later (fun other member => formed other (List.mem_cons_of_mem _ member))
          (fun other member => others other (tail.subset member))
          (extractUsageFromSseData codec .default frame.data)
      have starts := start_starts frame
      have counts : ∀ key, startCount key (frame :: later) = frame.startTokens key := by
        intro key
        simp [startCount, isStart]
      have read : extractUsageFromSseData codec .default frame.data =
          messageStart frame.json .default := by
        rw [extract_formed frame (formed frame List.mem_cons_self), if_pos isStart]
      refine ⟨output, ?_, ?_, ?_⟩
      · rw [counts, ← starts.1, extract_cons, input, read]
      · rw [counts, ← starts.2.1, extract_cons, cacheRead, read]
      · rw [counts, ← starts.2.2, extract_cons, cacheCreation, read]

theorem complete_iff_keeps (stream : AnthropicStream codec frames) :
    CompleteUsage frames (extractFrames codec .default (keptFrames analyticsMaxBytes frames)) ↔
      KeepsCounts frames := by
  have read := read_complete stream _ (kept_begins analyticsMaxBytes frames)
  constructor
  · intro complete
    refine ⟨read.output.symm.trans complete.output, fun key member => ?_⟩
    simp only [List.mem_cons, List.not_mem_nil, or_false] at member
    rcases member with rfl | rfl | rfl
    · exact read.input.symm.trans complete.input
    · exact read.cacheRead.symm.trans complete.cacheRead
    · exact read.cacheCreation.symm.trans complete.cacheCreation
  · intro keeps
    exact ⟨read.output.trans keeps.output, read.input.trans (keeps.starts _ (by simp)),
      read.cacheRead.trans (keeps.starts _ (by simp)),
      read.cacheCreation.trans (keeps.starts _ (by simp))⟩

end Counts

/-- A stream that fits is kept whole. -/
theorem short_kept (frames : List Frame) (room : Nat)
    (fits : (encode (streamText frames)).length ≤ room) : keptFrames room frames = frames := by
  induction frames generalizing room with
  | nil => rfl
  | cons frame rest ih =>
      rw [streamText, List.flatMap_cons, encode_append, List.length_append] at fits
      have opening : (encode frame.opening).length ≤ (encode frame.text).length := by
        rw [text_encoded, List.length_append]
        omega
      unfold keptFrames
      rw [if_pos (by omega), ih _ (by change (encode (rest.flatMap Frame.text)).length ≤ _; omega)]

theorem short_keeps (frames : List Frame)
    (fits : (encode (streamText frames)).length ≤ analyticsMaxBytes) : KeepsCounts frames := by
  have whole := short_kept frames analyticsMaxBytes fits
  exact ⟨by rw [whole], fun key _ => by rw [whole]⟩

section Tee
variable {Error : Type}

def chunks (items : List (Nat × Polled Error)) : List (List UInt8) :=
  items.filterMap fun item =>
    match item.2 with
    | .ok chunk => some chunk
    | .err _ | .ended | .pending => none

/-- Every chunk comes within both timeouts, and the stream has not ended. -/
def OnTime (start last : Nat) : List (Nat × Polled Error) → Prop
  | [] => True
  | (now, .ok _) :: rest =>
      durationSince now start ≤ fromMillis streamTimeoutMs ∧
        durationSince now last ≤ fromMillis chunkTimeoutMs ∧ OnTime start now rest
  | (_, .err _) :: rest | (_, .pending) :: rest => OnTime start last rest
  | (_, .ended) :: _ => False

theorem on_time_chunks (start last now : Nat) (items : List (Nat × Polled Error))
    (onTime : OnTime start last items) :
    beforeTimeout start last (items ++ [(now, .ended)]) = chunks items := by
  induction items generalizing last with
  | nil => rfl
  | cons item rest ih =>
      obtain ⟨here, polled⟩ := item
      cases polled with
      | ok chunk =>
          obtain ⟨stream, between, later⟩ := onTime
          rw [List.cons_append, beforeTimeout, if_neg (by omega), ih here later]
          rfl
      | err error => exact ih last onTime
      | pending => exact ih last onTime
      | ended => exact onTime.elim

/-- A stream that ends in time is handed over at its end, and its complete events are read. -/
theorem handed_usage (codec : Codec) (frames : List Frame)
    (formed : ∀ frame ∈ frames, WellFormed codec frame) (start now : Nat)
    (items : List (Nat × Polled Error)) (onTime : OnTime start start items)
    (delivers : (chunks items).flatten = encode (streamText frames)) :
    ∃ buffer, (consumed (teeStream start) (items ++ [(now, .ended)])).2.sent = [buffer] ∧
      extractUsageFromBuffer codec buffer =
        extractFrames codec .default (keptFrames analyticsMaxBytes frames) := by
  obtain ⟨-, copy, holds, sent, -⟩ := tee_transparent start (items ++ [(now, .ended)])
  refine ⟨copy, ?_, ?_⟩
  · rw [sent, if_pos]
    simp [Polled.isEnded]
  · have kept := holds.kept
    rw [on_time_chunks start start now items onTime, delivers] at kept
    rw [extract_of_events, events_of_bytes, kept, stream_events, cut_stream codec frames formed]

/-- The counts that are read are those of the events complete within the cap, so those of the
stream exactly where these have them, and of every stream within the cap. -/
theorem streamed_usage (codec : Codec) (frames : List Frame)
    (stream : AnthropicStream codec frames) (start now : Nat) (items : List (Nat × Polled Error))
    (onTime : OnTime start start items)
    (delivers : (chunks items).flatten = encode (streamText frames)) :
    ∃ buffer, (consumed (teeStream start) (items ++ [(now, .ended)])).2.sent = [buffer] ∧
      CompleteUsage (keptFrames analyticsMaxBytes frames) (extractUsageFromBuffer codec buffer) ∧
      (CompleteUsage frames (extractUsageFromBuffer codec buffer) ↔ KeepsCounts frames) ∧
      ((encode (streamText frames)).length ≤ analyticsMaxBytes →
        CompleteUsage frames (extractUsageFromBuffer codec buffer)) := by
  obtain ⟨buffer, sent, read⟩ :=
    handed_usage codec frames stream.formed start now items onTime delivers
  refine ⟨buffer, sent, ?_⟩
  rw [read]
  exact ⟨read_complete stream _ (kept_begins _ _), complete_iff_keeps stream,
    fun fits => (complete_iff_keeps stream).mpr (short_keeps frames fits)⟩

end Tee

def startFrame : Frame where
  eventType := "message_start"
  data := "\x7b\"type\":\"message_start\",\"message\":\x7b\"usage\":\x7b\"input_tokens\":7\x7d\x7d\x7d"
  json := Json.make [("type", .string "message_start"), ("message", Json.make
    [("usage", Json.make [("input_tokens", Json.ofInt 7)])])]

def textFrame : Frame where
  eventType := "content_block_delta"
  data := "\x7b\"type\":\"content_block_delta\",\"index\":0,\"delta\":\x7b\"text\":\"word\"\x7d\x7d"
  json := Json.make [("type", .string "content_block_delta"), ("index", Json.ofInt 0),
    ("delta", Json.make [("text", .string "word")])]

def deltaFrame : Frame where
  eventType := "message_delta"
  data := "\x7b\"type\":\"message_delta\",\"usage\":\x7b\"output_tokens\":5\x7d\x7d"
  json := Json.make [("type", .string "message_delta"),
    ("usage", Json.make [("output_tokens", Json.ofInt 5)])]

def wordCodec : Codec := .ofTable ([startFrame, textFrame, deltaFrame].map fun frame =>
  (frame.data, frame.json))

/-- A greeting of so many words. -/
def words (count : Nat) : List Frame :=
  startFrame :: (List.replicate count textFrame ++ [deltaFrame])

/-- A codec of a table refuses the starts of a document that the table does not list. -/
theorem table_cut (table : List (String × Json)) (data : String)
    (unlisted : ∀ entry ∈ table, entry.1.toList <+: data.toList → entry.1 = data) (start : String)
    (begins : start.toList <+: data.toList) (short : start ≠ data) :
    (Codec.ofTable table).fromStr start = none := by
  cases parsed : (Codec.ofTable table).fromStr start with
  | none => rfl
  | some value =>
      obtain ⟨entry, listed, rfl, -⟩ := Codec.parsed_entry table start value parsed
      exact absurd (unlisted entry listed begins) short

theorem words_formed (frame : Frame) (member : frame ∈ [startFrame, textFrame, deltaFrame]) :
    WellFormed wordCodec frame where
  plainType := by
    revert frame
    decide +kernel
  plainData := by
    revert frame
    decide +kernel
  parses := by
    refine Codec.of_table_reads _ (by decide +kernel) _ _ ?_
    exact List.mem_map_of_mem member
  cut := by
    apply table_cut
    revert frame
    decide +kernel
  typed := by
    revert frame
    decide +kernel
  named := by
    revert frame
    decide +kernel

theorem words_stream (count : Nat) : AnthropicStream wordCodec (words count) where
  formed frame member := by
    apply words_formed
    rcases List.mem_cons.mp member with rfl | later
    · simp
    · rcases List.mem_append.mp later with text | last
      · simp [(List.mem_replicate.mp text).2]
      · simp [List.mem_singleton.mp last]
  starts := by
    refine ⟨startFrame, _, rfl, rfl, fun frame later => ?_⟩
    rcases List.mem_append.mp later with text | last
    · rw [(List.mem_replicate.mp text).2]
      decide
    · rw [List.mem_singleton.mp last]
      decide
  counted frame member delta := by
    rcases List.mem_cons.mp member with rfl | later
    · exact absurd delta (by decide)
    · rcases List.mem_append.mp later with text | last
      · rw [(List.mem_replicate.mp text).2] at delta
        exact absurd delta (by decide)
      · rw [List.mem_singleton.mp last]
        decide +kernel

/-- The stream comes in one chunk. -/
def oneChunk (frames : List Frame) : List (Nat × Polled Empty) :=
  [(0, .ok (encode (streamText frames)))]

theorem one_chunk_on_time (frames : List Frame) :
    OnTime 0 0 (oneChunk frames) ∧
      (chunks (oneChunk frames)).flatten = encode (streamText frames) :=
  ⟨⟨Nat.zero_le _, Nat.zero_le _, trivial⟩, List.flatten_singleton⟩

theorem greeting_usage_complete :
    ∃ buffer, (consumed (teeStream 0) (oneChunk (words 1) ++ [(0, .ended)])).2.sent = [buffer] ∧
      CompleteUsage (words 1) (extractUsageFromBuffer wordCodec buffer) := by
  obtain ⟨buffer, sent, -, -, complete⟩ := streamed_usage wordCodec (words 1) (words_stream 1) 0 0
    (oneChunk (words 1)) (one_chunk_on_time _).1 (one_chunk_on_time _).2
  exact ⟨buffer, sent, complete (by decide +kernel)⟩

/-- Of a repeated event that fills the room nothing else is kept. -/
theorem kept_repeated (frame : Frame) (count room : Nat) (rest : List Frame)
    (fills : room ≤ count * (encode frame.text).length) :
    ∀ kept ∈ keptFrames room (List.replicate count frame ++ rest), kept = frame := by
  induction count generalizing room with
  | zero =>
      rw [Nat.zero_mul, Nat.le_zero] at fills
      rw [fills, kept_none]
      exact fun kept member => absurd member List.not_mem_nil
  | succ count ih =>
      rw [List.replicate_succ, List.cons_append]
      unfold keptFrames
      split
      · intro kept member
        rcases List.mem_cons.mp member with same | later
        · exact same
        · refine ih _ ?_ kept later
          rw [Nat.succ_mul] at fills
          omega
      · exact fun kept member => absurd member List.not_mem_nil

/-- Past the cap the last count is not kept. -/
theorem long_loses_count : ¬ KeepsCounts (words 20000) := by
  intro keeps
  have output := keeps.output
  have whole : lastOutput (words 20000) = some 5 := by
    have last : deltaFrame.outputTokens = some 5 := by decide +kernel
    have texts : (List.replicate 20000 textFrame).filter
        (fun frame => frame.eventType = "message_delta") = [] := by
      rw [List.filter_eq_nil_iff]
      intro frame member
      rw [(List.mem_replicate.mp member).2]
      decide
    unfold lastOutput words
    rw [List.filter_cons_of_neg (by decide), List.filter_append, texts]
    exact last
  have cut : lastOutput (keptFrames analyticsMaxBytes (words 20000)) = none := by
    have room : analyticsMaxBytes - (encode startFrame.text).length ≤
        20000 * (encode textFrame.text).length := by decide +kernel
    have texts := kept_repeated textFrame 20000 _ [deltaFrame] room
    unfold lastOutput words keptFrames
    rw [if_pos (by decide +kernel), List.filter_cons_of_neg (by decide), List.filter_eq_nil_iff.mpr]
    · rfl
    · intro frame member
      rw [texts frame member]
      decide
  rw [whole, cut] at output
  cases output

theorem long_stream_incomplete :
    ∃ buffer, (consumed (teeStream 0) (oneChunk (words 20000) ++ [(0, .ended)])).2.sent = [buffer] ∧
      ¬ CompleteUsage (words 20000) (extractUsageFromBuffer wordCodec buffer) := by
  obtain ⟨buffer, sent, read⟩ := handed_usage wordCodec (words 20000) (words_stream 20000).formed 0 0
    (oneChunk (words 20000)) (one_chunk_on_time _).1 (one_chunk_on_time _).2
  refine ⟨buffer, sent, fun complete => ?_⟩
  rw [read] at complete
  exact long_loses_count ((complete_iff_keeps (words_stream 20000)).mp complete)

end Ccflare.StreamedUsage
