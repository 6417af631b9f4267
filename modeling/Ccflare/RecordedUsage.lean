import Ccflare.Providers
import Ccflare.SseParser

/-!
The usage that is recorded for a plain answer, beside the usage its provider reads from it. One
extractor records for all providers and knows the field names of one format; two providers read
something else, the one other counts and the other a model name with its date converted back.
-/

namespace Ccflare.RecordedUsage

open JsonValue MachineNumber Providers SseParser

structure UsageInfo where
  model : Option String
  promptTokens : Option Int
  completionTokens : Option Int
  totalTokens : Option Int
  costUsd : Option Rat
  inputTokens : Option Int
  cacheReadInputTokens : Option Int
  cacheCreationInputTokens : Option Int
  outputTokens : Option Int
  deriving DecidableEq

def checkedAdd (a b : Int) : Option Int := if InI64 (a + b) then some (a + b) else none

/-- The parts of a text before and after its last mark. -/
def splitAtLast (mark : Char) : List Char → Option (List Char × List Char)
  | [] => none
  | c :: rest =>
      match splitAtLast mark rest with
      | some (before, after) => some (c :: before, after)
      | none => if c = mark then some ([], rest) else none

def isDate (suffix : List Char) : Bool :=
  decide (Text.byteLength (String.ofList suffix) = 8) && suffix.all Char.isDigit

/-- The date of a model name goes after a hyphen again. -/
def fromVertexModel (model : String) : String :=
  match splitAtLast '@' model.toList with
  | some (name, suffix) =>
      if isDate suffix then String.ofList (name ++ '-' :: suffix) else model
  | none => model

section Extract
variable (codec : Codec)

/-- `extract_usage_from_response`, the extractor of the post-processor. -/
def extractUsageFromResponse (body : ByteArray) : Option StreamUsage := do
  let json ← codec.fromSlice body
  let u ← json.get "usage"
  return ⟨json.getStr "model", tokens "input_tokens" u, tokens "output_tokens" u,
    tokens "cache_read_input_tokens" u, tokens "cache_creation_input_tokens" u⟩

def recordedUsage (body : ByteArray) : StreamUsage :=
  (extractUsageFromResponse codec body).getD .default

/-- The usage of an answer in the messages format, its model read as the provider reads it. -/
def messagesUsage (readModel : Json → Option String) (body : ByteArray) : Option UsageInfo := do
  let json ← codec.fromSlice body
  let usage ← json.get "usage"
  let inputTokens := tokens "input_tokens" usage
  let outputTokens := tokens "output_tokens" usage
  let cacheRead := tokens "cache_read_input_tokens" usage
  let cacheCreation := tokens "cache_creation_input_tokens" usage
  let promptTokens := (checkedAdd (inputTokens.getD 0) (cacheCreation.getD 0)).bind fun sum =>
    checkedAdd sum (cacheRead.getD 0)
  let totalTokens := checkedAdd (promptTokens.getD 0) (outputTokens.getD 0)
  return ⟨readModel json, promptTokens, outputTokens, totalTokens, none, inputTokens, cacheRead,
    cacheCreation, outputTokens⟩

def claudeOauthUsage (body : ByteArray) : Option UsageInfo :=
  messagesUsage codec (Json.getStr "model") body

def anthropicCompatibleUsage (body : ByteArray) : Option UsageInfo :=
  messagesUsage codec (Json.getStr "model") body

def vertexAiUsage (body : ByteArray) : Option UsageInfo :=
  messagesUsage codec (fun json => (json.getStr "model").map fromVertexModel) body

def openaiCompatibleUsage (body : ByteArray) : Option UsageInfo := do
  let json ← codec.fromSlice body
  let usage ← json.get "usage"
  let promptTokens := tokens "prompt_tokens" usage
  let completionTokens := tokens "completion_tokens" usage
  let totalTokens := (tokens "total_tokens" usage).or
    (some (wrappingAdd (promptTokens.getD 0) (completionTokens.getD 0)))
  let model := (json.getStr "model").getD "unknown"
  return ⟨some model, promptTokens, completionTokens, totalTokens, none, promptTokens, none, none,
    completionTokens⟩

/-- `extract_usage_info` of each provider. -/
def extractUsageInfo : Implementation → ByteArray → Option UsageInfo
  | .claudeOauth => claudeOauthUsage codec
  | .console | .zai | .minimax | .nanogpt | .anthropicCompatible _ =>
      anthropicCompatibleUsage codec
  | .openaiCompatible _ => openaiCompatibleUsage codec
  | .vertexAi => vertexAiUsage codec

/-- The model and the counts of a provider's usage, in the record's shape. -/
def UsageInfo.toStream (info : UsageInfo) : StreamUsage :=
  ⟨info.model, info.inputTokens, info.outputTokens, info.cacheReadInputTokens,
    info.cacheCreationInputTokens⟩

/-- What is recorded is what the provider reads. -/
def RecordsUsage (implementation : Implementation) (body : ByteArray) : Prop :=
  recordedUsage codec body =
    ((extractUsageInfo codec implementation body).map UsageInfo.toStream).getD .default

/-- A model name that ends with its date after an `@`. -/
def Dated (model : String) : Prop :=
  ∃ name suffix, model.toList = name ++ '@' :: suffix ∧ suffix.length = 8 ∧
    suffix.all Char.isDigit = true

/-- The fields that a provider reads say the same as those of the messages format. -/
def SameFields (json usage : Json) : Implementation → Prop
  | .openaiCompatible _ =>
      (json.getStr "model").isSome = true ∧
        tokens "input_tokens" usage = tokens "prompt_tokens" usage ∧
        tokens "output_tokens" usage = tokens "completion_tokens" usage ∧
        tokens "cache_read_input_tokens" usage = none ∧
        tokens "cache_creation_input_tokens" usage = none
  | .vertexAi => ∀ model ∈ json.getStr "model", ¬ Dated model
  | .claudeOauth | .console | .zai | .minimax | .nanogpt | .anthropicCompatible _ => True

def ReadsAlike (implementation : Implementation) (body : ByteArray) : Prop :=
  ∀ json usage, codec.fromSlice body = some json → json.get "usage" = some usage →
    SameFields json usage implementation

end Extract

section Models

theorem split_at_last_none (mark : Char) (text : List Char) :
    splitAtLast mark text = none ↔ mark ∉ text := by
  induction text with
  | nil => simp [splitAtLast]
  | cons c rest ih =>
      unfold splitAtLast
      cases found : splitAtLast mark rest with
      | none =>
          have absent := ih.mp found
          by_cases same : c = mark
          · simp [same]
          · simp [same, Ne.symm same, absent]
      | some parts =>
          have there : mark ∈ rest := by
            by_contra absent
            rw [ih.mpr absent] at found
            cases found
          simp [there]

theorem split_at_last_append (mark : Char) (name suffix : List Char) (absent : mark ∉ suffix) :
    splitAtLast mark (name ++ mark :: suffix) = some (name, suffix) := by
  induction name with
  | nil => simp [splitAtLast, (split_at_last_none mark suffix).mpr absent]
  | cons c rest ih => simp [splitAtLast, ih]

theorem split_at_last_spec (mark : Char) (text name suffix : List Char)
    (found : splitAtLast mark text = some (name, suffix)) : text = name ++ mark :: suffix := by
  induction text generalizing name with
  | nil => cases found
  | cons c rest ih =>
      unfold splitAtLast at found
      cases later : splitAtLast mark rest with
      | none =>
          rw [later] at found
          dsimp only at found
          split at found
          · rename_i same
            cases found
            rw [same, List.nil_append]
          · cases found
      | some parts =>
          rw [later] at found
          cases found
          rw [ih parts.1 later, List.cons_append]

theorem digits_bytes (suffix : List Char) (digits : suffix.all Char.isDigit = true) :
    Text.byteLength (String.ofList suffix) = suffix.length := by
  unfold Text.byteLength
  rw [String.toList_ofList]
  induction suffix with
  | nil => rfl
  | cons c rest ih =>
      rw [List.all_cons, Bool.and_eq_true] at digits
      have narrow : c.utf8Size = 1 := by
        have digit := digits.1
        simp only [Char.isDigit, Bool.and_eq_true, decide_eq_true_eq, ge_iff_le] at digit
        unfold Char.utf8Size
        rw [if_pos (UInt32.le_trans digit.2 (by decide))]
      rw [List.map_cons, List.sum_cons, narrow, ih digits.2, List.length_cons, Nat.add_comm]

/-- A conversion changes exactly the dated names. -/
theorem from_vertex_fixed_iff (model : String) : fromVertexModel model = model ↔ ¬ Dated model := by
  unfold fromVertexModel
  constructor
  · rintro fixed ⟨name, suffix, whole, eight, digits⟩
    have absent : '@' ∉ suffix := by
      intro member
      have digit := List.all_eq_true.mp digits '@' member
      revert digit
      decide
    have dated : isDate suffix = true := by
      simp [isDate, digits_bytes suffix digits, eight, digits]
    rw [whole, split_at_last_append '@' name suffix absent] at fixed
    dsimp only at fixed
    rw [if_pos dated] at fixed
    have chars := congrArg String.toList fixed
    rw [String.toList_ofList, whole, List.append_cancel_left_eq] at chars
    exact absurd (List.cons.inj chars).1 (by decide)
  · intro undated
    cases found : splitAtLast '@' model.toList with
    | none => rfl
    | some parts =>
        dsimp only
        rw [if_neg]
        intro dated
        obtain ⟨eight, digits⟩ := Bool.and_eq_true_iff.mp dated
        rw [decide_eq_true_eq, digits_bytes parts.2 digits] at eight
        exact undated ⟨parts.1, parts.2, split_at_last_spec '@' _ _ _ found, eight, digits⟩

end Models

section Recorded
variable {codec : Codec}

theorem vertex_model_iff (model : Option String) :
    model = model.map fromVertexModel ↔ ∀ named ∈ model, ¬ Dated named := by
  cases model with
  | none => simp
  | some named => simp [← from_vertex_fixed_iff, eq_comm]

theorem unknown_model_iff (model : Option String) :
    model = some (model.getD "unknown") ↔ model.isSome = true := by
  cases model <;> simp

/-- What is recorded of an answer with a usage. -/
theorem recorded_fields (body : ByteArray) (json usage : Json)
    (parsed : codec.fromSlice body = some json) (has : json.get "usage" = some usage) :
    recordedUsage codec body = ⟨json.getStr "model", tokens "input_tokens" usage,
      tokens "output_tokens" usage, tokens "cache_read_input_tokens" usage,
      tokens "cache_creation_input_tokens" usage⟩ := by
  simp [recordedUsage, extractUsageFromResponse, parsed, has]

theorem messages_fields (readModel : Json → Option String) (body : ByteArray) (json usage : Json)
    (parsed : codec.fromSlice body = some json) (has : json.get "usage" = some usage) :
    (messagesUsage codec readModel body).map UsageInfo.toStream =
      some ⟨readModel json, tokens "input_tokens" usage, tokens "output_tokens" usage,
        tokens "cache_read_input_tokens" usage, tokens "cache_creation_input_tokens" usage⟩ := by
  simp [messagesUsage, parsed, has, UsageInfo.toStream]

/-- An answer that is no document or has no usage is read by nobody. -/
theorem unread (implementation : Implementation) (body : ByteArray)
    (nothing : ((codec.fromSlice body).bind fun json => json.get "usage") = none) :
    RecordsUsage codec implementation body := by
  have recorded : recordedUsage codec body = .default := by
    unfold recordedUsage extractUsageFromResponse
    cases parsed : codec.fromSlice body with
    | none => rfl
    | some json =>
        rw [parsed, Option.bind_some] at nothing
        simp [nothing]
  have read : extractUsageInfo codec implementation body = none := by
    cases parsed : codec.fromSlice body with
    | none =>
        cases implementation <;> simp [extractUsageInfo, claudeOauthUsage, anthropicCompatibleUsage,
          openaiCompatibleUsage, vertexAiUsage, messagesUsage, parsed]
    | some json =>
        rw [parsed, Option.bind_some] at nothing
        cases implementation <;> simp [extractUsageInfo, claudeOauthUsage, anthropicCompatibleUsage,
          openaiCompatibleUsage, vertexAiUsage, messagesUsage, parsed, nothing]
  unfold RecordsUsage
  rw [recorded, read]
  rfl

theorem same_fields_iff (implementation : Implementation) (body : ByteArray) (json usage : Json)
    (parsed : codec.fromSlice body = some json) (has : json.get "usage" = some usage) :
    RecordsUsage codec implementation body ↔ SameFields json usage implementation := by
  have messages := fun readModel => messages_fields readModel body json usage parsed has
  unfold RecordsUsage
  rw [recorded_fields body json usage parsed has]
  cases implementation with
  | openaiCompatible config =>
      simp only [extractUsageInfo, openaiCompatibleUsage, parsed, has, Option.bind_eq_bind,
        Option.bind_some, Option.pure_def, Option.map_some, Option.getD_some, UsageInfo.toStream,
        StreamUsage.mk.injEq, unknown_model_iff]
      exact Iff.rfl
  | vertexAi =>
      simp only [extractUsageInfo, vertexAiUsage, messages, Option.getD_some, StreamUsage.mk.injEq,
        and_true, vertex_model_iff]
      exact Iff.rfl
  | claudeOauth => simp [extractUsageInfo, claudeOauthUsage, messages, SameFields]
  | console => simp [extractUsageInfo, anthropicCompatibleUsage, messages, SameFields]
  | zai => simp [extractUsageInfo, anthropicCompatibleUsage, messages, SameFields]
  | minimax => simp [extractUsageInfo, anthropicCompatibleUsage, messages, SameFields]
  | nanogpt => simp [extractUsageInfo, anthropicCompatibleUsage, messages, SameFields]
  | anthropicCompatible config =>
      simp [extractUsageInfo, anthropicCompatibleUsage, messages, SameFields]

end Recorded

/-- The recorded usage is the provider's exactly where the fields of the two say the same. -/
theorem usage_recorded_iff (codec : Codec) (implementation : Implementation) (body : ByteArray) :
    RecordsUsage codec implementation body ↔ ReadsAlike codec implementation body := by
  cases read : (codec.fromSlice body).bind fun json => json.get "usage" with
  | none =>
      refine iff_of_true (unread implementation body read) fun json usage parsed has => ?_
      rw [parsed, Option.bind_some, has] at read
      cases read
  | some usage =>
      obtain ⟨json, parsed, has⟩ := Option.bind_eq_some_iff.mp read
      rw [same_fields_iff implementation body json usage parsed has]
      constructor
      · intro same json' usage' parsed' has'
        obtain rfl := Option.some.inj (parsed.symm.trans parsed')
        obtain rfl := Option.some.inj (has.symm.trans has')
        exact same
      · exact fun alike => alike json usage parsed has

def chatAnswer : String :=
  "\x7b\"model\":\"gpt-4o\",\"usage\":\x7b\"completion_tokens\":34,\"prompt_tokens\":12\x7d\x7d"

def chatCodec : Codec := .ofTable
  [(chatAnswer, Json.make [("model", .string "gpt-4o"), ("usage", Json.make
    [("completion_tokens", Json.ofInt 34), ("prompt_tokens", Json.ofInt 12)])])]

/-- An answer of 12 and 34 tokens is recorded without a count. -/
theorem chat_usage_lost :
    (openaiCompatibleUsage chatCodec chatAnswer.toUTF8).map UsageInfo.toStream =
        some ⟨some "gpt-4o", some 12, some 34, none, none⟩ ∧
      recordedUsage chatCodec chatAnswer.toUTF8 = ⟨some "gpt-4o", none, none, none, none⟩ ∧
      ¬ RecordsUsage chatCodec (.openaiCompatible openaiCompatibleDefault) chatAnswer.toUTF8 := by
  have read : (openaiCompatibleUsage chatCodec chatAnswer.toUTF8).map UsageInfo.toStream =
      some ⟨some "gpt-4o", some 12, some 34, none, none⟩ := by decide +kernel
  have recorded : recordedUsage chatCodec chatAnswer.toUTF8 =
      ⟨some "gpt-4o", none, none, none, none⟩ := by decide +kernel
  refine ⟨read, recorded, ?_⟩
  unfold RecordsUsage extractUsageInfo
  rw [read, recorded]
  decide

end Ccflare.RecordedUsage
