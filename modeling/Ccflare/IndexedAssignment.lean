import Ccflare.BodyRewriting
import Ccflare.Forwarding
import Ccflare.ModelReplacement
import Ccflare.Providers

/-!
The rewrites of a request body with each indexed assignment as the code makes it. An assignment
to an object sets a field, one to null makes an object of it, and any other document makes it
panic. A strict run has no value at null either, so it has one exactly where every assignment
hits an object; the code's own run is the one that is not strict.
-/

namespace Ccflare.IndexedAssignment

open BodyRewriting JsonText JsonValue ModelMapping ModelReplacement Providers

section Assignment
variable (strict : Bool)

/-- `json[key] = value`. -/
def assign (key : String) (value : Json) : Json → Option Json
  | .object fields => some (.object (Json.insert key value fields))
  | .null => if strict then none else some (Json.make [(key, value)])
  | .bool _ | .number _ | .string _ | .array _ => none

/-- `json[outer][key] = value`. -/
def assignIn (outer key : String) (value json : Json) : Option Json :=
  (assign strict key value ((json.get outer).getD .null)).bind fun inner =>
    assign strict outer inner json

/-- The documents an indexed assignment can be made to. -/
def Assignable : Json → Prop
  | .object _ => True
  | .null => strict = false
  | .bool _ | .number _ | .string _ | .array _ => False

end Assignment

section Rewriting
variable (codec : Codec) (strict : Bool)

def transformBodyModel (body : ByteArray) (account : Option Account) : Option (Option ByteArray) :=
  match codec.fromSlice body with
  | none => some none
  | some json =>
      match json.getStr "model" with
      | none => some none
      | some model =>
          let mapped := getModelName codec model account
          if mapped = model then some none
          else (assign strict "model" (.string mapped) json).map fun changed =>
            some (codec.toVec changed)

def transformBodyModelForce (body : ByteArray) (targetModel : String) :
    Option (Option ByteArray) :=
  match codec.fromSlice body with
  | none => some none
  | some json =>
      match json.get "model" with
      | none => some none
      | some _ => (assign strict "model" (.string targetModel) json).map fun changed =>
          some (codec.toVec changed)

def minimaxDefaultModel : String := "MiniMax-M2"

/-- `func["function"][target]` takes over a field of the tool, where the tool has it. -/
def takeInto (tool : Json) (source target : String) (func : Json) : Option Json :=
  match tool.get source with
  | some value => assignIn strict "function" target value func
  | none => some func

/-- The function tool of a tool; one without a name is filtered out. -/
def functionTool (tool : Json) : Option (Option Json) :=
  match tool.getStr "name" with
  | none => some none
  | some name =>
      let func := Json.make
        [("type", .string "function"), ("function", Json.make [("name", .string name)])]
      ((takeInto strict tool "description" "description" func).bind
        (takeInto strict tool "input_schema" "parameters")).map some

def toolFields (body : Json) : Option (List (String × Json)) :=
  match body.get "tools" with
  | some (.array tools) =>
      (tools.mapM (functionTool strict)).map fun made =>
        let oaiTools := made.filterMap id
        if oaiTools.isEmpty then [] else [("tools", .array oaiTools)]
  | _ => some []

def openaiRequest (body : Json) : Option Json :=
  (toolFields strict body).map fun tools =>
    let messages := OpenAiFormat.systemMessages body ++
      (OpenAiFormat.requestMessages body).flatMap (OpenAiFormat.messageGroup codec)
    Json.make (OpenAiFormat.kept body "model" "model" ++ [("messages", .array messages)] ++
      OpenAiFormat.kept body "max_tokens" "max_tokens" ++
      OpenAiFormat.kept body "temperature" "temperature" ++
      OpenAiFormat.kept body "top_p" "top_p" ++ OpenAiFormat.kept body "top_k" "top_k" ++
      OpenAiFormat.kept body "stop_sequences" "stop" ++ OpenAiFormat.streamFields body ++ tools)

def anthropicToOpenaiRequest (body : ByteArray) : Option (Option ByteArray) :=
  match codec.fromSlice body with
  | none => some none
  | some input =>
      match input.asObject with
      | none => some none
      | some _ => (openaiRequest codec strict input).map fun request => some (codec.toVec request)

def mapModel (account : Option Account) (json : Json) : Option Json :=
  match json.getStr "model" with
  | none => some json
  | some model =>
      let mapped := getModelName codec model account
      if mapped = model then some json else assign strict "model" (.string mapped) json

/-- `VertexAiProvider::transform_request_body`. -/
def vertexRequestBody (body : ByteArray) (account : Option Account) :
    Option (Except ProviderError (Option ByteArray)) :=
  match codec.fromSlice body with
  | none => some (.error (.requestTransform "Invalid JSON body"))
  | some json =>
      ((mapModel codec strict account json).bind fun mapped =>
        assign strict "anthropic_version" (.string VertexAi.vertexAnthropicVersion)
          (VertexAi.removeModel mapped)).map fun transformed => .ok (some (codec.toVec transformed))

def openaiRequestBody (body : ByteArray) (account : Option Account) :
    Option (Except ProviderError (Option ByteArray)) :=
  (anthropicToOpenaiRequest codec strict body).bind fun
    | none => some (.error (.requestTransform "Failed to translate request body"))
    | some translated =>
        (transformBodyModel codec strict translated account).map fun result =>
          .ok (some (result.getD translated))

def transformRequestBody (implementation : Implementation) (body : ByteArray)
    (account : Option Account) : Option (Except ProviderError (Option ByteArray)) :=
  match implementation with
  | .claudeOauth | .console | .zai | .nanogpt | .anthropicCompatible _ =>
      (transformBodyModel codec strict body account).map .ok
  | .minimax => (transformBodyModelForce codec strict body minimaxDefaultModel).map .ok
  | .openaiCompatible _ => openaiRequestBody codec strict body account
  | .vertexAi => vertexRequestBody codec strict body account

/-- The text replacement, and the assignment where neither spelling of the model is found. -/
def replaceModelInBody (body : ByteArray) (oldModel newModel : String) :
    Option (Option ByteArray) :=
  match String.fromUTF8? body with
  | none => some none
  | some text =>
      match (replaceFirst compactOpening text.toList oldModel newModel).or
          (replaceFirst spacedOpening text.toList oldModel newModel) with
      | some replaced => some (some (String.ofList replaced).toUTF8)
      | none =>
          match codec.fromSlice body with
          | none => some none
          | some json => (assign strict "model" (.string newModel) json).map fun changed =>
              some (codec.toVec changed)

end Rewriting

section Mapping

/-- `Option<String>`. -/
def optionText : Json → Option (Option String)
  | .null => some none
  | .string content => some (some content)
  | .bool _ | .number _ | .array _ | .object _ => none

/-- The derived deserializer of `ModelOnly`: a field that is missing is none, one that is written
twice is an error, and an array is read as the fields in their order. -/
def modelOnly : Json → Option (Option String)
  | .object members =>
      match members.filter fun member => member.1 = "model" with
      | [] => some none
      | [member] => optionText member.2
      | _ :: _ :: _ => none
  | .array [item] => optionText item
  | .array [] | .array (_ :: _ :: _) | .null | .bool _ | .number _ | .string _ => none

/-- `HashMap<String, String>`. -/
def stringMap : Json → Option (List (String × String))
  | .object members => members.mapM fun member => member.2.asStr.map fun text => (member.1, text)
  | .null | .bool _ | .number _ | .string _ | .array _ => none

/-- `skim` gives the members of a body as they are written; it does not look into the values that
`ModelOnly` skips. -/
def extractModelFromBody (skim : ByteArray → Option Json) (body : ByteArray) : Option String :=
  ((skim body).bind modelOnly).join

/-- Of the entries for a model the last one counts. -/
def getModelMapping (written : String → Option Json) (mappings model : String) : Option String :=
  ((written mappings).bind stringMap).bind fun entries => entries.reverse.lookup model

def applyModelMapping (codec : Codec) (written : String → Option Json) (strict : Bool)
    (account : Account) (requestedModel : Option String) (reqBody : ByteArray) :
    Option ByteArray :=
  match account.modelMappings, requestedModel with
  | some mappings, some model =>
      match getModelMapping written mappings model with
      | some mapped =>
          (replaceModelInBody codec strict reqBody model mapped).map fun replaced =>
            replaced.getD reqBody
      | none => some reqBody
  | some _, none | none, some _ | none, none => some reqBody

end Mapping

theorem assign_code : assign false = setField := by
  funext key value json
  cases json <;> rfl

theorem assign_some_iff (strict : Bool) (key : String) (value json : Json) :
    (assign strict key value json).isSome = true ↔ Assignable strict json := by
  cases json <;> cases strict <;> simp [assign, Assignable]

/-- A strict assignment is the one that the code makes. -/
theorem assign_strict (strict : Bool) (key : String) (value json changed : Json)
    (assigned : assign true key value json = some changed) :
    assign strict key value json = some changed := by
  cases json <;> first | exact assigned | cases assigned

theorem get_some_object (key : String) (json value : Json) (found : json.get key = some value) :
    ∃ fields, json = .object fields := by
  cases json with
  | object fields => exact ⟨fields, rfl⟩
  | null | bool | number | string | array => cases found

theorem get_str_object (key text : String) (json : Json) (found : json.getStr key = some text) :
    ∃ fields, json = .object fields := by
  obtain ⟨value, held, -⟩ := Option.bind_eq_some_iff.mp found
  exact get_some_object key json value held

section Guarded
variable (codec : Codec) (strict : Bool)

/-- The assignment to the model comes after the model has been read. -/
theorem transform_body_model_returns (body : ByteArray) (account : Option Account) :
    transformBodyModel codec strict body account =
      some (ModelMapping.transformBodyModel codec body account) := by
  unfold transformBodyModel ModelMapping.transformBodyModel
  cases parsed : codec.fromSlice body with
  | none => rfl
  | some json =>
      cases found : json.getStr "model" with
      | none => simp [found]
      | some model =>
          obtain ⟨fields, rfl⟩ := get_str_object "model" model json found
          by_cases same : getModelName codec model account = model
          · simp [found, Json.asObject, same]
          · simp [found, Json.asObject, same, assign]

theorem forced_model_returns (body : ByteArray) (targetModel : String) :
    ∃ result, ∀ strict, transformBodyModelForce codec strict body targetModel = some result := by
  unfold transformBodyModelForce
  cases parsed : codec.fromSlice body with
  | none => exact ⟨none, fun _ => rfl⟩
  | some json =>
      cases found : json.get "model" with
      | none => exact ⟨none, fun _ => by simp [found]⟩
      | some model =>
          obtain ⟨fields, rfl⟩ := get_some_object "model" json model found
          exact ⟨_, fun _ => by simp [found, assign]; rfl⟩

/-- A function tool with the fields of its function. -/
def toolWith (fields : List (String × Json)) : Json :=
  .object [("function", .object fields), ("type", .string "function")]

theorem made_tool (fields : List (String × Json)) :
    Json.make [("type", .string "function"), ("function", .object fields)] = toolWith fields := by
  have order : "function" < "type" := by decide
  simp [Json.make, Json.insert, toolWith, order]

theorem assign_in_tool (key : String) (value : Json) (fields : List (String × Json)) :
    assignIn strict "function" key value (toolWith fields) =
      some (toolWith (Json.insert key value fields)) := by
  simp [assignIn, toolWith, Json.get, Json.field, assign, Json.insert]

theorem take_into_tool (tool : Json) (source target : String) (fields : List (String × Json)) :
    takeInto strict tool source target (toolWith fields) =
      some (toolWith ((OpenAiFormat.kept tool source target).foldl
        (fun held entry => Json.insert entry.1 entry.2 held) fields)) := by
  unfold takeInto OpenAiFormat.kept
  cases tool.get source with
  | none => rfl
  | some value => exact assign_in_tool strict target value fields

/-- The function of a tool is an object literal, and stays an object. -/
theorem function_tool_returns (tool : Json) :
    functionTool strict tool = some (OpenAiFormat.functionTool tool) := by
  unfold functionTool OpenAiFormat.functionTool
  cases tool.getStr "name" with
  | none => rfl
  | some name =>
      have literal : Json.make [("type", .string "function"),
          ("function", Json.make [("name", .string name)])] = toolWith [("name", .string name)] :=
        made_tool _
      have merged (first second : List (String × Json)) :
          Json.make ([("name", .string name)] ++ first ++ second) =
            .object (second.foldl (fun held entry => Json.insert entry.1 entry.2 held)
              (first.foldl (fun held entry => Json.insert entry.1 entry.2 held)
                [("name", .string name)])) := by
        simp [Json.make, Json.insert]
      rw [Option.map_some, merged, made_tool]
      simp only [literal, take_into_tool, Option.bind_some, Option.map_some]

theorem tool_fields_return (body : Json) :
    toolFields strict body = some (OpenAiFormat.toolFields body) := by
  unfold toolFields OpenAiFormat.toolFields
  have made (tools : List Json) : tools.mapM (functionTool strict) =
      some (tools.map OpenAiFormat.functionTool) := by
    rw [funext (function_tool_returns strict)]
    exact List.mapM_pure
  cases body.get "tools" with
  | none => rfl
  | some value =>
      cases value with
      | array tools => simp [made, List.filterMap_map]
      | null | bool | number | string | object => rfl

theorem translated_returns (body : ByteArray) :
    anthropicToOpenaiRequest codec strict body =
      some (OpenAiFormat.anthropicToOpenaiRequest codec body) := by
  unfold anthropicToOpenaiRequest OpenAiFormat.anthropicToOpenaiRequest openaiRequest
  cases codec.fromSlice body with
  | none => rfl
  | some input =>
      cases input with
      | object fields => simp [tool_fields_return, Json.asObject, OpenAiFormat.openaiRequest]
      | null | bool | number | string | array => rfl

theorem openai_request_returns (body : ByteArray) (account : Option Account) :
    openaiRequestBody codec strict body account =
      some (Forwarding.transformRequestBody codec body account) := by
  unfold openaiRequestBody Forwarding.transformRequestBody
  rw [translated_returns, Option.bind_some]
  cases OpenAiFormat.anthropicToOpenaiRequest codec body with
  | none => rfl
  | some translated => simp [transform_body_model_returns]

end Guarded

section Documents
variable (codec : Codec) (strict : Bool)

/-- What the removal of the model leaves can be assigned to where the body can. -/
theorem remove_model_assignable (json : Json) :
    Assignable strict (VertexAi.removeModel json) ↔ Assignable strict json := by
  cases json <;> rfl

/-- The model of a body is only replaced in an object, and this leaves an object. -/
theorem map_model_returns (account : Option Account) (json : Json) :
    mapModel codec strict account json = some (VertexAi.mapModel codec account json) := by
  unfold mapModel VertexAi.mapModel
  cases found : json.getStr "model" with
  | none => rfl
  | some model =>
      obtain ⟨fields, rfl⟩ := get_str_object "model" model json found
      by_cases same : getModelName codec model account = model <;> simp [same, assign]

theorem map_model_assignable (account : Option Account) (json : Json) :
    Assignable strict (VertexAi.mapModel codec account json) ↔ Assignable strict json := by
  unfold VertexAi.mapModel
  cases found : json.getStr "model" with
  | none => rfl
  | some model =>
      obtain ⟨fields, rfl⟩ := get_str_object "model" model json found
      by_cases same : getModelName codec model account = model <;> simp [same, Assignable]

/-- The body is no JSON, or a document that an assignment can be made to. -/
def BodyAssignable (body : ByteArray) : Prop :=
  ∀ json, codec.fromSlice body = some json → Assignable strict json

theorem body_assignable_some (body : ByteArray) (json : Json)
    (parsed : codec.fromSlice body = some json) :
    BodyAssignable codec strict body ↔ Assignable strict json := by
  simp [BodyAssignable, parsed]

theorem body_assignable_none (body : ByteArray) (unparsed : codec.fromSlice body = none) :
    BodyAssignable codec strict body := by
  intro json parsed
  cases unparsed.symm.trans parsed

/-- The version is set in whatever the body parses to. -/
theorem vertex_returns_iff (body : ByteArray) (account : Option Account) :
    (vertexRequestBody codec strict body account).isSome = true ↔
      BodyAssignable codec strict body := by
  unfold vertexRequestBody
  cases parsed : codec.fromSlice body with
  | none => exact iff_of_true rfl (body_assignable_none codec strict body parsed)
  | some json =>
      simp only [map_model_returns, Option.bind_some, Option.isSome_map]
      rw [body_assignable_some codec strict body json parsed, assign_some_iff,
        remove_model_assignable, map_model_assignable]

theorem vertex_code (body : ByteArray) (account : Option Account) :
    vertexRequestBody codec false body account =
      VertexAi.transformRequestBody codec body account := by
  have version : assign false "anthropic_version" (.string VertexAi.vertexAnthropicVersion) =
      VertexAi.setVersion := by
    funext json
    cases json <;> rfl
  unfold vertexRequestBody VertexAi.transformRequestBody
  rw [version]
  cases codec.fromSlice body with
  | none => rfl
  | some json => simp only [map_model_returns, Option.bind_some]

/-- Whether a spelling of the model is found does not depend on its replacement. -/
theorem replaced_none_iff (text : List Char) (oldModel newModel : String) :
    (replaceFirst compactOpening text oldModel newModel).or
        (replaceFirst spacedOpening text oldModel newModel) = none ↔
      firstMatch text oldModel = none := by
  unfold replaceFirst firstMatch
  cases splitAtFirst (needle compactOpening oldModel) text with
  | some place => simp
  | none => simp

theorem replace_returns_iff (body : ByteArray) (oldModel newModel : String) :
    (replaceModelInBody codec strict body oldModel newModel).isSome = true ↔
      ∀ text, String.fromUTF8? body = some text → firstMatch text.toList oldModel = none →
        BodyAssignable codec strict body := by
  unfold replaceModelInBody
  cases decoded : String.fromUTF8? body with
  | none => simp
  | some text =>
      have unmatched := replaced_none_iff text.toList oldModel newModel
      cases replaced : (replaceFirst compactOpening text.toList oldModel newModel).or
          (replaceFirst spacedOpening text.toList oldModel newModel) with
      | some out =>
          have matched : firstMatch text.toList oldModel ≠ none := fun missing => by
            rw [unmatched.mpr missing] at replaced
            cases replaced
          simp only [replaced]
          simp [matched]
      | none =>
          have missing := unmatched.mp replaced
          simp only [replaced]
          cases parsed : codec.fromSlice body with
          | none => simp [body_assignable_none codec strict body parsed]
          | some json =>
              simp [missing, body_assignable_some codec strict body json parsed, assign_some_iff]

theorem replace_code (body : ByteArray) (oldModel newModel : String) :
    replaceModelInBody codec false body oldModel newModel =
      BodyRewriting.replaceModelInBody codec body oldModel newModel := by
  unfold replaceModelInBody BodyRewriting.replaceModelInBody
  rw [assign_code]
  cases String.fromUTF8? body with
  | none => rfl
  | some text =>
      cases compact : replaceFirst compactOpening text.toList oldModel newModel with
      | some replaced => simp [compact]
      | none =>
          cases spaced : replaceFirst spacedOpening text.toList oldModel newModel with
          | some replaced => simp [compact, spaced]
          | none => cases codec.fromSlice body <;> simp [compact, spaced]

theorem transform_returns_iff (implementation : Implementation) (body : ByteArray)
    (account : Option Account) :
    (transformRequestBody codec strict implementation body account).isSome = true ↔
      (implementation = .vertexAi → BodyAssignable codec strict body) := by
  cases implementation with
  | vertexAi => simpa [transformRequestBody] using vertex_returns_iff codec strict body account
  | openaiCompatible config => simp [transformRequestBody, openai_request_returns]
  | minimax =>
      obtain ⟨result, returns⟩ := forced_model_returns codec body minimaxDefaultModel
      simp [transformRequestBody, returns]
  | claudeOauth | console | zai | nanogpt | anthropicCompatible =>
      simp [transformRequestBody, transform_body_model_returns]

/-- The account maps the model, and neither spelling of it is found in the text of the body. -/
def LeavesText (written : String → Option Json) (account : Account)
    (requestedModel : Option String) (body : ByteArray) : Prop :=
  ∃ mappings model mapped text, account.modelMappings = some mappings ∧
    requestedModel = some model ∧ getModelMapping written mappings model = some mapped ∧
    String.fromUTF8? body = some text ∧ firstMatch text.toList model = none

theorem mapping_returns_iff (written : String → Option Json) (account : Account)
    (requestedModel : Option String) (body : ByteArray) :
    (applyModelMapping codec written strict account requestedModel body).isSome = true ↔
      (LeavesText written account requestedModel body → BodyAssignable codec strict body) := by
  unfold applyModelMapping LeavesText
  cases account.modelMappings with
  | none => cases requestedModel <;> simp
  | some mappings =>
      cases requestedModel with
      | none => simp
      | some model =>
          cases mapped : getModelMapping written mappings model with
          | none => simp [mapped]
          | some target => simp [mapped, replace_returns_iff]

end Documents

section Strictness
variable (codec : Codec)

/-- A strict run is the code's own run. -/
theorem transform_strict (implementation : Implementation) (body : ByteArray)
    (account : Option Account) (result : Except ProviderError (Option ByteArray))
    (returned : transformRequestBody codec true implementation body account = some result) :
    transformRequestBody codec false implementation body account = some result := by
  cases implementation with
  | vertexAi =>
      simp only [transformRequestBody, vertexRequestBody, map_model_returns, Option.bind_some]
        at returned ⊢
      cases parsed : codec.fromSlice body with
      | none => simpa [parsed] using returned
      | some json =>
          simp only [parsed, Option.map_eq_some_iff] at returned ⊢
          obtain ⟨transformed, assigned, same⟩ := returned
          exact ⟨transformed, assign_strict false _ _ _ _ assigned, same⟩
  | minimax =>
      obtain ⟨forced, returns⟩ := forced_model_returns codec body minimaxDefaultModel
      simpa [transformRequestBody, returns] using returned
  | openaiCompatible config =>
      simpa [transformRequestBody, openai_request_returns] using returned
  | claudeOauth | console | zai | nanogpt | anthropicCompatible =>
      simpa [transformRequestBody, transform_body_model_returns] using returned

theorem replace_strict (body : ByteArray) (oldModel newModel : String) (result : Option ByteArray)
    (returned : replaceModelInBody codec true body oldModel newModel = some result) :
    replaceModelInBody codec false body oldModel newModel = some result := by
  unfold replaceModelInBody at returned ⊢
  cases decoded : String.fromUTF8? body with
  | none => simpa only [decoded] using returned
  | some text =>
      simp only [decoded] at returned ⊢
      cases found : (replaceFirst compactOpening text.toList oldModel newModel).or
          (replaceFirst spacedOpening text.toList oldModel newModel) with
      | some replaced => simpa only [found] using returned
      | none =>
          simp only [found] at returned ⊢
          cases parsed : codec.fromSlice body with
          | none => simpa only [parsed] using returned
          | some json =>
              simp only [parsed, Option.map_eq_some_iff] at returned ⊢
              obtain ⟨changed, assigned, same⟩ := returned
              exact ⟨changed, assign_strict false _ _ _ _ assigned, same⟩

theorem mapping_strict (written : String → Option Json) (account : Account)
    (requestedModel : Option String) (body result : ByteArray)
    (returned : applyModelMapping codec written true account requestedModel body = some result) :
    applyModelMapping codec written false account requestedModel body = some result := by
  unfold applyModelMapping at returned ⊢
  cases configured : account.modelMappings with
  | none => cases requestedModel <;> simpa only [configured] using returned
  | some mappings =>
      cases requestedModel with
      | none => simpa only [configured] using returned
      | some model =>
          simp only [configured] at returned ⊢
          cases mapped : getModelMapping written mappings model with
          | none => simpa only [mapped] using returned
          | some target =>
              simp only [mapped, Option.map_eq_some_iff] at returned ⊢
              obtain ⟨replaced, done, same⟩ := returned
              exact ⟨replaced, replace_strict codec _ _ _ _ done, same⟩

/-- Beside an object only a list of one name has a model. -/
theorem model_only_cases (written : Json) (model : String)
    (named : (modelOnly written).join = some model) :
    (∃ members, written = .object members) ∨ written = .array [.string model] := by
  cases written with
  | object members => exact Or.inl ⟨members, rfl⟩
  | array items =>
      match items with
      | [.string content] => exact Or.inr (by simpa [modelOnly, optionText] using named)
      | [.null] | [.bool _] | [.number _] | [.array _] | [.object _] | [] | _ :: _ :: _ =>
          cases named
  | null | bool | number | string => cases named

/-- Where both readers read a body alike, the fallback mapping panics on a list of one name only. -/
theorem mapping_panics_on_list (skim : ByteArray → Option Json) (written : String → Option Json)
    (body : ByteArray) (account : Account)
    (alike : ∀ json, codec.fromSlice body = some json → (skim body).map canonical = some json)
    (panics : applyModelMapping codec written false account (extractModelFromBody skim body)
      body = none) :
    ∃ model, skim body = some (.array [.string model]) := by
  have stuck : ¬ (LeavesText written account (extractModelFromBody skim body) body →
      BodyAssignable codec false body) := fun safe => by
    have returned := (mapping_returns_iff codec false written account _ body).mpr safe
    rw [panics] at returned
    cases returned
  obtain ⟨⟨_, model, _, _, -, found, -⟩, unassignable⟩ := Classical.not_imp.mp stuck
  obtain ⟨document, skimmed, named⟩ : ∃ document, skim body = some document ∧
      (modelOnly document).join = some model := by
    unfold extractModelFromBody at found
    cases skimmed : skim body with
    | none => simp [skimmed] at found
    | some document => exact ⟨document, rfl, by simpa [skimmed] using found⟩
  obtain ⟨members, rfl⟩ | rfl := model_only_cases document model named
  · refine absurd (fun json parsed => ?_) unassignable
    have same := alike json parsed
    rw [skimmed, Option.map_some, Option.some.injEq] at same
    subst same
    trivial
  · exact ⟨model, skimmed⟩

end Strictness

/-- The rewrites of one body for one account: each returns exactly where its assignments can be
made. Only Vertex AI and the fallback mapping assign to a body of any shape. -/
theorem rewriting_returns_iff (codec : Codec) (strict : Bool) (skim : ByteArray → Option Json) (written : String → Option Json)
    (implementation : Implementation) (body : ByteArray) (account : Account) :
    ((transformRequestBody codec strict implementation body (some account)).isSome = true ↔
      (implementation = .vertexAi → BodyAssignable codec strict body)) ∧
    ((applyModelMapping codec written strict account (extractModelFromBody skim body)
        body).isSome = true ↔
      (LeavesText written account (extractModelFromBody skim body) body →
        BodyAssignable codec strict body)) :=
  ⟨transform_returns_iff codec strict implementation body (some account),
    mapping_returns_iff codec strict written account (extractModelFromBody skim body) body⟩

def listText : String := "[\"m1\"]"

def skimText (body : ByteArray) : Option Json :=
  (String.fromUTF8? body).bind fun text => document digitNumbers text.toList

def writtenText (text : String) : Option Json := document digitNumbers text.toList

def listCodec : Codec :=
  { Codec.ofTable [(listText, .array [.string "m1"])] with
    fromSlice body := (skimText body).map canonical }

def mappedAccount : Account :=
  { makeAccount "a" "vertex-ai" 0 with modelMappings := some "\x7b\"m1\":\"m2\"\x7d" }

theorem list_body_panics :
    transformRequestBody listCodec false .vertexAi listText.toUTF8 (some mappedAccount) = none ∧
      extractModelFromBody skimText listText.toUTF8 = some "m1" ∧
      applyModelMapping listCodec writtenText false mappedAccount
        (extractModelFromBody skimText listText.toUTF8) listText.toUTF8 = none := by
  have decoded := Utf8.decode_text listText
  have listed : document digitNumbers listText.toList = some (.array [.string "m1"]) := by
    decide +kernel
  have mapping : writtenText "\x7b\"m1\":\"m2\"\x7d" =
      some (.object [("m1", .string "m2")]) := by
    unfold writtenText
    decide +kernel
  have skimmed : skimText listText.toUTF8 = some (.array [.string "m1"]) := by
    rw [skimText, decoded, Option.bind_some, listed]
  have parsed : listCodec.fromSlice listText.toUTF8 = some (.array [.string "m1"]) := by
    change (skimText listText.toUTF8).map canonical = _
    rw [skimmed]
    rfl
  have extracted : extractModelFromBody skimText listText.toUTF8 = some "m1" := by
    rw [extractModelFromBody, skimmed]
    rfl
  have mapped : getModelMapping writtenText "\x7b\"m1\":\"m2\"\x7d" "m1" = some "m2" := by
    rw [getModelMapping, mapping]
    decide
  have unmatched : firstMatch listText.toList "m1" = none := by decide +kernel
  have stuck : ¬ BodyAssignable listCodec false listText.toUTF8 := fun safe => safe _ parsed
  refine ⟨Option.not_isSome_iff_eq_none.mp fun returned => ?_, extracted,
    Option.not_isSome_iff_eq_none.mp fun returned => ?_⟩
  · exact stuck ((transform_returns_iff _ _ _ _ _).mp returned rfl)
  · exact stuck ((mapping_returns_iff _ _ _ _ _ _).mp returned
      ⟨_, "m1", "m2", listText, rfl, extracted, mapped, decoded, unmatched⟩)

end Ccflare.IndexedAssignment
