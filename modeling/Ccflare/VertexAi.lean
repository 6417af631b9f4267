import Ccflare.ModelMapping
import Ccflare.ProxyRequest

/-!
The Vertex AI provider, after `vertex_ai.rs`. The endpoint takes the model and the
streaming mode from the URL, and neither from the body. The URL of an attempt is
built without the body, so it names the default model; the model the client asked
for is reached when the mappings of the account lead to the default.
-/

namespace Ccflare.VertexAi

open JsonValue ModelMapping ProxyRequest

def vertexAnthropicVersion : String := "vertex-2023-10-16"

def defaultVertexModel : String := "claude-sonnet-4-6"

/-- Vertex AI configuration, kept as a document in the account's `custom_endpoint`. -/
structure VertexAiConfig where
  projectId : String
  region : String
  deriving DecidableEq

/-- The date of a model name goes after an `@`. There is no result when the split
falls inside a character. -/
def toVertexModel (model : String) : Option String :=
  if 10 ≤ Text.byteLength model then
    (Text.splitAt (Text.byteLength model - 9) model).map fun (name, suffix) =>
      match Text.stripPrefix "-" suffix with
      | some date =>
          if Text.byteLength date = 8 ∧ date.toList.all Char.isDigit then name ++ "@" ++ date
          else model
      | none => model
  else some model

section Provider

variable (codec : Codec) (readConfig : String → Option VertexAiConfig)

/-- `readConfig` is the derived deserializer; its own words about a failure are left out. -/
def parseConfig (account : Account) : Except ProviderError VertexAiConfig :=
  match account.customEndpoint.filter (· ≠ "") with
  | none => .error (.other ("Account " ++ account.name ++
      " is missing Vertex AI configuration (projectId, region)"))
  | some text =>
      match readConfig text with
      | some config => .ok config
      | none => .error (.other ("Failed to parse Vertex AI config for account " ++ account.name))

def specifier (streaming : Bool) : String :=
  if streaming then "streamRawPredict" else "rawPredict"

def baseUrl (config : VertexAiConfig) : String :=
  if config.region = "global" then "https://aiplatform.googleapis.com"
  else "https://" ++ config.region ++ "-aiplatform.googleapis.com"

def vertexUrl (config : VertexAiConfig) (model specifier : String) : String :=
  baseUrl config ++ "/v1/projects/" ++ config.projectId ++ "/locations/" ++ config.region ++
    "/publishers/anthropic/models/" ++ model ++ ":" ++ specifier

def isStreaming (path query : String) : Bool :=
  Text.contains "stream" path || Text.contains "stream=true" query

def buildUrl (path query : String) (account : Option Account) : String :=
  match account with
  | none => "https://aiplatform.googleapis.com/v1/messages"
  | some account =>
      match parseConfig readConfig account with
      | .error _ => "https://aiplatform.googleapis.com/v1/messages"
      | .ok config => vertexUrl config defaultVertexModel (specifier (isStreaming path query))

def bearer (accessToken : Option String) (headers : Headers) : Except ProviderError Headers :=
  match accessToken with
  | none => .ok headers
  | some token =>
      match headerValue ("Bearer " ++ token) with
      | some value => .ok (insertHeader "authorization" value headers)
      | none => .error (.auth "Invalid token format")

def prepareHeaders (headers : Headers) (accessToken _apiKey : Option String) :
    Except ProviderError Headers :=
  (bearer accessToken (removeHeader "x-api-key" (removeHeader "authorization" headers))).map
    fun signed =>
      ["anthropic-beta", "anthropic-version", "host", "accept-encoding", "content-encoding"].foldl
        (fun kept name => removeHeader name kept) signed

/-- Indexed assignment panics on a document that is neither an object nor null. -/
def setVersion : Json → Option Json
  | .object fields => some (.object
      (Json.insert "anthropic_version" (.string vertexAnthropicVersion) fields))
  | .null => some (Json.make [("anthropic_version", .string vertexAnthropicVersion)])
  | .bool _ | .number _ | .string _ | .array _ => none

def mapModel (account : Option Account) (json : Json) : Json :=
  match json.getStr "model", json with
  | some model, .object fields =>
      let mapped := getModelName codec model account
      if mapped = model then json else .object (Json.insert "model" (.string mapped) fields)
  | _, _ => json

def removeModel : Json → Json
  | .object fields => .object (Json.remove "model" fields)
  | .null => .null
  | .bool value => .bool value
  | .number value => .number value
  | .string value => .string value
  | .array items => .array items

def transformRequestBody (body : ByteArray) (account : Option Account) :
    Option (Except ProviderError (Option ByteArray)) :=
  match codec.fromSlice body with
  | none => some (.error (.requestTransform "Invalid JSON body"))
  | some json =>
      (setVersion (removeModel (mapModel codec account json))).map fun transformed =>
        .ok (some (codec.toVec transformed))

def vertexAi : ProxyRequest.Provider where
  buildUrl := buildUrl readConfig
  prepareHeaders := prepareHeaders
  transformRequestBody := transformRequestBody codec

end Provider

def asksForStream (codec : Codec) (body : ByteArray) : Bool :=
  ((codec.fromSlice body).bind (Json.get "stream")).bind Json.asBool = some true

/-- The URL names the model of the body, as the account maps it, and its specifier
streams when the body asks for a stream. -/
structure ReachesModel (codec : Codec) (account : Account) (config : VertexAiConfig)
    (body : ByteArray) (url : String) : Prop where
  names : ∃ model vertexModel streaming,
    (codec.fromSlice body).bind (Json.getStr "model") = some model ∧
      toVertexModel (getModelName codec model (some account)) = some vertexModel ∧
      url = vertexUrl config vertexModel (specifier streaming)
  streams : Text.endsWith "streamRawPredict" url = asksForStream codec body

theorem ends_with_append (text ending : String) : Text.endsWith ending (text ++ ending) = true := by
  simp [Text.endsWith, String.toList_append]

/-- The two specifiers end in different letters: only one of them streams. -/
theorem url_streams (config : VertexAiConfig) (model : String) (streaming : Bool) :
    Text.endsWith "streamRawPredict" (vertexUrl config model (specifier streaming)) = streaming := by
  cases streaming with
  | true => exact ends_with_append _ _
  | false =>
      rw [Bool.eq_false_iff]
      intro ends
      have long := List.isSuffixOf_iff_suffix.mp ends
      have short : "rawPredict".toList <:+
          (vertexUrl config model (specifier false)).toList := by
        rw [vertexUrl, String.toList_append]
        exact List.suffix_append _ _
      exact absurd (List.suffix_of_suffix_length_le short long (by decide)) (by decide)

theorem vertex_url_model (config : VertexAiConfig) (left right : String) (streaming : Bool)
    (same : vertexUrl config left (specifier streaming) =
      vertexUrl config right (specifier streaming)) : left = right := by
  simp only [vertexUrl, String.append_left_inj, String.append_right_inj] at same
  exact same

/-- Only the default model has the default's name in the format of the endpoint. -/
theorem to_vertex_default (model : String) :
    toVertexModel model = some defaultVertexModel ↔ model = defaultVertexModel := by
  constructor
  · intro named
    unfold toVertexModel at named
    split at named
    · obtain ⟨⟨name, suffix⟩, -, result⟩ := Option.map_eq_some_iff.mp named
      dsimp only at result
      split at result
      · split at result
        · have marked : '@' ∈ defaultVertexModel.toList := by simp [← result]
          exact absurd marked (by decide)
        · exact result
      · exact result
    · exact Option.some.inj named
  · rintro rfl
    decide

theorem configured_url (readConfig : String → Option VertexAiConfig) (account : Account)
    (config : VertexAiConfig) (path query : String)
    (configured : parseConfig readConfig account = .ok config) :
    buildUrl readConfig path query (some account) =
      vertexUrl config defaultVertexModel (specifier (isStreaming path query)) := by
  simp [buildUrl, configured]

section Attempt

variable (codec : Codec) (readConfig : String → Option VertexAiConfig)
  (applyModelMapping : Account → ByteArray → ByteArray) (account : Account)
  (reqMeta : RequestMeta) (baseHeaders : Headers) (body : ByteArray) (json : Json)
  (sent : UpstreamRequest)

/-- What is sent has no model beside the URL, and the version in the body. -/
theorem sent_without_model (parsed : codec.fromSlice body = some json)
    (attempted : upstreamRequest (vertexAi codec readConfig) applyModelMapping account reqMeta
      baseHeaders body = some (.ok sent)) :
    ∃ transformed, sent.body = codec.toVec transformed ∧ transformed.get "model" = none ∧
      transformed.get "anthropic_version" = some (.string vertexAnthropicVersion) := by
  have final := (attempt_sent _ _ _ _ _ _ _ attempted).2
  simp only [finalBody, vertexAi, transformRequestBody, parsed, Option.map_map,
    Option.map_eq_some_iff, Function.comp_apply] at final
  obtain ⟨transformed, versioned, same⟩ := final
  refine ⟨transformed, same.symm, ?_⟩
  cases mapped : removeModel (mapModel codec (some account) json) with
  | object fields =>
      have unnamed : Json.field "model" fields = none := by
        cases before : mapModel codec (some account) json with
        | object inner =>
            obtain rfl : Json.remove "model" inner = fields := by
              simpa [removeModel, before] using mapped
            simp [Json.field_remove]
        | null | bool _ | number _ | string _ | array _ => simp [removeModel, before] at mapped
      obtain rfl := Option.some.inj (by simpa [mapped, setVersion] using versioned)
      simp [Json.get, Json.field_insert, unnamed]
  | null =>
      obtain rfl := Option.some.inj (by simpa [mapped, setVersion] using versioned)
      simp [Json.get_make, Json.field]
  | bool _ | number _ | string _ | array _ => simp [mapped, setVersion] at versioned

/-- An attempt reaches the requested model exactly when the account maps it to the
default, and streams as asked when path and query say what the body says. -/
theorem reaches_model_iff (config : VertexAiConfig) (model : String)
    (configured : parseConfig readConfig account = .ok config)
    (parsed : codec.fromSlice body = some json) (hasModel : json.getStr "model" = some model)
    (attempted : upstreamRequest (vertexAi codec readConfig) applyModelMapping account reqMeta
      baseHeaders body = some (.ok sent)) :
    ReachesModel codec account config body sent.url ↔
      getModelName codec model (some account) = defaultVertexModel ∧
        isStreaming reqMeta.path reqMeta.query = asksForStream codec body := by
  have url : sent.url = vertexUrl config defaultVertexModel
      (specifier (isStreaming reqMeta.path reqMeta.query)) :=
    (attempt_sent _ _ _ _ _ _ _ attempted).1.trans
      (configured_url readConfig account config _ _ configured)
  rw [url, ← to_vertex_default]
  constructor
  · rintro ⟨⟨asked, vertexModel, streaming, requested, named, same⟩, streams⟩
    obtain rfl : model = asked := by simpa [parsed, hasModel] using requested
    have mode := congrArg (Text.endsWith "streamRawPredict") same
    rw [url_streams, url_streams] at mode
    rw [← mode] at same
    rw [url_streams] at streams
    exact ⟨by rw [named, vertex_url_model config _ _ _ same], streams⟩
  · rintro ⟨named, streams⟩
    constructor
    · exact ⟨model, defaultVertexModel, _, by simp [parsed, hasModel], named, rfl⟩
    · rw [url_streams, streams]

end Attempt

def projectTable : List (String × Json) :=
  [("\x7b\"projectId\":\"my-project\",\"region\":\"us-central1\"\x7d",
      Json.make [("projectId", .string "my-project"), ("region", .string "us-central1")]),
    ("\x7b\"model\":\"claude-sonnet-4-6\"\x7d",
      Json.make [("model", .string "claude-sonnet-4-6")]),
    ("\x7b\"anthropic_version\":\"vertex-2023-10-16\"\x7d",
      Json.make [("anthropic_version", .string "vertex-2023-10-16")]),
    ("\x7b\"model\":\"claude-opus-4-1-20250805\",\"stream\":true\x7d",
      Json.make [("model", .string "claude-opus-4-1-20250805"), ("stream", .bool true)]),
    ("\x7b\"anthropic_version\":\"vertex-2023-10-16\",\"stream\":true\x7d",
      Json.make [("anthropic_version", .string "vertex-2023-10-16"), ("stream", .bool true)])]

def projectCodec : Codec := .ofTable projectTable

def projectConfig (text : String) : Option VertexAiConfig := do
  let json ← projectCodec.fromStr text
  let projectId ← json.getStr "projectId"
  let region ← json.getStr "region"
  return ⟨projectId, region⟩

def projectAccount : Account :=
  { makeAccount "a" "vertex-ai" 0 with
    accessToken := some "gcp-token"
    customEndpoint := some "\x7b\"projectId\":\"my-project\",\"region\":\"us-central1\"\x7d" }

def projectAttempt (body : ByteArray) : Option (Except Nat UpstreamRequest) :=
  upstreamRequest (vertexAi projectCodec projectConfig) (fun _ body => body) projectAccount
    ⟨"req-1", "POST", "/v1/messages", "", none, none⟩ [] body

def projectUrl (model specifier : String) : String :=
  "https://us-central1-aiplatform.googleapis.com/v1/projects/my-project/locations/us-central1" ++
    "/publishers/anthropic/models/" ++ model ++ ":" ++ specifier

def sonnetBody : ByteArray := "\x7b\"model\":\"claude-sonnet-4-6\"\x7d".toUTF8

theorem sonnet_reached : ReachesModel projectCodec projectAccount ⟨"my-project", "us-central1"⟩
    sonnetBody (projectUrl "claude-sonnet-4-6" "rawPredict") :=
  (reaches_model_iff projectCodec projectConfig (fun _ body => body) projectAccount
    ⟨"req-1", "POST", "/v1/messages", "", none, none⟩ [] sonnetBody
    (Json.make [("model", .string "claude-sonnet-4-6")])
    ⟨"POST", projectUrl "claude-sonnet-4-6" "rawPredict",
      [("authorization", "Bearer gcp-token")],
      "\x7b\"anthropic_version\":\"vertex-2023-10-16\"\x7d".toUTF8⟩
    ⟨"my-project", "us-central1"⟩ "claude-sonnet-4-6" (by decide +kernel)
    (Codec.of_table_reads projectTable (by decide +kernel) _ _ (by simp [projectTable]))
    (by decide +kernel) (by decide +kernel)).mpr (by decide +kernel)

def opusBody : ByteArray :=
  "\x7b\"model\":\"claude-opus-4-1-20250805\",\"stream\":true\x7d".toUTF8

/-- A streamed request for another model goes to the default model, unstreamed. -/
theorem opus_not_reached :
    projectAttempt opusBody = some (.ok ⟨"POST", projectUrl "claude-sonnet-4-6" "rawPredict",
      [("authorization", "Bearer gcp-token")],
      "\x7b\"anthropic_version\":\"vertex-2023-10-16\",\"stream\":true\x7d".toUTF8⟩) ∧
      ¬ ReachesModel projectCodec projectAccount ⟨"my-project", "us-central1"⟩ opusBody
        (projectUrl "claude-sonnet-4-6" "rawPredict") := by
  constructor
  · decide +kernel
  · intro reached
    have streams := reached.streams
    revert streams
    decide +kernel

end Ccflare.VertexAi
