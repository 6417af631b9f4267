import Ccflare.VertexAi

/-!
The registered providers as far as headers go: how each signs a request and how each
reads the rate-limit headers of an answer. A header map is known by the values of each
name; signing begins by removing the names a client puts its own credentials under.
-/

namespace Ccflare.Providers

open MachineNumber ProxyRequest

inductive AuthType where
  | bearer
  | direct
  deriving DecidableEq

/-- `AnthropicCompatibleConfig` and `OpenAiCompatibleConfig`, which have the same fields. -/
structure CompatibleConfig where
  name : String
  endpoint : String
  authHeader : String
  authType : AuthType
  supportsStreaming : Bool
  deriving DecidableEq

inductive Implementation where
  | claudeOauth
  | console
  | zai
  | minimax
  | nanogpt
  | anthropicCompatible (config : CompatibleConfig)
  | openaiCompatible (config : CompatibleConfig)
  | vertexAi
  deriving DecidableEq

def anthropicCompatibleDefault : CompatibleConfig :=
  ⟨"anthropic-compatible", "https://api.anthropic.com", "x-api-key", .direct, true⟩

def openaiCompatibleDefault : CompatibleConfig :=
  ⟨"openai-compatible", "https://api.openai.com", "authorization", .bearer, true⟩

def zaiInner : CompatibleConfig :=
  ⟨"zai", "https://api.z.ai/api/anthropic", "x-api-key", .direct, true⟩

def minimaxInner : CompatibleConfig :=
  { anthropicCompatibleDefault with
    name := "minimax"
    endpoint := "https://api.minimax.io/anthropic" }

def nanogptInner : CompatibleConfig :=
  ⟨"nanogpt", "https://nano-gpt.com/api", "x-api-key", .direct, true⟩

def removeAuth (headers : Headers) : Headers :=
  removeHeader "x-api-key" (removeHeader "authorization" headers)

def removeHopByHop (headers : Headers) : Headers :=
  removeHeader "content-encoding" (removeHeader "accept-encoding" (removeHeader "host" headers))

def oauthBetaHeader : String := "oauth-2025-04-20"

def setBeta (text : String) (headers : Headers) : Headers :=
  match headerValue text with
  | some value => insertHeader "anthropic-beta" value headers
  | none => headers

/-- The OAuth beta is appended to the betas of the client. -/
def addBeta (headers : Headers) : Headers :=
  match (headerGet headers "anthropic-beta").bind headerText with
  | some existing =>
      if Text.contains oauthBetaHeader existing then headers
      else setBeta (existing ++ "," ++ oauthBetaHeader) headers
  | none => setBeta oauthBetaHeader headers

/-- The value is read before the map is touched; the words of its parser are left out. -/
def signWith (name text reason : String) (headers : Headers) : Except ProviderError Headers :=
  match headerValue text with
  | some value => .ok (insertHeader name value headers)
  | none => .error (.auth reason)

def claudeOauthSign (accessToken apiKey : Option String) (headers : Headers) :
    Except ProviderError Headers :=
  match accessToken, apiKey with
  -- A token wins over a key; with neither the request goes out unsigned.
  | some token, _ =>
      (signWith "authorization" ("Bearer " ++ token) "Invalid token format" headers).map addBeta
  | none, some key => signWith "x-api-key" key "Invalid API key format" headers
  | none, none => .ok headers

/-- `HeaderName::from_bytes` stores a token in lower case. -/
def headerName (text : String) : Option String :=
  if text ≠ "" ∧ text.toList.all isTokenChar then some (Text.toAsciiLowercase text) else none

def compatibleSign (config : CompatibleConfig) (accessToken apiKey : Option String)
    (headers : Headers) : Except ProviderError Headers :=
  match accessToken.or apiKey with
  | none => .ok headers
  | some credential =>
      let value := match config.authType with
        | .bearer => "Bearer " ++ credential
        | .direct => credential
      match headerName config.authHeader with
      | none => .error (.auth "Invalid auth header name")
      | some name => signWith name value "Invalid token format" headers

def claudeOauthPrepareHeaders (headers : Headers) (accessToken apiKey : Option String) :
    Except ProviderError Headers :=
  (claudeOauthSign accessToken apiKey (removeAuth headers)).map removeHopByHop

def compatiblePrepareHeaders (config : CompatibleConfig) (headers : Headers)
    (accessToken apiKey : Option String) : Except ProviderError Headers :=
  (compatibleSign config accessToken apiKey (removeAuth headers)).map removeHopByHop

def prepareHeaders : Implementation → Headers → Option String → Option String →
    Except ProviderError Headers
  | .claudeOauth | .console => claudeOauthPrepareHeaders
  | .zai => compatiblePrepareHeaders zaiInner
  | .minimax => compatiblePrepareHeaders minimaxInner
  | .nanogpt => compatiblePrepareHeaders nanogptInner
  | .anthropicCompatible config => compatiblePrepareHeaders config
  | .openaiCompatible config => compatiblePrepareHeaders config
  | .vertexAi => VertexAi.prepareHeaders

structure RateLimitInfo where
  isRateLimited : Bool
  resetTime : Option Int
  statusHeader : Option String
  remaining : Option Int
  deriving DecidableEq

def digitsValue (digits : List Char) : Nat :=
  digits.foldl (fun value c => 10 * value + (c.toNat - '0'.toNat)) 0

/-- `str::parse::<i64>`: a sign if any, digits, and a value in range. -/
def parseI64 (text : String) : Option Int :=
  let (negative, digits) := match text.toList with
    | '-' :: rest => (true, rest)
    | '+' :: rest => (false, rest)
    | rest => (false, rest)
  if digits = [] ∨ ¬ digits.all Char.isDigit then none
  else
    let value : Int := if negative then -(digitsValue digits : Int) else digitsValue digits
    if InI64 value then some value else none

theorem parse_in_i64 (text : String) (value : Int) (parsed : parseI64 text = some value) :
    InI64 value := by
  unfold parseI64 at parsed
  split at parsed
  split at parsed
  · cases parsed
  · simp only [Option.ite_none_right_eq_some] at parsed
    obtain ⟨inside, same⟩ := parsed
    exact Option.some.inj same ▸ inside

def headerI64 (headers : Headers) (name : String) : Option Int :=
  ((headerGet headers name).bind headerText).bind parseI64

def hardLimitStatuses : List String :=
  ["rate_limited", "blocked", "queueing_hard", "payment_required"]

section RateLimits

variable (parseRfc3339 : String → Option Int)

def headerReset (headers : Headers) (name : String) : Option Int :=
  ((headerGet headers name).bind headerText).bind fun text =>
    (parseI64 text).or (parseRfc3339 text)

/-- The unified headers, which the OAuth provider and the compatible ones read alike. -/
def unifiedRateLimit (headers : Headers) (statusCode : Nat) : RateLimitInfo :=
  let statusHeader := (headerGet headers "anthropic-ratelimit-unified-status").bind headerText
  { isRateLimited := match statusHeader with
      | some status => status ≠ "allowed" && hardLimitStatuses.contains status
      | none => statusCode = 429
    resetTime := headerReset parseRfc3339 headers "anthropic-ratelimit-unified-reset"
    statusHeader := statusHeader
    remaining := headerI64 headers "anthropic-ratelimit-unified-remaining" }

def zaiRateLimit (now : Int) (headers : Headers) (statusCode : Nat) : RateLimitInfo :=
  if statusCode ≠ 429 then unifiedRateLimit parseRfc3339 headers statusCode
  else
    { isRateLimited := true
      resetTime := (headerI64 headers "retry-after").map fun seconds =>
        wrappingAdd now (wrappingMul seconds 1000)
      statusHeader := some "rate_limited"
      remaining := some 0 }

def openaiRateLimit (headers : Headers) (statusCode : Nat) : RateLimitInfo where
  isRateLimited := statusCode = 429
  resetTime := headerReset parseRfc3339 headers "x-ratelimit-reset-requests"
  statusHeader := none
  remaining := headerI64 headers "x-ratelimit-remaining-requests"

def vertexRateLimit (headers : Headers) (statusCode : Nat) : RateLimitInfo where
  isRateLimited := statusCode = 429
  resetTime := none
  statusHeader := none
  remaining := headerI64 headers "x-ratelimit-remaining"

def parseRateLimit (now : Int) : Implementation → Headers → Nat → RateLimitInfo
  | .claudeOauth | .console | .minimax | .nanogpt | .anthropicCompatible _ =>
      unifiedRateLimit parseRfc3339
  | .zai => zaiRateLimit parseRfc3339 now
  | .openaiCompatible _ => openaiRateLimit parseRfc3339
  | .vertexAi => vertexRateLimit

end RateLimits

/-- The header map of a request, whose names the HTTP library keeps in lower case. -/
structure HeaderMap where
  headers : Headers
  lowered : ∀ header ∈ headers, Text.toAsciiLowercase header.1 = header.1

def valuesOf (headers : Headers) (name : String) : List String :=
  (headers.filter fun header => header.1 = name).map Prod.snd

/-- Two maps are equal when each name has the same values in both. -/
def SameMap (left right : Headers) : Prop := ∀ name, valuesOf left name = valuesOf right name

/-- Both fail with one error, or both succeed with equal maps. -/
def Alike : Except ProviderError Headers → Except ProviderError Headers → Prop
  | .ok left, .ok right => SameMap left right
  | .error left, .error right => left = right
  | _, _ => False

def isAuthName (name : String) : Bool :=
  Text.toAsciiLowercase name = "authorization" || Text.toAsciiLowercase name = "x-api-key"

/-- The maps agree on the names that are forwarded, the two of the credentials apart. -/
def AgreeBesideAuth (left right : HeaderMap) : Prop :=
  ∀ name, shouldForwardRequestHeader name = true → isAuthName name = false →
    valuesOf left.headers name = valuesOf right.headers name

/-- A filter on the names keeps all values of a name or none. -/
theorem values_kept (keep : String → Bool) (headers : Headers) (name : String) :
    valuesOf (headers.filter fun header => keep header.1) name =
      if keep name then valuesOf headers name else [] := by
  induction headers with
  | nil => simp [valuesOf]
  | cons header rest ih =>
      unfold valuesOf at ih ⊢
      by_cases there : header.1 = name
      · subst there
        by_cases kept : keep header.1 = true
        · simp only [kept, if_true] at ih ⊢
          simp only [List.filter_cons, kept, if_true, decide_true, List.map_cons, ih]
        · simpa [List.filter_cons, kept] using ih
      · by_cases kept : keep header.1 = true
        · simpa [List.filter_cons, there, kept] using ih
        · simpa [List.filter_cons, there, kept] using ih

theorem values_remove (removed : String) (headers : Headers) (name : String) :
    valuesOf (removeHeader removed headers) name =
      if name = removed then [] else valuesOf headers name := by
  rw [removeHeader, values_kept (fun stored => stored ≠ removed)]
  by_cases same : name = removed <;> simp [same]

theorem values_filter (headers : Headers) (name : String) :
    valuesOf (filterRequestHeaders headers) name =
      if shouldForwardRequestHeader name then valuesOf headers name else [] :=
  values_kept shouldForwardRequestHeader headers name

theorem values_append (left right : Headers) (name : String) :
    valuesOf (left ++ right) name = valuesOf left name ++ valuesOf right name := by
  simp [valuesOf]

theorem values_insert (inserted value : String) (headers : Headers) (name : String) :
    valuesOf (insertHeader inserted value headers) name =
      if name = inserted then [value] else valuesOf headers name := by
  rw [insertHeader, values_append, values_remove]
  by_cases same : name = inserted
  · simp [valuesOf, same]
  · have other : inserted ≠ name := fun equal => same equal.symm
    simp [valuesOf, same, other]

theorem get_values (headers : Headers) (name : String) :
    headerGet headers name = (valuesOf headers name).head? := by
  simp [headerGet, valuesOf, List.head?_filter]

section Same

variable {left right : Headers}

theorem SameMap.remove (same : SameMap left right) (name : String) :
    SameMap (removeHeader name left) (removeHeader name right) := by
  intro other
  rw [values_remove, values_remove, same other]

theorem SameMap.insert (same : SameMap left right) (name value : String) :
    SameMap (insertHeader name value left) (insertHeader name value right) := by
  intro other
  rw [values_insert, values_insert, same other]

theorem SameMap.get (same : SameMap left right) (name : String) :
    headerGet left name = headerGet right name := by
  rw [get_values, get_values, same name]

theorem SameMap.hop (same : SameMap left right) :
    SameMap (removeHopByHop left) (removeHopByHop right) :=
  ((same.remove "host").remove "accept-encoding").remove "content-encoding"

theorem SameMap.beta (same : SameMap left right) : SameMap (addBeta left) (addBeta right) := by
  have set : ∀ text, SameMap (setBeta text left) (setBeta text right) := by
    intro text
    unfold setBeta
    cases headerValue text with
    | none => exact same
    | some value => exact same.insert "anthropic-beta" value
  unfold addBeta
  rw [same.get "anthropic-beta"]
  cases (headerGet right "anthropic-beta").bind headerText with
  | none => exact set oauthBetaHeader
  | some existing =>
      by_cases present : Text.contains oauthBetaHeader existing = true
      · simpa [present] using same
      · simpa [present] using set (existing ++ "," ++ oauthBetaHeader)

theorem SameMap.sign (same : SameMap left right) (name text reason : String) :
    Alike (signWith name text reason left) (signWith name text reason right) := by
  unfold signWith
  cases headerValue text with
  | none => rfl
  | some value => exact same.insert name value

end Same

theorem Alike.map {left right : Except ProviderError Headers} (alike : Alike left right)
    (change : Headers → Headers)
    (kept : ∀ first second, SameMap first second → SameMap (change first) (change second)) :
    Alike (left.map change) (right.map change) := by
  cases left with
  | error reason =>
      cases right with
      | error other => exact alike
      | ok headers => exact alike
  | ok headers =>
      cases right with
      | error other => exact alike
      | ok others => exact kept headers others alike

/-- What is signed depends on the client's map only beside the credentials. -/
theorem removed_same (left right : HeaderMap) (agree : AgreeBesideAuth left right) :
    SameMap (removeAuth (filterRequestHeaders left.headers))
      (removeAuth (filterRequestHeaders right.headers)) := by
  intro name
  unfold removeAuth
  simp only [values_remove, values_filter]
  by_cases key : name = "x-api-key"
  · simp [key]
  · by_cases auth : name = "authorization"
    · simp [auth]
    · by_cases forwarded : shouldForwardRequestHeader name = true
      · simp only [key, auth, forwarded, if_false, if_true]
        by_cases credential : isAuthName name = true
        · -- A name that is a credential's in another case is in neither map.
          have absent : ∀ map : HeaderMap, valuesOf map.headers name = [] := by
            intro map
            unfold valuesOf
            rw [List.map_eq_nil_iff, List.filter_eq_nil_iff]
            intro header member named
            have stored := map.lowered header member
            rw [of_decide_eq_true named] at stored
            rw [isAuthName, stored] at credential
            simp [key, auth] at credential
          rw [absent left, absent right]
        · exact agree name forwarded (Bool.eq_false_iff.mpr credential)
      · simp [key, auth, forwarded]

/-- The credentials of the client do not reach the provider, whichever way it signs. -/
theorem client_credentials_unused (implementation : Implementation) (left right : HeaderMap)
    (accessToken apiKey : Option String) (agree : AgreeBesideAuth left right) :
    Alike (prepareHeaders implementation (filterRequestHeaders left.headers) accessToken apiKey)
      (prepareHeaders implementation (filterRequestHeaders right.headers) accessToken apiKey) := by
  have same := removed_same left right agree
  have compatible : ∀ config, Alike
      (compatiblePrepareHeaders config (filterRequestHeaders left.headers) accessToken apiKey)
      (compatiblePrepareHeaders config (filterRequestHeaders right.headers) accessToken apiKey) := by
    intro config
    apply Alike.map _ removeHopByHop (fun _ _ => SameMap.hop)
    unfold compatibleSign
    cases accessToken.or apiKey with
    | none => exact same
    | some credential =>
        cases headerName config.authHeader with
        | none => rfl
        | some name => exact same.sign name _ _
  have oauth : Alike
      (claudeOauthPrepareHeaders (filterRequestHeaders left.headers) accessToken apiKey)
      (claudeOauthPrepareHeaders (filterRequestHeaders right.headers) accessToken apiKey) := by
    apply Alike.map _ removeHopByHop (fun _ _ => SameMap.hop)
    cases accessToken with
    | some token =>
        exact (same.sign _ _ _).map addBeta (fun _ _ => SameMap.beta)
    | none =>
        cases apiKey with
        | none => exact same
        | some key => exact same.sign _ _ _
  cases implementation with
  | claudeOauth => exact oauth
  | console => exact oauth
  | zai => exact compatible zaiInner
  | minimax => exact compatible minimaxInner
  | nanogpt => exact compatible nanogptInner
  | anthropicCompatible config => exact compatible config
  | openaiCompatible config => exact compatible config
  | vertexAi =>
      apply Alike.map
      · cases accessToken with
        | none => exact same
        | some token => exact same.sign _ _ _
      · intro first second equal
        exact ((((equal.remove _).remove _).remove _).remove _).remove _

def keyedClient : HeaderMap where
  headers := [("authorization", "Bearer proxy-key"), ("anthropic-beta", "tools-1")]
  lowered := by decide +kernel

def keylessClient : HeaderMap where
  headers := [("anthropic-beta", "tools-1")]
  lowered := by decide +kernel

/-- A client with a key and one without send the same to the provider. -/
theorem keyed_client_alike :
    AgreeBesideAuth keyedClient keylessClient ∧
      Alike
        (prepareHeaders .claudeOauth (filterRequestHeaders keyedClient.headers) (some "t") none)
        (prepareHeaders .claudeOauth (filterRequestHeaders keylessClient.headers) (some "t")
          none) := by
  have agree : AgreeBesideAuth keyedClient keylessClient := by
    intro name _ credential
    by_cases auth : name = "authorization"
    · subst auth
      have named : isAuthName "authorization" = true := by decide +kernel
      rw [named] at credential
      cases credential
    · have other : "authorization" ≠ name := fun equal => auth equal.symm
      simp [valuesOf, keyedClient, keylessClient, other]
  exact ⟨agree, client_credentials_unused .claudeOauth keyedClient keylessClient (some "t") none
    agree⟩

end Ccflare.Providers
