import Ccflare.Account
import Ccflare.ApiKeyHashes
import Ccflare.Base64
import Ccflare.JsonValue
import Ccflare.OAuthCodes
import Ccflare.RequestPaths

/-!
The start of a browser login. A state that names the pending entry and the challenge of its
verifier go into the URL of the authorisation page; where the user is to log in first, that URL
is a parameter of another one. What the pages make of the URLs is read as a form is.
-/

namespace Ccflare.AuthorizeUrls

open ApiKeyHashes JsonValue OAuthSessions

/-- `URL_SAFE_NO_PAD`. -/
structure Engine where
  encode : List UInt8 → String
  decode : String → Option (List UInt8)

structure Engine.Documented (engine : Engine) : Prop where
  reads : ∀ bytes, engine.decode (engine.encode bytes) = some bytes
  alphabet : ∀ bytes, ∀ c ∈ (engine.encode bytes).toList,
    c.isAlphanum = true ∨ c = '-' ∨ c = '_'
  blank : ∀ bytes, engine.encode bytes = "" → bytes = []

def base64Url : Engine := ⟨Base64.encode, Base64.decode⟩

theorem base64_url_documented : base64Url.Documented :=
  ⟨Base64.decode_encode, Base64.encode_alphabet, Base64.encode_blank⟩

structure CsrfState where
  csrfToken : String
  timestamp : Int64
  deriving DecidableEq

def CsrfState.generate (bytes : List UInt8) (now : Int64) : CsrfState := ⟨Hex.encode bytes, now⟩

def CsrfState.toJson (csrf : CsrfState) : Json :=
  .make [("csrfToken", .string csrf.csrfToken), ("timestamp", .ofInt csrf.timestamp.toInt)]

/-- A record is read from its fields by name or from an array of them. -/
def CsrfState.ofJson : Json → Option CsrfState
  | .array [token, timestamp] => do
      return ⟨← token.asStr, .ofInt (← timestamp.asI64)⟩
  | value => do
      return ⟨← value.getStr "csrfToken", .ofInt (← (← value.get "timestamp").asI64)⟩

def CsrfState.encode (engine : Engine) (codec : Codec) (csrf : CsrfState) : String :=
  engine.encode (Utf8.encode (codec.toString csrf.toJson).toList)

def CsrfState.decode (engine : Engine) (codec : Codec) (encoded : String) : Option CsrfState := do
  let bytes ← engine.decode encoded
  let json ← String.fromUTF8? ⟨bytes.toArray⟩
  ofJson (← codec.fromStr json)

structure PkceChallenge where
  verifier : String
  challenge : String

def PkceChallenge.generate (engine : Engine) (sha256 : List UInt8 → List UInt8)
    (bytes : List UInt8) : PkceChallenge :=
  let verifier := engine.encode bytes
  ⟨verifier, engine.encode (sha256 (asBytes verifier))⟩

def isUnreserved (b : UInt8) : Bool :=
  ('A'.toUInt8 ≤ b && b ≤ 'Z'.toUInt8) || ('a'.toUInt8 ≤ b && b ≤ 'z'.toUInt8) ||
    ('0'.toUInt8 ≤ b && b ≤ '9'.toUInt8) || b == '-'.toUInt8 || b == '_'.toUInt8 ||
    b == '.'.toUInt8 || b == '~'.toUInt8

def percentByte (b : UInt8) : List Char :=
  if isUnreserved b then [Char.ofNat b.toNat]
  else ['%', Hex.hexChar (b >>> 4), Hex.hexChar (b &&& 0x0f)]

def percentEncode (s : String) : String :=
  String.ofList ((Utf8.encode s.toList).flatMap percentByte)

inductive ClaudeOAuthMode where
  | claudeOAuth
  | console

def redirectUri : String := "https://console.anthropic.com/oauth/code/callback"

def scopes : String := "org:create_api_key user:profile user:inference"

def authorizeParams (state clientId challenge : String) : String :=
  "code=true&client_id=" ++ clientId ++ "&response_type=code&redirect_uri=" ++ redirectUri ++
    "&scope=" ++ scopes ++ "&code_challenge=" ++ challenge ++
    "&code_challenge_method=S256&state=" ++ state

def buildAuthorizeUrl (mode : ClaudeOAuthMode) (state clientId challenge : String) : String :=
  match mode with
  | .claudeOAuth => "https://claude.ai/login?selectAccount=true&returnTo=" ++
      percentEncode ("/oauth/authorize?" ++ authorizeParams state clientId challenge)
  | .console => "https://console.anthropic.com/oauth/authorize?" ++
      authorizeParams state clientId challenge

def generateAuthUrl (engine : Engine) (sha256 : List UInt8 → List UInt8) (mode : ClaudeOAuthMode)
    (state clientId : String) (bytes : List UInt8) : String × String :=
  let pkce := PkceChallenge.generate engine sha256 bytes
  (buildAuthorizeUrl mode state clientId pkce.challenge, pkce.verifier)

/-- The URL that is answered and the entry that is stored, or a refusal. Accounts of both names
are logged in by the provider of the first mode. -/
def oauthInit (engine : Engine) (codec : Codec) (sha256 : List UInt8 → List UInt8)
    (account : Option Account) (clientId : String) (csrfBytes pkceBytes : List UInt8)
    (now : Int64) : Except (Nat × String) (String × Pending) :=
  match account with
  | none => .error (404, "Account not found")
  | some account =>
      if account.provider ≠ "anthropic" ∧ account.provider ≠ "claude-oauth" then
        .error (400, "Only OAuth accounts can be re-authenticated via browser")
      else
        let csrf := CsrfState.generate csrfBytes now
        let (authUrl, verifier) := generateAuthUrl engine sha256 .claudeOAuth
          (csrf.encode engine codec) clientId pkceBytes
        .ok (authUrl, ⟨csrf.csrfToken, account.id, verifier⟩)

section Reading

def formDecode (text : String) : String :=
  RequestPaths.simplePercentDecode
    (String.ofList (text.toList.map fun c => if c = '+' then ' ' else c))

/-- The query of a URL, without the fragment. -/
def queryOf (url : String) : Option String :=
  (splitOnce '?' (((splitOnce '#' url).map Prod.fst).getD url)).map Prod.snd

/-- The value of a parameter, as a page reads it from its URL. -/
def parameter (key url : String) : Option String :=
  (queryOf url).bind fun query =>
    ((query.toList.splitOn '&').map String.ofList).findSome? fun param =>
      (splitOnce '=' param).bind fun (name, value) =>
        if formDecode name = key then some (formDecode value) else none

/-- The URL of the authorisation page, by way of the page to log in at. -/
def authorizePage (mode : ClaudeOAuthMode) (url : String) : Option String :=
  match mode with
  | .claudeOAuth => parameter "returnTo" url
  | .console => some url

/-- Nothing in the text means anything in a query. -/
def Plain (text : String) : Prop :=
  ∀ c ∈ text.toList, c ≠ '&' ∧ c ≠ '#' ∧ c ≠ '%' ∧ c ≠ '+'

instance (text : String) : Decidable (Plain text) :=
  List.decidableBAll (fun c => c ≠ '&' ∧ c ≠ '#' ∧ c ≠ '%' ∧ c ≠ '+') text.toList

theorem form_decode_plain (text : String) (plain : Plain text) : formDecode text = text := by
  have kept : text.toList.map (fun c => if c = '+' then ' ' else c) = text.toList := by
    rw [List.map_congr_left fun c member => if_neg (plain c member).2.2.2, List.map_id']
  have unescaped : '%'.toUInt8 ∉ Utf8.encode text.toList := by
    rw [Utf8.encode, List.mem_flatMap]
    rintro ⟨c, member, byte⟩
    exact RequestPaths.char_plain c (plain c member).2.2.1 byte
  have copied : RequestPaths.decodeBytes (Utf8.encode text.toList) = Utf8.encode text.toList := by
    have whole := RequestPaths.decode_plain (Utf8.encode text.toList) [] unescaped
    rw [List.append_nil] at whole
    exact whole.trans (List.append_nil _)
  rw [formDecode, kept, String.ofList_toList, RequestPaths.simplePercentDecode, copied,
    LossyUtf8.lossy_encode]

end Reading

section Escaping

theorem percent_byte_safe (b : UInt8) :
    ∀ c ∈ percentByte b, c.toNat < 128 ∧ c ≠ '&' ∧ c ≠ '#' ∧ c ≠ '+' ∧ c ≠ '?' := by
  have each : ∀ n < 256, (percentByte (UInt8.ofNat n)).all (fun c =>
      decide (c.toNat < 128 ∧ c ≠ '&' ∧ c ≠ '#' ∧ c ≠ '+' ∧ c ≠ '?')) = true := by
    decide +kernel
  have all := each b.toNat b.toNat_lt
  rw [UInt8.ofNat_toNat] at all
  exact fun c member => of_decide_eq_true (List.all_eq_true.mp all c member)

theorem hex_val_char : ∀ n < 16,
    RequestPaths.hexVal (UInt8.ofNat (Hex.hexChar (UInt8.ofNat n)).toNat) = some (UInt8.ofNat n) := by
  decide

theorem nibbles_joined (b : UInt8) : (b >>> 4) <<< 4 ||| (b &&& 0x0f) = b := by
  have each : ∀ n < 256, (UInt8.ofNat n >>> 4) <<< 4 ||| (UInt8.ofNat n &&& 0x0f) = UInt8.ofNat n := by
    decide +kernel
  have whole := each b.toNat b.toNat_lt
  rwa [UInt8.ofNat_toNat] at whole

theorem decode_percent_byte (b : UInt8) (rest : List UInt8) :
    RequestPaths.decodeBytes (Utf8.encode (percentByte b) ++ rest) =
      b :: RequestPaths.decodeBytes rest := by
  rw [Utf8.encode_all_ascii _ fun c member => (percent_byte_safe b c member).1, percentByte]
  split
  · next unreserved =>
      have code : (Char.ofNat b.toNat).toNat = b.toNat := by
        have small := b.toNat_lt
        rw [Char.toNat_ofNat, if_pos (Or.inl (by omega))]
      have other : '%'.toUInt8 ∉ [b] := by
        rw [List.mem_singleton]
        rintro rfl
        exact absurd unreserved (by decide)
      rw [List.map_singleton, code, UInt8.ofNat_toNat, RequestPaths.decode_plain [b] rest other]
      rfl
  · obtain ⟨high, low⟩ := Hex.halves b
    have small := b.toNat_lt
    have first := hex_val_char (b >>> 4).toNat (by omega)
    have second := hex_val_char (b &&& 0x0f).toNat (by omega)
    rw [UInt8.ofNat_toNat] at first second
    have sign : UInt8.ofNat '%'.toNat = '%'.toUInt8 := rfl
    rw [List.map_cons, List.map_cons, List.map_singleton, List.cons_append, List.cons_append,
      List.singleton_append, sign, RequestPaths.decodeBytes, if_pos rfl, first, second]
    dsimp only
    rw [nibbles_joined]

theorem decode_percent_bytes (bytes : List UInt8) :
    RequestPaths.decodeBytes (Utf8.encode (bytes.flatMap percentByte)) = bytes := by
  induction bytes with
  | nil => rfl
  | cons b rest ih =>
      rw [List.flatMap_cons, Utf8.encode_append, decode_percent_byte, ih]

/-- The path validator's decoder undoes the encoding. -/
theorem percent_decode_encode (s : String) :
    RequestPaths.simplePercentDecode (percentEncode s) = s := by
  rw [RequestPaths.simplePercentDecode, percentEncode, String.toList_ofList, decode_percent_bytes,
    LossyUtf8.lossy_encode]

theorem percent_encode_safe (s : String) :
    ∀ c ∈ (percentEncode s).toList, c ≠ '&' ∧ c ≠ '#' ∧ c ≠ '+' ∧ c ≠ '?' := by
  intro c member
  rw [percentEncode, String.toList_ofList] at member
  obtain ⟨b, -, member⟩ := List.mem_flatMap.mp member
  exact (percent_byte_safe b c member).2

theorem form_decode_encode (s : String) : formDecode (percentEncode s) = s := by
  have kept : (percentEncode s).toList.map (fun c => if c = '+' then ' ' else c) =
      (percentEncode s).toList := by
    rw [List.map_congr_left fun c member => if_neg (percent_encode_safe s c member).2.2.1,
      List.map_id']
  rw [formDecode, kept, String.ofList_toList, percent_decode_encode]

end Escaping

section Parameters

/-- A parameter of a query as it is written. -/
def written (entry : String × String) : String := entry.1 ++ "=" ++ entry.2

/-- Names that are plain and values that do not end their parameter. -/
def Entries (entries : List (String × String)) : Prop :=
  ∀ entry ∈ entries, (Plain entry.1 ∧ '=' ∉ entry.1.toList) ∧
    '&' ∉ entry.2.toList ∧ '#' ∉ entry.2.toList

theorem read_written (entry : String × String) (unnamed : '=' ∉ entry.1.toList) :
    splitOnce '=' (written entry) = some entry := by
  have split := split_once_append '=' entry.1.toList entry.2.toList unnamed
  rw [String.ofList_toList, String.ofList_toList] at split
  have text : written entry = String.ofList (entry.1.toList ++ '=' :: entry.2.toList) := by
    apply String.toList_inj.mp
    simp [written, String.toList_append]
  rw [text, split]

theorem find_written (key : String) (entries : List (String × String)) (valid : Entries entries) :
    ((entries.map written).findSome? fun param => (splitOnce '=' param).bind fun (name, value) =>
      if formDecode name = key then some (formDecode value) else none) =
      (entries.find? fun entry => entry.1 = key).map fun entry => formDecode entry.2 := by
  induction entries with
  | nil => rfl
  | cons entry rest ih =>
      obtain ⟨name, value⟩ := entry
      obtain ⟨⟨⟨plain, unnamed⟩, -⟩, others⟩ := List.forall_mem_cons.mp valid
      rw [List.map_cons, List.findSome?_cons, read_written (name, value) unnamed, Option.bind_some,
        List.find?_cons]
      dsimp only at plain ⊢
      rw [form_decode_plain name plain]
      by_cases same : name = key
      · simp [same]
      · simpa [same] using ih others

/-- A parameter of a URL that is made of entries is that of the first entry of its name. -/
theorem parameter_written (key location : String) (entries : List (String × String))
    (some : entries ≠ []) (unqueried : '?' ∉ location.toList) (unfragmented : '#' ∉ location.toList)
    (valid : Entries entries) :
    parameter key (location ++ "?" ++ Text.joinWith "&" (entries.map written)) =
      (entries.find? fun entry => entry.1 = key).map fun entry => formDecode entry.2 := by
  have clean : ∀ param ∈ entries.map written, '&' ∉ param.toList ∧ '#' ∉ param.toList := by
    intro param member
    obtain ⟨entry, listed, rfl⟩ := List.mem_map.mp member
    obtain ⟨⟨plain, -⟩, first, second⟩ := valid entry listed
    simp only [written, String.toList_append, List.mem_append, not_or]
    exact ⟨⟨⟨fun inside => (plain _ inside).1 rfl, by decide⟩, first⟩,
      ⟨fun inside => (plain _ inside).2.1 rfl, by decide⟩, second⟩
  have joined : ∀ c ∈ (Text.joinWith "&" (entries.map written)).toList, c ≠ '#' :=
    OAuthCodes.join_all (· ≠ '#') _ (by decide) fun param member c inside same =>
      (clean param member).2 (same ▸ inside)
  have text : location ++ "?" ++ Text.joinWith "&" (entries.map written) =
      String.ofList (location.toList ++ '?' :: (Text.joinWith "&" (entries.map written)).toList) := by
    apply String.toList_inj.mp
    simp [String.toList_append]
  have whole : '#' ∉ (location ++ "?" ++ Text.joinWith "&" (entries.map written)).toList := by
    simp only [String.toList_append, List.mem_append, not_or]
    exact ⟨⟨unfragmented, by decide⟩, fun inside => joined '#' inside rfl⟩
  have query : queryOf (location ++ "?" ++ Text.joinWith "&" (entries.map written)) =
      Option.some (Text.joinWith "&" (entries.map written)) := by
    rw [queryOf, split_once_none '#' _ whole, Option.map_none, Option.getD_none, text,
      split_once_append '?' _ _ unqueried, Option.map_some]
    exact congrArg Option.some String.ofList_toList
  rw [parameter, query, Option.bind_some]
  change ((Text.joinWith (String.singleton '&') (entries.map written)).toList.splitOn '&' |>.map
    String.ofList).findSome? _ = _
  rw [OAuthCodes.join_split '&' _ (by simpa using some) fun param member => (clean param member).1]
  exact find_written key entries valid

end Parameters

section Pages

/-- The parameters of the authorisation page. -/
def authorizeEntries (state clientId challenge : String) : List (String × String) :=
  [("code", "true"), ("client_id", clientId), ("response_type", "code"),
    ("redirect_uri", redirectUri), ("scope", scopes), ("code_challenge", challenge),
    ("code_challenge_method", "S256"), ("state", state)]

variable {state clientId challenge : String}

theorem authorize_params_written : authorizeParams state clientId challenge =
    Text.joinWith "&" ((authorizeEntries state clientId challenge).map written) := by
  have first : "code=true&client_id=" = "code" ++ "=" ++ "true" ++ "&" ++ "client_id" ++ "=" := by
    simp
  have second : "&response_type=code&redirect_uri=" =
      "&" ++ "response_type" ++ "=" ++ "code" ++ "&" ++ "redirect_uri" ++ "=" := by simp
  have third : "&scope=" = "&" ++ "scope" ++ "=" := by simp
  have fourth : "&code_challenge=" = "&" ++ "code_challenge" ++ "=" := by simp
  have fifth : "&code_challenge_method=S256&state=" =
      "&" ++ "code_challenge_method" ++ "=" ++ "S256" ++ "&" ++ "state" ++ "=" := by simp
  delta authorizeParams
  rewrite [first, second, third, fourth, fifth]
  -- The names and the values stay apart, as they are in the entries.
  simp only [authorizeEntries, List.map_cons, List.map_nil, written, Text.joinWith,
    String.append_assoc, -String.reduceAppend]

theorem plain_entries (plainState : Plain state) (plainClient : Plain clientId)
    (plainChallenge : Plain challenge) : ∀ entry ∈ authorizeEntries state clientId challenge,
      (Plain entry.1 ∧ '=' ∉ entry.1.toList) ∧ Plain entry.2 := by
  simp only [authorizeEntries, List.forall_mem_cons]
  exact ⟨⟨by decide, by decide⟩, ⟨by decide, plainClient⟩, ⟨by decide, by decide⟩,
    ⟨by decide, by decide⟩, ⟨by decide, by decide⟩, ⟨by decide, plainChallenge⟩,
    ⟨by decide, by decide⟩, ⟨by decide, plainState⟩, List.forall_mem_nil _⟩

theorem authorize_names :
    ((authorizeEntries state clientId challenge).map Prod.fst).Nodup := by
  simp only [authorizeEntries, List.map_cons, List.map_nil]
  decide

theorem entry_found (entries : List (String × String)) (named : (entries.map Prod.fst).Nodup)
    (entry : String × String) (member : entry ∈ entries) :
    (entries.find? fun other => other.1 = entry.1) = some entry := by
  induction entries with
  | nil => cases member
  | cons first rest ih =>
      rw [List.map_cons, List.nodup_cons] at named
      rcases List.mem_cons.mp member with rfl | later
      · simp
      · have apart : first.1 ≠ entry.1 := fun same =>
          named.1 (same ▸ List.mem_map_of_mem later)
        rw [List.find?_cons_of_neg (by simpa using apart)]
        exact ih named.2 later

/-- Every parameter that the URL was built with is read from its page as it was. -/
theorem page_parameters (location : String) (unqueried : '?' ∉ location.toList)
    (unfragmented : '#' ∉ location.toList) (plainState : Plain state) (plainClient : Plain clientId)
    (plainChallenge : Plain challenge) (entry : String × String)
    (member : entry ∈ authorizeEntries state clientId challenge) :
    parameter entry.1 (location ++ "?" ++ authorizeParams state clientId challenge) =
      some entry.2 := by
  have plain := plain_entries plainState plainClient plainChallenge
  rw [authorize_params_written, parameter_written entry.1 location _ (by simp [authorizeEntries])
    unqueried unfragmented fun entry member => ⟨(plain entry member).1,
      fun inside => ((plain entry member).2 _ inside).1 rfl,
      fun inside => ((plain entry member).2 _ inside).2.1 rfl⟩,
    entry_found _ authorize_names entry member, Option.map_some,
    form_decode_plain _ (plain entry member).2]

/-- The page to log in at hands on the URL of the authorisation page. -/
theorem login_page (state clientId challenge : String) :
    authorizePage .claudeOAuth (buildAuthorizeUrl .claudeOAuth state clientId challenge) =
      some ("/oauth/authorize" ++ "?" ++ authorizeParams state clientId challenge) := by
  let target := "/oauth/authorize?" ++ authorizeParams state clientId challenge
  have url : buildAuthorizeUrl .claudeOAuth state clientId challenge = "https://claude.ai/login" ++
      "?" ++ Text.joinWith "&" ([("selectAccount", "true"), ("returnTo", percentEncode target)].map
        written) := by
    have start : "https://claude.ai/login?selectAccount=true&returnTo=" = "https://claude.ai/login" ++
        "?" ++ "selectAccount" ++ "=" ++ "true" ++ "&" ++ "returnTo" ++ "=" := by simp
    delta buildAuthorizeUrl
    dsimp only
    rewrite [start]
    simp only [List.map_cons, List.map_nil, written, Text.joinWith, String.append_assoc, target,
      -String.reduceAppend]
  have valid : Entries [("selectAccount", "true"), ("returnTo", percentEncode target)] := by
    simp only [Entries, List.forall_mem_cons]
    exact ⟨⟨⟨by decide, by decide⟩, by decide, by decide⟩, ⟨⟨by decide, by decide⟩,
      fun inside => (percent_encode_safe target _ inside).1 rfl,
      fun inside => (percent_encode_safe target _ inside).2.1 rfl⟩, List.forall_mem_nil _⟩
  have read := parameter_written "returnTo" "https://claude.ai/login" _ (List.cons_ne_nil _ _)
    (by decide) (by decide) valid
  have found := entry_found [("selectAccount", "true"), ("returnTo", percentEncode target)]
    (by simp) ("returnTo", percentEncode target) (by simp)
  have whole : target = "/oauth/authorize" ++ "?" ++ authorizeParams state clientId challenge := by
    rw [String.append_assoc]
    rfl
  rw [authorizePage, url, read, found, Option.map_some, form_decode_encode, whole]

theorem authorize_page (mode : ClaudeOAuthMode) (plainState : Plain state)
    (plainClient : Plain clientId) (plainChallenge : Plain challenge) :
    ∃ page, authorizePage mode (buildAuthorizeUrl mode state clientId challenge) = some page ∧
      ∀ entry ∈ authorizeEntries state clientId challenge,
        parameter entry.1 page = some entry.2 := by
  cases mode with
  | claudeOAuth =>
      exact ⟨_, login_page state clientId challenge, page_parameters "/oauth/authorize" (by decide)
        (by decide) plainState plainClient plainChallenge⟩
  | console =>
      have url : buildAuthorizeUrl .console state clientId challenge =
          "https://console.anthropic.com/oauth/authorize" ++ "?" ++
            authorizeParams state clientId challenge := by
        have start : "https://console.anthropic.com/oauth/authorize?" =
            "https://console.anthropic.com/oauth/authorize" ++ "?" := by simp
        delta buildAuthorizeUrl
        dsimp only
        rewrite [start]
        rfl
      rw [authorizePage, url]
      exact ⟨_, rfl, page_parameters _ (by decide) (by decide) plainState plainClient
        plainChallenge⟩

end Pages

section State
variable {engine : Engine}

theorem safe_plain (text : String)
    (safe : ∀ c ∈ text.toList, c.isAlphanum = true ∨ c = '-' ∨ c = '_') : Plain text := by
  have apart : ∀ c ∈ ['&', '#', '%', '+'], ¬ (c.isAlphanum = true ∨ c = '-' ∨ c = '_') :=
    List.all_iff_forall_prop.mp (by decide)
  intro c member
  have other : ∀ mark ∈ ['&', '#', '%', '+'], c ≠ mark := fun mark listed same =>
    apart mark listed (same ▸ safe c member)
  exact ⟨other _ (by simp), other _ (by simp), other _ (by simp), other _ (by simp)⟩

theorem of_json_to_json (csrf : CsrfState) : CsrfState.ofJson csrf.toJson = some csrf := by
  have token : csrf.toJson.getStr "csrfToken" = some csrf.csrfToken := by
    rw [CsrfState.toJson, Json.getStr, Json.get_make]
    simp [Json.field, Json.asStr]
  have timestamp : csrf.toJson.get "timestamp" = some (.ofInt csrf.timestamp.toInt) := by
    rw [CsrfState.toJson, Json.get_make]
    simp [Json.field]
  have value : (Json.ofInt csrf.timestamp.toInt).asI64 = some csrf.timestamp.toInt :=
    Json.as_i64_of_int _ csrf.timestamp.le_toInt (Int.le_of_lt_add_one csrf.timestamp.toInt_lt)
  obtain ⟨fields, shape⟩ : ∃ fields, csrf.toJson = .object fields := ⟨_, rfl⟩
  rw [shape] at token timestamp ⊢
  simp [CsrfState.ofJson, token, timestamp, value]

/-- The document of the state is printed, and read again as it was. -/
structure Printed (codec : Codec) (csrf : CsrfState) : Prop where
  reread : codec.fromStr (codec.toString csrf.toJson) = some csrf.toJson
  some : codec.toString csrf.toJson ≠ ""

variable {codec : Codec} {csrf : CsrfState}

theorem decode_encode (documented : engine.Documented) (printed : Printed codec csrf) :
    CsrfState.decode engine codec (csrf.encode engine codec) = some csrf := by
  simp only [CsrfState.decode, CsrfState.encode, documented.reads, Utf8.decode_encode,
    printed.reread, Option.bind_eq_bind, Option.bind_some, of_json_to_json]

theorem state_safe (documented : engine.Documented) (printed : Printed codec csrf) :
    OAuthCodes.UrlSafe (csrf.encode engine codec) where
  some blank := by
    have empty := documented.blank _ blank
    cases text : (codec.toString csrf.toJson).toList with
    | nil => exact printed.some (String.toList_eq_nil_iff.mp text)
    | cons c rest =>
        rw [text, Utf8.encode_cons] at empty
        exact Utf8.encode_ne_nil c (List.append_eq_nil_iff.mp empty).1
  alphabet := documented.alphabet _

variable {sha256 : List UInt8 → List UInt8} {account : Option Account} {clientId url : String}
  {csrfBytes pkceBytes : List UInt8} {now : Int64} {pending : Pending}

theorem init_starts (found : Account)
    (given : found.provider = "anthropic" ∨ found.provider = "claude-oauth") :
    oauthInit engine codec sha256 (some found) clientId csrfBytes pkceBytes now =
      .ok (buildAuthorizeUrl .claudeOAuth ((CsrfState.generate csrfBytes now).encode engine codec)
        clientId (engine.encode (sha256 (asBytes (engine.encode pkceBytes)))),
        ⟨(CsrfState.generate csrfBytes now).csrfToken, found.id, engine.encode pkceBytes⟩) := by
  have accepted : ¬(found.provider ≠ "anthropic" ∧ found.provider ≠ "claude-oauth") := by tauto
  rw [oauthInit, if_neg accepted]
  rfl

/-- What a login is started with. -/
theorem init_started
    (started : oauthInit engine codec sha256 account clientId csrfBytes pkceBytes now =
      .ok (url, pending)) :
    ∃ found, account = some found ∧
      (found.provider = "anthropic" ∨ found.provider = "claude-oauth") ∧
      pending = ⟨(CsrfState.generate csrfBytes now).csrfToken, found.id, engine.encode pkceBytes⟩ ∧
      url = buildAuthorizeUrl .claudeOAuth ((CsrfState.generate csrfBytes now).encode engine codec)
        clientId (engine.encode (sha256 (asBytes pending.verifier))) := by
  cases account with
  | none => cases started
  | some found =>
      by_cases given : found.provider = "anthropic" ∨ found.provider = "claude-oauth"
      · rw [init_starts found given] at started
        cases started
        exact ⟨found, rfl, given, rfl, rfl⟩
      · rw [oauthInit, if_pos (not_or.mp given)] at started
        cases started

/-- The page that a login leads to is asked for the challenge of the stored verifier, and shows
a state that names the stored entry. -/
theorem login_page_binds (documented : engine.Documented) (plain : Plain clientId)
    (printed : Printed codec (.generate csrfBytes now))
    (started : oauthInit engine codec sha256 account clientId csrfBytes pkceBytes now =
      .ok (url, pending)) :
    ∃ page state, authorizePage .claudeOAuth url = some page ∧
      (CsrfState.decode engine codec state).map CsrfState.csrfToken = some pending.csrfToken ∧
      ∀ entry ∈ authorizeEntries state clientId
        (engine.encode (sha256 (asBytes pending.verifier))),
        parameter entry.1 page = some entry.2 := by
  obtain ⟨found, -, -, stored, rfl⟩ := init_started started
  obtain ⟨page, opened, reads⟩ := authorize_page .claudeOAuth
    (safe_plain _ (state_safe documented printed).alphabet) plain
    (safe_plain _ (documented.alphabet (sha256 (asBytes pending.verifier))))
  refine ⟨page, _, opened, ?_, reads⟩
  rw [decode_encode documented printed, Option.map_some, stored]

end State

def sampleLogin : CsrfState := .generate [0xab] 5

def sampleCodec : Codec :=
  .ofTable [("\x7b\"csrfToken\":\"ab\",\"timestamp\":5\x7d", sampleLogin.toJson)]

theorem sample_printed : Printed sampleCodec sampleLogin := ⟨by decide +kernel, by decide +kernel⟩

def sampleAccount : Account := makeAccount "acc-1" "claude-oauth" 0

theorem sample_page_binds : ∃ url pending page state,
    oauthInit base64Url sampleCodec id (some sampleAccount) "client-1" [0xab] [1, 2, 3] 5 =
      .ok (url, pending) ∧
    authorizePage .claudeOAuth url = some page ∧
    (CsrfState.decode base64Url sampleCodec state).map CsrfState.csrfToken =
      some pending.csrfToken ∧
    ∀ entry ∈ authorizeEntries state "client-1"
        (base64Url.encode (id (asBytes pending.verifier))), parameter entry.1 page = some entry.2 := by
  have started := @init_starts base64Url sampleCodec id "client-1" [0xab] [1, 2, 3] 5 sampleAccount
    (Or.inr rfl)
  obtain ⟨page, state, opened, named, reads⟩ := login_page_binds base64_url_documented (by decide)
    sample_printed started
  exact ⟨_, _, page, state, started, opened, named, reads⟩

end Ccflare.AuthorizeUrls
