import Ccflare.Account
import Ccflare.Text
import Mathlib

/-!
One attempt of the proxy up to the moment it is sent: the URL is built first,
from the path and the query alone, then the headers are filtered and signed, and
the body is transformed last. What a provider contributes is a record of the
methods of the trait that the attempt calls.
-/

namespace Ccflare.ProxyRequest

/-- Header names are stored in lower case, one entry for each value. -/
abbrev Headers := List (String × String)

def headerGet (headers : Headers) (name : String) : Option String :=
  (headers.find? fun header => header.1 = name).map Prod.snd

/-- `to_str` reads a value of visible ASCII and tabs only. -/
def headerText (value : String) : Option String :=
  if value.toList.all fun c => (32 ≤ c.toNat && c.toNat ≤ 126) || c = '\t' then some value else none

/-- A text is a header value unless it has a control character other than tab. -/
def headerValue (text : String) : Option String :=
  if text.toList.all fun c => (32 ≤ c.toNat && c.toNat ≠ 127) || c = '\t' then some text else none

def removeHeader (name : String) (headers : Headers) : Headers :=
  headers.filter fun header => header.1 ≠ name

def insertHeader (name value : String) (headers : Headers) : Headers :=
  removeHeader name headers ++ [(name, value)]

def shouldForwardRequestHeader (name : String) : Bool :=
  let lower := Text.toAsciiLowercase name
  lower = "content-type" || lower = "content-length" || lower = "accept" ||
    lower = "accept-encoding" || lower = "authorization" || lower = "x-api-key" ||
    lower = "x-request-id" || lower = "user-agent" || Text.startsWith "anthropic-" lower ||
    Text.startsWith "x-stainless-" lower

def filterRequestHeaders (headers : Headers) : Headers :=
  headers.filter fun header => shouldForwardRequestHeader header.1

structure RequestMeta where
  id : String
  method : String
  path : String
  query : String
  agentUsed : Option String
  project : Option String
  deriving DecidableEq

/-- The methods of the provider trait that an attempt calls before it sends. A
transformation that panics has no value. -/
structure Provider where
  buildUrl : String → String → Option Account → String
  prepareHeaders : Headers → Option String → Option String → Except ProviderError Headers
  transformRequestBody : ByteArray → Option Account →
    Option (Except ProviderError (Option ByteArray))

structure UpstreamRequest where
  method : String
  url : String
  headers : Headers
  body : ByteArray
  deriving DecidableEq

def isTokenChar (c : Char) : Bool := c.isAlphanum || "!#$%&'*+-.^_`|~".toList.contains c

def validMethod (method : String) : String :=
  if method ≠ "" ∧ method.toList.all isTokenChar then method else "POST"

def finalBody (provider : Provider) (applyModelMapping : Account → ByteArray → ByteArray)
    (account : Account) (reqMeta : RequestMeta) (reqBody : ByteArray) : Option ByteArray :=
  (provider.transformRequestBody reqBody (some account)).map fun
    | .ok (some transformed) => transformed
    -- A provider without a mapping leaves an agent's request to the fallback of the proxy.
    | .ok none => if reqMeta.agentUsed.isSome then applyModelMapping account reqBody else reqBody
    | .error _ => reqBody

def upstreamRequest (provider : Provider) (applyModelMapping : Account → ByteArray → ByteArray)
    (account : Account) (reqMeta : RequestMeta) (baseHeaders : Headers) (reqBody : ByteArray) :
    Option (Except Nat UpstreamRequest) :=
  let url := provider.buildUrl reqMeta.path reqMeta.query (some account)
  match provider.prepareHeaders (filterRequestHeaders baseHeaders) account.accessToken
      account.apiKey with
  | .error _ => some (.error 401)
  | .ok upstreamHeaders =>
      (finalBody provider applyModelMapping account reqMeta reqBody).map fun body =>
        .ok ⟨validMethod reqMeta.method, url, upstreamHeaders, body⟩

theorem attempt_sent (provider : Provider)
    (applyModelMapping : Account → ByteArray → ByteArray) (account : Account)
    (reqMeta : RequestMeta) (baseHeaders : Headers) (reqBody : ByteArray) (sent : UpstreamRequest)
    (attempted : upstreamRequest provider applyModelMapping account reqMeta baseHeaders reqBody =
      some (.ok sent)) :
    sent.url = provider.buildUrl reqMeta.path reqMeta.query (some account) ∧
      finalBody provider applyModelMapping account reqMeta reqBody = some sent.body := by
  unfold upstreamRequest at attempted
  split at attempted
  · cases attempted
  · obtain ⟨body, transformed, same⟩ := Option.map_eq_some_iff.mp attempted
    cases same
    exact ⟨rfl, transformed⟩

end Ccflare.ProxyRequest
