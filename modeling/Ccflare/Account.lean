import Ccflare.MachineNumber

/-!
The shared data model: an account row as `row_to_account` reads it, the usage
figures the poller caches for routing, and the known providers with their
configuration. Timestamps are epoch milliseconds in an `i64`.
-/

namespace Ccflare

open MachineNumber

structure Account where
  id : String
  name : String
  provider : String
  apiKey : Option String
  refreshToken : String
  accessToken : Option String
  expiresAt : Option Int
  requestCount : Int
  totalRequests : Int
  lastUsed : Option Int
  createdAt : Int
  rateLimitedUntil : Option Int
  sessionStart : Option Int
  sessionRequestCount : Int
  paused : Bool
  rateLimitReset : Option Int
  rateLimitStatus : Option String
  rateLimitRemaining : Option Int
  priority : Int
  autoFallbackEnabled : Bool
  autoRefreshEnabled : Bool
  customEndpoint : Option String
  modelMappings : Option String
  reserve5h : Int
  reserveWeekly : Int
  reserveHard : Bool
  subscriptionTier : Option String
  email : Option String
  refreshTokenUpdatedAt : Option Int
  isShared : Bool
  overageProtection : Bool
  deriving DecidableEq

/-- An account as `make_account` of the tests builds it. -/
def makeAccount (id provider : String) (priority : Int) : Account where
  id := id
  name := id
  provider := provider
  apiKey := none
  refreshToken := ""
  accessToken := none
  expiresAt := none
  requestCount := 0
  totalRequests := 0
  lastUsed := none
  createdAt := 0
  rateLimitedUntil := none
  sessionStart := none
  sessionRequestCount := 0
  paused := false
  rateLimitReset := none
  rateLimitStatus := none
  rateLimitRemaining := none
  priority := priority
  autoFallbackEnabled := false
  autoRefreshEnabled := false
  customEndpoint := none
  modelMappings := none
  reserve5h := 0
  reserveWeekly := 0
  reserveHard := false
  subscriptionTier := none
  email := none
  refreshTokenUpdatedAt := none
  isShared := false
  overageProtection := false

inductive WindowKind where
  | fiveHour
  | weekly
  | other
  deriving DecidableEq

structure WindowUsage where
  kind : WindowKind
  utilizationPct : F64
  resetsAtMs : Option Int
  deriving DecidableEq

structure RoutingUsageInfo where
  utilizationPct : F64
  resetsAtMs : Option Int
  windows : List WindowUsage
  deriving DecidableEq

/-- `HashMap<String, RoutingUsageInfo>`, read by account id only. -/
abbrev UsageMap := String → Option RoutingUsageInfo

inductive ProviderError where
  | auth (message : String)
  | tokenRefresh (message : String)
  | requestBuild (message : String)
  | requestTransform (message : String)
  | http (message : String)
  | json (message : String)
  | configuration (message : String)
  | notFound (message : String)
  | pkce (message : String)
  | other (message : String)
  deriving DecidableEq

inductive Provider where
  | anthropic
  | claudeConsoleApi
  | zai
  | minimax
  | anthropicCompatible
  | openaiCompatible
  | nanogpt
  | vertexAi
  deriving DecidableEq

structure ProviderConfig where
  requiresSessionTracking : Bool
  supportsUsageTracking : Bool
  supportsOauth : Bool
  defaultEndpoint : String
  deriving DecidableEq

namespace Provider

def toString : Provider → String
  | anthropic => "anthropic"
  | claudeConsoleApi => "claude-console-api"
  | zai => "zai"
  | minimax => "minimax"
  | anthropicCompatible => "anthropic-compatible"
  | openaiCompatible => "openai-compatible"
  | nanogpt => "nanogpt"
  | vertexAi => "vertex-ai"

def all : List Provider :=
  [anthropic, claudeConsoleApi, zai, minimax, anthropicCompatible, openaiCompatible, nanogpt,
    vertexAi]

def fromStrLoose (s : String) : Option Provider :=
  if s = "anthropic" then some anthropic
  else if s = "claude-console-api" then some claudeConsoleApi
  else if s = "zai" then some zai
  else if s = "minimax" then some minimax
  else if s = "anthropic-compatible" then some anthropicCompatible
  else if s = "openai-compatible" then some openaiCompatible
  else if s = "nanogpt" then some nanogpt
  else if s = "vertex-ai" then some vertexAi
  else none

def config : Provider → ProviderConfig
  | anthropic => ⟨true, true, true, "https://api.anthropic.com"⟩
  | claudeConsoleApi => ⟨false, false, false, "https://api.anthropic.com"⟩
  | zai => ⟨false, true, false, "https://api.z.ai/api/anthropic"⟩
  | minimax => ⟨false, false, false, "https://api.minimax.io/anthropic"⟩
  | anthropicCompatible => ⟨false, false, false, "https://api.anthropic.com"⟩
  | openaiCompatible => ⟨false, false, false, "https://api.anthropic.com"⟩
  | nanogpt => ⟨false, true, false, "https://nano-gpt.com/api"⟩
  | vertexAi => ⟨false, false, false, "https://aiplatform.googleapis.com"⟩

def requiresSessionTracking (provider : Provider) : Bool :=
  provider.config.requiresSessionTracking

def usesApiKey (provider : Provider) : Bool := provider ≠ anthropic

theorem from_str_to_string (provider : Provider) :
    fromStrLoose provider.toString = some provider := by
  cases provider <;> decide

end Provider

/-- `is_api_key_provider`. -/
def isApiKeyProvider (provider : String) : Bool :=
  (Provider.fromStrLoose provider).any Provider.usesApiKey

end Ccflare
