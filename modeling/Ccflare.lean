import Ccflare.RoutingPlan
import Ccflare.Account
import Ccflare.Text
import Ccflare.Eligibility
import Ccflare.LoadBalancer
import Ccflare.Routing
import Ccflare.Failover
import Ccflare.JsonValue
import Ccflare.MessageStream
import Ccflare.OpenAiFormat
import Ccflare.OpenAiStream
import Ccflare.StreamNumbering
import Ccflare.StreamAgreement
import Ccflare.Forwarding
import Ccflare.ConversationTranslation
import Ccflare.VertexAi
import Ccflare.TokenRefresh
import Ccflare.RefreshRace
import Ccflare.TokenHealth
import Ccflare.TokenManager
import Ccflare.RefreshSharing
import Ccflare.RefreshBackoff
import Ccflare.Providers
import Ccflare.AuthMarker
import Ccflare.Authentication
import Ccflare.ProxyKeyScope
import Ccflare.KeyRevocation
import Ccflare.OAuthSessions
import Ccflare.RoutingLoop
import Ccflare.SessionAffinity
import Ccflare.WindowReset
import Ccflare.AsyncWriter
import Ccflare.Batches
import Ccflare.FailoverTrace
import Ccflare.References
import Ccflare.Retention
import Ccflare.SseParser
import Ccflare.XfactorPersistence
import Ccflare.SchemaMigration
import Ccflare.MigrationPromises
import Ccflare.SubscriptionCosts
import Ccflare.AutoRefresh
import Ccflare.DashboardPrediction
import Ccflare.ProviderSpelling
import Ccflare.RollingWindow
import Ccflare.Covariance
import Ccflare.CapacityState
import Ccflare.CapacityInvariants
import Ccflare.WindowRebuild
import Ccflare.CapacitySnapshots
import Ccflare.CapacityService
import Ccflare.CapacityAccounting
import Ccflare.UsageObservations
import Ccflare.Pricing
import Ccflare.PricingRefresh
import Ccflare.IpLiteral
import Ccflare.CustomEndpoint
import Ccflare.RateLimitReset
import Ccflare.JsonText
import Ccflare.JsonReading
import Ccflare.JsonPrinting
import Ccflare.JsonMaps
import Ccflare.BodyRewriting
import Ccflare.ModelReplacement
import Ccflare.EligibilityOrder
import Ccflare.RoundRobin
import Ccflare.RoutedSessions
import Ccflare.StreamTee
import Ccflare.AnsweredRequests
import Ccflare.RecordedUsage
import Ccflare.Utf8
import Ccflare.StreamedUsage
import Ccflare.IndexedAssignment
import Ccflare.ThinkingBlocks
import Ccflare.ChunkBoundaries
import Ccflare.AssistantTurns
import Ccflare.FiveHourReaders
import Ccflare.PriceOrder
import Ccflare.UsagePolling
import Ccflare.TokenSoundness
import Ccflare.FamilyMapping
import Ccflare.ToolArguments
import Ccflare.DashboardOrder
import Ccflare.SlidingLimit
import Ccflare.RateLimit
import Ccflare.CapacityEstimates
import Ccflare.WindowQueries
import Ccflare.AccountStatus
import Ccflare.VertexNames
import Ccflare.OAuthCodes
import Ccflare.ApiKeyHashes
import Ccflare.LossyUtf8
import Ccflare.RequestPaths
import Ccflare.EditDistance
import Ccflare.IndexedLoop
import Ccflare.Levenshtein
import Ccflare.AccountAdministration
import Ccflare.AccountBadges
import Ccflare.AccountOrders
import Ccflare.AccountsCache
import Ccflare.Analytics
import Ccflare.AnalyticsTotals
import Ccflare.ChartData
import Ccflare.CommandLine
import Ccflare.ConcurrencySlots
import Ccflare.IssuedKeys
import Ccflare.Pages
import Ccflare.PoolSummary
import Ccflare.RequestHistory
import Ccflare.RequestPipeline
import Ccflare.StartupBinding
import Ccflare.UsageCache
import Ccflare.LoginFlow
import Ccflare.WindowRestart
