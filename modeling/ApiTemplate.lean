import ApiTemplate.Blob.MediaUrl
import ApiTemplate.Blob.Lifecycle
import ApiTemplate.Config.DatabaseConfig
import ApiTemplate.Entities.AuditColumns
import ApiTemplate.Entities.Changes
import ApiTemplate.Entities.Factory
import ApiTemplate.Errors.AppException
import ApiTemplate.Errors.Result
import ApiTemplate.Events.AggregateRoot
import ApiTemplate.Events.Delivery
import ApiTemplate.Events.Observability
import ApiTemplate.Filtering.Absence
import ApiTemplate.Filtering.Choices
import ApiTemplate.Filtering.Collections
import ApiTemplate.Filtering.OpenApi
import ApiTemplate.Filtering.Queries
import ApiTemplate.Filtering.Ranges
import ApiTemplate.Filtering.Scopes
import ApiTemplate.Filtering.Search
import ApiTemplate.Filtering.Totality
import ApiTemplate.Functions.Money
import ApiTemplate.Functions.NumericOtp
import ApiTemplate.Functions.Uuid7
import ApiTemplate.Identity.AccountStatus
import ApiTemplate.Identity.AddressOwnership
import ApiTemplate.Identity.ApiKeys
import ApiTemplate.Identity.CodeAcceptance
import ApiTemplate.Identity.CodeMail
import ApiTemplate.Identity.DisabledAccounts
import ApiTemplate.Identity.Enumeration
import ApiTemplate.Identity.LiveCode
import ApiTemplate.Identity.NeutralRejections
import ApiTemplate.Identity.PasswordInterleavings
import ApiTemplate.Identity.PasswordPolicy
import ApiTemplate.Identity.ProfilePatch
import ApiTemplate.Identity.Refusals
import ApiTemplate.Identity.Sessions
import ApiTemplate.Identity.SpendOnce
import ApiTemplate.Identity.TokenLife
import ApiTemplate.Identity.UserNames
import ApiTemplate.Listing.AllPages
import ApiTemplate.Listing.Batches
import ApiTemplate.Listing.Pages
import ApiTemplate.Outbound.MailBodies
import ApiTemplate.Outbound.HttpClient
import ApiTemplate.Security.CanonicalDict
import ApiTemplate.StaticAnalys.Implementation
import ApiTemplate.Stream.Markup
import ApiTemplate.Telemetry.Authorization
import ApiTemplate.Telemetry.BodyCapture
import ApiTemplate.Telemetry.Composer
import ApiTemplate.Telemetry.ConsoleLog
import ApiTemplate.Telemetry.Destinations
import ApiTemplate.Telemetry.EventLog
import ApiTemplate.Telemetry.FailedReads
import ApiTemplate.Telemetry.Http
import ApiTemplate.Telemetry.LoggedEvents
import ApiTemplate.Telemetry.MaskShape
import ApiTemplate.Telemetry.RateLimit
import ApiTemplate.Telemetry.Recorder
import ApiTemplate.Telemetry.Shutdown
import ApiTemplate.Telemetry.TailRuns
import ApiTemplate.Telemetry.TelegramAttempts
import ApiTemplate.Telemetry.Writer
import ApiTemplate.TxStore.Monitor
import ApiTemplate.TxStore.Serial
import ApiTemplate.Utils.TypeUtils
