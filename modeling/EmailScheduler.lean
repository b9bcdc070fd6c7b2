import EmailScheduler.Foundation.Transition
import EmailScheduler.Foundation.Table
import EmailScheduler.Foundation.Transaction
import EmailScheduler.Foundation.Pagination
import EmailScheduler.Foundation.Keyset
import EmailScheduler.Foundation.Distinct
import EmailScheduler.Foundation.Digits
import EmailScheduler.Foundation.Calendar
import EmailScheduler.Foundation.Utf8
import EmailScheduler.Foundation.Utf16
import EmailScheduler.Foundation.Base64Url
import EmailScheduler.Foundation.Json
import EmailScheduler.Foundation.JsonText
import EmailScheduler.Foundation.JsonSchema
import EmailScheduler.Foundation.JobQueue
import EmailScheduler.Foundation.ExpiringStore
import EmailScheduler.Config
import EmailScheduler.Schema
import EmailScheduler.RateLimit.SenderRateLimiter
import EmailScheduler.RateLimit.History
import EmailScheduler.RateLimit.Spacing
import EmailScheduler.RateLimit.Quota
import EmailScheduler.RateLimit.RateSeed
import EmailScheduler.Delivery.DeliveryError
import EmailScheduler.Delivery.Records
import EmailScheduler.Foundation.Latest
import EmailScheduler.Foundation.Lease
import EmailScheduler.Scheduling.Statements
import EmailScheduler.Delivery.Processor
import EmailScheduler.Delivery.System
import EmailScheduler.Delivery.Rows
import EmailScheduler.Delivery.AtMostOnce
import EmailScheduler.Delivery.BatchOutcome
import EmailScheduler.Queue.EmailQueue
import EmailScheduler.Queue.PassUnderLoad
import EmailScheduler.Queue.StaleSweep
import EmailScheduler.Queue.TemporaryRefusal
import EmailScheduler.Delivery.Executions
import EmailScheduler.Delivery.ClosedRows
import EmailScheduler.Queue.Pipeline
import EmailScheduler.Queue.NoStrandedEmail
import EmailScheduler.RateLimit.EarliestTime
import EmailScheduler.RateLimit.SenderIsolation
import EmailScheduler.RateLimit.HourlyCap
import EmailScheduler.Delivery.HourlyCap
import EmailScheduler.Delivery.Provenance
import EmailScheduler.Foundation.UniqueIndex
import EmailScheduler.Scheduling.BatchCreation
import EmailScheduler.Scheduling.CreationTables
import EmailScheduler.Scheduling.Idempotency
import EmailScheduler.Scheduling.DuplicateRace
import EmailScheduler.Scheduling.RaceOutcome
import EmailScheduler.Delivery.Ledger
import EmailScheduler.Delivery.RowLedger
import EmailScheduler.Delivery.ClaimClosing
import EmailScheduler.Delivery.AuditLog
import EmailScheduler.Delivery.AttemptHistory
import EmailScheduler.Delivery.NeverEarly
import EmailScheduler.Queue.JobRun
import EmailScheduler.Queue.RetryBudget
import EmailScheduler.Queue.ExactRetries
import EmailScheduler.Delivery.RedisLoss
import EmailScheduler.Scheduling.LeadParser
import EmailScheduler.Scheduling.Address
import EmailScheduler.Scheduling.LeadPartition
import EmailScheduler.Scheduling.LeadFormats
import EmailScheduler.Scheduling.ComposePreview
import EmailScheduler.Api.Tables
import EmailScheduler.Api.GoogleUser
import EmailScheduler.Api.Senders
import EmailScheduler.Api.DefaultSender
import EmailScheduler.Api.SingleDefault
import EmailScheduler.Api.Batches
import EmailScheduler.Api.EmailLists
import EmailScheduler.Api.CursorCodec
import EmailScheduler.Api.ListTraversal
import EmailScheduler.Api.Router
import EmailScheduler.Api.ResponseBody
import EmailScheduler.Api.Isolation
import EmailScheduler.Api.TenantWrites
import EmailScheduler.Api.TenantIsolation
import EmailScheduler.Api.ScheduleLayout
import EmailScheduler.Api.SenderPolicies
import EmailScheduler.Client.ApiClient
import EmailScheduler.Client.DashboardPage
import EmailScheduler.Auth.Accounts
import EmailScheduler.Auth.SessionStore
import EmailScheduler.Application
import EmailScheduler.Progress
import EmailScheduler.Api.BatchRequests
import EmailScheduler.Dashboard
import EmailScheduler.Delivery.Backlog
import EmailScheduler.Queue.OneRunner
import EmailScheduler.Queue.SendBudget
import EmailScheduler.Queue.Restart
import EmailScheduler.Client.ComposeModal
import EmailScheduler.Refinement
import EmailScheduler.Completion
