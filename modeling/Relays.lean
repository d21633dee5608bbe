import Relays.Library.Transition
import Relays.Library.ReadCommitted
import Relays.Library.Relation
import Relays.Library.Keyed
import Relays.Library.Delimited
import Relays.Core.Json
import Relays.Core.Errors
import Relays.Core.Idempotency
import Relays.Core.Canonical
import Relays.Notifications.Schemas
import Relays.Notifications.Records
import Relays.Notifications.Queries
import Relays.Notifications.FakeProvider
import Relays.Notifications.Classification
import Relays.Workspaces.Slugs
import Relays.Engine.System
import Relays.Engine.WorldInvariant
import Relays.Engine.DeliveryInvariant
import Relays.Engine.SubmissionInvariant
import Relays.Engine.DatabaseState
import Relays.Engine.Idempotence
import Relays.Engine.RequestHash
import Relays.Engine.IdempotencyWindow
import Relays.Engine.TerminalStates
import Relays.Engine.Accounting
import Relays.Engine.DeliveryToken
import Relays.Engine.DuplicateDeliveries
import Relays.Engine.RetryHandover
import Relays.Engine.SubmissionGuarantee
import Relays.Engine.ClaimScan
import Relays.Engine.Backoff
import Relays.Engine.Conformance
import Relays.Engine.Deliverability
import Relays.Engine.Uncontended
import Relays.Engine.RetryClaim
import Relays.Engine.RetryLoop
import Relays.Auth.Revocation
import Relays.Auth.SingleUse
import Relays.Auth.OtpBinding
import Relays.Auth.FreshOtp
import Relays.Auth.AccountIntegrity
import Relays.Auth.Disclosure
import Relays.ApiKeys.Lifecycle
import Relays.Tenancy.Leaks
import Relays.Migrations.Completeness
import Relays.RateLimiting.Concurrency
import Relays.Workspaces.AcceptedNames
import Relays.Auth.StoredNames
import Relays.Auth.TokenKinds
import Relays.Auth.ExpiredCredentials
import Relays.Auth.OtpReplacement
import Relays.ApiKeys.Rejections
import Relays.RateLimiting.SequentialRuns
import Relays.RateLimiting.OtpLimiter
import Relays.Engine.Completion
import Relays.Auth.Drain
import Relays.Engine.AtomicSubmission
import Relays.Engine.Outcome
import Relays.Platform.Provenance
import Relays.Engine.SingleLifecycle
import Relays.Platform.Reads
import Relays.Platform.Readiness
import Relays.Platform.Ownership
