import TinyHermes.Runs.SlicePolicy
import TinyHermes.Runs.Writes
import TinyHermes.Runs.Admission
import TinyHermes.Runs.Claim
import TinyHermes.Runs.Slices
import TinyHermes.Runs.Sweeps
import TinyHermes.Lib.Execution
import TinyHermes.Lib.HeadQueue
import TinyHermes.Runs.Transactions
import TinyHermes.Runs.Frames
import TinyHermes.Runs.SessionFifo
import TinyHermes.Runs.RunMoves
import TinyHermes.Runs.LeaseFencing
import TinyHermes.Runs.DelegationBounds
import TinyHermes.Lib.KeyCustody
import TinyHermes.Runs.IdempotencyKeys
import TinyHermes.Runs.ClaimProgress
import TinyHermes.Runs.RoundPaths
import TinyHermes.Identity.AuthService
import TinyHermes.Lib.Naming
import TinyHermes.Identity.OidcService
import TinyHermes.Identity.Transactions
import TinyHermes.Identity.OidcIdentities
import TinyHermes.Runs.WorkerSlices
import TinyHermes.Runs.OutsideCalls
import TinyHermes.Identity.Frames
import TinyHermes.Identity.LoginThrottle
import TinyHermes.Identity.Callers
import TinyHermes.Identity.LoginStates
import TinyHermes.Runs.Cancellation
import TinyHermes.Runs.Billing
import TinyHermes.Runs.BudgetScopes
import TinyHermes.ModelCatalog.Pricing
import TinyHermes.Runs.ModelRounds
import TinyHermes.Runs.Calls
import TinyHermes.Runs.CallCeiling
import TinyHermes.Runs.KnownCosts
import TinyHermes.Runs.ChildDeliveries
import TinyHermes.Runs.ChildWaits
import TinyHermes.Lib.Sweep
import TinyHermes.Runs.SweepIsolation
import TinyHermes.Lib.LockOrder
import TinyHermes.Runs.ConcurrentClaims
import TinyHermes.Runs.ClaimLocks
import TinyHermes.Lib.LimitedEntry
import TinyHermes.Runs.RunningLimits
import TinyHermes.Runs.ApprovalDecisions
import TinyHermes.Lib.NumberedLog
import TinyHermes.Runs.EventStream
import TinyHermes.Runs.KeyRecords
import TinyHermes.Runs.Submissions
import TinyHermes.Lib.Cuts
import TinyHermes.Runs.ContextBudget
import TinyHermes.Runs.PlanAccounting
import TinyHermes.Runs.PlanShape
import TinyHermes.Runs.PlanPairs
import TinyHermes.Runs.StableViews
import TinyHermes.Runs.CompactionFixedPoint
import TinyHermes.Lib.Ledger
import TinyHermes.Runs.StoredSummaries
import TinyHermes.Lib.Documents
import TinyHermes.Runs.MessageDocuments
import TinyHermes.Lib.Firsts
import TinyHermes.Lib.Refusals
import TinyHermes.Lib.Totals
import TinyHermes.Runs.BackReferences
import TinyHermes.Runs.OverflowPauses
import TinyHermes.Sandbox.Controller
import TinyHermes.Sandbox.DirtySandboxes
import TinyHermes.Sandbox.Streams
import TinyHermes.SessionWorkspace.Manifest
import TinyHermes.SessionWorkspace.Restore
import TinyHermes.SessionWorkspace.Staging
import TinyHermes.Lib.Fallible
import TinyHermes.Sandbox.StreamTransfer
import TinyHermes.Lib.Narrowing
import TinyHermes.Outbound.Scope
import TinyHermes.Outbound.EffectiveScope
import TinyHermes.Egress.Request
import TinyHermes.Outbound.AddressPolicy
import TinyHermes.Egress.Decision
import TinyHermes.Egress.ForwardedHead
import TinyHermes.Agents.CheckedVersions
import TinyHermes.Lib.Keys
import TinyHermes.Tools.CallNames
import TinyHermes.Sandbox.HostPool
import TinyHermes.Sandbox.HostSteps
import TinyHermes.Channels.Answers
import TinyHermes.Channels.Attempts
import TinyHermes.Channels.Notices
import TinyHermes.Outbound.SafeClient
import TinyHermes.Sandbox.HostRegistry
import TinyHermes.Tools.HttpCalls
import TinyHermes.Tools.HttpSender
import TinyHermes.Channels.Conversations
import TinyHermes.Channels.Fates
import TinyHermes.Channels.Gathering
import TinyHermes.Runs.Completions
import TinyHermes.Sandbox.Retirement
import TinyHermes.Artifacts.Recorder
import TinyHermes.Egress.Framing
import TinyHermes.Egress.ScopeDirectory
import TinyHermes.Lib.Sealing
import TinyHermes.Secrets.Envelope
import TinyHermes.Secrets.Rotation
import TinyHermes.Lib.Paths
import TinyHermes.SessionWorkspace.Paths
import TinyHermes.SessionWorkspace.Projection
import TinyHermes.Lib.JsonText
import TinyHermes.SessionWorkspace.Canonical
import TinyHermes.Lib.Hex
import TinyHermes.SessionWorkspace.CandidateIndex
import TinyHermes.SessionWorkspace.IndexSizes
import TinyHermes.Lib.Statements
import TinyHermes.Skills.Catalog
import TinyHermes.Skills.DefaultVersion
import TinyHermes.ModelCatalog.ProjectedCost
import TinyHermes.Runs.CompactionPromise
import TinyHermes.Runs.CurrentRequest
import TinyHermes.Runs.SegmentFit
import TinyHermes.Runs.Withdrawals
import TinyHermes.Runs.RepairScan
import TinyHermes.Lib.AnsweredLoop
import TinyHermes.Lib.SortedText
import TinyHermes.Runs.ApprovalBinding
import TinyHermes.Runs.Recovering
import TinyHermes.Channels.InboxNames
import TinyHermes.Channels.ReadySenders
import TinyHermes.Memory.Effects
import TinyHermes.Memory.ReviewedOnce
import TinyHermes.Runs.ChildScopes
import TinyHermes.Tools.CommandOutput
import TinyHermes.Runs.WireNames
import TinyHermes.Lib.Templates
import TinyHermes.Tools.OpenApi
import TinyHermes.Tools.OperationPaths
import TinyHermes.Agents.NormalizedSpecs
import TinyHermes.Channels.Commands
import TinyHermes.Runs.SegmentTrims
import TinyHermes.Tools.OfferedCalls
import TinyHermes.Agents.NumberedVersions
import TinyHermes.Runs.RunLives
import TinyHermes.Runs.RunTrees
import TinyHermes.Secrets.SecretLives
import TinyHermes.Tools.CatalogRuns
