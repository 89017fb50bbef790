import TinyHermes.Agents.Delegation
import TinyHermes.Lib.Table
import TinyHermes.Lib.Transaction
import TinyHermes.Runs.Interruption
import TinyHermes.Runs.StateMachine

/-! The rows of `runs/infrastructure/tables.py` that the Run store reads and writes, and the
database one transaction works on. -/
namespace TinyHermes.Runs
open Lib Agents Interruption

inductive RunEventType where
  | runCreated | runRetryDerived | sessionHeadRepaired | runLimitReached | goalVerdict
  | contextTrimmed | contextCompacted | contextCompactionSkipped | modelRoundRetried | modelRound
  | toolCalled | modelFallbackUsed | modelFallbackSkipped | todoUpdated | skillReview | runSteered
  | contextSummaryBilled | skillLoaded | skillProposed | httpCallRefused | toolSchemaBudgetExceeded
  | mcpToolsRevalidated | memoryProposed | memoryWritten | runDelegated | sandboxCacheReset
  | attachmentPlaced | attachmentFailed | fileSent
  | workspaceLimitExceeded | workspaceConflict | workspaceCheckpointFailed
  | workspaceStorageUnavailable | workspaceIntegrityFailed | workspaceEntryNotSupported
  /-- `RunEventType(f"run_{signal.value}")`, the names derived from signals. -/
  | ofSignal (signal : RunSignal)
  deriving DecidableEq, Repr

abbrev Payload := List (String × String)

structure ReservedEvent where
  eventType : RunEventType
  payload : Payload := []
  deriving DecidableEq, Repr

structure RunEventRow where
  runId : Uuid
  sequence : Nat
  event : ReservedEvent
  occurredAt : Time
  deriving DecidableEq, Repr

/-- The document a round leaves behind; `failure` is the member the store itself reads. -/
structure Checkpoint where
  failure : Option String := none
  body : String := ""
  deriving DecidableEq, Repr

/-- What a finished child hands to its parent: `child_result_for`. -/
structure ChildReport where
  status : RunState
  summary : String
  summaryTruncated : Bool
  summaryLength : Nat
  failureReason : Option String
  artifacts : List Uuid
  deriving DecidableEq, Repr

structure SessionRow where
  workspaceId : Uuid
  agentId : Uuid
  sessionMode : SessionMode
  caller : CallerIdentity
  headRunId : Option Uuid := none
  nextRunSequence : Nat := 1
  nextMessageSequence : Nat := 1
  workspaceRevisionId : Option Uuid := none
  deriving DecidableEq, Repr

structure RunRow where
  workspaceId : Uuid
  sessionId : Uuid
  agentVersionId : Uuid
  status : RunState := .queued
  purpose : RunPurpose := .answer
  stateVersion : Nat := 1
  nextEventSequence : Nat := 1
  sessionSequence : Nat
  blockedByRunId : Option Uuid := none
  pauseReason : Option PauseReason := none
  pauseRequestedAt : Option Time := none
  cancelRequestedAt : Option Time := none
  waitKind : Option String := none
  waitPolicy : Option WaitPolicy := none
  waitDeadlineAt : Option Time := none
  retryOfRunId : Option Uuid := none
  budgetRootRunId : Uuid
  checkpoint : Option Checkpoint := none
  checkpointReplaySafe : Bool := true
  checkpointEffectStatus : CheckpointEffectStatus := .none
  checkpointWorkspaceRevisionId : Option Uuid := none
  inflightRound : Option InFlightRound := none
  interruptedWrites : List InterruptedWrite := []
  startedAt : Option Time := none
  finishedAt : Option Time := none
  queuedAt : Time
  claimableAfter : Option Time := none
  updatedAt : Time
  recoveryAttempts : Nat := 0
  workspaceCleanupTarget : Option WorkspaceCleanupTarget := none
  workspaceCleanupSandboxId : Option Uuid := none
  deliveryMode : Option DeliveryMode := none
  endUserId : Option Uuid := none
  modelPricingVersionId : Option Uuid := none
  parentRunId : Option Uuid := none
  depth : Nat := 0
  delegationScope : Option DelegationScope := none
  delegationResult : Option ChildReport := none
  resultDeliveredAt : Option Time := none
  createdAt : Time
  deriving DecidableEq

/-- `uq_worker_leases_run`: one lease row per Run, reused by every claim. -/
structure WorkerLeaseRow where
  id : Uuid
  workerId : String
  expiresAt : Time
  releasedAt : Option Time := none
  version : Nat := 1
  deriving DecidableEq, Repr

inductive CostQuality where
  | provider | estimated | unknown
  deriving DecidableEq, Repr

/-- Amounts are kept to six decimal places and counted in millionths. -/
structure Cost where
  amount : Option Int
  currency : Option String
  quality : CostQuality
  deriving DecidableEq, Repr

def Cost.unknown : Cost := { amount := none, currency := none, quality := .unknown }

def Cost.plus (a b : Cost) : Cost :=
  match a.amount, b.amount with
  | some mine, some theirs =>
    if a.currency = b.currency then
      { amount := some (mine + theirs), currency := a.currency,
        quality := if a.quality = .estimated ∨ b.quality = .estimated then .estimated else .provider }
    else Cost.unknown
  | _, _ => Cost.unknown

structure RunBudgetScopeRow where
  maxExecutionSeconds : Nat
  consumedExecutionMs : Nat := 0
  maxElapsedSeconds : Nat
  elapsedDeadlineAt : Time
  maxModelCalls : Nat
  consumedModelCalls : Nat := 0
  maxToolCalls : Nat
  consumedToolCalls : Nat := 0
  maxTokens : Option Nat := none
  consumedTokens : Nat := 0
  maxDerivedRetries : Nat
  derivedRetryCount : Nat := 0
  maxCost : Option Int := none
  costCurrency : Option String := none
  consumedCost : Option Int := some 0
  costQuality : CostQuality := .provider
  version : Nat := 1
  deriving DecidableEq, Repr

def RunBudgetScopeRow.summary (b : RunBudgetScopeRow) : BudgetSummary where
  maxExecutionSeconds := b.maxExecutionSeconds
  consumedExecutionMs := b.consumedExecutionMs
  elapsedDeadlineAt := b.elapsedDeadlineAt
  maxModelCalls := b.maxModelCalls
  consumedModelCalls := b.consumedModelCalls
  maxTokens := b.maxTokens
  consumedTokens := b.consumedTokens

/-- A stored turn. Its Session and its sequence number together name it. -/
structure SessionMessageRow where
  sessionId : Uuid
  sequence : Nat
  message : CanonicalMessage
  sourceRunId : Option Uuid
  withdrawnAt : Option Time := none
  deriving DecidableEq

/-- `uq_idempotency_records_scope`. -/
structure IdempotencyScope where
  workspaceId : Uuid
  caller : CallerIdentity
  endpoint : String
  idempotencyKey : String
  deriving DecidableEq, Repr

structure IdempotencyRecordRow where
  requestFingerprint : String
  runId : Option Uuid := none
  expiresAt : Option Time := none
  deriving DecidableEq, Repr

structure ArtifactGrantRow where
  artifactId : Uuid
  runId : Uuid
  deriving DecidableEq, Repr

/-- The database. `drawn` remembers every `uuid4` handed out, so that a draw can be required to be new; no modelled statement
reads it otherwise. -/
structure Store where
  sessions : Table Uuid SessionRow := ∅
  runs : Table Uuid RunRow := ∅
  leases : Table Uuid WorkerLeaseRow := ∅
  budgets : Table Uuid RunBudgetScopeRow := ∅
  messages : List SessionMessageRow := []
  events : List RunEventRow := []
  records : Table IdempotencyScope IdempotencyRecordRow := ∅
  grants : List ArtifactGrantRow := []
  drawn : List Uuid := []

inductive StoreError where
  | sessionAgentNotFound | unknownSession | unknownRun | agentNotPublished | leaseLost
  | stateVersionConflict | forbiddenRunAction | budgetNotWidened | idempotencyKeyReused
  | retryNotSafe | retryLimitReached | retryBudgetExhausted | retryContextStale
  | state (error : StateMachine.RunStateError)
  /-- A `ValueError` of a domain constructor. -/
  | valueError
  /-- A row the database already holds, or an id that was drawn before. -/
  | integrity
  deriving DecidableEq, Repr

structure AgentVersion where
  agentId : Uuid
  spec : AgentSpec

structure WorkspaceLimits where
  maxRunningRuns : Option Nat := none
  maxRunningRunsPerCaller : Option Nat := none
  deriving DecidableEq, Repr

structure Artifact where
  id : Uuid
  workspaceId : Uuid
  runId : Uuid
  deriving DecidableEq, Repr

/-- The rows other parts of the platform own, as a transaction finds them. -/
structure Catalog where
  agentExists : (workspaceId agentId : Uuid) → Bool
  currentVersion : (workspaceId agentId : Uuid) → Option Uuid
  childAgent : (workspaceId : Uuid) → (aliasName : String) → Option Uuid
  version : Uuid → Option AgentVersion
  currentPricing : (agentVersionId : Uuid) → Option Uuid
  costCeiling : (workspaceId : Uuid) → Option Int × Option String
  workspaceLimits : (workspaceId : Uuid) → Option WorkspaceLimits
  artifacts : List Artifact

abbrev StoreTx := Tx Store StoreError

end TinyHermes.Runs
