import TinyHermes.Runs.Writes

/-! The operations that create rows: Sessions, accepted Runs, derived retries and delegated children. -/
namespace TinyHermes.Runs.SqlRunStore
open Lib Agents

structure CreateSessionCommand where
  workspaceId : Uuid
  agentId : Uuid
  caller : CallerIdentity
  sessionMode : SessionMode

/-- `sessionId` is the `uuid4` the new row gets. -/
def createSession (env : Env) (cmd : CreateSessionCommand) (sessionId : Uuid) : StoreTx Unit := do
  Tx.require (env.catalog.agentExists cmd.workspaceId cmd.agentId = true) .sessionAgentNotFound
  mint sessionId
  insertSession sessionId
    { workspaceId := cmd.workspaceId, agentId := cmd.agentId, sessionMode := cmd.sessionMode, caller := cmd.caller }

/-- A Run somebody got for a request, now or when the same request was first made. -/
structure AcceptedRun where
  runId : Uuid
  replayed : Bool
  deriving DecidableEq, Repr

/-- Compete for the key first: an unused key is inserted, a used one must name the same request. -/
def claimIdempotency (scope : IdempotencyScope) (fingerprint : String) : StoreTx (Option AcceptedRun) := do
  let s ← get
  match s.records.lookup scope with
  | none => do
    Tx.write fun s => { s with records := s.records.insert scope { requestFingerprint := fingerprint } }
    pure none
  | some existing =>
    match existing.runId with
    | some runId => do
      Tx.require (existing.requestFingerprint = fingerprint) .idempotencyKeyReused
      pure (some { runId, replayed := true })
    | none => throw .idempotencyKeyReused

def storeResponse (scope : IdempotencyScope) (runId : Uuid) : StoreTx Unit := do
  let _ ← Tx.fetch (·.records.lookup scope) .idempotencyKeyReused
  Tx.write fun s => { s with records := s.records.modify scope fun row => { row with runId := some runId } }

/-- `_new_budget`: the Run's own copy of every valve it will be measured against. -/
def newBudget (limits : AgentLimits) (now : Time) (ceiling : Option Int × Option String) : RunBudgetScopeRow where
  maxExecutionSeconds := limits.maxExecutionSeconds
  maxElapsedSeconds := limits.maxElapsedSeconds
  elapsedDeadlineAt := now + seconds limits.maxElapsedSeconds
  maxModelCalls := limits.maxModelCalls
  maxToolCalls := limits.maxToolCalls
  maxDerivedRetries := limits.maxDerivedRetries
  maxCost := ceiling.1
  costCurrency := ceiling.2

/-- Append a new Run to its Session's line: the row is blocked by the head it finds, and becomes
the head when it finds none. -/
def joinSession (sessionId runId : Uuid) (row : RunRow) : StoreTx Unit := do
  let session ← Tx.fetch (·.sessions.lookup sessionId) .unknownSession
  -- `fk_runs_session` is on the pair of ids
  Tx.require (session.workspaceId = row.workspaceId) .integrity
  insertRun runId { row with
    sessionId, sessionSequence := session.nextRunSequence, blockedByRunId := session.headRunId }
  modifySession sessionId fun s => { s with
    nextRunSequence := s.nextRunSequence + 1
    headRunId := if s.headRunId = none then some runId else s.headRunId }

structure AcceptRunCommand where
  workspaceId : Uuid
  sessionId : Uuid
  caller : CallerIdentity
  endpoint : String
  idempotencyKey : String
  requestFingerprint : String
  message : Option CanonicalMessage
  deliveryMode : Option DeliveryMode := none
  purpose : RunPurpose := .answer
  message_or_compaction : message.isSome ∨ purpose = .compaction

def AcceptRunCommand.scope (cmd : AcceptRunCommand) : IdempotencyScope :=
  { workspaceId := cmd.workspaceId, caller := cmd.caller, endpoint := cmd.endpoint, idempotencyKey := cmd.idempotencyKey }

/-- `_published_version`: the version new Runs of this Session are fixed to, and its limits. -/
def publishedVersion (env : Env) (session : SessionRow) : StoreTx (Uuid × AgentLimits) :=
  match env.catalog.currentVersion session.workspaceId session.agentId with
  | none => throw .agentNotPublished
  | some versionId =>
    match env.catalog.version versionId with
    | none => throw .agentNotPublished
    | some version => pure (versionId, version.spec.limits)

def acceptedRow (env : Env) (cmd : AcceptRunCommand) (session : SessionRow) (versionId runId : Uuid) : RunRow where
  workspaceId := cmd.workspaceId
  sessionId := cmd.sessionId
  agentVersionId := versionId
  sessionSequence := session.nextRunSequence
  blockedByRunId := session.headRunId
  budgetRootRunId := runId
  checkpointWorkspaceRevisionId := session.workspaceRevisionId
  deliveryMode := cmd.deliveryMode
  purpose := cmd.purpose
  endUserId := if cmd.caller.callerType = .serviceAccount then none else some cmd.caller.callerId
  modelPricingVersionId := env.catalog.currentPricing versionId
  queuedAt := env.now
  createdAt := env.now
  updatedAt := env.now

def acceptRun (env : Env) (cmd : AcceptRunCommand) (runId : Uuid) : StoreTx AcceptedRun := do
  let replay ← claimIdempotency cmd.scope cmd.requestFingerprint
  match replay with
  | some accepted => pure accepted
  | none => do
    let session ← lockSession cmd.workspaceId cmd.sessionId
    let (versionId, limits) ← publishedVersion env session
    mint runId
    joinSession cmd.sessionId runId (acceptedRow env cmd session versionId runId)
    appendMessages cmd.sessionId runId cmd.message.toList
    Tx.write fun s => { s with
      budgets := s.budgets.insert runId (newBudget limits env.now (env.catalog.costCeiling cmd.workspaceId)) }
    appendEvents env cmd.workspaceId runId
      [{ eventType := .runCreated, payload := [("session_sequence", toString session.nextRunSequence)] }]
    storeResponse cmd.scope runId
    pure { runId, replayed := false }

structure RetryRunCommand where
  workspaceId : Uuid
  sourceRunId : Uuid
  caller : CallerIdentity
  canRetry : Bool
  endpoint : String
  idempotencyKey : String
  requestFingerprint : String

def RetryRunCommand.scope (cmd : RetryRunCommand) : IdempotencyScope :=
  { workspaceId := cmd.workspaceId, caller := cmd.caller, endpoint := cmd.endpoint, idempotencyKey := cmd.idempotencyKey }

def latestSequence (s : Store) (sessionId : Uuid) : Nat :=
  ((s.runs.select fun _ run => run.sessionId = sessionId).map fun e => e.2.sessionSequence).foldl max 0

/-- `_retry_blocker`: root-budget limits are reported before the Session's position. -/
def retryBlocker (env : Env) (s : Store) (run : RunRow) (session : SessionRow) (budget : RunBudgetScopeRow) :
    Option StoreError :=
  if run.status ≠ .failed then some .retryNotSafe
  else if run.checkpointReplaySafe = false then some .retryNotSafe
  else if run.checkpointEffectStatus = .unknown then some .retryNotSafe
  else if budget.derivedRetryCount ≥ budget.maxDerivedRetries then some .retryLimitReached
  else if budget.summary.allowsExecution env.now = false then some .retryBudgetExhausted
  else if budget.consumedToolCalls ≥ budget.maxToolCalls then some .retryBudgetExhausted
  else if latestSequence s run.sessionId ≠ run.sessionSequence then some .retryContextStale
  else if session.workspaceRevisionId ≠ run.checkpointWorkspaceRevisionId then some .retryContextStale
  else none

def checkpointMessages (s : Store) (sessionId sourceRunId : Uuid) : List SessionMessageRow :=
  s.messages.filter fun row =>
    row.sessionId = sessionId && row.sourceRunId = some sourceRunId && row.withdrawnAt.isNone

def copyCheckpointMessages (sessionId sourceRunId runId : Uuid) : StoreTx Unit := do
  let s ← get
  appendMessages sessionId runId ((checkpointMessages s sessionId sourceRunId).map (·.message))

/-- The row `derive_retry` builds field by field; what it does not name takes the column default. -/
def retryRow (env : Env) (cmd : RetryRunCommand) (source : RunRow) (session : SessionRow) : RunRow where
  workspaceId := cmd.workspaceId
  sessionId := source.sessionId
  agentVersionId := source.agentVersionId
  sessionSequence := session.nextRunSequence
  blockedByRunId := session.headRunId
  retryOfRunId := some cmd.sourceRunId
  budgetRootRunId := source.budgetRootRunId
  checkpoint := source.checkpoint
  checkpointWorkspaceRevisionId := session.workspaceRevisionId
  deliveryMode := source.deliveryMode
  endUserId := source.endUserId
  modelPricingVersionId := source.modelPricingVersionId
  queuedAt := env.now
  createdAt := env.now
  updatedAt := env.now

def deriveRetry (env : Env) (cmd : RetryRunCommand) (runId : Uuid) : StoreTx AcceptedRun := do
  Tx.require (cmd.canRetry = true) .forbiddenRunAction
  let replay ← claimIdempotency cmd.scope cmd.requestFingerprint
  match replay with
  | some accepted => pure accepted
  | none => do
    let source ← lockRun cmd.workspaceId cmd.sourceRunId .unknownRun
    let session ← lockSession cmd.workspaceId source.sessionId
    let budget ← Tx.fetch (·.budgets.lookup source.budgetRootRunId) .unknownRun
    let s ← get
    match retryBlocker env s source session budget with
    | some blocker => throw blocker
    | none => do
      Tx.write fun s => { s with
        budgets := s.budgets.modify source.budgetRootRunId fun row =>
          { row with derivedRetryCount := row.derivedRetryCount + 1, version := row.version + 1 } }
      mint runId
      joinSession source.sessionId runId (retryRow env cmd source session)
      copyCheckpointMessages source.sessionId cmd.sourceRunId runId
      appendEvents env cmd.workspaceId cmd.sourceRunId
        [{ eventType := .runRetryDerived, payload := [("derived_run_id", toString runId)] }]
      appendEvents env cmd.workspaceId runId
        [{ eventType := .runCreated, payload := [("retry_of_run_id", toString cmd.sourceRunId)] }]
      storeResponse cmd.scope runId
      pure { runId, replayed := false }

/-- One piece of work, and which bound alias is to do it. -/
structure DelegationRequest where
  aliasName : String
  instruction : String
  artifacts : List String := []
  deriving DecidableEq, Repr

structure DelegatedChild where
  runId : Uuid
  sessionId : Uuid
  aliasName : String
  deriving DecidableEq, Repr

/-- What was created, or a sentence saying why nothing was. -/
structure DelegationResult where
  children : List DelegatedChild := []
  refusal : String := ""
  deriving DecidableEq, Repr

def uuidText (id : Uuid) : String := toString id

/-- `UUID(name)`, on the spelling `str` gives back. -/
def parseUuid (name : String) : Option Uuid := name.toNat?.filter fun id => uuidText id = name

/-- `_readable_artifacts`: an Artifact this Run produced itself, or one somebody granted it. -/
def readableArtifact (env : Env) (s : Store) (runId : Uuid) (run : RunRow) (name : String) : Option Uuid :=
  (parseUuid name).filter fun id =>
    env.catalog.artifacts.any fun a =>
      a.id = id && a.workspaceId = run.workspaceId &&
        (a.runId = runId || { artifactId := id, runId := runId } ∈ s.grants)

def sortedNames (names : List String) : String := ", ".intercalate (names.dedup.mergeSort fun a b => a ≤ b)

/-- The refusals of `delegate_children` that come after the caller's own depth and policy. -/
def delegationRefusal (env : Env) (s : Store) (parentRunId : Uuid) (parent : RunRow) (policy : DelegationPolicy)
    (requests : List DelegationRequest) : Option String :=
  let bound := policy.children.map (·.aliasName)
  let asked := requests.map (·.aliasName)
  let unbound := asked.filter fun name => name ∉ bound
  let missing := asked.filter fun name => (env.catalog.childAgent parent.workspaceId name).isNone
  let unreadable := (requests.flatMap (·.artifacts)).filter fun name =>
    (readableArtifact env s parentRunId parent name).isNone
  if unbound ≠ [] then
    some s!"you may not delegate to {sortedNames unbound}. You may delegate to {sortedNames bound}"
  else if requests.length > policy.maxParallel then
    some s!"you asked for {requests.length} at once and may run {policy.maxParallel}"
  else if missing ≠ [] then some s!"{sortedNames missing} is not published in this workspace"
  else if unreadable ≠ [] then some s!"you cannot read {sortedNames unreadable}, so you cannot pass it on"
  else none

def childRow (env : Env) (parentRunId : Uuid) (parent : RunRow) (sessionId versionId : Uuid)
    (scope : DelegationScope) : RunRow where
  workspaceId := parent.workspaceId
  sessionId := sessionId
  agentVersionId := versionId
  sessionSequence := 1
  parentRunId := some parentRunId
  depth := parent.depth + 1
  delegationScope := some scope
  budgetRootRunId := parent.budgetRootRunId
  endUserId := parent.endUserId
  modelPricingVersionId := env.catalog.currentPricing versionId
  queuedAt := env.now
  createdAt := env.now
  updatedAt := env.now

/-- `granted`, with the files face filled in from the artifacts that are passed on. -/
def childScope (readable : String → Option Uuid) (spec : AgentSpec) (binding : ChildBinding)
    (item : DelegationRequest) : DelegationScope :=
  { granted spec binding with files := ((item.artifacts.filterMap readable).map uuidText).toFinset }

def createChild (env : Env) (parentRunId : Uuid) (parent : RunRow) (owning : SessionRow) (spec : AgentSpec)
    (policy : DelegationPolicy) (readable : String → Option Uuid) (item : DelegationRequest)
    (sessionId runId : Uuid) : StoreTx DelegatedChild := do
  let binding ← Tx.fetch (fun _ => policy.children.find? fun child => child.aliasName = item.aliasName) .integrity
  let versionId ← Tx.fetch (fun _ => env.catalog.childAgent parent.workspaceId item.aliasName) .integrity
  let version ← Tx.fetch (fun _ => env.catalog.version versionId) .unknownRun
  let scope := childScope readable spec binding item
  mint sessionId
  insertSession sessionId
    { workspaceId := parent.workspaceId, agentId := version.agentId, sessionMode := .ephemeral, caller := owning.caller }
  mint runId
  joinSession sessionId runId (childRow env parentRunId parent sessionId versionId scope)
  Tx.forEach (item.artifacts.filterMap readable) fun id => grantArtifact id runId
  appendMessage sessionId runId
    { role := .user, blocks := [.text item.instruction], byPlatform := true, blocks_ne := by simp }
  appendEvents env parent.workspaceId runId
    [{ eventType := .runCreated,
       payload := [("parent_run_id", uuidText parentRunId), ("depth", toString (parent.depth + 1))] }]
  pure { runId, sessionId, aliasName := item.aliasName }

def createChildren (env : Env) (parentRunId : Uuid) (parent : RunRow) (owning : SessionRow) (spec : AgentSpec)
    (policy : DelegationPolicy) (readable : String → Option Uuid) :
    List (DelegationRequest × Uuid × Uuid) → StoreTx (List DelegatedChild)
  | [] => pure []
  | (item, sessionId, runId) :: rest => do
    let child ← createChild env parentRunId parent owning spec policy readable item sessionId runId
    let children ← createChildren env parentRunId parent owning spec policy readable rest
    pure (child :: children)

/-- Create one child Run per request, or none of them. -/
def delegateChildren (env : Env) (parentRunId : Uuid) (requests : List (DelegationRequest × Uuid × Uuid)) :
    StoreTx DelegationResult := do
  let s ← get
  match s.runs.lookup parentRunId with
  | none => pure { refusal := "this Run is not on record" }
  | some parent =>
    if parent.depth ≥ maxDelegationDepth then
      pure { refusal := "you were delegated this work yourself, and an Agent working " ++
        "on somebody else's behalf cannot delegate further" }
    else match env.catalog.version parent.agentVersionId, s.sessions.lookup parent.sessionId with
      | some version, some owning =>
        match version.spec.delegation with
        | none => pure { refusal := "you are not configured to delegate to anybody" }
        | some policy =>
          match delegationRefusal env s parentRunId parent policy (requests.map (·.1)) with
          | some refusal => pure { refusal }
          | none => do
            let children ← createChildren env parentRunId parent owning version.spec policy
              (readableArtifact env s parentRunId parent) requests
            pure { children }
      | _, _ => pure { refusal := "this Run is not on record" }

end TinyHermes.Runs.SqlRunStore
