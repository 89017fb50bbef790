import TinyHermes.Runs.Writes

/-! What a Worker writes while it holds a lease, and the seam every other signal goes through. -/
namespace TinyHermes.Runs.SqlRunStore
open Lib Interruption

structure ApplySignalCommand where
  workspaceId : Uuid
  runId : Uuid
  signal : RunSignal
  expectedStateVersion : Option Nat := none
  pauseReason : Option PauseReason := none
  waitKind : Option String := none
  waitDeadlineAt : Option Time := none
  payload : Payload := []
  confirmedSandboxId : Option Uuid := none

def cleanupConfirmed (cmd : ApplySignalCommand) (run : RunRow) : Bool :=
  match cmd.signal with
  | .limitCleanupConfirmed =>
    run.workspaceCleanupTarget = some .pausedLimit && run.workspaceCleanupSandboxId.isSome &&
      run.workspaceCleanupSandboxId = cmd.confirmedSandboxId
  | .recoveryFailed =>
    cmd.confirmedSandboxId.isNone ||
      (run.workspaceCleanupTarget = some .failedConflict && run.workspaceCleanupSandboxId = cmd.confirmedSandboxId)
  | _ => true

/-- Whether the transition reaches the recorded target, which clears the intent. -/
def clearsCleanup (cmd : ApplySignalCommand) : Bool :=
  cmd.signal = .limitCleanupConfirmed || (cmd.signal = .recoveryFailed && cmd.confirmedSandboxId.isSome)

/-- Apply exactly the mutation the state machine returns, once. -/
def applySignal (env : Env) (cmd : ApplySignalCommand) : StoreTx Unit := do
  let run ← lockRun cmd.workspaceId cmd.runId .unknownRun
  Tx.require (cmd.expectedStateVersion.all (· = run.stateVersion) = true) .stateVersionConflict
  let _ ← lockSession cmd.workspaceId run.sessionId
  Tx.require (cleanupConfirmed cmd run = true) (.state .invalidStateMetadata)
  decideAndWrite env cmd.runId cmd.signal
    { pauseReason := cmd.pauseReason, waitKind := cmd.waitKind, waitDeadlineAt := cmd.waitDeadlineAt,
      payload := cmd.payload }
  modifyRun cmd.runId fun row =>
    if clearsCleanup cmd then { row with workspaceCleanupTarget := none, workspaceCleanupSandboxId := none } else row
  let after ← Tx.fetch (·.runs.lookup cmd.runId) .unknownRun
  Tx.onlyIf (after.status ≠ .running) (releaseLease env cmd.runId)

/-- A user's control request. The version they read is required. -/
def controlRun (env : Env) (canControl : Bool) (workspaceId runId : Uuid) (signal : RunSignal) (callerId : Uuid)
    (expectedStateVersion : Nat) : StoreTx Unit := do
  Tx.require (canControl = true) .forbiddenRunAction
  applySignal env
    { workspaceId, runId, signal, expectedStateVersion := some expectedStateVersion,
      payload := [("requested_by", toString callerId)] }

/-- Raise one ceiling on the shared scope, leaving every counter alone. -/
def widenBudget (canControl : Bool) (workspaceId runId : Uuid) (expectedStateVersion maxModelCalls : Nat) :
    StoreTx Unit := do
  Tx.require (canControl = true) .forbiddenRunAction
  let run ← lockRun workspaceId runId .unknownRun
  Tx.require (run.stateVersion = expectedStateVersion) .stateVersionConflict
  let budget ← Tx.fetch (·.budgets.lookup run.budgetRootRunId) .unknownRun
  Tx.require (budget.maxModelCalls < maxModelCalls) .budgetNotWidened
  Tx.write fun s => { s with
    budgets := s.budgets.modify run.budgetRootRunId fun row => { row with maxModelCalls, version := row.version + 1 } }

structure RenewLeaseCommand where
  workspaceId : Uuid
  runId : Uuid
  leaseId : Uuid
  expectedVersion : Nat
  leaseSeconds : Int

/-- Extend a lease this Worker still holds, or report that it is gone. -/
def renewLease (env : Env) (cmd : RenewLeaseCommand) : StoreTx (Option Nat) := do
  let s ← get
  match (s.runs.lookup cmd.runId).filter fun run => run.workspaceId = cmd.workspaceId with
  | none => pure none
  | some _ =>
    match (s.leases.lookup cmd.runId).filter fun lease =>
        lease.id = cmd.leaseId && lease.version = cmd.expectedVersion && lease.releasedAt.isNone with
    | none => pure none
    | some lease => do
      Tx.write fun s => { s with
        leases := s.leases.modify cmd.runId fun row =>
          { row with expiresAt := env.now + seconds cmd.leaseSeconds, version := row.version + 1 } }
      pure (some (lease.version + 1))

/-- `_lock_lease`, with the refusals both kinds of write make of it. -/
def lockLease (runId leaseId : Uuid) (usable : WorkerLeaseRow → Bool) : StoreTx WorkerLeaseRow :=
  Tx.fetch (fun s => (s.leases.lookup runId).filter fun lease =>
    lease.id = leaseId && lease.releasedAt.isNone && usable lease) .leaseLost

/-- `_charge_tool_call`: whether a call was charged to the shared scope. -/
def chargeToolCall (env : Env) (workspaceId runId leaseId : Uuid) : StoreTx Bool := do
  let run ← lockRun workspaceId runId .unknownRun
  let _ ← lockLease runId leaseId fun lease => lease.expiresAt > env.now
  let s ← get
  match (s.budgets.lookup run.budgetRootRunId).filter fun budget =>
      budget.consumedToolCalls < budget.maxToolCalls && budget.elapsedDeadlineAt > env.now with
  | none => pure false
  | some _ => do
    Tx.write fun s => { s with
      budgets := s.budgets.modify run.budgetRootRunId fun row =>
        { row with consumedToolCalls := row.consumedToolCalls + 1, version := row.version + 1 } }
    pure true

def reserveToolCall (env : Env) (workspaceId runId leaseId : Uuid) : StoreTx Bool :=
  chargeToolCall env workspaceId runId leaseId

/-- The key a call goes out with, and the interrupted writes that still wait: an exact repeat of a waiting write takes its key,
any other draws a new one. -/
def takeKey (waiting : List InterruptedWrite) (fingerprint : Option String) (newKey : Uuid) :
    StoreTx (Option Uuid × List InterruptedWrite) :=
  match fingerprint with
  | none => pure (none, waiting)
  | some fp =>
    match waiting.find? fun entry => entry.fingerprint = fp with
    | some entry => pure (some entry.idempotencyKey, waiting.erase entry)
    | none => do
      mint newKey
      pure (some newKey, waiting)

/-- `reserve_tool_call` for a call that may reach outside the sandbox: the round as written down, with the key of an HTTP write,
or nothing when the call may not be made. -/
def reserveOutsideCall (env : Env) (workspaceId runId leaseId : Uuid) (sending : InFlightRound) (newKey : Uuid) :
    StoreTx (Option InFlightRound) := do
  let charged ← chargeToolCall env workspaceId runId leaseId
  if charged then do
    let run ← Tx.fetch (·.runs.lookup runId) .unknownRun
    let (key, waiting) ← takeKey run.interruptedWrites sending.fingerprint newKey
    let recorded := { sending with idempotencyKey := key }
    modifyRun runId fun row => { row with
      checkpointEffectStatus := .unknown, interruptedWrites := waiting, inflightRound := some recorded }
    pure (some recorded)
  else pure none

/-- `_accumulate_cost`: add one round's cost, and let unknown stay unknown. -/
def accumulateCost (budget : RunBudgetScopeRow) (cost : Option Cost) : RunBudgetScopeRow :=
  if budget.costQuality = .unknown then budget
  else match cost.filter fun c => c.amount.isSome with
    | none => { budget with consumedCost := none, costQuality := .unknown }
    | some cost =>
      let running : Cost := {
        amount := some (budget.consumedCost.getD 0)
        currency := budget.costCurrency.or cost.currency
        quality := budget.costQuality }
      let total := running.plus cost
      { budget with
        consumedCost := total.amount
        costQuality := total.quality
        costCurrency := budget.costCurrency.or total.currency }

def consumeBudget (rootRunId : Uuid) (executedMs modelCalls tokens : Nat) (cost : Option Cost) : StoreTx Unit := do
  let _ ← Tx.fetch (·.budgets.lookup rootRunId) .unknownRun
  Tx.write fun s => { s with
    budgets := s.budgets.modify rootRunId fun row =>
      accumulateCost { row with
        consumedExecutionMs := row.consumedExecutionMs + executedMs
        consumedModelCalls := row.consumedModelCalls + modelCalls
        consumedTokens := row.consumedTokens + tokens
        version := row.version + 1 } cost }

/-- One checkpoint, its accounting, its state signal, and the lease release. -/
structure RecordSliceCommand where
  workspaceId : Uuid
  runId : Uuid
  leaseId : Uuid
  expectedStateVersion : Nat
  signal : Option RunSignal
  pauseReason : Option PauseReason := none
  limitReached : Bool := false
  limitValve : String := "budget"
  checkpoint : Checkpoint := {}
  checkpointReplaySafe : Bool := true
  checkpointEffectStatus : CheckpointEffectStatus := .none
  executedMs : Nat := 0
  modelCalls : Nat := 0
  tokens : Nat := 0
  appended : List CanonicalMessage := []
  workspaceCleanupTarget : Option WorkspaceCleanupTarget := none
  workspaceCleanupSandboxId : Option Uuid := none
  events : List ReservedEvent := []
  waitKind : Option String := none
  waitSeconds : Option Int := none
  waitPolicy : Option WaitPolicy := none
  retryAfterSeconds : Option Int := none
  cost : Option Cost := none

/-- What a round leaves on the Run's row before its signal is decided. -/
def checkpointed (cmd : RecordSliceCommand) (now : Time) (run : RunRow) : RunRow :=
  { run with
    checkpoint := some cmd.checkpoint
    checkpointReplaySafe := cmd.checkpointReplaySafe
    checkpointEffectStatus := cmd.checkpointEffectStatus
    inflightRound := none
    updatedAt := now
    workspaceCleanupTarget := cmd.workspaceCleanupTarget.or run.workspaceCleanupTarget
    workspaceCleanupSandboxId :=
      if cmd.workspaceCleanupTarget.isSome then cmd.workspaceCleanupSandboxId else run.workspaceCleanupSandboxId }

/-- `_slice_payload`: the reason a round failed rides along when there is one. -/
def slicePayload (cmd : RecordSliceCommand) : Payload :=
  ("executed_ms", toString cmd.executedMs) ::
    match cmd.checkpoint.failure.filter fun reason => reason ≠ "" with
    | some reason => [("failure_reason", reason)]
    | none => []

def limitEvents (cmd : RecordSliceCommand) : List ReservedEvent :=
  if cmd.limitReached then [{ eventType := .runLimitReached, payload := [("reason", cmd.limitValve)] }] else []

/-- A Run that was sent back to the queue and is not to be taken again at once. -/
def heldOff (cmd : RecordSliceCommand) (now : Time) (row : RunRow) : RunRow :=
  match cmd.retryAfterSeconds with
  | some n => if row.status = .queued then { row with claimableAfter := some (now + seconds n) } else row
  | none => row

/-- The half of `record_slice` that ends the slice. -/
def endSlice (env : Env) (cmd : RecordSliceCommand) (signal : RunSignal) : StoreTx Unit := do
  decideAndWrite env cmd.runId signal
    { pauseReason := cmd.pauseReason, waitKind := cmd.waitKind, waitPolicy := cmd.waitPolicy
      waitDeadlineAt := cmd.waitSeconds.map fun n => env.now + seconds n
      payload := slicePayload cmd, extraEvents := limitEvents cmd ++ cmd.events }
  modifyRun cmd.runId (heldOff cmd env.now)
  releaseLease env cmd.runId

/-- Persist one slice's checkpoint, accounting, state change, and lease. Ownership is the lease id,
not the renewal counter and not its expiry. -/
def recordSlice (env : Env) (cmd : RecordSliceCommand) : StoreTx Unit := do
  let run ← lockRun cmd.workspaceId cmd.runId .unknownRun
  let _ ← lockLease cmd.runId cmd.leaseId fun _ => true
  Tx.require (run.stateVersion = cmd.expectedStateVersion) .stateVersionConflict
  let _ ← lockSession cmd.workspaceId run.sessionId
  modifyRun cmd.runId (checkpointed cmd env.now)
  appendMessages run.sessionId cmd.runId cmd.appended
  consumeBudget run.budgetRootRunId cmd.executedMs cmd.modelCalls cmd.tokens cmd.cost
  match cmd.signal with
  | none => appendEvents env cmd.workspaceId cmd.runId cmd.events
  | some signal => endSlice env cmd signal

/-- `Worker._record`: the slice, and for a cancellation its end in the same transaction. -/
def recordRound (env : Env) (cmd : RecordSliceCommand) : StoreTx Unit := do
  recordSlice env cmd
  Tx.onlyIf (cmd.signal = some .safeCancelStarted)
    (applySignal env { workspaceId := cmd.workspaceId, runId := cmd.runId, signal := .safeCancelFinished })

/-- A candidate revision of a Session's workspace, and the slice that is committed with it. -/
structure CommitCheckpoint where
  workspaceId : Uuid
  sessionId : Uuid
  baseRevisionId : Option Uuid
  revisionId : Uuid
  slice : RecordSliceCommand

/-- `_commit_once`: the transcript and the pointer move together, or the candidate is a conflict. -/
def commitCheckpoint (env : Env) (commit : CommitCheckpoint) : StoreTx Bool := do
  let session ← lockSession commit.workspaceId commit.sessionId
  if session.workspaceRevisionId ≠ commit.baseRevisionId then pure false
  else do
    mint commit.revisionId
    modifySession commit.sessionId fun row => { row with workspaceRevisionId := some commit.revisionId }
    recordSlice env commit.slice
    modifyRun commit.slice.runId fun row => { row with checkpointWorkspaceRevisionId := some commit.revisionId }
    pure true

/-- The history of `execution_context`: a persistent Session hands over everything said in it, an ephemeral
one only the Run's own turns. -/
def executionHistory (s : Store) (runId : Uuid) : List CanonicalMessage :=
  match s.runs.lookup runId with
  | none => []
  | some run =>
    let own : Bool := match s.sessions.lookup run.sessionId with
      | none => true
      | some owning => owning.sessionMode = .ephemeral
    let found := s.messages.filter fun m =>
      m.sessionId = run.sessionId && m.withdrawnAt.isNone && (!own || m.sourceRunId = some runId)
    (found.mergeSort fun m n => m.sequence ≤ n.sequence).map (·.message)

end TinyHermes.Runs.SqlRunStore
