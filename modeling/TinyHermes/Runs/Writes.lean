import TinyHermes.Runs.Tables

/-! The statements every store operation is built from: draws, single-row updates, the allocators, and the one place a
`StateDecision` becomes a row. -/
namespace TinyHermes.Runs.SqlRunStore
open Lib StateMachine

/-- What a transaction sees besides its own rows: the other tables, and one reading of the clock. -/
structure Env where
  catalog : Catalog
  now : Time

def idempotencyRetention : Int := seconds (24 * 3600)

def maxChildSummary : Nat := 4000

/-- `uuid4()` returned `id`; it never returns the same value twice. -/
def mint (id : Uuid) : StoreTx Unit := do
  let s ← get
  Tx.require (id ∉ s.drawn) .integrity
  Tx.write fun s => { s with drawn := id :: s.drawn }

def modifyRun (runId : Uuid) (f : RunRow → RunRow) : StoreTx Unit :=
  Tx.write fun s => { s with runs := s.runs.modify runId f }

def modifySession (sessionId : Uuid) (f : SessionRow → SessionRow) : StoreTx Unit :=
  Tx.write fun s => { s with sessions := s.sessions.modify sessionId f }

def insertSession (sessionId : Uuid) (row : SessionRow) : StoreTx Unit := do
  let s ← get
  Tx.require (s.sessions.lookup sessionId = none) .integrity
  Tx.write fun s => { s with sessions := s.sessions.insert sessionId row }

def insertRun (runId : Uuid) (row : RunRow) : StoreTx Unit := do
  let s ← get
  Tx.require (s.runs.lookup runId = none) .integrity
  Tx.write fun s => { s with runs := s.runs.insert runId row }

/-- `_lock_run`: the Run of that id in that workspace. -/
def lockRun (workspaceId runId : Uuid) (missing : StoreError) : StoreTx RunRow :=
  Tx.fetch (fun s => (s.runs.lookup runId).filter fun run => run.workspaceId = workspaceId) missing

/-- `_lock_session`: the Session of that id in that workspace. -/
def lockSession (workspaceId sessionId : Uuid) : StoreTx SessionRow :=
  Tx.fetch (fun s => (s.sessions.lookup sessionId).filter fun session => session.workspaceId = workspaceId)
    .unknownSession

/-- Reserve a range of sequence numbers and write the events under it. -/
def appendEvents (env : Env) (workspaceId runId : Uuid) (events : List ReservedEvent) : StoreTx Unit :=
  if events = [] then pure ()
  else do
    let run ← lockRun workspaceId runId .unknownSession
    modifyRun runId fun row => { row with nextEventSequence := row.nextEventSequence + events.length }
    Tx.write fun s => { s with
      events := s.events ++ events.zipIdx.map fun (event, offset) =>
        { runId, sequence := run.nextEventSequence + offset, event, occurredAt := env.now } }

def appendMessage (sessionId : Uuid) (sourceRunId : Uuid) (message : CanonicalMessage) : StoreTx Unit := do
  let session ← Tx.fetch (·.sessions.lookup sessionId) .unknownSession
  Tx.write fun s => { s with
    messages := s.messages ++ [{ sessionId, sequence := session.nextMessageSequence, message, sourceRunId }] }
  modifySession sessionId fun row => { row with nextMessageSequence := row.nextMessageSequence + 1 }

def appendMessages (sessionId sourceRunId : Uuid) (messages : List CanonicalMessage) : StoreTx Unit :=
  Tx.forEach messages (appendMessage sessionId sourceRunId)

/-- `ON CONFLICT DO NOTHING`: granting twice is ordinary. -/
def grantArtifact (artifactId runId : Uuid) : StoreTx Unit :=
  Tx.write fun s =>
    if { artifactId, runId } ∈ s.grants then s else { s with grants := { artifactId, runId } :: s.grants }

/-- `_release_lease`: nothing happens when the lease is already released. -/
def releaseLease (env : Env) (runId : Uuid) : StoreTx Unit :=
  Tx.write fun s => { s with
    leases := s.leases.modify runId fun lease =>
      if lease.releasedAt = none then { lease with releasedAt := some env.now } else lease }

/-- `_apply_decision`: exactly what the state machine returned and nothing else. -/
def applyDecision (run : RunRow) (d : StateDecision) (now : Time) : RunRow :=
  { run with
    queuedAt := if d.state = .queued ∧ run.status ≠ .queued then now else run.queuedAt
    status := d.state
    pauseReason := d.pauseReason
    waitKind := d.waitKind
    waitDeadlineAt := d.waitDeadlineAt
    pauseRequestedAt :=
      if d.clearPauseRequest then none else if d.setPauseRequested then some now else run.pauseRequestedAt
    cancelRequestedAt :=
      if d.clearCancelRequest then none else if d.setCancelRequested then some now else run.cancelRequestedAt
    startedAt := if d.startsExecution ∧ run.startedAt = none then some now else run.startedAt
    finishedAt := if d.isTerminal then some now else run.finishedAt
    blockedByRunId := if d.isTerminal then none else run.blockedByRunId }

/-- The Session's unfinished Runs other than `runId`, the earliest first in line. -/
def successorCandidate (s : Store) (sessionId runId : Uuid) : Option (Uuid × RunRow) :=
  (s.runs.select fun id run => run.sessionId = sessionId && id ≠ runId && !run.status.isTerminal).argmin
    fun e => e.2.sessionSequence

def childResultFor (env : Env) (s : Store) (runId : Uuid) (run : RunRow) : ChildReport :=
  let said := s.messages.reverse.find? fun row =>
    row.sessionId = run.sessionId && row.message.role = .assistant && row.withdrawnAt.isNone
  let summary := (said.map fun row => row.message.text).getD ""
  { status := run.status
    summary := String.ofList (summary.toList.take maxChildSummary)
    summaryTruncated := decide (summary.length > maxChildSummary)
    summaryLength := summary.length
    failureReason := run.checkpoint.bind fun c => c.failure.filter fun reason => reason ≠ ""
    artifacts := (env.catalog.artifacts.filter fun a => a.runId = runId).map (·.id) }

def repointBlocked (env : Env) (sessionId runId : Uuid) (successor : Option Uuid) : StoreTx Unit :=
  Tx.write fun s => { s with
    runs := s.runs.mapRows fun id row =>
      if row.sessionId = sessionId ∧ row.blockedByRunId = some runId ∧ id ≠ successor.getD runId then
        { row with blockedByRunId := successor, updatedAt := env.now }
      else row }

/-- Hand the Session to `successor`, and re-point whoever was blocked by the Run that left. -/
def passHead (env : Env) (sessionId runId : Uuid) (successor : Option Uuid) : StoreTx Unit := do
  modifySession sessionId fun row => { row with headRunId := successor }
  Tx.forEach successor.toList fun next =>
    modifyRun next fun row => { row with blockedByRunId := none, updatedAt := env.now }
  repointBlocked env sessionId runId successor

/-- Close a Run out and hand the Session to the next eligible Run. -/
def terminalize (env : Env) (runId : Uuid) : StoreTx Unit := do
  let run ← Tx.fetch (·.runs.lookup runId) .unknownRun
  let s ← get
  modifyRun runId fun row =>
    if run.parentRunId.isSome ∧ run.delegationResult = none then
      { row with delegationResult := some (childResultFor env s runId run) }
    else row
  Tx.write fun s => { s with
    records := s.records.mapRows fun _ row =>
      if row.runId = some runId then { row with expiresAt := some (env.now + idempotencyRetention) } else row }
  let session ← Tx.fetch (·.sessions.lookup run.sessionId) .unknownSession
  if session.headRunId ≠ some runId then pure ()
  else do
    let s ← get
    passHead env run.sessionId runId ((successorCandidate s run.sessionId runId).map (·.1))

/-- What a signal brings along when it is turned into rows. -/
structure SignalArgs where
  pauseReason : Option PauseReason := none
  waitKind : Option String := none
  waitDeadlineAt : Option Time := none
  waitPolicy : Option WaitPolicy := none
  payload : Payload := []
  extraEvents : List ReservedEvent := []

def stateView (run : RunRow) (budget : RunBudgetScopeRow) (now : Time) : RunStateView where
  state := run.status
  pauseRequested := run.pauseRequestedAt.isSome
  cancelRequested := run.cancelRequestedAt.isSome
  budgetAllowsExecution := budget.summary.allowsExecution now

def decidedRow (run : RunRow) (d : StateDecision) (waitPolicy : Option WaitPolicy) (now : Time) : RunRow :=
  { applyDecision run d now with
    waitPolicy := if d.waitKind = none then none else waitPolicy
    stateVersion := run.stateVersion + 1
    updatedAt := now }

/-- Turn one signal into rows. The only place a `StateDecision` becomes a database write. -/
def decideAndWrite (env : Env) (runId : Uuid) (signal : RunSignal) (args : SignalArgs) : StoreTx Unit := do
  let run ← Tx.fetch (·.runs.lookup runId) .unknownRun
  let budget ← Tx.fetch (·.budgets.lookup run.budgetRootRunId) .unknownRun
  let d ← Tx.lift ((RunStateMachine.decide (stateView run budget env.now) signal args.pauseReason args.waitKind
    args.waitDeadlineAt).mapError .state)
  modifyRun runId fun row => decidedRow row d args.waitPolicy env.now
  Tx.onlyIf (d.isTerminal = true) (terminalize env runId)
  appendEvents env run.workspaceId runId ({ eventType := .ofSignal signal, payload := args.payload } :: args.extraEvents)

end TinyHermes.Runs.SqlRunStore
