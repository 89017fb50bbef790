import TinyHermes.Runs.SlicePolicy
import TinyHermes.Runs.Slices

/-! The Scheduler's own transactions: reclaiming, recovering, waking, expiring, settling children, repairing heads, each of one
Run or Session of a scan. -/
namespace TinyHermes.Runs.SqlRunStore
open Lib Interruption SlicePolicy

/-- The Run a scan named, with its Session, when the transition the scan looked for still applies. -/
def sweepRun (runId : Uuid) (applies : RunRow → Bool) (unchanged : α) (sweep : RunRow → SessionRow → StoreTx α) :
    StoreTx α := do
  let s ← get
  match (s.runs.lookup runId).filter applies with
  | none => pure unchanged
  | some run =>
    match (s.sessions.lookup run.sessionId).filter fun session => session.workspaceId = run.workspaceId with
    | none => pure unchanged
    | some session => sweep run session

def reclaimExpiredLease (env : Env) (runId : Uuid) : StoreTx Unit :=
  sweepRun runId (fun run => !run.status.isTerminal) () fun _ _ => do
    releaseLease env runId
    decideAndWrite env runId .interrupted { payload := [("reason", "lease_expired")] }

/-- `_tell_interrupted_round`: put the round a lost Worker was in into the transcript. -/
def tellInterruptedRound (runId : Uuid) (run : RunRow) : StoreTx (Option String) :=
  match run.inflightRound with
  | none => pure none
  | some sending => do
    let (turn, answers) ← Tx.fetch (fun _ => toldAfterInterruption sending) .valueError
    appendMessages run.sessionId runId [turn, answers]
    modifyRun runId fun row => { row with
      interruptedWrites :=
        match sending.idempotencyKey, sending.fingerprint with
        | some key, some fp => row.interruptedWrites ++ [{ fingerprint := fp, idempotencyKey := key }]
        | _, _ => row.interruptedWrites
      inflightRound := none
      checkpointEffectStatus := .none }
    pure (some sending.callId)

def revisionAgrees (run : RunRow) (session : SessionRow) : Bool :=
  run.checkpointWorkspaceRevisionId.isNone || run.checkpointWorkspaceRevisionId = session.workspaceRevisionId

/-- Not told when the revisions disagree: the round's changes may then have been committed, and the
account would say they were not. -/
def tellIfAgreed (runId : Uuid) (run : RunRow) (session : SessionRow) : StoreTx (Option String) :=
  if revisionAgrees run session then tellInterruptedRound runId run else pure none

/-- What makes going back to the queue safe, once the interrupted round has been told. -/
def replaySafe (env : Env) (run : RunRow) (session : SessionRow) (budget : RunBudgetScopeRow) (maxAttempts : Nat) :
    Bool :=
  run.checkpointReplaySafe && revisionAgrees run session && run.checkpointEffectStatus ≠ .unknown &&
    budget.summary.allowsExecution env.now && run.recoveryAttempts < maxAttempts

/-- A recovery that goes back to the queue counts as an attempt. -/
def attempted (safe : Bool) (row : RunRow) : RunRow :=
  if safe then { row with recoveryAttempts := row.recoveryAttempts + 1 } else row

def recoverInterrupted (env : Env) (runId : Uuid) (maxAttempts : Nat) : StoreTx (Option RunState) :=
  sweepRun runId (fun run => run.status = .interrupted && run.workspaceCleanupTarget.isNone) none
    fun run session => do
      let s ← get
      match s.budgets.lookup run.budgetRootRunId with
      | none => pure none
      | some budget => do
        let told ← tellIfAgreed runId run session
        let current ← Tx.fetch (·.runs.lookup runId) .unknownRun
        let safe := replaySafe env current session budget maxAttempts
        modifyRun runId (attempted safe)
        decideAndWrite env runId (if safe then .recoveryApproved else .recoveryFailed)
          { payload := ("replay_safe", toString current.checkpointReplaySafe) ::
              (told.map fun callId => ("interrupted_call_id", callId)).toList }
        let after ← Tx.fetch (·.runs.lookup runId) .unknownRun
        pure (some after.status)

/-- A timer that came due. Back to the queue, not into a pause. -/
def wakeExternalWait (env : Env) (runId : Uuid) : StoreTx Unit :=
  sweepRun runId (fun run => run.status = .waitingExternal) () fun _ _ =>
    decideAndWrite env runId .externalReady { payload := [("reason", "wait_timer_elapsed")] }

def timeOutExternalWait (env : Env) (runId : Uuid) : StoreTx Unit :=
  sweepRun runId (fun run => run.status = .waitingExternal) () fun _ _ =>
    decideAndWrite env runId .externalPaused
      { pauseReason := some .externalTimeout, payload := [("reason", "wait_deadline_passed")] }

/-- Nobody answered the approval. The Run is moved only if it is still waiting. -/
def expireApproval (env : Env) (approvalId runId : Uuid) : StoreTx Unit :=
  sweepRun runId (fun run => run.status = .waitingApproval) () fun _ _ =>
    decideAndWrite env runId .approvalPaused
      { pauseReason := some .approvalExpired, payload := [("approval_id", toString approvalId)] }

def cancelAgedCompatTimeout (env : Env) (runId : Uuid) : StoreTx Unit :=
  sweepRun runId (fun run => run.status = .paused && run.pauseReason = some .compatTimeout) () fun _ _ =>
    decideAndWrite env runId .cancelRequested { payload := [("reason", "compat_timeout_aged_out")] }

def cancelChild (env : Env) (runId : Uuid) (reason : String) : StoreTx Unit :=
  sweepRun runId (fun run => !run.status.isTerminal) () fun _ _ =>
    decideAndWrite env runId .cancelRequested { payload := [("reason", reason)] }

/-- The Runs a parent delegated, in the order the source reads them. -/
def childrenOf (s : Store) (parentRunId : Uuid) (p : RunRow → Bool) : List Uuid :=
  ((s.runs.select fun _ run => run.parentRunId = some parentRunId && p run).mergeSort fun a b =>
    a.2.createdAt < b.2.createdAt || (a.2.createdAt = b.2.createdAt && a.1 ≤ b.1)).map (·.1)

/-- `child_report_line`: the one line a parent reads about one finished child. -/
def childReportLine (childId : Uuid) (report : Option ChildReport) (fallback : RunState) : String :=
  let status := (report.map (·.status)).getD fallback
  let summary := Text.strip ((report.map (·.summary)).getD "")
  let said := if summary = "" then "It reported nothing." else summary
  let cut := match report.filter fun r => r.summaryTruncated with
    | some r => s!" […the report was cut: only its first {maxChildSummary} of {r.summaryLength} characters are shown]"
    | none => ""
  let reason := match (report.bind (·.failureReason)).filter fun _ => status ≠ .completed with
    | some reason => s!" (reason: {reason})"
    | none => ""
  let handed := (report.map (·.artifacts)).getD []
  let files := if handed = [] then "" else " Files: " ++ ", ".intercalate (handed.map toString) ++ "."
  s!"- {childId} [{stateName status}]: " ++ said ++ cut ++ reason ++ files
where
  stateName : RunState → String
    | .queued => "queued" | .running => "running" | .waitingApproval => "waiting_approval"
    | .waitingExternal => "waiting_external" | .paused => "paused" | .cancelling => "cancelling"
    | .interrupted => "interrupted" | .completed => "completed" | .failed => "failed" | .cancelled => "cancelled"

/-- `_deliver_child_results`: one platform turn carrying every child's report, once. -/
def deliverChildResults (env : Env) (parentRunId : Uuid) (parent : RunRow) (children : List Uuid) : StoreTx Unit := do
  let s ← get
  let rows := children.filterMap fun id => (s.runs.lookup id).map fun row => (id, row)
  Tx.forEach (rows.flatMap fun (_, row) => (row.delegationResult.map (·.artifacts)).getD []) fun id =>
    grantArtifact id parentRunId
  Tx.forEach children fun id => modifyRun id fun row => { row with resultDeliveredAt := some env.now }
  appendMessage parent.sessionId parentRunId
    { role := .user, byPlatform := true, blocks_ne := by simp
      blocks := [.text ("The Agents you delegated to have finished. This is everything they " ++
        "reported; you cannot see how they worked.\n" ++
        "\n".intercalate (rows.map fun (id, row) => childReportLine id row.delegationResult row.status))] }

def finishedAmong (s : Store) (children : List Uuid) (p : RunState → Bool) : List Uuid :=
  children.filter fun id => (s.runs.lookup id).any fun row => p row.status

/-- Deliver the finished children's reports and put the parent back in the queue. -/
def wakeParent (env : Env) (parentRunId : Uuid) (parent : RunRow) (policy : WaitPolicy) (finished succeeded : List Uuid) :
    StoreTx Bool := do
  deliverChildResults env parentRunId parent finished
  decideAndWrite env parentRunId .externalReady
    { payload := [("reason", "children_settled"), ("wait", if policy = .all then "all" else "any"),
        ("children", toString finished.length), ("succeeded", toString succeeded.length)] }
  pure true

def settleChildren (env : Env) (parentRunId : Uuid) (parent : RunRow) : StoreTx Bool := do
  let s ← get
  let children := childrenOf s parentRunId fun run => run.resultDeliveredAt.isNone
  let policy := parent.waitPolicy.getD .all
  let finished := finishedAmong s children RunState.isTerminal
  let succeeded := finishedAmong s children fun status => status = .completed
  if children = [] then pure false
  else if policy = .any ∧ succeeded ≠ [] then do
    -- cancelled before delivering, so that the answer reflects what happened to the siblings
    Tx.forEach children fun id => cancelChild env id "sibling_succeeded"
    let s ← get
    wakeParent env parentRunId parent policy (finishedAmong s children RunState.isTerminal) succeeded
  else if finished.length ≠ children.length then pure false
  else wakeParent env parentRunId parent policy finished succeeded

/-- Hand over what the children finished, and wake the parent if it is time. -/
def settleChildWait (env : Env) (parentRunId : Uuid) : StoreTx Bool :=
  sweepRun parentRunId (fun run => run.status = .waitingExternal && run.waitKind = some waitChildRuns) false
    fun parent _ => settleChildren env parentRunId parent

def cascadeCancelChildren (env : Env) (parentRunId : Uuid) : StoreTx Unit := do
  let s ← get
  match (s.runs.lookup parentRunId).filter fun run => run.status.isTerminal with
  | none => pure ()
  | some _ =>
    Tx.forEach (childrenOf s parentRunId fun run => !run.status.isTerminal) fun id =>
      cancelChild env id "parent_terminated"

structure RepairResult where
  changed : Bool
  headRunId : Option Uuid
  deriving DecidableEq, Repr

def liveRuns (s : Store) (sessionId : Uuid) : List (Uuid × RunRow) :=
  (s.runs.select fun _ run => run.sessionId = sessionId && !run.status.isTerminal).mergeSort fun a b =>
    a.2.sessionSequence ≤ b.2.sessionSequence

theorem mem_liveRuns {s : Store} {sessionId id : Uuid} {row : RunRow} :
    (id, row) ∈ liveRuns s sessionId ↔
      s.runs.lookup id = some row ∧ row.sessionId = sessionId ∧ row.status.isTerminal = false := by
  rw [liveRuns, List.mem_mergeSort, Table.mem_select]
  simp

theorem liveRuns_sorted (s : Store) (sessionId : Uuid) :
    (liveRuns s sessionId).Pairwise fun a b => a.2.sessionSequence ≤ b.2.sessionSequence := by
  refine (List.pairwise_mergeSort ?_ ?_ _).imp fun h => by simpa using h
  · intro a b _ hab hbc
    simp only [decide_eq_true_eq] at hab hbc ⊢
    exact hab.trans hbc
  · intro _ _
    simp only [Bool.or_eq_true, decide_eq_true_eq]
    exact le_total _ _

def repairSessionHead (env : Env) (sessionId : Uuid) : StoreTx RepairResult := do
  let session ← Tx.fetch (·.sessions.lookup sessionId) .unknownSession
  let s ← get
  let candidates := liveRuns s sessionId
  let expectedHead := candidates.head?.map (·.1)
  let blocker (id : Uuid) : Option Uuid := if some id = expectedHead then none else expectedHead
  let wrong := candidates.filter fun (id, run) => run.blockedByRunId ≠ blocker id
  if session.headRunId = expectedHead ∧ wrong = [] then pure { changed := false, headRunId := none }
  else do
    Tx.forEach wrong fun (id, _) => modifyRun id fun row =>
      { row with blockedByRunId := blocker id, updatedAt := env.now }
    modifySession sessionId fun row => { row with headRunId := expectedHead }
    Tx.forEach expectedHead.toList fun head =>
      appendEvents env session.workspaceId head [{ eventType := .sessionHeadRepaired }]
    pure { changed := true, headRunId := expectedHead }

end TinyHermes.Runs.SqlRunStore
