import TinyHermes.Runs.Worker

/-! `_execute_slice` as the rest of the platform sees it: any number of slices, each between two of its transactions. A Worker may
stop at any point. -/
namespace TinyHermes.Runs.Worker
open Lib Tx SqlRunStore SlicePolicy Interruption

section Turns

/-- `CanonicalMessage("tool", results)`, which cannot be built from nothing. -/
def toolTurn (results : List ToolResultBlock) : Option CanonicalMessage :=
  if h : results.map Block.toolResult ≠ [] then
    some { role := .tool, blocks := results.map Block.toolResult, blocks_ne := h }
  else none

def platformSays (instruction : String) : CanonicalMessage where
  role := .user
  blocks := [.text instruction]
  byPlatform := true
  blocks_ne := text_alone_ne instruction

def noteFirst (message : String) : List Block → List Block
  | [] => []
  | .toolResult result :: rest => .toolResult { result with output := message ++ "\n\n" ++ result.output } :: rest
  | block :: rest => block :: noteFirst message rest

theorem noteFirst_ne {message : String} {blocks : List Block} (h : blocks ≠ []) : noteFirst message blocks ≠ [] := by
  cases blocks with
  | nil => exact absurd rfl h
  | cons block => cases block <;> simp [noteFirst]

/-- `_with_notes`. -/
def withNotes (notes : List String) : List CanonicalMessage → List CanonicalMessage
  | [] => []
  | turn :: rest =>
    if turn.role = .tool then
      { role := turn.role, blocks := noteFirst ("\n".intercalate notes) turn.blocks,
        blocks_ne := noteFirst_ne turn.blocks_ne } ::
        (if turn.results = [] then withNotes notes rest else rest)
    else turn :: withNotes notes rest

def rolledBack (reason : String) : Block → Block
  | .toolResult result =>
    .toolResult
      { callId := result.callId, output := "rolled back: " ++ reason, exitCode := 126, failed := true,
        callId_ne := result.callId_ne }
  | block => block

/-- `_with_rollback_results`: every tool answer replaced by the rollback, under its own call id. -/
def withRollbackResults (reason : String) (appended : List CanonicalMessage) : List CanonicalMessage :=
  appended.map fun message =>
    if message.role = .tool then
      { role := .tool, blocks := message.blocks.map (rolledBack reason), blocks_ne := by simp [message.blocks_ne] }
    else message

/-- What a round of calls leaves in the transcript: the model's turn, the answers, the notes of a fresh sandbox, and the
platform's instruction for the next. -/
def roundTurns (turn answers : CanonicalMessage) (notes : List String) (instruction : Option String) :
    List CanonicalMessage :=
  (if notes = [] then [turn, answers] else withNotes notes [turn, answers]) ++ (instruction.map platformSays).toList

end Turns

/-- Where a slice stands between two of its transactions. -/
inductive Phase where
  /-- Between rounds, or while the model is being asked. -/
  | between
  /-- In `_answer_tools`: the model's turn, the answers so far, the calls still to answer, and whether the
  first of those is on its way outside. -/
  | answering (turn : CanonicalMessage) (results : List ToolResultBlock) (rest : List ToolCallBlock) (sent : Bool)
  /-- After a commit or a rollback: the `_apply`s still to make. -/
  | applying (commands : List ApplySignalCommand)

structure Slice where
  workspaceId : Uuid
  sessionId : Uuid
  runId : Uuid
  phase : Phase := .between

structure World where
  store : Store := {}
  slices : Table Uuid Slice := ∅

abbrev WorldTx := Tx World StoreError

/-- A call that `reserve_outside_call` charged: the turn that asked for it, and its id there. -/
structure OutsideCall where
  runId : Uuid
  turn : CanonicalMessage
  callId : String
  deriving DecidableEq

def onStore {α : Type} (x : StoreTx α) : WorldTx α :=
  fun w => match x w.store with
    | .ok (a, s) => .ok (a, { w with store := s })
    | .error e => .error e

theorem onStore_bind_ok {α β : Type} {x : StoreTx α} {f : α → WorldTx β} {w w' : World} {b : β} :
    (onStore x >>= f) w = .ok (b, w') ↔
      ∃ a s, x w.store = .ok (a, s) ∧ f a { w with store := s } = .ok (b, w') := by
  rw [bind_ok]
  cases hx : x w.store with
  | error => simp [onStore, hx]
  | ok r =>
    obtain ⟨_, _⟩ := r
    simp [onStore, hx]

def setPhase (leaseId : Uuid) (phase : Phase) : WorldTx Unit :=
  write fun w => { w with slices := w.slices.modify leaseId fun slice => { slice with phase } }

/-- The Worker is done with the slice, or the process is gone. -/
def leave (leaseId : Uuid) : WorldTx Unit := write fun w => { w with slices := w.slices.erase leaseId }

def sliceOf (leaseId : Uuid) : WorldTx Slice := fetch (·.slices.lookup leaseId) .leaseLost

/-- `_claim`. -/
def claim (env : Env) (cmd : ClaimRunCommand) (leaseId : Uuid) : WorldTx Unit := do
  match ← onStore (claimHead env cmd leaseId) with
  | none => pure ()
  | some claimed => do
    let row ← fetch (·.store.runs.lookup claimed.runId) .unknownRun
    write fun w =>
      { w with
        slices := w.slices.insert leaseId
          { workspaceId := row.workspaceId, sessionId := row.sessionId, runId := claimed.runId } }

/-- The model asked for tools: `_answer_tools` begins. -/
def respond (leaseId : Uuid) (turn : CanonicalMessage) : WorldTx Unit := do
  let slice ← sliceOf leaseId
  match slice.phase with
  | .between => do
    require (turn.role = .assistant) .valueError
    setPhase leaseId (.answering turn [] turn.calls false)
  | _ => throw .valueError

/-- The next call has its answer, from wherever it was run. -/
def answer (leaseId : Uuid) (result : ToolResultBlock) : WorldTx Unit := do
  let slice ← sliceOf leaseId
  match slice.phase with
  | .answering turn results (call :: rest) _ => do
    require (result.callId = call.callId) .valueError
    setPhase leaseId (.answering turn (results ++ [result]) rest false)
  | _ => throw .valueError

def budgetRefusal (call : ToolCallBlock) : ToolResultBlock where
  callId := call.callId
  output := "refused: tool_budget_exceeded"
  exitCode := 126
  failed := true
  callId_ne := call.callId_ne

/-- `reserve_outside` for the next call: charged and written down before anything is sent, or refused. -/
def send (env : Env) (leaseId : Uuid) (fingerprint : Option String) (newKey : Uuid) : WorldTx (Option OutsideCall) := do
  let slice ← sliceOf leaseId
  match slice.phase with
  | .answering turn results (call :: rest) false => do
    let recorded ← onStore (reserveOutsideCall env slice.workspaceId slice.runId leaseId
      { assistant := turn, finished := results, callId := call.callId, fingerprint } newKey)
    match recorded with
    | some _ => do
      setPhase leaseId (.answering turn results (call :: rest) true)
      pure (some { runId := slice.runId, turn, callId := call.callId })
    | none => do
      setPhase leaseId (.answering turn (results ++ [budgetRefusal call]) rest false)
      pure none
  | _ => throw .valueError

/-- The decision that is written, `INTERRUPTED` when the sandbox could not be frozen, kept or destroyed. -/
def closing (closed : Bool) (decision : SliceDecision) : SliceDecision :=
  if closed then decision else { signal := some .interrupted }

def commandOf (slice : Slice) (leaseId : Uuid) (round : Round) (decision : SliceDecision)
    (appended : List CanonicalMessage) : RecordSliceCommand :=
  sliceCommand
    { round with workspaceId := slice.workspaceId, runId := slice.runId, leaseId := leaseId, appended := appended }
    decision

/-- `_record`, and what is left for the slice to do after it. -/
def recordAs (env : Env) (leaseId : Uuid) (cmd : RecordSliceCommand) (next : List ApplySignalCommand) : WorldTx Unit := do
  onStore (recordRound env cmd)
  match cmd.signal, next with
  | none, _ => setPhase leaseId .between
  | some _, [] => leave leaseId
  | some _, next => setPhase leaseId (.applying next)

structure Answered where
  turn : CanonicalMessage
  answers : CanonicalMessage

def answeredRound (slice : Slice) : Option Answered :=
  match slice.phase with
  | .answering turn results [] _ => (toolTurn results).map fun answers => { turn, answers }
  | _ => none

def recordCalls (env : Env) (leaseId : Uuid) (round : Round) (outcome : RoundOutcome) (closed : Bool)
    (notes : List String) (instruction : Option String) : WorldTx Unit := do
  let slice ← sliceOf leaseId
  let done ← fetch (fun _ => answeredRound slice) .valueError
  let decision := closing closed (decideAfterRound env.now { outcome with approval := none })
  recordAs env leaseId
    (commandOf slice leaseId round decision (roundTurns done.turn done.answers notes instruction)) []

/-- A round that asked for no tool: what the model said, if it said anything. -/
def recordWords (env : Env) (leaseId : Uuid) (round : Round) (outcome : RoundOutcome) (closed : Bool)
    (said : Option CanonicalMessage) (instruction : Option String) : WorldTx Unit := do
  let slice ← sliceOf leaseId
  match slice.phase with
  | .between =>
    recordAs env leaseId
      (commandOf slice leaseId round (closing closed (decideAfterRound env.now outcome))
        (said.toList ++ (instruction.map platformSays).toList)) []
  | _ => throw .valueError

/-- The signals a slice stops with before a round's calls are answered: a valve, a sandbox that is not to
be had, a compaction that is done. -/
def stopSignals : List RunSignal := [.safePauseReached, .sliceEnded, .interrupted, .failed, .completed]

def stop (env : Env) (leaseId : Uuid) (round : Round) (decision : SliceDecision) : WorldTx Unit := do
  let slice ← sliceOf leaseId
  match slice.phase with
  | .between => do
    require (∀ signal ∈ decision.signal, signal ∈ stopSignals) .valueError
    recordAs env leaseId (commandOf slice leaseId round decision []) []
  | _ => throw .valueError

/-- `except SandboxGone`: interrupted, and nothing of the round is appended. -/
def sandboxGone (env : Env) (leaseId : Uuid) (round : Round) : WorldTx Unit := do
  let slice ← sliceOf leaseId
  match slice.phase with
  | .answering _ _ (_ :: _) _ =>
    recordAs env leaseId (commandOf slice leaseId round { signal := some .interrupted } []) []
  | _ => throw .valueError

/-- A call turned out to need a person: nothing the round produced is kept. -/
def askApproval (env : Env) (leaseId : Uuid) (round : Round) (check : ApprovalCheck) (outcome : RoundOutcome)
    (closed : Bool) (instruction : Option String) : WorldTx Unit := do
  let slice ← sliceOf leaseId
  match slice.phase with
  | .answering _ _ (_ :: _) false =>
    recordAs env leaseId
      (commandOf slice leaseId round
        (closing closed (decideAfterRound env.now { outcome with approval := some check }))
        (instruction.map platformSays).toList) []
  | _ => throw .valueError

/-- The `_apply`s of `_dispose_after_commit`. -/
def disposal (slice : Slice) (decision : SliceDecision) (closed : Bool) : List ApplySignalCommand :=
  let command (signal : RunSignal) (pauseReason : Option PauseReason) : ApplySignalCommand :=
    { workspaceId := slice.workspaceId, runId := slice.runId, signal, pauseReason }
  if closed then
    match decision.signal with
    | none => []
    | some signal =>
      command signal decision.pauseReason ::
        (if signal = .safeCancelStarted then [command .safeCancelFinished none] else [])
  else [command .interrupted none]

/-- `_checkpoint_round` up to its commit. A conflict commits nothing and leaves the round to be rolled back. -/
def commitCalls (env : Env) (leaseId : Uuid) (round : Round) (outcome : RoundOutcome) (closed : Bool)
    (notes : List String) (instruction : Option String) (base : Option Uuid) (revision : Uuid) : WorldTx Unit := do
  let slice ← sliceOf leaseId
  let done ← fetch (fun _ => answeredRound slice) .valueError
  let decision := decideAfterRound env.now { outcome with approval := none }
  let committed ← onStore (commitCheckpoint env
    { workspaceId := slice.workspaceId, sessionId := slice.sessionId, baseRevisionId := base, revisionId := revision
      slice := commandOf slice leaseId round (interim decision) (roundTurns done.turn done.answers notes instruction) })
  match committed, disposal slice decision closed with
  | false, _ => pure ()
  | true, [] => setPhase leaseId .between
  | true, commands => setPhase leaseId (.applying commands)

/-- What `_roll_back_round` confirms once the sandbox is gone. -/
def confirmation (slice : Slice) (target : Option WorkspaceCleanupTarget) (sandboxId : Uuid) :
    List ApplySignalCommand :=
  match target with
  | some .pausedLimit =>
    [{ workspaceId := slice.workspaceId, runId := slice.runId, signal := .limitCleanupConfirmed
       pauseReason := some .limit, confirmedSandboxId := some sandboxId }]
  | some .failedConflict =>
    [{ workspaceId := slice.workspaceId, runId := slice.runId, signal := .recoveryFailed
       confirmedSandboxId := some sandboxId }]
  | _ => []

/-- `_roll_back_round`: the round is recorded as undone, with where the Run goes once that is confirmed. -/
def rollBack (env : Env) (leaseId : Uuid) (round : Round) (notes : List String) (instruction : Option String)
    (reason : String) (target : Option WorkspaceCleanupTarget) (sandboxId : Uuid) : WorldTx Unit := do
  let slice ← sliceOf leaseId
  let done ← fetch (fun _ => answeredRound slice) .valueError
  let rewritten := withRollbackResults reason (roundTurns done.turn done.answers notes instruction)
  recordAs env leaseId
    { commandOf slice leaseId round { signal := some .interrupted } rewritten with
      workspaceCleanupTarget := target
      workspaceCleanupSandboxId := if target.isSome then some sandboxId else none }
    (confirmation slice target sandboxId)

/-- The next `_apply`, in a transaction of its own, under no lease and no version. -/
def applyNext (env : Env) (leaseId : Uuid) : WorldTx Unit := do
  let slice ← sliceOf leaseId
  match slice.phase with
  | .applying (command :: rest) => do
    onStore (applySignal env command)
    match rest with
    | [] => leave leaseId
    | rest => setPhase leaseId (.applying rest)
  | _ => throw .valueError

/-- The transactions of the API and the Scheduler, and a Worker's two that no round depends on: its heartbeat and the charge for a
call that stays inside. -/
def besideSlices : Op → Bool
  | .claimHead .. | .reserveOutsideCall .. | .recordSlice .. | .recordRound .. | .commitCheckpoint .. => false
  | .applySignal cmd => cmd.signal ∈ [.approvalApproved, .approvalPaused, .limitCleanupConfirmed, .recoveryFailed]
  | .controlRun _ _ _ signal _ _ => signal ∈ [.pauseRequested, .resumeRequested, .cancelRequested]
  | _ => true

inductive Act where
  | beside (op : Op)
  | claim (cmd : ClaimRunCommand) (leaseId : Uuid)
  | respond (leaseId : Uuid) (turn : CanonicalMessage)
  | answer (leaseId : Uuid) (result : ToolResultBlock)
  | send (leaseId : Uuid) (fingerprint : Option String) (newKey : Uuid)
  | recordCalls (leaseId : Uuid) (round : Round) (outcome : RoundOutcome) (closed : Bool) (notes : List String)
      (instruction : Option String)
  | recordWords (leaseId : Uuid) (round : Round) (outcome : RoundOutcome) (closed : Bool)
      (said : Option CanonicalMessage) (instruction : Option String)
  | stop (leaseId : Uuid) (round : Round) (decision : SliceDecision)
  | sandboxGone (leaseId : Uuid) (round : Round)
  | askApproval (leaseId : Uuid) (round : Round) (check : ApprovalCheck) (outcome : RoundOutcome) (closed : Bool)
      (instruction : Option String)
  | commitCalls (leaseId : Uuid) (round : Round) (outcome : RoundOutcome) (closed : Bool) (notes : List String)
      (instruction : Option String) (base : Option Uuid) (revision : Uuid)
  | rollBack (leaseId : Uuid) (round : Round) (notes : List String) (instruction : Option String) (reason : String)
      (target : Option WorkspaceCleanupTarget) (sandboxId : Uuid)
  | applyNext (leaseId : Uuid)
  | crash (leaseId : Uuid)

/-- One transaction of one process, or one turn of a slice between two of them. -/
def act (env : Env) : Act → WorldTx (Option OutsideCall)
  | .beside op => do
    require (besideSlices op = true) .valueError
    let _ ← onStore (exec env op)
    pure none
  | .claim cmd leaseId => do claim env cmd leaseId; pure none
  | .respond leaseId turn => do respond leaseId turn; pure none
  | .answer leaseId result => do answer leaseId result; pure none
  | .send leaseId fingerprint newKey => send env leaseId fingerprint newKey
  | .recordCalls leaseId round outcome closed notes instruction => do
    recordCalls env leaseId round outcome closed notes instruction; pure none
  | .recordWords leaseId round outcome closed said instruction => do
    recordWords env leaseId round outcome closed said instruction; pure none
  | .stop leaseId round decision => do stop env leaseId round decision; pure none
  | .sandboxGone leaseId round => do sandboxGone env leaseId round; pure none
  | .askApproval leaseId round check outcome closed instruction => do
    askApproval env leaseId round check outcome closed instruction; pure none
  | .commitCalls leaseId round outcome closed notes instruction base revision => do
    commitCalls env leaseId round outcome closed notes instruction base revision; pure none
  | .rollBack leaseId round notes instruction reason target sandboxId => do
    rollBack env leaseId round notes instruction reason target sandboxId; pure none
  | .applyNext leaseId => do applyNext env leaseId; pure none
  | .crash leaseId => do leave leaseId; pure none

section Commits

inductive Commits (w : World) : Act → Op → Prop where
  | beside {op : Op} (h : besideSlices op = true) : Commits w (.beside op) op
  | claim {cmd : ClaimRunCommand} {leaseId : Uuid} : Commits w (.claim cmd leaseId) (.claimHead cmd leaseId)
  | send {leaseId newKey workspaceId runId : Uuid} {fingerprint : Option String} {sending : InFlightRound} :
      Commits w (.send leaseId fingerprint newKey) (.reserveOutsideCall workspaceId runId leaseId sending newKey)
  | record {a : Act} {cmd : RecordSliceCommand} : Commits w a (.recordRound cmd)
  | checkpoint {a : Act} {commit : CommitCheckpoint} (h : commit.slice.signal = none) :
      Commits w a (.commitCheckpoint commit)
  | apply {leaseId : Uuid} {slice : Slice} {command : ApplySignalCommand} {rest : List ApplySignalCommand}
      (hslice : w.slices.lookup leaseId = some slice) (hphase : slice.phase = .applying (command :: rest)) :
      Commits w (.applyNext leaseId) (.applySignal command)

variable {env : Env} {w w' : World} {leaseId : Uuid} {u : Unit}

def SameStore (w w' : World) : Prop := w'.store = w.store

instance : Std.Refl SameStore := ⟨fun _ => rfl⟩

instance : IsTrans World SameStore := ⟨fun _ _ _ h₁ h₂ => Eq.trans h₂ h₁⟩

theorem of_then_none {x : WorldTx Unit} {o : Option OutsideCall}
    (h : (x >>= fun _ => pure none : WorldTx (Option OutsideCall)) w = .ok (o, w')) : x w = .ok ((), w') := by
  obtain ⟨_, _, hx, hpure⟩ := bind_ok.mp h
  obtain ⟨_, rfl⟩ := pure_ok.mp hpure
  exact hx

theorem setPhase_same {phase : Phase} : Within SameStore (setPhase leaseId phase) := Within.write fun _ => rfl

theorem leave_same : Within SameStore (leave leaseId) := Within.write fun _ => rfl

theorem respond_same {turn : CanonicalMessage} : Within SameStore (respond leaseId turn) := by
  refine Within.bind (Within.fetch _ _) fun slice => ?_
  cases slice.phase with
  | between => exact Within.bind (Within.require _ _) fun _ => setPhase_same
  | answering => exact Within.throw _
  | applying => exact Within.throw _

theorem answer_same {result : ToolResultBlock} : Within SameStore (answer leaseId result) := by
  refine Within.bind (Within.fetch _ _) fun slice => ?_
  rcases slice.phase with _ | ⟨_, _, _ | _, _⟩ | _
  · exact Within.throw _
  · exact Within.throw _
  · exact Within.bind (Within.require _ _) fun _ => setPhase_same
  · exact Within.throw _

theorem claim_commits {cmd : ClaimRunCommand} (h : claim env cmd leaseId w = .ok (u, w')) :
    ∃ claimed, claimHead env cmd leaseId w.store = .ok (claimed, w'.store) := by
  obtain ⟨claimed, _, hhead, h⟩ := onStore_bind_ok.mp h
  cases claimed with
  | none =>
    obtain ⟨_, rfl⟩ := pure_ok.mp h
    exact ⟨none, hhead⟩
  | some claimed =>
    simp only [fetch_bind_ok, write_ok] at h
    obtain ⟨_, _, rfl⟩ := h
    exact ⟨some claimed, hhead⟩

theorem send_commits {fingerprint : Option String} {newKey : Uuid} {sent : Option OutsideCall}
    (h : send env leaseId fingerprint newKey w = .ok (sent, w')) :
    ∃ workspaceId runId sending recorded,
      reserveOutsideCall env workspaceId runId leaseId sending newKey w.store = .ok (recorded, w'.store) := by
  simp only [send, sliceOf, fetch_bind_ok] at h
  obtain ⟨slice, _, h⟩ := h
  rcases hphase : slice.phase with _ | ⟨_, _, _ | ⟨_, _⟩, _ | _⟩ | _ <;> rw [hphase] at h
  · exact absurd h throw_ok
  · exact absurd h throw_ok
  · exact absurd h throw_ok
  · obtain ⟨recorded, s₁, hreserve, h⟩ := onStore_bind_ok.mp h
    have hsame : s₁ = w'.store := by
      cases recorded <;> simp only [setPhase, write_bind, pure_ok] at h <;> rw [← h.2]
    rw [hsame] at hreserve
    exact ⟨_, _, _, recorded, hreserve⟩
  · exact absurd h throw_ok
  · exact absurd h throw_ok

theorem recordAs_commits {cmd : RecordSliceCommand} {next : List ApplySignalCommand}
    (h : recordAs env leaseId cmd next w = .ok (u, w')) : recordRound env cmd w.store = .ok ((), w'.store) := by
  obtain ⟨_, s₁, hround, h⟩ := onStore_bind_ok.mp h
  have hsame : w'.store = s₁ := by
    rcases hsignal : cmd.signal with _ | _ <;> rcases next with _ | ⟨_, _⟩ <;>
      simp only [hsignal, setPhase, leave, write_ok] at h <;> rw [h]
  rw [hsame]
  exact hround

theorem commitCalls_commits {round : Round} {outcome : RoundOutcome} {closed : Bool} {notes : List String}
    {instruction : Option String} {base : Option Uuid} {revision : Uuid}
    (h : commitCalls env leaseId round outcome closed notes instruction base revision w = .ok (u, w')) :
    ∃ commit moved, commit.slice.signal = none ∧ commitCheckpoint env commit w.store = .ok (moved, w'.store) := by
  simp only [commitCalls, sliceOf, fetch_bind_ok] at h
  obtain ⟨slice, _, _, _, h⟩ := h
  obtain ⟨moved, s₁, hcommit, h⟩ := onStore_bind_ok.mp h
  have hsame : s₁ = w'.store := by
    generalize disposal slice (decideAfterRound env.now { outcome with approval := none }) closed = commands at h
    rcases moved with _ | _ <;> rcases commands with _ | ⟨_, _⟩ <;>
      simp only [setPhase, write_ok, pure_ok] at h
    · rw [← h.2]
    · rw [← h.2]
    · rw [h]
    · rw [h]
  rw [hsame] at hcommit
  exact ⟨_, moved, rfl, hcommit⟩

theorem applyNext_commits (h : applyNext env leaseId w = .ok (u, w')) :
    ∃ slice command rest, w.slices.lookup leaseId = some slice ∧ slice.phase = .applying (command :: rest) ∧
      applySignal env command w.store = .ok ((), w'.store) := by
  simp only [applyNext, sliceOf, fetch_bind_ok] at h
  obtain ⟨slice, hslice, h⟩ := h
  rcases hphase : slice.phase with _ | _ | ⟨_ | ⟨command, rest⟩⟩ <;> rw [hphase] at h
  · exact absurd h throw_ok
  · exact absurd h throw_ok
  · exact absurd h throw_ok
  · refine ⟨slice, command, rest, hslice, hphase, ?_⟩
    obtain ⟨_, s₁, happly, h⟩ := onStore_bind_ok.mp h
    have hsame : w'.store = s₁ := by
      rcases rest with _ | ⟨_, _⟩ <;> simp only [leave, setPhase, write_ok] at h <;> rw [h]
    rw [hsame]
    exact happly

end Commits

def WorldStep (w : World) (i : Env × Act) (charged : Option OutsideCall) (w' : World) : Prop :=
  act i.1 i.2 w = .ok (charged, w')

theorem WorldStep.store_cases {w w' : World} {env : Env} {a : Act} {o : Option OutsideCall}
    (h : WorldStep w (env, a) o w') :
    w'.store = w.store ∨ ∃ op answer, Commits w a op ∧ exec env op w.store = .ok (answer, w'.store) := by
  have hrecorded {leaseId : Uuid} {cmd : RecordSliceCommand} {next : List ApplySignalCommand}
      (hrec : recordAs env leaseId cmd next w = .ok ((), w')) :
      ∃ op answer, Commits w a op ∧ exec env op w.store = .ok (answer, w'.store) :=
    ⟨.recordRound cmd, .done, .record, by rw [exec, bind_of_ok (recordAs_commits hrec)]; rfl⟩
  cases a with
  | beside op =>
    simp only [WorldStep, act, require_bind_ok, onStore_bind_ok, pure_ok] at h
    obtain ⟨hbeside, answer, _, hexec, _, rfl⟩ := h
    exact .inr ⟨op, answer, .beside hbeside, hexec⟩
  | claim cmd leaseId =>
    replace h := of_then_none h
    obtain ⟨claimed, hclaim⟩ := claim_commits h
    exact .inr ⟨_, .claimed claimed, .claim, by rw [exec, bind_of_ok hclaim]; rfl⟩
  | respond =>
    replace h := of_then_none h
    exact .inl (respond_same h)
  | answer =>
    replace h := of_then_none h
    exact .inl (answer_same h)
  | send =>
    obtain ⟨_, _, _, recorded, hreserve⟩ := send_commits h
    exact .inr ⟨_, .sent recorded, .send, by rw [exec, bind_of_ok hreserve]; rfl⟩
  | recordCalls =>
    replace h := of_then_none h
    simp only [recordCalls, sliceOf, fetch_bind_ok] at h
    obtain ⟨slice, _, done, _, hrec⟩ := h
    exact .inr (hrecorded hrec)
  | recordWords =>
    replace h := of_then_none h
    simp only [recordWords, sliceOf, fetch_bind_ok] at h
    obtain ⟨slice, _, h⟩ := h
    cases hphase : slice.phase <;> rw [hphase] at h
    · exact .inr (hrecorded h)
    · exact absurd h throw_ok
    · exact absurd h throw_ok
  | stop =>
    replace h := of_then_none h
    simp only [stop, sliceOf, fetch_bind_ok] at h
    obtain ⟨slice, _, h⟩ := h
    cases hphase : slice.phase <;> rw [hphase] at h
    · exact .inr (hrecorded (require_bind_ok.mp h).2)
    · exact absurd h throw_ok
    · exact absurd h throw_ok
  | sandboxGone =>
    replace h := of_then_none h
    simp only [sandboxGone, sliceOf, fetch_bind_ok] at h
    obtain ⟨slice, _, h⟩ := h
    rcases hphase : slice.phase with _ | ⟨_, _, _ | _, _⟩ | _ <;> rw [hphase] at h
    · exact absurd h throw_ok
    · exact absurd h throw_ok
    · exact .inr (hrecorded h)
    · exact absurd h throw_ok
  | askApproval =>
    replace h := of_then_none h
    simp only [askApproval, sliceOf, fetch_bind_ok] at h
    obtain ⟨slice, _, h⟩ := h
    rcases hphase : slice.phase with _ | ⟨_, _, _ | _, _ | _⟩ | _ <;> rw [hphase] at h
    · exact absurd h throw_ok
    · exact absurd h throw_ok
    · exact absurd h throw_ok
    · exact .inr (hrecorded h)
    · exact absurd h throw_ok
    · exact absurd h throw_ok
  | commitCalls =>
    replace h := of_then_none h
    obtain ⟨_, moved, hsignal, hcommit⟩ := commitCalls_commits h
    exact .inr ⟨_, .committed moved, .checkpoint hsignal, by rw [exec, bind_of_ok hcommit]; rfl⟩
  | rollBack =>
    replace h := of_then_none h
    simp only [rollBack, sliceOf, fetch_bind_ok] at h
    obtain ⟨slice, _, done, _, hrec⟩ := h
    exact .inr (hrecorded hrec)
  | applyNext =>
    replace h := of_then_none h
    obtain ⟨_, _, _, hslice, hphase, happly⟩ := applyNext_commits h
    exact .inr ⟨_, .done, .apply hslice hphase, by rw [exec, bind_of_ok happly]; rfl⟩
  | crash =>
    replace h := of_then_none h
    exact .inl (leave_same h)

abbrev WorldHistory := List (Commit World (Env × Act) (Option OutsideCall))

/-- The runs of the platform with its Workers, from an empty database. -/
abbrev WorldExecutes (log : WorldHistory) (w : World) : Prop := Execution WorldStep {} log w

def charged (log : WorldHistory) : List OutsideCall := log.filterMap (·.answer)

def attemptActs (inputs : List (Env × Act)) : WorldHistory × World :=
  replay (fun w i => (act i.1 i.2 w).toOption) {} inputs

theorem attemptActs_executes (inputs : List (Env × Act)) :
    WorldExecutes (attemptActs inputs).1 (attemptActs inputs).2 := by
  apply replay_execution
  intro _ _ _ _ h
  exact ok_of_toOption h

section Example

theorem call_1_ne : "call-1" ≠ "" := by decide

def shellTurn : CanonicalMessage where
  role := .assistant
  blocks := [.toolCall
    { callId := "call-1", name := "shell.exec", arguments := "", callId_ne := call_1_ne, name_ne := by decide }]
  blocks_ne := by simp

def shellRound : Round := { workspaceId := 1, runId := 3, leaseId := 5, expectedStateVersion := 2, no_limit := no_events }

end Example

end TinyHermes.Runs.Worker
