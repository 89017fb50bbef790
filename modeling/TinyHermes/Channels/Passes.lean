import TinyHermes.Channels.Store
import TinyHermes.Lib.Execution
import TinyHermes.Lib.RowLocks
import TinyHermes.Runs.StateMachine

/-! Arrivals, gather passes and the dispatch pass over one table of deliveries. A pass is one transaction, and the rows it wrote
are locked until it commits. -/
namespace TinyHermes.Channels
open Lib
open Runs (RunState RunSignal)

/-- The transactions that write deliveries. One dispatch pass is open at a time, under its scan lock. -/
inductive Tx where
  | gather (n : Nat) | delivery (n : Nat) | dispatch
  deriving DecidableEq

structure Settings where
  maxAttempts : Nat := 5
  batchSize : Nat := 50
  heldQuestionAfter : Int := 3000000
  progressAfter : Int := 8000000
  gatherBatch : Nat := 50
  window : Int := 1500000
  lower : String → String
  shown : Json → String

structure StartedRun where
  id : Nat
  state : RunState := .queued
  event : ChannelEvent
  /-- Not a column: the deliveries that went into it. -/
  parts : List ChannelEventRow

section Messages

inductive What where
  | openingCard | refusal | receipt | question | blockedNotice | progressNote | answer
  deriving DecidableEq

/-- A message that reached the chat, and the delivery it was sent for. -/
structure Sent where
  row : Nat
  what : What
  deriving DecidableEq

/-- How one delivery's turn goes outside the database. -/
structure Answer where
  /-- The note of `_sendable`, when there is nobody to send to. -/
  unsendable : Option String := none
  /-- What resolving the secret or sending raised. -/
  raised : Option String := none
  /-- Whether the message reached the chat although something was raised. -/
  arrived : Bool := false
  /-- The id of a card that was sent. -/
  message : Option String := none
  now : Int

def Answer.reaches (answer : Answer) (what : What) : List What :=
  if answer.raised.isNone || answer.arrived then [what] else []

end Messages

section Gathering

structure GatherPass where
  left : List (Nat × String)
  started : List StartedRun := []

/-- What `active_binding` and `run_for` come to. -/
inductive GatherOutcome where
  | bindingDisabled | erased | raised | noRun
  | run (id : Nat) (blocked : Option BlockedNotice)

structure Gathered where
  edits : List (Nat × Edit) := []
  started : Option StartedRun := none

variable (settings : Settings)

def heldEventOf (row : ChannelEventRow) : Except Unreadable ChannelEvent :=
  heldEvent settings.shown (row.heldMessage.getD []) row.channelEventId (row.heldOpenId.getD "")

/-- `_settle`. -/
def settleAll (rows : List ChannelEventRow) (note : String) (now : Int) : List (Nat × Edit) :=
  rows.map fun row => (row.id, .settleIfOpen note now)

def markAll (rows : List ChannelEventRow) (now : Int) : List (Nat × Edit) := rows.map fun row => (row.id, .markTaken now)

/-- What `/new` lets go of when a batch of its own has been taken. -/
def dropOthers (batch others : List ChannelEventRow) (now : Int) : List (Nat × Edit) :=
  (others.filter fun row => !(batch.map ChannelEventRow.id).contains row.id).map fun row => (row.id, .dropHeld now)

/-- The Run goes to the newest row, and the others are settled as part of it. -/
def carry (batch : List ChannelEventRow) (run : Nat) (blocked : Option BlockedNotice) (now : Int) : List (Nat × Edit) :=
  let carrier := batch.getLast?.toList
  carrier.map (fun row => (row.id, .attachRun run)) ++ settleAll batch.dropLast "gathered" now ++
    carrier.flatMap fun row => blocked.toList.map fun notice => (row.id, .recordBlockedNotice notice)

/-- `_gather` once the batch is taken and read; `others` is what the sender has waiting. Nothing for an outcome that
`run_for` does not have. -/
def gatherTaken (batch others : List ChannelEventRow) (event : ChannelEvent) (outcome : GatherOutcome) (now : Int) :
    Option Gathered :=
  match outcome, event.command settings.lower with
  | .raised, _ => some {}
  | .bindingDisabled, _ => some { edits := markAll batch now ++ settleAll batch "binding_disabled" now }
  | .erased, _ => some { edits := markAll batch now ++ settleAll batch "erased" now }
  | .noRun, some command =>
    let dropped := if command.name = .new then dropOthers batch others now else []
    some { edits := markAll batch now ++ dropped ++ settleAll batch "gathered_not_a_run" now }
  | .run id blocked, none =>
    some { edits := markAll batch now ++ carry batch id blocked now, started := some { id, event, parts := batch } }
  | .run id none, some { name := .compact, .. } =>
    some { edits := markAll batch now ++ carry batch id none now, started := some { id, event, parts := batch } }
  | _, _ => none

/-- `_gather`. A batch this build cannot read undoes the savepoint. -/
def gather (batch others : List ChannelEventRow) (outcome : GatherOutcome) (now : Int) : Option Gathered :=
  match batch.mapM (heldEventOf settings) with
  | .error _ => some {}
  | .ok events =>
    if events.all filesOnly then some { edits := batch.map fun row => (row.id, .lock) }
    else (together events).bind fun event => gatherTaken settings batch others event outcome now

end Gathering

section Dispatching

inductive Stage where
  | cards | refusals | receipts | questions | notices | progress | replies | done
  deriving DecidableEq

inductive Candidate where
  | card (opening : PendingCard)
  | refusal (unreadable : PendingRefusal)
  | receipt (command : PendingCommandReceipt)
  | question (held : PendingHeldQuestion)
  | notice (waiting : PendingNotice)
  | progress (working : PendingProgress)
  | reply (pending : PendingReply)
  | attempt (pending : PendingReply)

def Candidate.row : Candidate → Nat
  | .card opening => opening.eventRowId
  | .refusal unreadable => unreadable.eventRowId
  | .receipt command => command.eventRowId
  | .question held => held.eventRowId
  | .notice waiting => waiting.eventRowId
  | .progress working => working.eventRowId
  | .reply pending => pending.eventRowId
  | .attempt pending => pending.eventRowId

structure DispatchPass where
  /-- The stage to look next. -/
  stage : Stage := .cards
  left : List Candidate := []
  writing : List (Nat × Edit) := []
  /-- Not the code's: the deliveries whose answer this pass has attempted. -/
  attempted : List Nat := []

/-- What one delivery's turn sends and has to write on its row. -/
structure Handled where
  sent : List What := []
  writes : List Edit
  next : Option Candidate := none
  attempted : Bool := false

variable (settings : Settings)

def Stage.look (states : RunStates) (rows : List ChannelEventRow) (now : Int) : Stage → List Candidate × Stage
  | .cards => ((pendingCardOpens states settings.batchSize rows).map .card, .refusals)
  | .refusals => ((pendingRefusals settings.batchSize rows).map .refusal, .receipts)
  | .receipts => ((pendingCommandReceipts settings.batchSize rows).map .receipt, .questions)
  | .questions => ((pendingHeldQuestions (now - settings.heldQuestionAfter) settings.batchSize rows).map .question, .notices)
  | .notices => ((pendingBlockedNotices states settings.batchSize rows).map .notice, .progress)
  | .progress =>
    ((pendingProgressNotices states (now - settings.progressAfter) settings.batchSize rows).map .progress, .replies)
  | .replies => ((pendingReplies states settings.batchSize rows).map .reply, .done)
  | .done => ([], .done)

/-- `_refuse`, `_answer_command` and the end of `_ask_about_held`: settled whether or not it goes out. -/
def settleOnce (answer : Answer) (what : What) (settler : Settler) (note : String) : Handled :=
  match answer.unsendable with
  | some reason => { writes := [.settleReply settler reason answer.now] }
  | none =>
    { sent := answer.reaches what
      writes := [.settleReply settler (if answer.raised.isSome then "refused" else note) answer.now] }

/-- `_open_card`. -/
def openCard (answer : Answer) (opening : PendingCard) : Handled :=
  match answer.unsendable with
  | some _ => { writes := [.recordCard none answer.now] }
  | none =>
    { sent := answer.reaches .openingCard
      writes :=
        if answer.raised.isSome then [.recordCard none answer.now]
        else .recordCard answer.message answer.now ::
          (if opening.notice.isSome then [.settleBlockedNotice answer.now] else []) }

/-- `_ask_about_held`. -/
def askAboutHeld (rows : List ChannelEventRow) (answer : Answer) (held : PendingHeldQuestion) : Handled :=
  if held.taken then { writes := [.settleReply .question "held_taken" answer.now] }
  else if (stillHeld held.bindingId held.externalUserId rows).getLast?.map ChannelEventRow.id ≠ some held.eventRowId then
    { writes := [.settleReply .question "held_superseded" answer.now] }
  else settleOnce answer .question .question "held_asked"

/-- `_notify` and `_report_progress`: stamped whether or not it goes out. -/
def stampOnce (answer : Answer) (what : What) (stamp : Edit) : Handled :=
  { sent := if answer.unsendable.isSome then [] else answer.reaches what, writes := [stamp] }

/-- `_dispatch` up to the attempt. -/
def dispatch (answer : Answer) (pending : PendingReply) : Handled :=
  match answer.unsendable with
  | some reason => { writes := [.settleReply (.reply pending.runId) reason answer.now] }
  | none => { writes := [.recordReplyAttempt], next := some (.attempt pending) }

/-- `_failed`. -/
def failed (pending : PendingReply) (error : String) (now : Int) : Edit :=
  if pending.attempts + 1 ≥ settings.maxAttempts then .settleReply (.reply pending.runId) ("refused:" ++ error) now
  else .noteReplyFailure ("refused:" ++ error)

/-- The attempt itself: the card rewritten, or a message in its place. -/
def attemptAnswer (answer : Answer) (pending : PendingReply) : Handled :=
  { sent := answer.reaches .answer
    writes :=
      [match answer.raised with
        | some error => failed settings pending error answer.now
        | none => .settleReply (.reply pending.runId) "sent" answer.now]
    attempted := true }

def Candidate.handle (rows : List ChannelEventRow) (answer : Answer) : Candidate → Handled
  | .card opening => openCard answer opening
  | .refusal _ => settleOnce answer .refusal .refusal "unsupported_message"
  | .receipt _ => settleOnce answer .receipt .receipt "sent"
  | .question held => askAboutHeld rows answer held
  | .notice _ => stampOnce answer .blockedNotice (.settleBlockedNotice answer.now)
  | .progress _ => stampOnce answer .progressNote (.settleProgressNotice answer.now)
  | .reply pending => dispatch answer pending
  | .attempt pending => attemptAnswer settings answer pending

end Dispatching

section System

structure World where
  rows : List (Cell Tx ChannelEventRow) := []
  runs : List StartedRun := []
  gathers : Nat → Option GatherPass := fun _ => none
  dispatch : Option DispatchPass := none
  /-- What reached the chat, oldest first. -/
  chat : List Sent := []
  /-- Not the code's: the deliveries whose answer an attempt was started for, and the Run ids that have been drawn. -/
  attempts : List Nat := []
  drawn : List Nat := []

namespace World

def view (t : Tx) (w : World) : List ChannelEventRow := w.rows.map (Cell.view t)

def runStates (w : World) : RunStates := fun id => (w.runs.find? fun run => run.id = id).map StartedRun.state

def writeAll (t : Tx) (edits : List (Nat × Edit)) (rows : List (Cell Tx ChannelEventRow)) : List (Cell Tx ChannelEventRow) :=
  writeRows ChannelEventRow.id t (edits.map (Prod.map id Edit.apply)) rows

def canWriteAll (t : Tx) (edits : List (Nat × Edit)) (rows : List (Cell Tx ChannelEventRow)) : Bool :=
  edits.all fun (id, _) => canWrite ChannelEventRow.id t id rows

/-- The claim is new: nobody has the row id, and the delivery was not seen before. -/
def unclaimed (w : World) (row : ChannelEventRow) : Bool :=
  w.rows.all fun c => c.committed.id ≠ row.id &&
    !(c.committed.bindingId = row.bindingId && c.committed.channelEventId = row.channelEventId)

def arrive (w : World) (row : ChannelEventRow) : Option World :=
  if w.unclaimed row then some { w with rows := w.rows ++ [⟨row, none⟩] } else none

def commit (t : Tx) (w : World) : World := { w with rows := w.rows.map (Cell.commit t) }

def rollback (t : Tx) (w : World) : World := { w with rows := w.rows.map (Cell.rollback t) }

end World

inductive Input where
  | arriveHeld (id bindingId : Nat) (event : ChannelEvent) (receivedAt : Int)
  | arriveUnsupported (id bindingId : Nat) (channelEventId kind externalUserId : String) (receivedAt : Int)
  | arriveReceipt (id bindingId : Nat) (channelEventId : String) (receipt : CommandReceipt) (externalUserId : String)
      (receivedAt : Int)
  /-- A `/compact`, the one command that starts a Run on arrival. -/
  | arriveCompaction (id bindingId : Nat) (event : ChannelEvent) (receivedAt : Int) (run : Nat)
  /-- `/new` in the transaction of its delivery, for the rows its statement saw. -/
  | dropHeld (n bindingId : Nat) (externalUserId : String) (seen : List Nat) (now : Int)
  | endDelivery (n : Nat) (commits : Bool)
  | beginGather (n : Nat) (now : Int) (chosen : List (Nat × String))
  /-- The next sender of a gather pass; `skipped` are rows the statement did not see or found locked. -/
  | gatherNext (n : Nat) (skipped : List Nat) (outcome : GatherOutcome) (now : Int)
  | endGather (n : Nat) (commits : Bool)
  | beginDispatch
  | look (now : Int)
  | handle (answer : Answer)
  | write
  | endDispatch
  /-- The process is killed, the scan times out, or a statement fails. -/
  | crashDispatch
  | runMoves (run : Nat) (signal : RunSignal)

variable (settings : Settings)

def arriveHeld (w : World) (id bindingId : Nat) (event : ChannelEvent) (receivedAt : Int) : Option World :=
  if (event.command settings.lower).isSome then none
  else w.arrive (recordHeld event (claimDelivery id bindingId event.channelEventId receivedAt))

def arriveCompaction (w : World) (id bindingId : Nat) (event : ChannelEvent) (receivedAt : Int) (run : Nat) : Option World :=
  if run ∈ w.drawn || (event.command settings.lower).map ChatCommand.name ≠ some .compact then none
  else (w.arrive { claimDelivery id bindingId event.channelEventId receivedAt with runId := some run }).map fun w =>
    { w with runs := w.runs ++ [{ id := run, event, parts := [] }], drawn := run :: w.drawn }

/-- `drop_held`, once nobody else holds a row it changes. -/
def dropHeld (w : World) (n bindingId : Nat) (externalUserId : String) (seen : List Nat) (now : Int) : Option World :=
  let dropped := (w.view (.delivery n)).filter fun row => row.waitingOf bindingId externalUserId && seen.contains row.id
  let edits := dropped.map fun row => (row.id, Edit.dropHeld now)
  if World.canWriteAll (.delivery n) edits w.rows then some { w with rows := World.writeAll (.delivery n) edits w.rows }
  else none

def beginGather (w : World) (n : Nat) (now : Int) (chosen : List (Nat × String)) : Option World :=
  let ready := sendersReady (now - settings.window) (w.view (.gather n))
  if (w.gathers n).isNone && chosen.length ≤ settings.gatherBatch && chosen.all (ready.contains ·) then
    some { w with gathers := Function.update w.gathers n (some { left := chosen }) }
  else none

/-- The rows `take_batch` reads and locks. -/
def takeBatch (w : World) (t : Tx) (bindingId : Nat) (externalUserId : String) (skipped : List Nat) : List ChannelEventRow :=
  waitingBatch bindingId externalUserId
    ((w.rows.filter fun c => c.freeFor t && !skipped.contains c.committed.id).map (Cell.view t))

def freshRun (w : World) : Option StartedRun → Bool
  | some run => !w.drawn.contains run.id
  | none => true

def gatherNext (w : World) (n : Nat) (skipped : List Nat) (outcome : GatherOutcome) (now : Int) : Option World := do
  let pass ← w.gathers n
  let (bindingId, externalUserId) ← pass.left.head?
  let batch := takeBatch w (.gather n) bindingId externalUserId skipped
  let others := (w.view (.gather n)).filter (ChannelEventRow.waitingOf bindingId externalUserId)
  let gathered ← gather settings batch others outcome now
  if World.canWriteAll (.gather n) gathered.edits w.rows && freshRun w gathered.started then
    some { w with
      rows := World.writeAll (.gather n) gathered.edits w.rows
      gathers := Function.update w.gathers n
        (some { left := pass.left.tail, started := pass.started ++ gathered.started.toList })
      drawn := gathered.started.toList.map StartedRun.id ++ w.drawn }
  else none

def endGather (w : World) (n : Nat) (commits : Bool) : Option World := do
  let pass ← w.gathers n
  let w := { w with gathers := Function.update w.gathers n none }
  if commits then
    if pass.left.isEmpty then
      let committed := w.commit (.gather n)
      some { committed with runs := committed.runs ++ pass.started }
    else none
  else some (w.rollback (.gather n))

def look (w : World) (now : Int) : Option World := do
  let pass ← w.dispatch
  if pass.left.isEmpty && pass.writing.isEmpty && pass.stage ≠ .done then
    let (left, stage) := pass.stage.look settings w.runStates (w.view .dispatch) now
    some { w with dispatch := some { pass with left, stage } }
  else none

def handle (w : World) (answer : Answer) : Option World := do
  let pass ← w.dispatch
  let candidate ← pass.left.head?
  if pass.writing.isEmpty then
    let handled := candidate.handle settings (w.view .dispatch) answer
    let attempted := if handled.attempted then [candidate.row] else []
    some { w with
      dispatch := some { pass with
        left := handled.next.toList ++ pass.left.tail
        writing := handled.writes.map fun edit => (candidate.row, edit)
        attempted := pass.attempted ++ attempted }
      chat := w.chat ++ handled.sent.map fun what => { row := candidate.row, what }
      attempts := w.attempts ++ attempted }
  else none

def write (w : World) : Option World := do
  let pass ← w.dispatch
  let (id, edit) ← pass.writing.head?
  if canWrite ChannelEventRow.id .dispatch id w.rows then
    some { w with
      rows := writeRow ChannelEventRow.id .dispatch id edit.apply w.rows
      dispatch := some { pass with writing := pass.writing.tail } }
  else none

def endDispatch (w : World) : Option World := do
  let pass ← w.dispatch
  if pass.left.isEmpty && pass.writing.isEmpty && pass.stage = .done then
    some { w.commit .dispatch with dispatch := none }
  else none

def crashDispatch (w : World) : Option World :=
  if w.dispatch.isSome then some { w.rollback .dispatch with dispatch := none } else none

def moveRun (w : World) (run : Nat) (signal : RunSignal) : World :=
  { w with runs := w.runs.map fun started =>
      if started.id = run then { started with state := (Runs.StateMachine.transitions started.state signal).getD started.state }
      else started }

def perform (w : World) : Input → Option World
  | .arriveHeld id bindingId event receivedAt => arriveHeld settings w id bindingId event receivedAt
  | .arriveUnsupported id bindingId channelEventId kind externalUserId receivedAt =>
    w.arrive (recordUnsupported kind externalUserId (claimDelivery id bindingId channelEventId receivedAt))
  | .arriveReceipt id bindingId channelEventId receipt externalUserId receivedAt =>
    w.arrive (recordCommandReceipt receipt externalUserId (claimDelivery id bindingId channelEventId receivedAt))
  | .arriveCompaction id bindingId event receivedAt run => arriveCompaction settings w id bindingId event receivedAt run
  | .dropHeld n bindingId externalUserId seen now => dropHeld w n bindingId externalUserId seen now
  | .endDelivery n commits => some (if commits then w.commit (.delivery n) else w.rollback (.delivery n))
  | .beginGather n now chosen => beginGather settings w n now chosen
  | .gatherNext n skipped outcome now => gatherNext settings w n skipped outcome now
  | .endGather n commits => endGather w n commits
  | .beginDispatch => if w.dispatch.isNone then some { w with dispatch := some {} } else none
  | .look now => look settings w now
  | .handle answer => handle settings w answer
  | .write => write w
  | .endDispatch => endDispatch w
  | .crashDispatch => crashDispatch w
  | .runMoves run signal => some (moveRun w run signal)

def Step (w : World) (input : Input) (_ : Unit) (w' : World) : Prop := perform settings w input = some w'

end System
end TinyHermes.Channels
