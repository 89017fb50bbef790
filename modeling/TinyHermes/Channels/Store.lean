import TinyHermes.Channels.Events
import TinyHermes.Runs.Models

/-! The deliveries of `channel_events`: what a row records, what each statement writes, and what each scan selects. -/
namespace TinyHermes.Channels
open Lib
open Runs (RunState)

structure BlockedNotice where
  blockedByRunId : Option Nat
  headStatus : Option String
  pauseReason : Option String
  waitKind : Option String
  position : Int
  availableActions : List String
  deriving DecidableEq

structure CommandReceipt where
  command : String
  outcome : String
  messages : Nat
  turns : Nat
  echoedText : String
  busyReason : Option String
  runsEnded : Nat := 0
  deriving DecidableEq

inductive Settler where
  | gather | newCommand | refusal | receipt | question | reply (run : Nat)
  deriving DecidableEq

inductive Fate where
  | dropped | noted (note : String) | carries
  deriving DecidableEq

structure ChannelEventRow where
  id : Nat
  bindingId : Nat
  channelEventId : String
  receivedAt : Int
  runId : Option Nat := none
  repliedAt : Option Int := none
  replyNote : Option String := none
  replyAttempts : Nat := 0
  blockedNotice : Option BlockedNotice := none
  blockedNotifiedAt : Option Int := none
  progressNotifiedAt : Option Int := none
  cardMessageId : Option String := none
  cardAttemptedAt : Option Int := none
  unsupportedKind : Option String := none
  unsupportedOpenId : Option String := none
  commandReceipt : Option CommandReceipt := none
  commandOpenId : Option String := none
  heldMessage : Option Document := none
  heldOpenId : Option String := none
  heldTakenAt : Option Int := none
  /-- Not columns: which code settled the row last, and how it stopped waiting. -/
  settledBy : Option Settler := none
  fate : Option Fate := none

/-- `text[:size]`. -/
def clip (size : Nat) (text : String) : String := String.ofList (text.toList.take size)

theorem clip_of_le {size : Nat} {text : String} (h : text.toList.length ≤ size) : clip size text = text := by
  rw [clip, List.take_of_length_le h, String.ofList_toList]

section Arrivals

/-- A row as `claim_delivery` inserts it. -/
def claimDelivery (id bindingId : Nat) (channelEventId : String) (receivedAt : Int) : ChannelEventRow :=
  { id, bindingId, channelEventId, receivedAt }

def recordHeld (event : ChannelEvent) (row : ChannelEventRow) : ChannelEventRow :=
  { row with heldMessage := some (heldDocument event), heldOpenId := some (clip 120 event.externalUserId) }

def recordUnsupported (kind externalUserId : String) (row : ChannelEventRow) : ChannelEventRow :=
  { row with unsupportedKind := some (clip 64 kind), unsupportedOpenId := some (clip 200 externalUserId) }

def recordCommandReceipt (receipt : CommandReceipt) (externalUserId : String) (row : ChannelEventRow) : ChannelEventRow :=
  { row with commandReceipt := some receipt, commandOpenId := some (clip 120 externalUserId) }

end Arrivals

section Writes

/-- The statements that update one row after it arrived. -/
inductive Edit where
  | lock
  | markTaken (now : Int)
  | attachRun (run : Nat)
  | recordBlockedNotice (notice : BlockedNotice)
  | settleIfOpen (note : String) (now : Int)
  | dropHeld (now : Int)
  | recordCard (messageId : Option String) (now : Int)
  | settleBlockedNotice (now : Int)
  | settleProgressNotice (now : Int)
  | settleReply (settler : Settler) (note : String) (now : Int)
  | recordReplyAttempt
  | noteReplyFailure (note : String)

def Edit.apply : Edit → ChannelEventRow → ChannelEventRow
  | .lock, row => row
  | .markTaken now, row => { row with heldTakenAt := some now }
  | .attachRun run, row => { row with runId := some run, fate := some .carries }
  | .recordBlockedNotice notice, row => { row with blockedNotice := some notice }
  | .settleIfOpen note now, row =>
    if row.repliedAt.isSome then { row with fate := some (.noted note) }
    else { row with
      repliedAt := some now, replyNote := some (clip 200 note), settledBy := some .gather, fate := some (.noted note) }
  | .dropHeld now, row =>
    { row with
      heldTakenAt := some now, repliedAt := some now, replyNote := some "dropped_by_new", settledBy := some .newCommand
      fate := some .dropped }
  | .recordCard messageId now, row => { row with cardMessageId := messageId, cardAttemptedAt := some now }
  | .settleBlockedNotice now, row => { row with blockedNotifiedAt := some now }
  | .settleProgressNotice now, row => { row with progressNotifiedAt := some now }
  | .settleReply settler note now, row =>
    { row with repliedAt := some now, replyNote := some (clip 200 note), settledBy := some settler }
  | .recordReplyAttempt, row => { row with replyAttempts := row.replyAttempts + 1 }
  | .noteReplyFailure note, row => { row with replyNote := some (clip 200 note) }

structure ChannelEventRow.SameDelivery (a b : ChannelEventRow) : Prop where
  id : a.id = b.id
  bindingId : a.bindingId = b.bindingId
  channelEventId : a.channelEventId = b.channelEventId
  receivedAt : a.receivedAt = b.receivedAt
  heldMessage : a.heldMessage = b.heldMessage
  heldOpenId : a.heldOpenId = b.heldOpenId
  unsupportedKind : a.unsupportedKind = b.unsupportedKind
  commandReceipt : a.commandReceipt = b.commandReceipt

theorem ChannelEventRow.SameDelivery.refl (row : ChannelEventRow) : row.SameDelivery row :=
  ⟨rfl, rfl, rfl, rfl, rfl, rfl, rfl, rfl⟩

theorem ChannelEventRow.SameDelivery.trans {a b c : ChannelEventRow} (hab : a.SameDelivery b) (hbc : b.SameDelivery c) :
    a.SameDelivery c :=
  ⟨hab.id.trans hbc.id, hab.bindingId.trans hbc.bindingId, hab.channelEventId.trans hbc.channelEventId,
    hab.receivedAt.trans hbc.receivedAt, hab.heldMessage.trans hbc.heldMessage, hab.heldOpenId.trans hbc.heldOpenId,
    hab.unsupportedKind.trans hbc.unsupportedKind, hab.commandReceipt.trans hbc.commandReceipt⟩

theorem Edit.apply_sameDelivery (edit : Edit) (row : ChannelEventRow) : (edit.apply row).SameDelivery row := by
  cases edit with
  | settleIfOpen =>
    rw [Edit.apply]
    split <;> constructor <;> rfl
  | _ => constructor <;> rfl

end Writes

section Selects

/-- `order by received_at, id`. -/
def earlier (a b : ChannelEventRow) : Bool := a.receivedAt < b.receivedAt || (a.receivedAt = b.receivedAt && a.id ≤ b.id)

/-- `select … where … order by received_at, id`. -/
def select (p : ChannelEventRow → Bool) (rows : List ChannelEventRow) : List ChannelEventRow :=
  (rows.filter p).insertionSort fun a b => earlier a b

/-- `coalesce(held_message ->> 'text', '') = ''`, with a message that is there. -/
def noText (document : Document) : Bool :=
  match document.lookup "text" with
  | some (.string text) => text = ""
  | some .null | none => true
  | some _ => false

/-- `jsonb_array_length(coalesce(held_message -> 'images', '[]')) = 0`. -/
def noImages (document : Document) : Bool :=
  match document.lookup "images" with
  | some (.array images) => images.isEmpty
  | some _ => false
  | none => true

namespace ChannelEventRow

/-- `_FILES_ONLY`. -/
def filesOnly (row : ChannelEventRow) : Bool :=
  match row.heldMessage with
  | some document => noText document && noImages document
  | none => true

/-- `held_message is not null and held_taken_at is null`. -/
def waiting (row : ChannelEventRow) : Bool := row.heldMessage.isSome && row.heldTakenAt.isNone

/-- What `take_batch` and `drop_held` look for. -/
def waitingOf (bindingId : Nat) (externalUserId : String) (row : ChannelEventRow) : Bool :=
  row.bindingId = bindingId && row.heldOpenId = some (clip 120 externalUserId) && row.waiting

end ChannelEventRow

/-- The newest of the messages a sender has waiting, and whether there is more than files. -/
def readyOf (olderThan : Int) (rows : List ChannelEventRow) : Bool :=
  rows.all (fun row => row.receivedAt ≤ olderThan) && rows.any fun row => !row.filesOnly

/-- `senders_ready`, without its limit. -/
def sendersReady (olderThan : Int) (rows : List ChannelEventRow) : List (Nat × String) :=
  let waiting := rows.filter ChannelEventRow.waiting
  let groups := (waiting.filterMap fun row => row.heldOpenId.map fun sender => (row.bindingId, sender)).dedup
  groups.filter fun (bindingId, sender) => sender ≠ "" &&
    readyOf olderThan (waiting.filter fun row => row.bindingId = bindingId && row.heldOpenId = some sender)

/-- `take_batch`, before the rows others hold are passed over. -/
def waitingBatch (bindingId : Nat) (externalUserId : String) (rows : List ChannelEventRow) : List ChannelEventRow :=
  select (ChannelEventRow.waitingOf bindingId externalUserId) rows

/-- A Run's state, as `runs` has it. -/
abbrev RunStates := Nat → Option RunState

structure PendingCard where
  eventRowId : Nat
  runId : Nat
  notice : Option BlockedNotice

structure PendingHeldQuestion where
  eventRowId : Nat
  bindingId : Nat
  externalUserId : String
  taken : Bool

structure PendingNotice where
  eventRowId : Nat
  runId : Nat
  notice : BlockedNotice

structure PendingProgress where
  eventRowId : Nat
  runId : Nat

structure PendingReply where
  eventRowId : Nat
  runId : Nat
  state : RunState
  attempts : Nat

structure PendingRefusal where
  eventRowId : Nat
  bindingId : Nat
  kind : String
  externalUserId : String

structure PendingCommandReceipt where
  eventRowId : Nat
  bindingId : Nat
  receipt : CommandReceipt
  externalUserId : String

/-- `_WORKING`. -/
def working : RunState → Bool
  | .queued | .running => true
  | _ => false

def ofRuns (states : RunStates) (p : RunState → Bool) (row : ChannelEventRow) : Bool :=
  ((row.runId.bind states).map p).getD false

def pendingCardOpens (states : RunStates) (limit : Nat) (rows : List ChannelEventRow) : List PendingCard :=
  ((select (fun row => ofRuns states (fun _ => true) row && row.cardMessageId.isNone && row.repliedAt.isNone &&
    row.cardAttemptedAt.isNone) rows).take limit).filterMap fun row =>
      row.runId.map fun runId => { eventRowId := row.id, runId, notice := row.blockedNotice }

def pendingRefusals (limit : Nat) (rows : List ChannelEventRow) : List PendingRefusal :=
  ((select (fun row => row.unsupportedKind.isSome && row.repliedAt.isNone) rows).take limit).filterMap fun row => do
    let kind ← row.unsupportedKind
    let externalUserId ← row.unsupportedOpenId
    if externalUserId = "" then none else some { eventRowId := row.id, bindingId := row.bindingId, kind, externalUserId }

def pendingCommandReceipts (limit : Nat) (rows : List ChannelEventRow) : List PendingCommandReceipt :=
  ((select (fun row => row.commandReceipt.isSome && row.repliedAt.isNone) rows).take limit).filterMap fun row => do
    let receipt ← row.commandReceipt
    let externalUserId ← row.commandOpenId
    if externalUserId = "" then none
    else some { eventRowId := row.id, bindingId := row.bindingId, receipt, externalUserId }

def pendingHeldQuestions (olderThan : Int) (limit : Nat) (rows : List ChannelEventRow) : List PendingHeldQuestion :=
  ((select (fun row => row.heldMessage.isSome && row.filesOnly && row.runId.isNone && row.repliedAt.isNone &&
    row.receivedAt ≤ olderThan) rows).take limit).filterMap fun row => do
      let externalUserId ← row.heldOpenId
      if externalUserId = "" then none
      else some { eventRowId := row.id, bindingId := row.bindingId, externalUserId, taken := row.heldTakenAt.isSome }

/-- The rows of `still_held`. -/
def stillHeld (bindingId : Nat) (externalUserId : String) (rows : List ChannelEventRow) : List ChannelEventRow :=
  select (fun row => row.waitingOf bindingId externalUserId && row.filesOnly) rows

def pendingBlockedNotices (states : RunStates) (limit : Nat) (rows : List ChannelEventRow) : List PendingNotice :=
  ((select (fun row => ofRuns states (fun _ => true) row && row.blockedNotice.isSome && row.blockedNotifiedAt.isNone)
    rows).take limit).filterMap fun row => do
      let runId ← row.runId
      let notice ← row.blockedNotice
      return { eventRowId := row.id, runId, notice }

def pendingProgressNotices (states : RunStates) (olderThan : Int) (limit : Nat) (rows : List ChannelEventRow) :
    List PendingProgress :=
  ((select (fun row => ofRuns states working row && row.repliedAt.isNone && row.progressNotifiedAt.isNone &&
    row.blockedNotice.isNone && row.receivedAt < olderThan) rows).take limit).filterMap fun row =>
      row.runId.map fun runId => { eventRowId := row.id, runId }

def pendingReplies (states : RunStates) (limit : Nat) (rows : List ChannelEventRow) : List PendingReply :=
  ((select (fun row => ofRuns states RunState.isTerminal row && row.repliedAt.isNone) rows).take limit).filterMap fun row => do
    let runId ← row.runId
    let state ← states runId
    return { eventRowId := row.id, runId, state, attempts := row.replyAttempts }

end Selects
end TinyHermes.Channels
