import TinyHermes.Lib.Execution
import TinyHermes.Lib.NumberedLog
import TinyHermes.Runs.Writes

/-! The live event stream of a Run: one poll for all its subscribers, each with a cursor and a bounded queue. -/
namespace TinyHermes.Runs.EventStream
open Lib NumberedLog Tx SqlRunStore

structure RunEventRecord where
  sequence : Nat
  event : ReservedEvent
  occurredAt : Time
  deriving DecidableEq, Repr

structure EventLog where
  rows : List RunEventRecord := []
  nextSequence : Nat := 1
  isTerminal : Bool := false

/-- `append_events`. The numbers are reserved on the Run's row, which stays locked until they are committed. -/
def EventLog.append (now : Time) (events : List ReservedEvent) (log : EventLog) : EventLog :=
  { log with
    rows := log.rows ++ events.zipIdx.map fun (event, offset) =>
      { sequence := log.nextSequence + offset, event, occurredAt := now }
    nextSequence := log.nextSequence + events.length }

structure RunEventWindow where
  earliestSequence : Option Nat
  nextSequence : Nat
  isTerminal : Bool

def EventLog.window (log : EventLog) : RunEventWindow where
  earliestSequence := (log.rows.map (·.sequence)).min?
  nextSequence := log.nextSequence
  isTerminal := log.isTerminal

/-- `list_events_after`. -/
def EventLog.listEventsAfter (log : EventLog) (after limit : Nat) : List RunEventRecord :=
  ((log.rows.filter fun r => after < r.sequence).insertionSort fun a b => a.sequence ≤ b.sequence).take limit

def cursorIsStale (after : Nat) (earliest : Option Nat) (nextSequence : Nat) : Bool :=
  after + 1 < earliest.getD nextSequence

/-- `BATCH`. -/
def batchSize : Nat := 200

/-- `asyncio.Queue(maxsize=256)`. -/
def queueSize : Nat := 256

inductive Phase where
  /-- Reading on its own, up to what is committed. -/
  | catchingUp
  /-- Nothing was left to read; the window comes next. -/
  | checking
  | joining
  | live
  | ended
  deriving DecidableEq, Repr

/-- A subscriber. `after` and `yielded` are what it was admitted with and what it has sent so far. -/
structure Member where
  after : Nat
  cursor : Nat
  batch : List RunEventRecord := []
  queue : List (Option RunEventRecord) := []
  yielded : List RunEventRecord := []
  phase : Phase := .catchingUp

/-- `put_nowait`. -/
def Member.putNowait (m : Member) (item : Option RunEventRecord) : Option Member :=
  if m.queue.length < queueSize then some { m with queue := m.queue ++ [item] } else none

/-- `_offer`: a record that finds the queue full gives way to the end of the stream, if that still fits. -/
def offer (m : Member) (item : Option RunEventRecord) : Member :=
  match m.putNowait item with
  | some m => m
  | none =>
    match item with
    | none => m
    | some _ => (m.putNowait none).getD m

def deliver (records : List RunEventRecord) (window : RunEventWindow) (m : Member) : Member :=
  let m := records.foldl (fun m r => if r.sequence ≤ m.cursor then m else offer { m with cursor := r.sequence } (some r)) m
  if window.isTerminal && window.nextSequence ≤ m.cursor + 1 then offer m none else m

/-- Where the room's task is. The members of a poll are those it began with. -/
inductive Poll where
  | idle
  | reading (members : List Nat) (cursor : Nat)
  | read (members : List Nat) (records : List RunEventRecord)
  | ready (members : List Nat) (records : List RunEventRecord) (window : RunEventWindow)

structure Hub where
  log : EventLog := {}
  members : Table Nat Member := ∅
  poll : Poll := .idle

def Hub.setMember (h : Hub) (id : Nat) (f : Member → Member) : Hub := { h with members := h.members.modify id f }

inductive Act where
  | append (now : Time) (events : List ReservedEvent)
  | terminate
  | subscribe (id after : Nat)
  | catchUp (id : Nat)
  | emit (id : Nat)
  | check (id : Nat)
  | join (id : Nat)
  | consume (id : Nat)
  | leave (id : Nat)
  | startPoll
  | readRecords
  | readWindow
  | distribute
  | failPoll

/-- Admitted, unless resuming there would skip events. -/
def subscribe (h : Hub) (id after : Nat) : Option Hub :=
  if h.members.lookup id = none ∧ cursorIsStale after h.log.window.earliestSequence h.log.window.nextSequence = false then
    some { h with members := h.members.insert id { after, cursor := after } }
  else none

def catchUp (h : Hub) (id : Nat) : Option Hub := do
  let m ← h.members.lookup id
  if m.phase = .catchingUp ∧ m.batch = [] then
    let records := h.log.listEventsAfter m.cursor batchSize
    if records = [] then some (h.setMember id fun m => { m with phase := .checking })
    else some (h.setMember id fun m => { m with batch := records })
  else none

def emit (h : Hub) (id : Nat) : Option Hub := do
  let m ← h.members.lookup id
  match m.phase, m.batch with
  | .catchingUp, r :: rest =>
    some (h.setMember id fun m => { m with batch := rest, cursor := r.sequence, yielded := m.yielded ++ [r] })
  | _, _ => none

def check (h : Hub) (id : Nat) : Option Hub := do
  let m ← h.members.lookup id
  if m.phase = .checking then
    if h.log.window.isTerminal && h.log.window.nextSequence ≤ m.cursor + 1 then
      some (h.setMember id fun m => { m with phase := .ended })
    else some (h.setMember id fun m => { m with phase := .joining })
  else none

def join (h : Hub) (id : Nat) : Option Hub := do
  let m ← h.members.lookup id
  if m.phase = .joining then some (h.setMember id fun m => { m with phase := .live }) else none

/-- One item of the queue: a record goes out, the end ends the stream. -/
def consume (h : Hub) (id : Nat) : Option Hub := do
  let m ← h.members.lookup id
  match m.phase, m.queue with
  | .live, some r :: rest => some (h.setMember id fun m => { m with queue := rest, yielded := m.yielded ++ [r] })
  | .live, none :: rest => some (h.setMember id fun m => { m with queue := rest, phase := .ended })
  | _, _ => none

def Hub.live (h : Hub) : List (Nat × Member) := h.members.select fun _ m => m.phase = .live

def startPoll (h : Hub) : Option Hub :=
  match h.poll, (h.live.map (·.2.cursor)).min? with
  | .idle, some cursor => some { h with poll := .reading (h.live.map (·.1)) cursor }
  | _, _ => none

def readRecords (h : Hub) : Option Hub :=
  match h.poll with
  | .reading members cursor => some { h with poll := .read members (h.log.listEventsAfter cursor batchSize) }
  | _ => none

def readWindow (h : Hub) : Option Hub :=
  match h.poll with
  | .read members records => some { h with poll := .ready members records h.log.window }
  | _ => none

def distribute (h : Hub) : Option Hub :=
  match h.poll with
  | .ready members records window =>
    some { h with
      members := h.members.mapRows fun id m => if id ∈ members then deliver records window m else m
      poll := .idle }
  | _ => none

def act (h : Hub) : Act → Option Hub
  | .append now events => some { h with log := h.log.append now events }
  | .terminate => some { h with log := { h.log with isTerminal := true } }
  | .subscribe id after => subscribe h id after
  | .catchUp id => catchUp h id
  | .emit id => emit h id
  | .check id => check h id
  | .join id => join h id
  | .consume id => consume h id
  | .leave id => some (h.setMember id fun m => { m with phase := .ended })
  | .startPoll => startPoll h
  | .readRecords => readRecords h
  | .readWindow => readWindow h
  | .distribute => distribute h
  | .failPoll => some { h with poll := .idle }

def HubStep (h : Hub) (x : Act) (_ : Unit) (h' : Hub) : Prop := act h x = some h'

abbrev HubHistory := List (Commit Hub Act Unit)

abbrev HubExecutes (log : HubHistory) (h : Hub) : Prop := Execution HubStep {} log h

/-- The records a member has been given, sent or still to send. -/
def Member.inHand (m : Member) : List RunEventRecord := m.yielded ++ m.batch ++ m.queue.reduceOption

theorem inHand_of_unqueued {m : Member} (h : m.queue = []) : m.inHand = m.yielded ++ m.batch := by
  rw [Member.inHand, h, List.reduceOption_nil, List.append_nil]

def Member.Missed (m : Member) : Prop := m.after + m.inHand.length < m.cursor + m.batch.length

/-- What went out is what was committed after `after`, number by number; whoever missed a record is at the end of
its stream. -/
structure GapFree (h : Hub) (m : Member) : Prop where
  contiguous : m.yielded.map (·.sequence) = List.range' (m.after + 1) m.yielded.length
  committed : m.yielded <+: h.log.rows.drop m.after
  ends : m.Missed → none ∈ m.queue ∨ m.phase = .ended

def KeepsUp (c : Commit Hub Act Unit) : Prop :=
  match c.input, c.before.poll with
  | .distribute, .ready members records _ => ∀ id ∈ members, ∀ m, c.before.members.lookup id = some m →
      m.phase = .live → m.queue.length + (records.filter fun r => m.cursor < r.sequence).length ≤ queueSize
  | _, _ => True

section Log
variable {log : EventLog}

def logOf (s : Store) (runId : Uuid) : Option EventLog :=
  (s.runs.lookup runId).map fun run =>
    { rows := (s.events.filter fun row => row.runId = runId).map fun row =>
        { sequence := row.sequence, event := row.event, occurredAt := row.occurredAt }
      nextSequence := run.nextEventSequence
      isTerminal := run.status.isTerminal }

/-- What the store writes is one `append` to the Run's log. -/
theorem appendEvents_log {env : Env} {workspaceId runId : Uuid} {events : List ReservedEvent} {s s' : Store} {u : Unit}
    (h : appendEvents env workspaceId runId events s = .ok (u, s')) :
    logOf s' runId = (logOf s runId).map (EventLog.append env.now events) := by
  unfold appendEvents at h
  split at h
  case isTrue hnil =>
    obtain ⟨_, rfl⟩ := pure_ok.mp h
    subst hnil
    have hsame : EventLog.append env.now [] = id := by
      funext log
      simp [EventLog.append]
    rw [hsame, Option.map_id, id]
  case isFalse =>
    simp only [lockRun, modifyRun, fetch_bind_ok, write_bind, write_ok] at h
    obtain ⟨run, hrun, rfl⟩ := h
    have hrow := (Option.filter_eq_some_iff.mp hrun).1
    have hnew : (events.zipIdx.map fun (event, offset) =>
        ({ runId, sequence := run.nextEventSequence + offset, event, occurredAt := env.now } : RunEventRow)).filter
          (fun row => row.runId = runId) = events.zipIdx.map fun (event, offset) =>
        { runId, sequence := run.nextEventSequence + offset, event, occurredAt := env.now } := by
      apply List.filter_eq_self.mpr
      intro _ hrow
      obtain ⟨_, _, rfl⟩ := List.mem_map.mp hrow
      simp
    simp only [logOf, Table.lookup_modify_self, hrow, Option.map_some, EventLog.append, List.filter_append, hnew,
      List.map_append, List.map_map]
    rfl

structure EventLog.Numbered (log : EventLog) : Prop where
  rows : NumberedFrom (·.sequence) 0 log.rows
  next : log.nextSequence = log.rows.length + 1

theorem numbered_zipIdx (now : Time) (events : List ReservedEvent) (skipped : Nat) :
    NumberedFrom RunEventRecord.sequence skipped (events.zipIdx.map fun (event, offset) =>
      { sequence := skipped + 1 + offset, event, occurredAt := now }) := by
  rw [NumberedFrom, List.map_map, List.length_map, List.length_zipIdx]
  apply List.ext_getElem
  · simp
  · intro _ _ _
    simp

theorem EventLog.Numbered.append (h : log.Numbered) (now : Time) (events : List ReservedEvent) :
    (log.append now events).Numbered where
  rows := by
    refine h.rows.append ?_
    rw [h.next]
    have hnew := numbered_zipIdx now events log.rows.length
    rwa [Nat.zero_add]
  next := by
    simp only [EventLog.append, List.length_append, List.length_map, List.length_zipIdx, h.next]
    omega

theorem EventLog.Numbered.listEventsAfter (h : log.Numbered) (after limit : Nat) :
    log.listEventsAfter after limit = (log.rows.drop after).take limit := by
  have hfilter := h.rows.filter_lt (Nat.zero_le after)
  rw [EventLog.listEventsAfter, hfilter, Nat.sub_zero, (h.rows.drop after).pairwise.insertionSort_eq]

end Log

section Delivery
variable {m : Member} {records : List RunEventRecord}

theorem offer_of_room (hroom : m.queue.length < queueSize) (item : Option RunEventRecord) :
    offer m item = { m with queue := m.queue ++ [item] } := by
  simp only [offer, Member.putNowait, if_pos hroom]

theorem offer_none (m : Member) : ∃ tail, offer m none = { m with queue := m.queue ++ tail } ∧ tail.reduceOption = [] := by
  by_cases hroom : m.queue.length < queueSize
  · exact ⟨[none], offer_of_room hroom none, rfl⟩
  · refine ⟨[], ?_, rfl⟩
    simp only [offer, Member.putNowait, if_neg hroom, List.append_nil]

theorem deliver_records {cursor : Nat} (hrecords : NumberedFrom RunEventRecord.sequence cursor records)
    (hcursor : cursor ≤ m.cursor) (hroom : m.queue.length + (records.drop (m.cursor - cursor)).length ≤ queueSize) :
    records.foldl (fun m r => if r.sequence ≤ m.cursor then m else offer { m with cursor := r.sequence } (some r)) m =
      { m with
        cursor := m.cursor + (records.drop (m.cursor - cursor)).length
        queue := m.queue ++ (records.drop (m.cursor - cursor)).map some } := by
  induction records generalizing m cursor with
  | nil => simp
  | cons r records ih =>
    obtain ⟨hr, hrest⟩ := NumberedFrom.cons_iff.mp hrecords
    rw [List.foldl_cons, hr]
    by_cases hold : cursor + 1 ≤ m.cursor
    · have hdrop : (r :: records).drop (m.cursor - cursor) = records.drop (m.cursor - (cursor + 1)) := by
        rw [show m.cursor - cursor = (m.cursor - (cursor + 1)) + 1 by omega, List.drop_succ_cons]
      rw [hdrop] at hroom ⊢
      rw [if_pos hold]
      exact ih hrest hold hroom
    · have heq : m.cursor = cursor := by omega
      simp only [heq, Nat.sub_self, List.drop_zero, List.length_cons] at hroom ⊢
      rw [if_neg (by omega), offer_of_room (by simp only; omega)]
      have hnext := @ih { m with cursor := cursor + 1, queue := m.queue ++ [some r] } (cursor + 1) hrest le_rfl
        (by simp only [List.length_append, List.length_singleton, Nat.sub_self, List.drop_zero]; omega)
      rw [hnext]
      simp only [Nat.sub_self, List.drop_zero, List.map_cons, List.append_assoc, List.singleton_append, Member.mk.injEq,
        true_and, and_true]
      omega

/-- A poll hands over to the queue; the rest is the member's own. -/
structure Member.SameOutside (m m' : Member) : Prop where
  after : m'.after = m.after
  batch : m'.batch = m.batch
  yielded : m'.yielded = m.yielded
  phase : m'.phase = m.phase

theorem offer_sameOutside (m : Member) (item : Option RunEventRecord) : m.SameOutside (offer m item) := by
  by_cases hroom : m.queue.length < queueSize
  · rw [offer_of_room hroom]
    exact ⟨rfl, rfl, rfl, rfl⟩
  · cases item <;> simp only [offer, Member.putNowait, if_neg hroom, Option.getD_none] <;> exact ⟨rfl, rfl, rfl, rfl⟩

theorem deliver_sameOutside (records : List RunEventRecord) (window : RunEventWindow) (m : Member) :
    m.SameOutside (deliver records window m) := by
  have hrecords : m.SameOutside (records.foldl
      (fun m r => if r.sequence ≤ m.cursor then m else offer { m with cursor := r.sequence } (some r)) m) := by
    refine List.foldlRecOn (motive := m.SameOutside) records _ ⟨rfl, rfl, rfl, rfl⟩ fun m' hm' r _ => ?_
    split_ifs
    · exact hm'
    · have hoffer := offer_sameOutside { m' with cursor := r.sequence } (some r)
      exact ⟨hoffer.after.trans hm'.after, hoffer.batch.trans hm'.batch, hoffer.yielded.trans hm'.yielded,
        hoffer.phase.trans hm'.phase⟩
  unfold deliver
  dsimp only
  split_ifs
  · have hoffer := offer_sameOutside (records.foldl
      (fun m r => if r.sequence ≤ m.cursor then m else offer { m with cursor := r.sequence } (some r)) m) none
    exact ⟨hoffer.after.trans hrecords.after, hoffer.batch.trans hrecords.batch, hoffer.yielded.trans hrecords.yielded,
      hoffer.phase.trans hrecords.phase⟩
  · exact hrecords

end Delivery

section Invariant
variable {h h' : Hub} {x : Act} {m : Member} {rows rows' : List RunEventRecord}

/-- What a member has been given is what was committed after `after`, up to its cursor. -/
structure Follows (rows : List RunEventRecord) (m : Member) : Prop where
  sent : m.yielded <+: rows.drop m.after
  given : m.phase ≠ .ended → m.inHand <+: rows.drop m.after ∧ m.cursor + m.batch.length = m.after + m.inHand.length
  unread : m.phase ≠ .ended → m.phase ≠ .catchingUp → m.batch = []
  unqueued : m.phase ≠ .ended → m.phase ≠ .live → m.queue = []

def Behind (h : Hub) (members : List Nat) (cursor : Nat) : Prop :=
  ∀ id ∈ members, ∃ m, h.members.lookup id = some m ∧ (m.phase = .live ∨ m.phase = .ended) ∧
    (m.phase = .live → cursor ≤ m.cursor)

def PollSound (h : Hub) : Prop :=
  match h.poll with
  | .idle => True
  | .reading members cursor => Behind h members cursor
  | .read members records | .ready members records _ =>
    ∃ cursor, Behind h members cursor ∧ records <+: h.log.rows.drop cursor

structure HubSound (h : Hub) : Prop where
  numbered : h.log.Numbered
  members : ∀ id m, h.members.lookup id = some m → Follows h.log.rows m
  poll : PollSound h

theorem drop_grows (hrows : rows <+: rows') (n : Nat) : rows.drop n <+: rows'.drop n := by
  obtain ⟨_, rfl⟩ := hrows
  rw [List.drop_append]
  exact List.prefix_append _ _

theorem Follows.grow (hm : Follows rows m) (hrows : rows <+: rows') : Follows rows' m where
  sent := hm.sent.trans (drop_grows hrows _)
  given hphase := ⟨(hm.given hphase).1.trans (drop_grows hrows _), (hm.given hphase).2⟩
  unread := hm.unread
  unqueued := hm.unqueued

theorem reads_on {given more : List RunEventRecord} (hgiven : given <+: rows) (hmore : more <+: rows.drop given.length) :
    given ++ more <+: rows := by
  obtain ⟨_, rfl⟩ := hgiven
  rw [List.drop_left] at hmore
  exact (List.prefix_append_right_inj _).mpr hmore

theorem Follows.gapFree (hm : Follows h.log.rows m) (hlog : h.log.Numbered) : GapFree h m where
  contiguous := by
    have hnumbered := (hlog.rows.drop m.after).of_first hm.sent
    rwa [NumberedFrom, Nat.zero_add] at hnumbered
  committed := hm.sent
  ends hmissed := by
    by_cases hphase : m.phase = .ended
    · exact .inr hphase
    · have hreach := (hm.given hphase).2
      rw [Member.Missed] at hmissed
      omega

def StaysInPoll (m m' : Member) : Prop :=
  m.phase = .live ∨ m.phase = .ended →
    (m'.phase = .live ∨ m'.phase = .ended) ∧ (m'.phase = .live → m.phase = .live ∧ m'.cursor = m.cursor)

theorem PollSound.keep (hs : PollSound h) (hpoll : h'.poll = h.poll) (hrows : h.log.rows <+: h'.log.rows)
    (hbehind : ∀ members cursor, Behind h members cursor → Behind h' members cursor) : PollSound h' := by
  unfold PollSound at *
  rw [hpoll]
  cases hp : h.poll with
  | idle => trivial
  | reading members cursor =>
    simp only [hp] at hs ⊢
    exact hbehind members cursor hs
  | read members =>
    simp only [hp] at hs ⊢
    obtain ⟨cursor, hb, hrecords⟩ := hs
    exact ⟨cursor, hbehind members cursor hb, hrecords.trans (drop_grows hrows cursor)⟩
  | ready members =>
    simp only [hp] at hs ⊢
    obtain ⟨cursor, hb, hrecords⟩ := hs
    exact ⟨cursor, hbehind members cursor hb, hrecords.trans (drop_grows hrows cursor)⟩

variable {id : Nat}

theorem Behind.setMember {members : List Nat} {cursor : Nat} {f : Member → Member} (hb : Behind h members cursor)
    (hm : h.members.lookup id = some m) (hstays : StaysInPoll m (f m)) : Behind (h.setMember id f) members cursor := by
  intro j hj
  obtain ⟨m', hm', hphase, hcursor⟩ := hb j hj
  by_cases hid : j = id
  · subst hid
    cases hm.symm.trans hm'
    obtain ⟨hphase', hsame⟩ := hstays hphase
    refine ⟨f m, ?_, hphase', fun hlive => ?_⟩
    · rw [Hub.setMember, Table.lookup_modify_self, hm, Option.map_some]
    · obtain ⟨hwas, heq⟩ := hsame hlive
      rw [heq]
      exact hcursor hwas
  · refine ⟨m', ?_, hphase, hcursor⟩
    rw [Hub.setMember, Table.lookup_modify_of_ne hid, hm']

theorem HubSound.setMember {f : Member → Member} (hs : HubSound h) (hm : h.members.lookup id = some m)
    (hfollows : Follows h.log.rows (f m)) (hstays : StaysInPoll m (f m)) : HubSound (h.setMember id f) where
  numbered := hs.numbered
  members j m' hm' := by
    rcases Table.lookup_modify_cases hm hm' with ⟨_, rfl⟩ | ⟨_, hm'⟩
    · exact hfollows
    · exact hs.members j m' hm'
  poll := hs.poll.keep rfl List.prefix_rfl fun _ _ hb => hb.setMember hm hstays

theorem HubSound.grow {log' : EventLog} (hs : HubSound h) (hnumbered : log'.Numbered) (hrows : h.log.rows <+: log'.rows) :
    HubSound { h with log := log' } where
  numbered := hnumbered
  members id m hm := (hs.members id m hm).grow hrows
  poll := hs.poll.keep rfl hrows fun _ _ hb => hb

theorem stays_of_waiting {m m' : Member} (hlive : m.phase ≠ .live) (hended : m.phase ≠ .ended) : StaysInPoll m m' := by
  rintro (h | h)
  · exact absurd h hlive
  · exact absurd h hended

theorem follows_ended (hm : Follows rows m) : Follows rows { m with phase := .ended } where
  sent := hm.sent
  given h := absurd rfl h
  unread h := absurd rfl h
  unqueued h := absurd rfl h

theorem Follows.waiting (hm : Follows rows m) (hlive : m.phase ≠ .live) (hended : m.phase ≠ .ended) :
    m.queue = [] ∧ m.yielded ++ m.batch <+: rows.drop m.after ∧ m.cursor = m.after + m.yielded.length := by
  have hqueue := hm.unqueued hended hlive
  have hgiven := hm.given hended
  rw [inHand_of_unqueued hqueue, List.length_append] at hgiven
  refine ⟨hqueue, hgiven.1, ?_⟩
  omega

theorem follows_of_waiting (hqueue : m.queue = []) (hgiven : m.yielded ++ m.batch <+: rows.drop m.after)
    (hcursor : m.cursor = m.after + m.yielded.length) (hbatch : m.phase ≠ .catchingUp → m.batch = []) :
    Follows rows m where
  sent := (List.prefix_append _ _).trans hgiven
  given _ := by
    rw [inHand_of_unqueued hqueue, List.length_append]
    refine ⟨hgiven, ?_⟩
    omega
  unread _ := hbatch
  unqueued _ _ := hqueue

theorem subscribe_sound {after : Nat} (hs : HubSound h) (hx : subscribe h id after = some h') : HubSound h' := by
  unfold subscribe at hx
  split_ifs at hx with hnew
  cases hx
  refine ⟨hs.numbered, fun j m hm => ?_, hs.poll.keep rfl List.prefix_rfl fun members cursor hb j hj => ?_⟩
  · rw [Table.lookup_insert_ite] at hm
    split_ifs at hm
    · rw [← Option.some.inj hm]
      exact follows_of_waiting rfl List.nil_prefix rfl fun _ => rfl
    · exact hs.members j m hm
  · obtain ⟨m, hm, hrest⟩ := hb j hj
    refine ⟨m, ?_, hrest⟩
    have hj : j ≠ id := by
      rintro rfl
      rw [hnew.1] at hm
      cases hm
    rw [Table.lookup_insert_ite, if_neg hj, hm]

theorem catchUp_sound (hs : HubSound h) (hx : catchUp h id = some h') : HubSound h' := by
  simp only [catchUp, Option.bind_eq_bind, Option.bind_eq_some_iff] at hx
  obtain ⟨m, hm, hx⟩ := hx
  have hfollows := hs.members id m hm
  split_ifs at hx with hphase hempty
  all_goals
    cases hx
    have hlive : m.phase ≠ .live := by rw [hphase.1]; decide
    have hended : m.phase ≠ .ended := by rw [hphase.1]; decide
    obtain ⟨hqueue, hgiven, hcursor⟩ := hfollows.waiting hlive hended
    refine hs.setMember hm ?_ (stays_of_waiting hlive hended)
  · exact follows_of_waiting hqueue hgiven hcursor fun _ => hphase.2
  · refine follows_of_waiting hqueue ?_ hcursor fun hne => absurd hphase.1 hne
    refine reads_on hfollows.sent ?_
    rw [hs.numbered.listEventsAfter, List.drop_drop, ← hcursor]
    exact List.take_prefix _ _

theorem emit_sound (hs : HubSound h) (hx : emit h id = some h') : HubSound h' := by
  simp only [emit, Option.bind_eq_bind, Option.bind_eq_some_iff] at hx
  obtain ⟨m, hm, hx⟩ := hx
  split at hx
  case h_1 r rest hphase hbatch =>
    cases hx
    have hlive : m.phase ≠ .live := by rw [hphase]; decide
    have hended : m.phase ≠ .ended := by rw [hphase]; decide
    obtain ⟨hqueue, hgiven, _⟩ := (hs.members id m hm).waiting hlive hended
    rw [hbatch] at hgiven
    have hr : r.sequence = m.cursor + 1 := by
      have hnumbered := ((hs.numbered.rows.drop m.after).of_first hgiven).drop m.yielded.length
      rw [List.drop_left] at hnumbered
      have hnext := (NumberedFrom.cons_iff.mp hnumbered).1
      omega
    refine hs.setMember hm ?_ (stays_of_waiting hlive hended)
    refine follows_of_waiting hqueue ?_ ?_ fun hne => absurd hphase hne
    · rwa [List.append_cons] at hgiven
    · simp only [List.length_append, List.length_singleton]
      omega
  case h_2 => cases hx

theorem check_sound (hs : HubSound h) (hx : check h id = some h') : HubSound h' := by
  simp only [check, Option.bind_eq_bind, Option.bind_eq_some_iff] at hx
  obtain ⟨m, hm, hx⟩ := hx
  have hfollows := hs.members id m hm
  split_ifs at hx with hphase hover
  all_goals
    cases hx
    have hlive : m.phase ≠ .live := by rw [hphase]; decide
    have hended : m.phase ≠ .ended := by rw [hphase]; decide
    refine hs.setMember hm ?_ (stays_of_waiting hlive hended)
  · exact follows_ended hfollows
  · obtain ⟨hqueue, hgiven, hcursor⟩ := hfollows.waiting hlive hended
    refine follows_of_waiting hqueue hgiven hcursor fun _ => ?_
    exact hfollows.unread hended (by rw [hphase]; decide)

theorem join_sound (hs : HubSound h) (hx : join h id = some h') : HubSound h' := by
  simp only [join, Option.bind_eq_bind, Option.bind_eq_some_iff] at hx
  obtain ⟨m, hm, hx⟩ := hx
  have hfollows := hs.members id m hm
  split_ifs at hx with hphase
  cases hx
  have hlive : m.phase ≠ .live := by rw [hphase]; decide
  have hended : m.phase ≠ .ended := by rw [hphase]; decide
  obtain ⟨hqueue, hgiven, hcursor⟩ := hfollows.waiting hlive hended
  refine hs.setMember hm ?_ (stays_of_waiting hlive hended)
  refine follows_of_waiting hqueue hgiven hcursor fun _ => ?_
  exact hfollows.unread hended (by rw [hphase]; decide)

theorem consume_sound (hs : HubSound h) (hx : consume h id = some h') : HubSound h' := by
  simp only [consume, Option.bind_eq_bind, Option.bind_eq_some_iff] at hx
  obtain ⟨m, hm, hx⟩ := hx
  have hfollows := hs.members id m hm
  split at hx
  case h_1 r rest hphase hqueue =>
    cases hx
    have hended : m.phase ≠ .ended := by rw [hphase]; decide
    have hbatch : m.batch = [] := hfollows.unread hended (by rw [hphase]; decide)
    obtain ⟨hgiven, hreach⟩ := hfollows.given hended
    have hinHand : m.inHand = m.yielded ++ [r] ++ [] ++ rest.reduceOption := by
      simp only [Member.inHand, hqueue, hbatch, List.reduceOption_cons_of_some, List.append_assoc, List.nil_append,
        List.singleton_append]
    rw [hinHand] at hgiven hreach
    refine hs.setMember hm ⟨?_, fun _ => ?_, fun _ _ => hbatch, fun _ hne => absurd hphase hne⟩
      fun _ => ⟨.inl hphase, fun _ => ⟨hphase, rfl⟩⟩
    · rw [List.append_nil] at hgiven
      exact (List.prefix_append _ _).trans hgiven
    · rw [Member.inHand, hbatch]
      rw [hbatch] at hreach
      exact ⟨hgiven, hreach⟩
  case h_2 rest hphase hqueue =>
    cases hx
    refine hs.setMember hm ⟨hfollows.sent, fun hne => absurd rfl hne, fun hne => absurd rfl hne,
      fun hne => absurd rfl hne⟩ fun _ => ⟨.inr rfl, fun hlive => (nomatch hlive)⟩
  case h_3 => cases hx

theorem leave_sound (hs : HubSound h) : HubSound (h.setMember id fun m => { m with phase := .ended }) := by
  cases hm : h.members.lookup id with
  | none =>
    have hsame : ∀ j, (h.setMember id fun m => { m with phase := .ended }).members.lookup j = h.members.lookup j := by
      intro j
      rw [Hub.setMember, Table.lookup_modify]
      split_ifs with hj
      · rw [hj, hm, Option.map_none]
      · rfl
    refine ⟨hs.numbered, fun j m hj => hs.members j m ((hsame j).symm.trans hj), ?_⟩
    refine hs.poll.keep rfl List.prefix_rfl fun members cursor hb j hj => ?_
    rw [hsame]
    exact hb j hj
  | some m =>
    exact hs.setMember hm (follows_ended (hs.members id m hm)) fun _ => ⟨.inr rfl, fun hlive => (nomatch hlive)⟩

theorem startPoll_sound (hs : HubSound h) (hx : startPoll h = some h') : HubSound h' := by
  unfold startPoll at hx
  split at hx
  case h_1 cursor _ hmin =>
    cases hx
    refine ⟨hs.numbered, hs.members, fun id hid => ?_⟩
    obtain ⟨⟨_, m⟩, hmem, rfl⟩ := List.mem_map.mp hid
    obtain ⟨hm, hlive⟩ := Table.mem_select.mp hmem
    refine ⟨m, hm, .inl (by simpa using hlive), fun _ => ?_⟩
    exact (List.min?_eq_some_iff.mp hmin).2 _ (List.mem_map.mpr ⟨_, hmem, rfl⟩)
  case h_2 => cases hx

theorem readRecords_sound (hs : HubSound h) (hx : readRecords h = some h') : HubSound h' := by
  unfold readRecords at hx
  split at hx
  case h_1 members cursor hpoll =>
    cases hx
    have hbehind := hs.poll
    rw [PollSound, hpoll] at hbehind
    refine ⟨hs.numbered, hs.members, cursor, hbehind, ?_⟩
    rw [hs.numbered.listEventsAfter]
    exact List.take_prefix _ _
  case h_2 => cases hx

theorem readWindow_sound (hs : HubSound h) (hx : readWindow h = some h') : HubSound h' := by
  unfold readWindow at hx
  split at hx
  case h_1 members records hpoll =>
    cases hx
    have hread := hs.poll
    rw [PollSound, hpoll] at hread
    exact ⟨hs.numbered, hs.members, hread⟩
  case h_2 => cases hx

theorem Follows.deliver {records : List RunEventRecord} {window : RunEventWindow} {cursor : Nat} (hm : Follows rows m)
    (hnumbered : NumberedFrom RunEventRecord.sequence 0 rows) (hlive : m.phase = .live) (hcursor : cursor ≤ m.cursor)
    (hrecords : records <+: rows.drop cursor)
    (hroom : m.queue.length + (records.filter fun r => m.cursor < r.sequence).length ≤ queueSize) :
    Follows rows (EventStream.deliver records window m) := by
  have hended : m.phase ≠ .ended := by rw [hlive]; decide
  have hbatch : m.batch = [] := hm.unread hended (by rw [hlive]; decide)
  obtain ⟨hgiven, hreach⟩ := hm.given hended
  rw [hbatch, List.length_nil, Nat.add_zero] at hreach
  have hfrom := (hnumbered.drop cursor).of_first hrecords
  rw [Nat.zero_add] at hfrom
  rw [hfrom.filter_lt hcursor] at hroom
  have hmore : m.inHand ++ records.drop (m.cursor - cursor) <+: rows.drop m.after := by
    refine reads_on hgiven ?_
    have hdrop := drop_grows hrecords (m.cursor - cursor)
    rw [List.drop_drop, show cursor + (m.cursor - cursor) = m.after + m.inHand.length by omega] at hdrop
    rwa [List.drop_drop]
  have hqueued : ∀ tail : List (Option RunEventRecord), tail.reduceOption = [] →
      Follows rows { m with
        cursor := m.cursor + (records.drop (m.cursor - cursor)).length
        queue := m.queue ++ (records.drop (m.cursor - cursor)).map some ++ tail } := by
    intro tail htail
    refine ⟨hm.sent, fun _ => ?_, fun _ _ => hbatch, fun _ hne => absurd hlive hne⟩
    have hinHand : Member.inHand { m with
        cursor := m.cursor + (records.drop (m.cursor - cursor)).length
        queue := m.queue ++ (records.drop (m.cursor - cursor)).map some ++ tail } =
        m.inHand ++ records.drop (m.cursor - cursor) := by
      simp only [Member.inHand, List.reduceOption_append, htail, List.append_nil, List.append_assoc]
      simp [List.reduceOption]
    rw [hinHand, hbatch, List.length_append]
    refine ⟨hmore, ?_⟩
    simp only [List.length_nil]
    omega
  unfold EventStream.deliver
  rw [deliver_records hfrom hcursor hroom]
  dsimp only
  split_ifs
  · obtain ⟨tail, heq, htail⟩ := offer_none { m with
      cursor := m.cursor + (records.drop (m.cursor - cursor)).length
      queue := m.queue ++ (records.drop (m.cursor - cursor)).map some }
    rw [heq]
    exact hqueued tail htail
  · have hall := hqueued [] rfl
    rwa [List.append_nil] at hall

theorem distribute_sound (hs : HubSound h) (hx : distribute h = some h')
    (hkeeps : KeepsUp ⟨h, .distribute, (), h'⟩) : HubSound h' := by
  unfold distribute at hx
  split at hx
  case h_1 members records window hpoll =>
    cases hx
    have hready := hs.poll
    rw [PollSound, hpoll] at hready
    obtain ⟨_, hbehind, hrecords⟩ := hready
    simp only [KeepsUp, hpoll] at hkeeps
    refine ⟨hs.numbered, fun id m' hm' => ?_, trivial⟩
    rw [Table.lookup_mapRows, Option.map_eq_some_iff] at hm'
    obtain ⟨m, hm, rfl⟩ := hm'
    have hfollows := hs.members id m hm
    split_ifs with hid
    · obtain ⟨_, hsame, hphase, hcursor⟩ := hbehind id hid
      cases hm.symm.trans hsame
      rcases hphase with hlive | hended
      · exact hfollows.deliver hs.numbered.rows hlive (hcursor hlive) hrecords (hkeeps id hid m hm hlive)
      · have houtside := deliver_sameOutside records window m
        have hended' := houtside.phase.trans hended
        refine ⟨?_, fun hne => absurd hended' hne, fun hne => absurd hended' hne, fun hne => absurd hended' hne⟩
        rw [houtside.yielded, houtside.after]
        exact hfollows.sent
    · exact hfollows
  case h_2 => cases hx

theorem act_sound (hs : HubSound h) (hx : act h x = some h') (hkeeps : KeepsUp ⟨h, x, (), h'⟩) : HubSound h' := by
  cases x with
  | append now events =>
    cases hx
    exact hs.grow (hs.numbered.append now events) (List.prefix_append _ _)
  | terminate =>
    cases hx
    exact hs.grow ⟨hs.numbered.rows, hs.numbered.next⟩ List.prefix_rfl
  | subscribe => exact subscribe_sound hs hx
  | catchUp => exact catchUp_sound hs hx
  | emit => exact emit_sound hs hx
  | check => exact check_sound hs hx
  | join => exact join_sound hs hx
  | consume => exact consume_sound hs hx
  | leave =>
    cases hx
    exact leave_sound hs
  | startPoll => exact startPoll_sound hs hx
  | readRecords => exact readRecords_sound hs hx
  | readWindow => exact readWindow_sound hs hx
  | distribute => exact distribute_sound hs hx hkeeps
  | failPoll =>
    cases hx
    exact ⟨hs.numbered, hs.members, trivial⟩

theorem hubSound_start : HubSound {} where
  numbered := ⟨.nil 0, rfl⟩
  members _ _ hm := (nomatch hm)
  poll := trivial

end Invariant

/-- In every run in which no poll brings a member more than its queue has room for, every stream is gap-free. -/
theorem stream_gap_free {log : HubHistory} {h : Hub} (hrun : HubExecutes log h) (hkeeps : ∀ c ∈ log, KeepsUp c) (id : Nat)
    (m : Member) (hm : h.members.lookup id = some m) : GapFree h m := by
  have hsound : HubSound h := by
    refine (hrun.strengthen (P := fun s x a s' => KeepsUp ⟨s, x, a, s'⟩) hkeeps).invariant hubSound_start ?_
    intro _ _ _ _ hstep hs
    exact act_sound hs hstep.2 hstep.1
  exact (hsound.members id m hm).gapFree hsound.numbered

section Example

def performAct (h : Hub) (x : Act) : Option (Unit × Hub) := (act h x).map fun h' => ((), h')

def attemptActs (acts : List Act) : HubHistory × Hub := replay performAct {} acts

theorem attemptActs_executes (acts : List Act) : HubExecutes (attemptActs acts).1 (attemptActs acts).2 := by
  refine replay_execution performAct (fun h x o h' hx => ?_) {} acts
  obtain ⟨_, hact, heq⟩ := Option.map_eq_some_iff.mp hx
  obtain rfl := (Prod.mk.inj heq).2
  exact hact

def news (n : Nat) : Act := .append 0 (List.replicate n { eventType := .modelRound })

def joins (id after : Nat) : List Act := [.subscribe id after, .catchUp id, .check id, .join id]

def polls : List Act := [.startPoll, .readRecords, .readWindow, .distribute]

def fallsBehind : List Act :=
  joins 1 0 ++ [news 256] ++ polls ++ polls ++ [news 1] ++ polls ++ [.consume 1, news 1] ++ polls ++
    List.replicate 256 (.consume 1)

theorem fallsBehind_gap : ∃ log h m, HubExecutes log h ∧ h.members.lookup 1 = some m ∧ ¬ GapFree h m := by
  have hyielded : (((attemptActs fallsBehind).2.members.lookup 1).map fun m => (m.after, m.yielded.map (·.sequence))) =
      some (0, List.range' 1 256 ++ [258]) := by decide +kernel
  have hrun := attemptActs_executes fallsBehind
  generalize attemptActs fallsBehind = run at hyielded hrun
  obtain ⟨m, hm, hsent⟩ := Option.map_eq_some_iff.mp hyielded
  refine ⟨run.1, run.2, m, hrun, hm, fun hfree => ?_⟩
  obtain ⟨hafter, hsent⟩ := Prod.mk.inj hsent
  have hlength : m.yielded.length = 257 := by
    rw [← List.length_map (·.sequence), hsent]
    simp
  have hgap := hfree.contiguous
  rw [hsent, hafter, hlength] at hgap
  exact absurd hgap (by decide +kernel)

def keepsPace : List Act :=
  [news 1] ++ joins 1 1 ++ [news 3] ++ polls ++ [.consume 1, news 2, .consume 1] ++ polls ++ List.replicate 3 (.consume 1)

theorem keepsPace_gap_free : ∃ log h m, HubExecutes log h ∧ h.members.lookup 1 = some m ∧
    m.yielded.map (·.sequence) = [2, 3, 4, 5, 6] ∧ GapFree h m := by
  have hyielded : (((attemptActs keepsPace).2.members.lookup 1).map fun m => m.yielded.map (·.sequence)) =
      some [2, 3, 4, 5, 6] := by decide
  have hroom : (attemptActs keepsPace).1.all (fun c => match c.input, c.before.poll with
      | .distribute, .ready members records _ => members.all fun id => (c.before.members.lookup id).all fun m =>
        m.queue.length + (records.filter fun r => m.cursor < r.sequence).length ≤ queueSize
      | _, _ => true) = true := by decide
  have hrun := attemptActs_executes keepsPace
  generalize attemptActs keepsPace = run at hyielded hroom hrun
  obtain ⟨m, hm, hsent⟩ := Option.map_eq_some_iff.mp hyielded
  refine ⟨run.1, run.2, m, hrun, hm, hsent, stream_gap_free hrun (fun c hc => ?_) 1 m hm⟩
  have hthis := List.all_eq_true.mp hroom c hc
  unfold KeepsUp
  split
  · next members records window hinput hpoll =>
    rw [hinput, hpoll] at hthis
    intro id hid _ hm _
    have hmember := List.all_eq_true.mp hthis id hid
    simpa [hm] using hmember
  · trivial

end Example

end TinyHermes.Runs.EventStream
