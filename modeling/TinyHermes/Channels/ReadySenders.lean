import TinyHermes.Channels.Steps

/-! Which senders a gather pass finds ready: the condition of the scan against the test of the gather, and what both come to
over one pass after another. -/
namespace TinyHermes.Channels
open Lib

/-- The deliveries as arrivals left them: what is held was recorded from a message. -/
structure HeldTable where
  rows : List ChannelEventRow
  held : ∀ row ∈ rows, row.heldMessage.isSome → ∃ event, row.heldMessage = some (heldDocument event) ∧
    row.heldOpenId = some (clip 120 event.externalUserId)

/-- A gather of one sender, and how it goes outside the table. -/
structure Turn where
  bindingId : Nat
  sender : String
  outcome : GatherOutcome
  now : Int

def Turn.key (turn : Turn) : Nat × String := (turn.bindingId, turn.sender)

structure Pass where
  olderThan : Int
  turns : List Turn

def Turn.quiet (turn : Turn) : Prop := turn.outcome ≠ .raised

section Table
variable (settings : Settings)

/-- The rows with the statements of a gather carried out. -/
def edited (edits : List (Nat × Edit)) (rows : List ChannelEventRow) : List ChannelEventRow :=
  rows.map fun row => applyAll (editsOf row.id edits) row

theorem applyAll_heldMessage (edits : List Edit) (row : ChannelEventRow) :
    (applyAll edits row).heldMessage = row.heldMessage ∧ (applyAll edits row).heldOpenId = row.heldOpenId :=
  ⟨(applyAll_sameDelivery edits row).heldMessage, (applyAll_sameDelivery edits row).heldOpenId⟩

theorem held_arrive (table : HeldTable) (id bindingId : Nat) (event : ChannelEvent) (receivedAt : Int) :
    ∀ row ∈ table.rows ++ [recordHeld event (claimDelivery id bindingId event.channelEventId receivedAt)],
      row.heldMessage.isSome → ∃ event, row.heldMessage = some (heldDocument event) ∧
        row.heldOpenId = some (clip 120 event.externalUserId) := by
  intro row hrow hsome
  obtain hrow | hrow := List.mem_append.mp hrow
  · exact table.held row hrow hsome
  · obtain rfl := List.mem_singleton.mp hrow
    exact ⟨event, rfl, rfl⟩

def HeldTable.arrive (table : HeldTable) (id bindingId : Nat) (event : ChannelEvent) (receivedAt : Int) : HeldTable where
  rows := table.rows ++ [recordHeld event (claimDelivery id bindingId event.channelEventId receivedAt)]
  held := held_arrive table id bindingId event receivedAt

theorem held_edited (table : HeldTable) (edits : List (Nat × Edit)) :
    ∀ row ∈ edited edits table.rows, row.heldMessage.isSome → ∃ event, row.heldMessage = some (heldDocument event) ∧
      row.heldOpenId = some (clip 120 event.externalUserId) := by
  intro _ hafter hsome
  obtain ⟨row, hrow, rfl⟩ := List.mem_map.mp hafter
  obtain ⟨hmessage, hsender⟩ := applyAll_heldMessage (editsOf row.id edits) row
  rw [hmessage] at hsome ⊢
  rw [hsender]
  exact table.held row hrow hsome

def HeldTable.edited (table : HeldTable) (edits : List (Nat × Edit)) : HeldTable where
  rows := Channels.edited edits table.rows
  held := held_edited table edits

/-- `_gather` of a sender whose rows nobody else holds. -/
def HeldTable.gather (table : HeldTable) (turn : Turn) : Option HeldTable :=
  let batch := waitingBatch turn.bindingId turn.sender table.rows
  let others := table.rows.filter (ChannelEventRow.waitingOf turn.bindingId turn.sender)
  (Channels.gather settings batch others turn.outcome turn.now).map fun gathered => table.edited gathered.edits

/-- `gather_once`: as many of the senders that are ready as a pass takes, one after another. -/
def HeldTable.pass (table : HeldTable) (p : Pass) : Option HeldTable :=
  let ready := sendersReady p.olderThan table.rows
  let chosen := p.turns.map Turn.key
  if chosen.all (ready.contains ·) && decide chosen.Nodup && chosen.length = min settings.gatherBatch ready.length then
    p.turns.foldlM (HeldTable.gather settings) table
  else none

def HeldTable.passes (table : HeldTable) (ps : List Pass) : Option HeldTable := ps.foldlM (HeldTable.pass settings) table

end Table

section Stored
variable (settings : Settings)

def Wordless (event : ChannelEvent) : Prop := Text.isBlank event.text = true ∧ event.text ≠ "" ∧ event.images = []

end Stored

section Waiting
variable {settings : Settings} {table after : HeldTable} {key : Nat × String}

def Worded (table : HeldTable) : Prop :=
  ∀ row ∈ table.rows, ∀ event, row.heldMessage = some (heldDocument event) → ¬ Wordless event

theorem Worded.edited (h : Worded table) (edits : List (Nat × Edit)) : Worded (table.edited edits) := by
  intro _ hrow event hmessage
  obtain ⟨before, hbefore, rfl⟩ := List.mem_map.mp hrow
  rw [(applyAll_sameDelivery _ before).heldMessage] at hmessage
  exact h before hbefore event hmessage

end Waiting

section Passes
variable {settings : Settings} {table after : HeldTable} {key : Nat × String}

end Passes

/-- The scan and the gather judge every message that is held alike, and the senders that the scan finds are served. -/
structure Progress (settings : Settings) (table : HeldTable) : Prop where
  agrees : ∀ row ∈ table.rows, row.heldMessage.isSome → ∀ event, heldEventOf settings row = .ok event →
    row.filesOnly = filesOnly event
  served : ∀ p after, table.pass settings p = some after → ∀ turn ∈ p.turns, turn.quiet →
    ∀ later, turn.key ∉ sendersReady later after.rows
  /-- no pass is filled with senders that filled one before -/
  once : ∀ ps after, table.passes settings ps = some after → (∀ p ∈ ps, ∀ turn ∈ p.turns, turn.quiet) →
    (ps.flatMap fun p => p.turns.map Turn.key).Nodup

section Example

end Example

end TinyHermes.Channels
