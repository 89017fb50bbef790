import TinyHermes.Channels.Reachable

/-! Every Run of a channel is answered: the row that carries it is open when it gets it, and only the answer settles it. -/
namespace TinyHermes.Channels
open Lib

/-- The row is still owed the answer of the Run it carries, or was settled by it. -/
def Answered (row : ChannelEventRow) : Prop :=
  ∀ run, row.runId = some run → row.repliedAt = none ∨ row.settledBy = some (.reply run)

structure Answerable (row : ChannelEventRow) : Prop where
  answered : Answered row
  waiting : row.waiting → row.repliedAt.isSome → row.settledBy = some .question

section Rows
variable {row : ChannelEventRow}

theorem ChannelEventRow.Sound.no_run (h : row.Sound) (hwaiting : row.waiting) : row.runId = none := by
  cases hrun : row.runId with
  | none => rfl
  | some run =>
    have hnot := (h.run (by rw [hrun]; rfl)).1
    exact absurd (hwaiting.symm.trans hnot) (by decide)

theorem settled_taken (note : String) (now : Int) (row : ChannelEventRow) :
    (applyAll [.markTaken now, .settleIfOpen note now] row).runId = row.runId ∧
      (applyAll [.markTaken now, .settleIfOpen note now] row).heldTakenAt = some now := by
  have happly : applyAll [.markTaken now, .settleIfOpen note now] row =
      (Edit.settleIfOpen note now).apply { row with heldTakenAt := some now } := rfl
  rw [happly]
  rcases settleIfOpen_cases note now { row with heldTakenAt := some now } with ⟨-, h⟩ | ⟨-, h⟩ <;> rw [h] <;> exact ⟨rfl, rfl⟩

theorem carried_apply (now : Int) (run : Nat) {notices : List Edit}
    (h : ∀ edit ∈ notices, ∃ notice, edit = .recordBlockedNotice notice) (row : ChannelEventRow) :
    ∃ blocked, applyAll (.markTaken now :: .attachRun run :: notices) row =
      { row with heldTakenAt := some now, runId := some run, blockedNotice := blocked, fate := some .carries } :=
  notices_apply h ((Edit.attachRun run).apply ((Edit.markTaken now).apply row))

end Rows

section Runs
variable {settings : Settings} {w w' : World} {input : Input} {u : Unit}

def plain : Settings := { lower := id, shown := fun _ => "" }

def question : ChannelEvent :=
  { channel := "feishu", channelEventId := "q", externalUserId := "u", text := "what is in it" }

def report : ChannelEvent :=
  { channel := "feishu", channelEventId := "f", externalUserId := "u", text := ""
    files := [{ messageId := "m", fileKey := "k", name := "report.xlsx" }] }

def answeredInputs : List Input :=
  [.arriveHeld 1 1 question 0, .beginGather 0 2000000 [(1, "u")], .gatherNext 0 [] (.run 7 none) 2000000, .endGather 0 true,
    .runMoves 7 .cancelRequested, .beginDispatch, .look 2000000, .handle { message := some "card", now := 2000000 }, .write,
    .look 2000000, .look 2000000, .look 2000000, .look 2000000, .look 2000000, .look 2000000, .handle { now := 2000001 }, .write,
    .handle { now := 2000001 }, .write, .endDispatch]

end Runs
end TinyHermes.Channels
