import TinyHermes.Channels.Rows

/-! What every row of a reachable state is, whoever holds it, and what the dispatch pass may still do to a row. -/
namespace TinyHermes.Channels
open Lib

section Versions

structure ChannelEventRow.Sound (row : ChannelEventRow) : Prop where
  held : row.heldMessage.isSome → row.unsupportedKind = none ∧ row.commandReceipt = none
  run : row.runId.isSome → row.waiting = false ∧ row.unsupportedKind = none ∧ row.commandReceipt = none

def Edit.ofDispatch : Edit → Bool
  | .recordCard .. | .settleBlockedNotice _ | .settleProgressNotice _ | .settleReply .. | .recordReplyAttempt
  | .noteReplyFailure _ => true
  | _ => false

def applyAll (edits : List Edit) (row : ChannelEventRow) : ChannelEventRow :=
  edits.foldl (fun row edit => edit.apply row) row

theorem applyAll_sameDelivery (edits : List Edit) (row : ChannelEventRow) : (applyAll edits row).SameDelivery row := by
  induction edits generalizing row with
  | nil => exact .refl row
  | cons edit edits ih => exact (ih (edit.apply row)).trans (edit.apply_sameDelivery row)

/-- What a gather or a `/new` leaves of a waiting row. -/
structure Kept (before after : ChannelEventRow) : Prop where
  delivery : after.SameDelivery before
  sound : before.Sound → after.Sound
  replyAttempts : after.replyAttempts = before.replyAttempts
  repliedAt : after.repliedAt = none → before.repliedAt = none

theorem Kept.refl (row : ChannelEventRow) : Kept row row := ⟨.refl row, id, rfl, id⟩

theorem kept_taken {row after : ChannelEventRow} (hdelivery : after.SameDelivery row) (htaken : after.heldTakenAt.isSome)
    (hheld : row.waiting) (hattempts : after.replyAttempts = row.replyAttempts)
    (hreplied : after.repliedAt = none → row.repliedAt = none) : Kept row after := by
  refine ⟨hdelivery, fun hsound => ?_, hattempts, hreplied⟩
  have hmessage : row.heldMessage.isSome := (Bool.and_eq_true_iff.mp hheld).1
  obtain ⟨hkind, hreceipt⟩ := hsound.held hmessage
  have hnone : after.unsupportedKind = none ∧ after.commandReceipt = none :=
    ⟨hdelivery.unsupportedKind.trans hkind, hdelivery.commandReceipt.trans hreceipt⟩
  refine ⟨fun _ => hnone, fun _ => ⟨?_, hnone⟩⟩
  rw [ChannelEventRow.waiting, Option.isNone_eq_false_iff.mpr htaken, Bool.and_false]

theorem settleIfOpen_cases (note : String) (now : Int) (row : ChannelEventRow) :
    (row.repliedAt.isSome ∧ (Edit.settleIfOpen note now).apply row = { row with fate := some (.noted note) }) ∨
      (row.repliedAt = none ∧ (Edit.settleIfOpen note now).apply row = { row with
        repliedAt := some now, replyNote := some (clip 200 note), settledBy := some .gather, fate := some (.noted note) }) := by
  by_cases hsettled : row.repliedAt.isSome
  · exact .inl ⟨hsettled, if_pos hsettled⟩
  · exact .inr ⟨Option.not_isSome_iff_eq_none.mp hsettled, if_neg hsettled⟩

theorem kept_settled (note : String) (now : Int) {row : ChannelEventRow} (hrow : row.waiting) :
    Kept row (applyAll [.markTaken now, .settleIfOpen note now] row) := by
  have happly : applyAll [.markTaken now, .settleIfOpen note now] row =
      (Edit.settleIfOpen note now).apply { row with heldTakenAt := some now } := rfl
  rw [happly]
  rcases settleIfOpen_cases note now { row with heldTakenAt := some now } with ⟨hsettled, h⟩ | ⟨-, h⟩
  · rw [h]
    exact kept_taken ⟨rfl, rfl, rfl, rfl, rfl, rfl, rfl, rfl⟩ rfl hrow rfl id
  · rw [h]
    exact kept_taken ⟨rfl, rfl, rfl, rfl, rfl, rfl, rfl, rfl⟩ rfl hrow rfl fun hnone => absurd hnone (Option.some_ne_none _)

theorem notices_apply {notices : List Edit} (h : ∀ edit ∈ notices, ∃ notice, edit = .recordBlockedNotice notice)
    (row : ChannelEventRow) : ∃ blocked, applyAll notices row = { row with blockedNotice := blocked } := by
  induction notices generalizing row with
  | nil => exact ⟨row.blockedNotice, rfl⟩
  | cons edit notices ih =>
    obtain ⟨notice, rfl⟩ := h edit (List.mem_cons_self ..)
    obtain ⟨blocked, hblocked⟩ := ih (fun edit hedit => h edit (List.mem_cons_of_mem _ hedit))
      ((Edit.recordBlockedNotice notice).apply row)
    exact ⟨blocked, hblocked⟩

theorem RowGathered.kept {settings : Settings} {batch others : List ChannelEventRow} {started : Option StartedRun} {now : Int}
    {k : Nat} {edits : List Edit} (h : RowGathered settings batch others started now k edits) {row : ChannelEventRow} (hrow : row.waiting) :
    Kept row (applyAll edits row) := by
  cases h with
  | untouched => exact .refl row
  | locked => exact .refl row
  | refused _ _ _ => exact kept_settled _ now hrow
  | part _ _ => exact kept_settled _ now hrow
  | carrier _ _ hnotices =>
    obtain ⟨blocked, hblocked⟩ := notices_apply hnotices ((Edit.attachRun _).apply ((Edit.markTaken now).apply row))
    have happly : applyAll (.markTaken now :: .attachRun _ :: _) row = { row with
        heldTakenAt := some now, runId := some _, blockedNotice := blocked, fate := some .carries } := hblocked
    rw [happly]
    exact kept_taken ⟨rfl, rfl, rfl, rfl, rfl, rfl, rfl, rfl⟩ rfl hrow rfl id
  | dropped _ _ _ =>
    exact kept_taken (applyAll_sameDelivery _ row) rfl hrow rfl fun hnone => absurd hnone (Option.some_ne_none _)

structure Stamped (before after : ChannelEventRow) : Prop where
  delivery : after.SameDelivery before
  runId : after.runId = before.runId
  heldTakenAt : after.heldTakenAt = before.heldTakenAt
  blockedNotice : after.blockedNotice = before.blockedNotice
  fate : after.fate = before.fate

theorem Stamped.refl (row : ChannelEventRow) : Stamped row row := ⟨.refl row, rfl, rfl, rfl, rfl⟩

theorem Stamped.trans {a b c : ChannelEventRow} (hab : Stamped a b) (hbc : Stamped b c) : Stamped a c :=
  ⟨hbc.delivery.trans hab.delivery, hbc.runId.trans hab.runId, hbc.heldTakenAt.trans hab.heldTakenAt,
    hbc.blockedNotice.trans hab.blockedNotice, hbc.fate.trans hab.fate⟩

theorem Edit.stamped {edit : Edit} (h : edit.ofDispatch) (row : ChannelEventRow) : Stamped row (edit.apply row) := by
  cases edit <;> first
    | exact absurd h Bool.false_ne_true
    | exact ⟨⟨rfl, rfl, rfl, rfl, rfl, rfl, rfl, rfl⟩, rfl, rfl, rfl, rfl⟩

theorem Stamped.waiting {before after : ChannelEventRow} (h : Stamped before after) : after.waiting = before.waiting := by
  rw [ChannelEventRow.waiting, ChannelEventRow.waiting, h.delivery.heldMessage, h.heldTakenAt]

theorem Stamped.sound {before after : ChannelEventRow} (h : Stamped before after) (hsound : before.Sound) : after.Sound := by
  refine ⟨fun hheld => ?_, fun hrun => ?_⟩
  · rw [h.delivery.unsupportedKind, h.delivery.commandReceipt]
    exact hsound.held (h.delivery.heldMessage ▸ hheld)
  · rw [h.waiting, h.delivery.unsupportedKind, h.delivery.commandReceipt]
    exact hsound.run (h.runId ▸ hrun)

end Versions

section Cells

structure SoundCell (c : Cell Tx ChannelEventRow) : Prop where
  committed : c.committed.Sound
  stamped : ∀ {version}, c.held = some (.dispatch, version) → Stamped c.committed version
  kept : ∀ {t version}, t ≠ .dispatch → c.held = some (t, version) → c.committed.waiting ∧ Kept c.committed version

inductive CellStep : Cell Tx ChannelEventRow → Cell Tx ChannelEventRow → Prop where
  | stays (c) : CellStep c c
  | commits {c t version} (hheld : c.held = some (t, version)) : CellStep c ⟨version, none⟩
  | rollsBack {c t version} (hheld : c.held = some (t, version)) : CellStep c ⟨c.committed, none⟩
  | gathers {c t version} (ht : t ≠ .dispatch) (hfree : c.freeFor t) (hwaiting : (c.view t).waiting)
      (hkept : Kept (c.view t) version) : CellStep c ⟨c.committed, some (t, version)⟩
  | stamps {c} {edit : Edit} (hfree : c.freeFor .dispatch) (hedit : edit.ofDispatch) :
      CellStep c (c.write .dispatch edit.apply)

variable {c c' : Cell Tx ChannelEventRow}

structure Grows (before after : ChannelEventRow) : Prop where
  delivery : after.SameDelivery before
  runId : ∀ run, before.runId = some run → after.runId = some run

theorem Grows.refl (row : ChannelEventRow) : Grows row row := ⟨.refl row, fun _ => id⟩

theorem SoundCell.view_dispatch (h : SoundCell c) : Stamped c.committed (c.view .dispatch) := by
  unfold Cell.view
  cases hheld : c.held with
  | none => exact .refl _
  | some held =>
    obtain ⟨t, _⟩ := held
    by_cases ht : t = .dispatch
    · subst ht
      simp only [if_true]
      exact h.stamped hheld
    · simp only [if_neg ht]
      exact .refl _

theorem SoundCell.committed_waiting {t : Tx} (h : SoundCell c) (ht : t ≠ .dispatch) (hfree : c.freeFor t)
    (hwaiting : (c.view t).waiting) : c.committed.waiting ∧ Kept c.committed (c.view t) := by
  rcases Cell.held_of_freeFor hfree with hnone | ⟨_, hheld⟩
  · have hview : c.view t = c.committed := by simp only [Cell.view, hnone]
    rw [hview] at hwaiting ⊢
    exact ⟨hwaiting, .refl _⟩
  · rw [Cell.view_of_held hheld]
    exact h.kept ht hheld

theorem Kept.trans {a b d : ChannelEventRow} (hab : Kept a b) (hbd : Kept b d) : Kept a d :=
  ⟨hbd.delivery.trans hab.delivery, hbd.sound ∘ hab.sound, hbd.replyAttempts.trans hab.replyAttempts,
    hab.repliedAt ∘ hbd.repliedAt⟩

theorem CellStep.sound (h : CellStep c c') (hc : SoundCell c) : SoundCell c' := by
  cases h with
  | stays => exact hc
  | @commits t version hheld =>
    have hsound : version.Sound := by
      by_cases ht : t = .dispatch
      · subst ht
        exact (hc.stamped hheld).sound hc.committed
      · exact (hc.kept ht hheld).2.sound hc.committed
    exact ⟨hsound, fun h => absurd h.symm (Option.some_ne_none _), fun _ h => absurd h.symm (Option.some_ne_none _)⟩
  | rollsBack =>
    exact ⟨hc.committed, fun h => absurd h.symm (Option.some_ne_none _), fun _ h => absurd h.symm (Option.some_ne_none _)⟩
  | @gathers t version ht hfree hwaiting hkept =>
    obtain ⟨hcommitted, hview⟩ := hc.committed_waiting ht hfree hwaiting
    refine ⟨hc.committed, fun h => ?_, fun {t' version'} ht' h => ?_⟩
    · exact absurd (congrArg Prod.fst (Option.some.inj h)) ht
    · cases h
      exact ⟨hcommitted, hview.trans hkept⟩
  | @stamps edit hfree hedit =>
    refine ⟨hc.committed, fun h => ?_, fun {t' version'} ht' h => ?_⟩
    · obtain ⟨-, rfl⟩ := Prod.mk.inj (Option.some.inj h)
      exact hc.view_dispatch.trans (Edit.stamped hedit _)
    · exact absurd (congrArg Prod.fst (Option.some.inj h)).symm ht'

theorem CellStep.grows (h : CellStep c c') (hc : SoundCell c) : Grows c.committed c'.committed := by
  cases h with
  | stays => exact .refl _
  | @commits t version hheld =>
    by_cases ht : t = .dispatch
    · subst ht
      have hstamped := hc.stamped hheld
      exact ⟨hstamped.delivery, fun run hrun => hstamped.runId.trans hrun⟩
    · obtain ⟨hwaiting, hkept⟩ := hc.kept ht hheld
      refine ⟨hkept.delivery, fun run hrun => ?_⟩
      have hnot := (hc.committed.run (by rw [hrun]; rfl)).1
      rw [hwaiting] at hnot
      exact absurd hnot (by decide)
  | rollsBack => exact .refl _
  | gathers => exact .refl _
  | stamps => exact .refl _

end Cells

section Turns

/-- Who may settle a row besides a gather and `/new`. -/
def Owed (row : ChannelEventRow) : Settler → Prop
  | .refusal => row.unsupportedKind.isSome
  | .receipt => row.commandReceipt.isSome
  | .question => row.heldMessage.isSome
  | .reply run => row.runId = some run
  | .gather | .newCommand => False

/-- A statement of the dispatch pass that has its place on the row. -/
def Edit.Fits (row : ChannelEventRow) : Edit → Prop
  | .settleReply settler _ _ => Owed row settler
  | .recordCard .. | .settleBlockedNotice _ | .settleProgressNotice _ | .recordReplyAttempt | .noteReplyFailure _ =>
    row.runId.isSome
  | _ => False

def Candidate.Fits (row : ChannelEventRow) : Candidate → Prop
  | .card opening => row.runId = some opening.runId
  | .refusal _ => row.unsupportedKind.isSome
  | .receipt _ => row.commandReceipt.isSome
  | .question _ => row.heldMessage.isSome
  | .notice waiting => row.runId = some waiting.runId
  | .progress working => row.runId = some working.runId
  | .reply pending | .attempt pending => row.runId = some pending.runId

variable {a b row : ChannelEventRow} {edit : Edit} {candidate : Candidate}

theorem Edit.Fits.ofDispatch (h : edit.Fits row) : edit.ofDispatch := by
  cases edit <;> first
    | rfl
    | exact h.elim

theorem Owed.grows (settler : Settler) (h : Owed a settler) (hgrows : Grows a b) : Owed b settler := by
  cases settler with
  | refusal => exact (congrArg Option.isSome hgrows.delivery.unsupportedKind).trans h
  | receipt => exact (congrArg Option.isSome hgrows.delivery.commandReceipt).trans h
  | question => exact (congrArg Option.isSome hgrows.delivery.heldMessage).trans h
  | reply run => exact hgrows.runId run h
  | gather => exact h
  | newCommand => exact h

theorem Grows.runId_isSome (h : Grows a b) (hrun : a.runId.isSome) : b.runId.isSome := by
  obtain ⟨run, hrun⟩ := Option.isSome_iff_exists.mp hrun
  exact Option.isSome_iff_exists.mpr ⟨run, h.runId run hrun⟩

theorem Edit.Fits.grows (h : edit.Fits a) (hgrows : Grows a b) : edit.Fits b := by
  cases edit with
  | settleReply settler => exact Owed.grows settler h hgrows
  | recordCard => exact hgrows.runId_isSome h
  | settleBlockedNotice => exact hgrows.runId_isSome h
  | settleProgressNotice => exact hgrows.runId_isSome h
  | recordReplyAttempt => exact hgrows.runId_isSome h
  | noteReplyFailure => exact hgrows.runId_isSome h
  | _ => exact h

theorem Candidate.Fits.grows (h : candidate.Fits a) (hgrows : Grows a b) : candidate.Fits b := by
  cases candidate with
  | card => exact hgrows.runId _ h
  | refusal => exact Owed.grows .refusal h hgrows
  | receipt => exact Owed.grows .receipt h hgrows
  | question => exact Owed.grows .question h hgrows
  | notice _ => exact hgrows.runId _ h
  | progress _ => exact hgrows.runId _ h
  | reply _ => exact hgrows.runId _ h
  | attempt _ => exact hgrows.runId _ h

theorem Stamped.grows_back (h : Stamped a b) : Grows b a :=
  ⟨⟨h.delivery.id.symm, h.delivery.bindingId.symm, h.delivery.channelEventId.symm, h.delivery.receivedAt.symm,
    h.delivery.heldMessage.symm, h.delivery.heldOpenId.symm, h.delivery.unsupportedKind.symm,
    h.delivery.commandReceipt.symm⟩, fun _ hrun => h.runId.symm.trans hrun⟩

theorem settleOnce_fits {answer : Answer} {what : What} (settler : Settler) {note : String} (h : Owed row settler) :
    ∀ edit ∈ (settleOnce answer what settler note).writes, edit.Fits row := by
  intro _ hedit
  unfold settleOnce at hedit
  split at hedit <;> obtain rfl := List.mem_singleton.mp hedit <;> exact h

theorem Candidate.handle_fits (settings : Settings) (h : candidate.Fits row) (rows : List ChannelEventRow) (answer : Answer) :
    (∀ edit ∈ (candidate.handle settings rows answer).writes, edit.Fits row) ∧
      ∀ next ∈ (candidate.handle settings rows answer).next, next.Fits row ∧ next.row = candidate.row := by
  have hnone {handled : Handled} (hnext : handled.next = none) :
      ∀ next ∈ handled.next, next.Fits row ∧ next.row = candidate.row := fun next hmem => by
    rw [hnext] at hmem
    exact absurd hmem (Option.not_mem_none next)
  have hrun {runId : Nat} (hrun : row.runId = some runId) : row.runId.isSome := by rw [hrun]; rfl
  cases candidate with
  | card =>
    have hrow := hrun h
    simp only [Candidate.handle, openCard]
    split
    · exact ⟨fun edit hedit => (List.mem_singleton.mp hedit) ▸ hrow, hnone rfl⟩
    · refine ⟨fun edit hedit => ?_, hnone rfl⟩
      dsimp only at hedit
      split at hedit
      · exact (List.mem_singleton.mp hedit) ▸ hrow
      · rcases List.mem_cons.mp hedit with rfl | hedit
        · exact hrow
        · split at hedit
          · exact (List.mem_singleton.mp hedit) ▸ hrow
          · cases hedit
  | refusal _ =>
    refine ⟨settleOnce_fits .refusal h, hnone ?_⟩
    simp only [Candidate.handle, settleOnce]
    split <;> rfl
  | receipt _ =>
    refine ⟨settleOnce_fits .receipt h, hnone ?_⟩
    simp only [Candidate.handle, settleOnce]
    split <;> rfl
  | question =>
    simp only [Candidate.handle, askAboutHeld]
    split
    · exact ⟨fun edit hedit => (List.mem_singleton.mp hedit) ▸ h, hnone rfl⟩
    · split
      · exact ⟨fun edit hedit => (List.mem_singleton.mp hedit) ▸ h, hnone rfl⟩
      · refine ⟨settleOnce_fits .question h, hnone ?_⟩
        simp only [settleOnce]
        split <;> rfl
  | notice => exact ⟨fun edit hedit => (List.mem_singleton.mp hedit) ▸ hrun h, hnone rfl⟩
  | progress => exact ⟨fun edit hedit => (List.mem_singleton.mp hedit) ▸ hrun h, hnone rfl⟩
  | reply =>
    simp only [Candidate.handle, dispatch]
    split
    · exact ⟨fun edit hedit => (List.mem_singleton.mp hedit) ▸ h, hnone rfl⟩
    · refine ⟨fun edit hedit => (List.mem_singleton.mp hedit) ▸ hrun h, fun next hnext => ?_⟩
      cases hnext
      exact ⟨h, rfl⟩
  | attempt =>
    refine ⟨fun edit hedit => ?_, hnone rfl⟩
    obtain rfl := List.mem_singleton.mp hedit
    cases answer.raised with
    | none => exact h
    | some =>
      simp only [failed]
      split
      · exact h
      · exact hrun h

end Turns
end TinyHermes.Channels
