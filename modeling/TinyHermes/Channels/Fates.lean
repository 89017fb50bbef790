import TinyHermes.Channels.Answers
import TinyHermes.Channels.Turns

/-! What becomes of a held message: it waits, it was let go of or refused, or it went into one Run. -/
namespace TinyHermes.Channels
open Lib

def gatheredIds (runs : List StartedRun) : List Nat := runs.flatMap fun run => ids run.parts

/-- What became of a held message, when these went into Runs. -/
inductive Fated (gone : List Nat) (row : ChannelEventRow) : Prop where
  | waits (hwaiting : row.waiting) (hfate : row.fate = none) (hout : row.id ∉ gone)
  | dropped (htaken : row.waiting = false) (hfate : row.fate = some .dropped) (hout : row.id ∉ gone)
  | refused {note : String} (htaken : row.waiting = false) (hfate : row.fate = some (.noted note))
      (hnote : note ∈ ["binding_disabled", "erased"]) (hout : row.id ∉ gone)
  | gathered (htaken : row.waiting = false) (hin : row.id ∈ gone)

section Rows
variable {settings : Settings} {gone more : List Nat} {runs : List StartedRun} {row after : ChannelEventRow}

theorem gatheredIds_append (runs more : List StartedRun) : gatheredIds (runs ++ more) = gatheredIds runs ++ gatheredIds more :=
  List.flatMap_append

theorem mem_gatheredIds {id : Nat} : id ∈ gatheredIds runs ↔ ∃ run ∈ runs, id ∈ ids run.parts := List.mem_flatMap

theorem Fated.widen (h : Fated gone row) (hmore : row.id ∈ more ↔ row.id ∈ gone) : Fated more row := by
  cases h with
  | waits hwaiting hfate hout => exact .waits hwaiting hfate (hmore.not.mpr hout)
  | dropped htaken hfate hout => exact .dropped htaken hfate (hmore.not.mpr hout)
  | refused htaken hfate hnote hout => exact .refused htaken hfate hnote (hmore.not.mpr hout)
  | gathered htaken hin => exact .gathered htaken (hmore.mpr hin)

theorem Fated.append (h : Fated gone row) (hout : row.id ∉ more) : Fated (gone ++ more) row :=
  h.widen (by rw [List.mem_append, or_iff_left hout])

theorem Fated.prepend (h : Fated more row) (hout : row.id ∉ gone) : Fated (gone ++ more) row :=
  h.widen (by rw [List.mem_append, or_iff_right hout])

theorem Fated.stamped (h : Fated gone row) (hstamped : Stamped row after) : Fated gone after := by
  have hid := hstamped.delivery.id
  cases h with
  | waits hwaiting hfate hout => exact .waits (hstamped.waiting.trans hwaiting) (hstamped.fate.trans hfate) (hid ▸ hout)
  | dropped htaken hfate hout => exact .dropped (hstamped.waiting.trans htaken) (hstamped.fate.trans hfate) (hid ▸ hout)
  | refused htaken hfate hnote hout =>
    exact .refused (hstamped.waiting.trans htaken) (hstamped.fate.trans hfate) hnote (hid ▸ hout)
  | gathered htaken hin => exact .gathered (hstamped.waiting.trans htaken) (hid ▸ hin)

theorem Fated.out (h : Fated gone row) (hwaiting : row.waiting) : row.fate = none ∧ row.id ∉ gone := by
  cases h with
  | waits _ hfate hout => exact ⟨hfate, hout⟩
  | dropped htaken => exact absurd (hwaiting.symm.trans htaken) (by decide)
  | refused htaken => exact absurd (hwaiting.symm.trans htaken) (by decide)
  | gathered htaken => exact absurd (hwaiting.symm.trans htaken) (by decide)

theorem taken_of_some {row : ChannelEventRow} {now : Int} (h : row.heldTakenAt = some now) : row.waiting = false := by
  rw [ChannelEventRow.waiting, h, Option.isNone_some, Bool.and_false]

theorem noted_taken (note : String) (now : Int) (row : ChannelEventRow) :
    (applyAll [.markTaken now, .settleIfOpen note now] row).fate = some (.noted note) := by
  have happly : applyAll [.markTaken now, .settleIfOpen note now] row =
      (Edit.settleIfOpen note now).apply { row with heldTakenAt := some now } := rfl
  rw [happly]
  rcases settleIfOpen_cases note now { row with heldTakenAt := some now } with ⟨-, h⟩ | ⟨-, h⟩ <;> rw [h]

def startedIds (batch : List ChannelEventRow) (started : Option StartedRun) : List Nat := if started.isSome then ids batch else []

theorem gatheredIds_started {batch : List ChannelEventRow} {started : Option StartedRun}
    (hparts : ∀ run, started = some run → run.parts = batch) : gatheredIds started.toList = startedIds batch started := by
  cases started with
  | none => rfl
  | some run =>
    rw [Option.toList_some, gatheredIds, List.flatMap_singleton, hparts run rfl]
    rfl

theorem RowGathered.fated {batch others : List ChannelEventRow} {started : Option StartedRun} {now : Int} {k : Nat}
    {edits : List Edit} (h : RowGathered settings batch others started now k edits) (hid : row.id = k) (hwaiting : row.waiting)
    (hfate : row.fate = none) (hout : row.id ∉ gone) (hcommands : ¬Commands settings batch) :
    Fated (gone ++ startedIds batch started) (applyAll edits row) := by
  have hsame : (applyAll edits row).id = row.id := (applyAll_sameDelivery edits row).id
  have hnone (hstarted : started = none) : (applyAll edits row).id ∉ gone ++ startedIds batch started := by
    rw [hsame, hstarted, startedIds, if_neg (by decide), List.append_nil]
    exact hout
  have hin {run : StartedRun} (hrun : started = some run) (hbatch : k ∈ ids batch) :
      (applyAll edits row).id ∈ gone ++ startedIds batch started := by
    rw [hsame, hid, hrun]
    exact List.mem_append_right _ hbatch
  cases h with
  | untouched hbatch =>
    refine .waits hwaiting hfate fun hmem => (List.mem_append.mp hmem).elim hout fun hmem => ?_
    unfold startedIds at hmem
    split at hmem
    · next hstarted => exact hbatch hstarted (hid ▸ hmem)
    · cases hmem
  | locked _ hstarted => exact .waits hwaiting hfate (hnone hstarted)
  | refused _ hstarted hnote =>
    exact .refused (taken_of_some (settled_taken _ now row).2) (noted_taken _ now row) (hnote.resolve_right hcommands) (hnone hstarted)
  | part hrow hrun =>
    exact .gathered (taken_of_some (settled_taken _ now row).2) (hin hrun (List.mem_map_of_mem (List.mem_of_mem_dropLast hrow)))
  | @carrier carrier run notices hrow hrun hnotices =>
    obtain ⟨_, happly⟩ := carried_apply now run.id hnotices row
    refine .gathered ?_ (hin hrun (List.mem_map_of_mem (List.mem_of_mem_getLast? hrow)))
    rw [happly]
    exact taken_of_some rfl
  | dropped _ _ hstarted => exact .dropped (taken_of_some rfl) rfl (hnone hstarted)

end Rows

section Worlds
variable {settings : Settings} {w w' : World} {input : Input} {u : Unit}

/-- What became of every held message, committed or in an open transaction. -/
structure Fates (w : World) : Prop where
  rows : ∀ c ∈ w.rows, c.committed.heldMessage.isSome → Fated (gatheredIds w.runs) c.committed
  byGather : ∀ c ∈ w.rows, ∀ n version, c.held = some (.gather n, version) →
    ∃ pass, w.gathers n = some pass ∧ Fated (gatheredIds pass.started) version
  byDelivery : ∀ c ∈ w.rows, ∀ n version, c.held = some (.delivery n, version) →
    version.waiting = false ∧ version.fate = some .dropped
  runs : ∀ id ∈ gatheredIds w.runs, ∃ c ∈ w.rows, c.committed.id = id ∧ c.committed.heldMessage.isSome
  started : ∀ n pass, w.gathers n = some pass → ∀ id ∈ gatheredIds pass.started,
    ∃ c ∈ w.rows, c.committed.id = id ∧ ∃ version, c.held = some (.gather n, version)
  runsOnce : (gatheredIds w.runs).Nodup
  startedOnce : ∀ n pass, w.gathers n = some pass → (gatheredIds pass.started).Nodup

theorem fates_start : Fates {} :=
  ⟨fun _ hc => absurd hc List.not_mem_nil, fun _ hc => absurd hc List.not_mem_nil, fun _ hc => absurd hc List.not_mem_nil,
    fun _ hid => absurd hid List.not_mem_nil, fun _ _ hpass => absurd hpass.symm (Option.some_ne_none _), List.nodup_nil,
    fun _ _ hpass => absurd hpass.symm (Option.some_ne_none _)⟩

theorem waiting_held {row : ChannelEventRow} (h : row.waiting) : row.heldMessage.isSome := (Bool.and_eq_true_iff.mp h).1

variable {c : Cell Tx ChannelEventRow}

theorem Fates.committed_out (h : Fates w) (hc : c ∈ w.rows) (hwaiting : c.committed.waiting) :
    c.committed.fate = none ∧ c.committed.id ∉ gatheredIds w.runs :=
  (h.rows c hc (waiting_held hwaiting)).out hwaiting

theorem Fates.view_out (h : Fates w) (hw : w.Sound) {n : Nat} {pass : GatherPass} (hpass : w.gathers n = some pass)
    (hc : c ∈ w.rows) (hfree : c.freeFor (.gather n)) (hwaiting : (c.view (.gather n)).waiting) :
    (c.view (.gather n)).fate = none ∧ (c.view (.gather n)).id ∉ gatheredIds pass.started := by
  rcases Cell.held_of_freeFor hfree with hnone | ⟨version, hheld⟩
  · rw [view_of_none hnone] at hwaiting ⊢
    refine ⟨(h.committed_out hc hwaiting).1, fun hmem => ?_⟩
    obtain ⟨_, hother, hid, version, hheld⟩ := h.started n pass hpass _ hmem
    rw [hw.cell_eq hc hother hid.symm, hheld] at hnone
    cases hnone
  · rw [Cell.view_of_held hheld] at hwaiting ⊢
    obtain ⟨_, hpass', hfated⟩ := h.byGather c hc n version hheld
    cases hpass.symm.trans hpass'
    exact hfated.out hwaiting

theorem Fates.each (h : Fates w) (hw : w.Sound) {f : Cell Tx ChannelEventRow → Cell Tx ChannelEventRow}
    (hrows : w'.rows = w.rows.map f) (hcells : ∀ c ∈ w.rows, CellStep c (f c))
    (hgathers : ∀ n pass, w'.gathers n = some pass → w.gathers n = some pass)
    (hkept : ∀ c ∈ w.rows, ∀ n version, (w'.gathers n).isSome → c.held = some (.gather n, version) →
      (f c).held = some (.gather n, version))
    (hheld : ∀ c ∈ w.rows, ∀ n version, (f c).held = some (.gather n, version) →
      c.held = some (.gather n, version) ∧ w'.gathers n = w.gathers n)
    (hdelivery : ∀ c ∈ w.rows, ∀ n version, (f c).held = some (.delivery n, version) →
      c.held = some (.delivery n, version) ∨ version.waiting = false ∧ version.fate = some .dropped)
    (hcommitted : ∀ c ∈ w.rows, (f c).committed.heldMessage.isSome → Fated (gatheredIds w'.runs) (f c).committed)
    (hruns : ∀ id ∈ gatheredIds w'.runs, ∃ c ∈ w.rows, c.committed.id = id ∧ c.committed.heldMessage.isSome)
    (honce : (gatheredIds w'.runs).Nodup) : Fates w' := by
  have hold {c : Cell Tx ChannelEventRow} (hc : c ∈ w'.rows) : ∃ old ∈ w.rows, f old = c :=
    List.mem_map.mp (hrows ▸ hc)
  have hnew {c : Cell Tx ChannelEventRow} (hc : c ∈ w.rows) : f c ∈ w'.rows := hrows ▸ List.mem_map_of_mem hc
  have hsame {c : Cell Tx ChannelEventRow} (hc : c ∈ w.rows) : (f c).committed.SameDelivery c.committed :=
    ((hcells c hc).grows (hw.cells c hc)).delivery
  refine ⟨fun c hc hmessage => ?_, fun c hc n version hversion => ?_, fun c hc n version hversion => ?_, fun id hmem => ?_,
    fun n pass hpass id hmem => ?_, honce, fun n pass hpass => h.startedOnce n pass (hgathers n pass hpass)⟩
  · obtain ⟨old, hmem, rfl⟩ := hold hc
    exact hcommitted old hmem hmessage
  · obtain ⟨old, hmem, rfl⟩ := hold hc
    obtain ⟨hversion, hopen⟩ := hheld old hmem n version hversion
    rw [hopen]
    exact h.byGather old hmem n version hversion
  · obtain ⟨old, hmem, rfl⟩ := hold hc
    exact (hdelivery old hmem n version hversion).elim (h.byDelivery old hmem n version) id
  · obtain ⟨c, hc, hid, hmessage⟩ := hruns id hmem
    exact ⟨f c, hnew hc, (hsame hc).id.trans hid, by rw [(hsame hc).heldMessage]; exact hmessage⟩
  · obtain ⟨c, hc, hid, version, hversion⟩ := h.started n pass (hgathers n pass hpass) id hmem
    exact ⟨f c, hnew hc, (hsame hc).id.trans hid, version, hkept c hc n version (by rw [hpass]; rfl) hversion⟩

theorem Fates.beside (h : Fates w) (hw : w.Sound) {f : Cell Tx ChannelEventRow → Cell Tx ChannelEventRow}
    (hrows : w'.rows = w.rows.map f) (hcells : ∀ c ∈ w.rows, CellStep c (f c)) (hgathers : w'.gathers = w.gathers)
    (hruns : gatheredIds w'.runs = gatheredIds w.runs)
    (hheld : ∀ c ∈ w.rows, ∀ n version, (f c).held = some (.gather n, version) ↔ c.held = some (.gather n, version))
    (hdelivery : ∀ c ∈ w.rows, ∀ n version, (f c).held = some (.delivery n, version) →
      c.held = some (.delivery n, version) ∨ version.waiting = false ∧ version.fate = some .dropped)
    (hcommitted : ∀ c ∈ w.rows, (f c).committed.heldMessage.isSome → Fated (gatheredIds w.runs) (f c).committed) : Fates w' := by
  refine h.each hw hrows hcells (fun n pass hpass => hgathers ▸ hpass) (fun c hc n version _ => (hheld c hc n version).mpr)
    (fun c hc n version hversion => ⟨(hheld c hc n version).mp hversion, by rw [hgathers]⟩) hdelivery ?_ ?_ ?_
  all_goals rw [hruns]
  · exact hcommitted
  · exact h.runs
  · exact h.runsOnce

theorem Fates.same (h : Fates w) (hw : w.Sound) (hrows : w'.rows = w.rows) (hgathers : w'.gathers = w.gathers)
    (hruns : gatheredIds w'.runs = gatheredIds w.runs) : Fates w' :=
  h.beside hw (f := id) (by rw [hrows, List.map_id]) (fun c _ => .stays c) hgathers hruns (fun _ _ _ _ => Iff.rfl)
    (fun _ _ _ _ => .inl) h.rows

theorem Fates.arrives (h : Fates w) {row : ChannelEventRow} (hnew : ∀ c ∈ w.rows, c.committed.id ≠ row.id)
    (harrived : row.Arrived) (hrows : w'.rows = w.rows ++ [⟨row, none⟩]) (hgathers : w'.gathers = w.gathers)
    (hruns : gatheredIds w'.runs = gatheredIds w.runs) : Fates w' := by
  have hall {P : Cell Tx ChannelEventRow → Prop} (hP : ∀ c ∈ w.rows, P c) (hone : P ⟨row, none⟩) : ∀ c ∈ w'.rows, P c := by
    intro c hc
    rw [hrows] at hc
    rcases List.mem_append.mp hc with hc | hc
    · exact hP c hc
    · obtain rfl := List.mem_singleton.mp hc
      exact hone
  have hkept {c : Cell Tx ChannelEventRow} (hc : c ∈ w.rows) : c ∈ w'.rows := hrows ▸ List.mem_append_left _ hc
  refine ⟨hall (by rw [hruns]; exact h.rows) fun hmessage => ?_,
    hall (by rw [hgathers]; exact h.byGather) fun _ _ hnone => absurd hnone.symm (Option.some_ne_none _),
    hall h.byDelivery fun _ _ hnone => absurd hnone.symm (Option.some_ne_none _), fun id hmem => ?_,
    fun n pass hpass id hmem => ?_, by rw [hruns]; exact h.runsOnce, by rw [hgathers]; exact h.startedOnce⟩
  · refine .waits ?_ harrived.fate fun hmem => ?_
    · rw [ChannelEventRow.waiting, harrived.heldTakenAt, Option.isNone_none, Bool.and_true]
      exact hmessage
    · rw [hruns] at hmem
      obtain ⟨c, hc, hid, -⟩ := h.runs _ hmem
      exact hnew c hc hid
  · rw [hruns] at hmem
    obtain ⟨c, hc, hrest⟩ := h.runs id hmem
    exact ⟨c, hkept hc, hrest⟩
  · rw [hgathers] at hpass
    obtain ⟨c, hc, hrest⟩ := h.started n pass hpass id hmem
    exact ⟨c, hkept hc, hrest⟩

theorem Fates.commits (h : Fates w) (hw : w.Sound) {t : Tx} (ht : ∀ n, .gather n ≠ t) (hrows : w'.rows = w.rows.map (Cell.commit t))
    (hgathers : w'.gathers = w.gathers) (hruns : gatheredIds w'.runs = gatheredIds w.runs) : Fates w' := by
  refine h.beside hw hrows (fun c _ => commit_step t c) hgathers hruns (fun c _ n => Cell.commit_held_other (ht n))
    (fun c hc n version hheld => ?_) fun c hc hmessage => ?_
  · rcases c.commit_cases t with ⟨_, _, hcell⟩ | ⟨-, hcell⟩ <;> rw [hcell] at hheld
    · cases hheld
    · exact .inl hheld
  · rcases c.commit_cases t with ⟨version, hheld, hcell⟩ | ⟨-, hcell⟩ <;> rw [hcell] at hmessage ⊢
    · cases t with
      | gather n => exact absurd rfl (ht n)
      | delivery n =>
        obtain ⟨htaken, hfate⟩ := h.byDelivery c hc n version hheld
        obtain ⟨hwaiting, hkept⟩ := (hw.cells c hc).kept Tx.noConfusion hheld
        refine .dropped htaken hfate ?_
        rw [hkept.delivery.id]
        exact (h.committed_out hc hwaiting).2
      | dispatch =>
        have hstamped := (hw.cells c hc).stamped hheld
        refine (h.rows c hc ?_).stamped hstamped
        rw [← hstamped.delivery.heldMessage]
        exact hmessage
    · exact h.rows c hc hmessage

theorem Fates.rollsBack (h : Fates w) (hw : w.Sound) {t : Tx} (ht : ∀ n, .gather n ≠ t)
    (hrows : w'.rows = w.rows.map (Cell.rollback t)) (hgathers : w'.gathers = w.gathers)
    (hruns : gatheredIds w'.runs = gatheredIds w.runs) : Fates w' := by
  refine h.beside hw hrows (fun c _ => rollback_step t c) hgathers hruns (fun c _ n => Cell.rollback_held_other (ht n))
    (fun c hc n version hheld => ?_) fun c hc hmessage => ?_
  · rcases c.rollback_cases t with ⟨_, _, hcell⟩ | ⟨-, hcell⟩ <;> rw [hcell] at hheld
    · cases hheld
    · exact .inl hheld
  · rw [Cell.rollback_committed] at hmessage ⊢
    exact h.rows c hc hmessage

theorem holder_of_free {t holder : Tx} {version : ChannelEventRow} (hfree : c.freeFor t)
    (hheld : c.held = some (holder, version)) : holder = t := by
  simpa [Cell.freeFor, hheld] using hfree

theorem write_held {t : Tx} (hfree : c.freeFor t) (ht : ∀ n, .gather n ≠ t)
    (after : ChannelEventRow) (n : Nat) (version : ChannelEventRow) :
    (⟨c.committed, some (t, after)⟩ : Cell Tx ChannelEventRow).held = some (.gather n, version) ↔
      c.held = some (.gather n, version) :=
  ⟨fun h => absurd (congrArg Prod.fst (Option.some.inj h)).symm (ht n), fun h => absurd (holder_of_free hfree h) (ht n)⟩

theorem Fates.dropHeld (h : Fates w) (hw : w.Sound) {n bindingId : Nat} {sender : String} {seen : List Nat} {now : Int}
    (hstep : dropHeld w n bindingId sender seen now = some w') : Fates w' := by
  obtain ⟨f, hrows, hf⟩ := dropHeld_cells hw hstep
  obtain ⟨-, hafter⟩ := dropHeld_some hstep
  refine h.beside hw hrows (fun c hc => (hf c hc).step Tx.noConfusion) (by rw [hafter]) (by rw [hafter])
    (fun c hc m version => ?_) (fun c hc m version hheld => ?_) fun c hc hmessage => ?_
  all_goals
    have hcell := hf c hc
    generalize f c = c' at *
  · cases hcell with
    | untouched => exact Iff.rfl
    | dropped hfree _ => exact write_held hfree (fun _ => Tx.noConfusion) _ m version
  · cases hcell with
    | untouched => exact .inl hheld
    | dropped =>
      obtain ⟨-, rfl⟩ := Prod.mk.inj (Option.some.inj hheld)
      exact .inr ⟨taken_of_some rfl, rfl⟩
  · cases hcell with
    | untouched => exact h.rows c hc hmessage
    | dropped => exact h.rows c hc hmessage

theorem Fates.write (h : Fates w) (hw : w.Sound) (hstep : write w = some w') : Fates w' := by
  obtain ⟨_, id, edit, _, hpass, hwriting, hfree, rfl⟩ := write_some hstep
  obtain ⟨_, -, -, hfits⟩ := hw.writing hpass (id, edit) (hwriting ▸ List.mem_cons_self ..)
  refine h.beside hw rfl (fun c hc => ?_) rfl rfl (fun c hc m version => ?_) (fun c hc m version hheld => ?_)
    fun c hc hmessage => ?_
  · split
    · next hid => exact .stamps (canWrite_iff.mp hfree c hc hid) hfits.ofDispatch
    · exact .stays c
  · split
    · next hid => exact write_held (canWrite_iff.mp hfree c hc hid) (fun _ => Tx.noConfusion) _ m version
    · exact Iff.rfl
  · split at hheld
    · exact absurd (congrArg Prod.fst (Option.some.inj hheld)) Tx.noConfusion
    · exact .inl hheld
  · split at hmessage <;> split <;> exact h.rows c hc hmessage

theorem Fates.started_waiting (h : Fates w) (hw : w.Sound) {n : Nat} {pass : GatherPass} (hpass : w.gathers n = some pass)
    {id : Nat} (hmem : id ∈ gatheredIds pass.started) :
    ∃ c ∈ w.rows, c.committed.id = id ∧ c.committed.waiting ∧ ∃ version, c.held = some (.gather n, version) := by
  obtain ⟨c, hc, hid, version, hheld⟩ := h.started n pass hpass id hmem
  exact ⟨c, hc, hid, ((hw.cells c hc).kept Tx.noConfusion hheld).1, version, hheld⟩

theorem Fates.endGather (h : Fates w) (hw : w.Sound) {n : Nat} {commits : Bool} (hstep : endGather w n commits = some w') :
    Fates w' := by
  have hends {m : Nat} {pass : GatherPass} (hopen : Function.update w.gathers n none m = some pass) :
      m ≠ n ∧ w.gathers m = some pass := by
    by_cases hm : m = n
    · rw [hm, Function.update_self] at hopen
      cases hopen
    · exact ⟨hm, (Function.update_of_ne hm none w.gathers).symm.trans hopen⟩
  have hother {m : Nat} (hm : m ≠ n) : Tx.gather m ≠ .gather n := fun hsame => hm (Tx.gather.inj hsame)
  obtain ⟨pass, hpass, ⟨-, rfl⟩ | ⟨-, rfl⟩⟩ := endGather_some hstep
  · refine h.each hw rfl (fun c _ => commit_step _ c) (fun m pass' hopen => (hends hopen).2) (fun c _ m version hopen hheld => ?_)
      (fun c hc m version hheld => ?_) (fun c hc m version hheld => ?_) (fun c hc hmessage => ?_) (fun id hmem => ?_) ?_
    · obtain ⟨pass', hopen⟩ := Option.isSome_iff_exists.mp hopen
      exact (Cell.commit_held_other (hother (hends hopen).1) version).mpr hheld
    · have hm : m ≠ n := by
        rintro rfl
        exact Cell.commit_held _ c version hheld
      exact ⟨(Cell.commit_held_other (hother hm) version).mp hheld, Function.update_of_ne hm _ _⟩
    · exact .inl ((Cell.commit_held_other Tx.noConfusion version).mp hheld)
    · dsimp only
      rw [gatheredIds_append]
      rcases c.commit_cases (.gather n) with ⟨version, hheld, hcell⟩ | ⟨hnot, hcell⟩ <;> rw [hcell] at hmessage ⊢
      · obtain ⟨hwaiting, hkept⟩ := (hw.cells c hc).kept Tx.noConfusion hheld
        obtain ⟨pass', hpass', hfated⟩ := h.byGather c hc n version hheld
        cases hpass.symm.trans hpass'
        refine hfated.prepend ?_
        rw [hkept.delivery.id]
        exact (h.committed_out hc hwaiting).2
      · refine (h.rows c hc hmessage).append fun hmem => ?_
        obtain ⟨_, hc', hid, -, version, hheld⟩ := h.started_waiting hw hpass hmem
        exact hnot version (hw.cell_eq hc hc' hid.symm ▸ hheld)
    · dsimp only at hmem
      rw [gatheredIds_append] at hmem
      rcases List.mem_append.mp hmem with hmem | hmem
      · exact h.runs id hmem
      · obtain ⟨c, hc, hid, hwaiting, -⟩ := h.started_waiting hw hpass hmem
        exact ⟨c, hc, hid, waiting_held hwaiting⟩
    · dsimp only
      rw [gatheredIds_append]
      refine List.nodup_append.mpr ⟨h.runsOnce, h.startedOnce n pass hpass, fun id hid id' hid' => ?_⟩
      rintro rfl
      obtain ⟨c, hc, rfl, hwaiting, -⟩ := h.started_waiting hw hpass hid'
      exact (h.committed_out hc hwaiting).2 hid
  · refine h.each hw rfl (fun c _ => rollback_step _ c) (fun m pass' hopen => (hends hopen).2)
      (fun c _ m version hopen hheld => ?_) (fun c hc m version hheld => ?_) (fun c hc m version hheld => ?_)
      (fun c hc hmessage => ?_) h.runs h.runsOnce
    · obtain ⟨_, hopen⟩ := Option.isSome_iff_exists.mp hopen
      exact (Cell.rollback_held_other (hother (hends hopen).1) version).mpr hheld
    · have hm : m ≠ n := by
        rintro rfl
        exact Cell.rollback_held _ c version hheld
      exact ⟨(Cell.rollback_held_other (hother hm) version).mp hheld, Function.update_of_ne hm _ _⟩
    · exact .inl ((Cell.rollback_held_other Tx.noConfusion version).mp hheld)
    · rw [Cell.rollback_committed] at hmessage ⊢
      exact h.rows c hc hmessage

theorem Fates.opens (h : Fates w) {n : Nat} {chosen : List (Nat × String)} (hnone : w.gathers n = none) (hrows : w'.rows = w.rows)
    (hgathers : w'.gathers = Function.update w.gathers n (some { left := chosen })) (hruns : w'.runs = w.runs) : Fates w' := by
  have hmine : w'.gathers n = some { left := chosen } := by rw [hgathers, Function.update_self]
  have hother {m : Nat} (hm : m ≠ n) : w'.gathers m = w.gathers m := by rw [hgathers, Function.update_of_ne hm]
  refine ⟨by rw [hrows, hruns]; exact h.rows, fun c hc m version hheld => ?_, by rw [hrows]; exact h.byDelivery,
    by rw [hrows, hruns]; exact h.runs, fun m pass hpass id hmem => ?_, by rw [hruns]; exact h.runsOnce, fun m pass hpass => ?_⟩
  · obtain ⟨pass, hpass, hfated⟩ := h.byGather c (hrows ▸ hc) m version hheld
    have hm : m ≠ n := by
      rintro rfl
      exact absurd (hnone.symm.trans hpass) (Option.some_ne_none _).symm
    exact ⟨pass, (hother hm).trans hpass, hfated⟩
  · by_cases hm : m = n
    · subst hm
      cases hmine.symm.trans hpass
      cases hmem
    · rw [hrows]
      exact h.started m pass ((hother hm).symm.trans hpass) id hmem
  · by_cases hm : m = n
    · subst hm
      cases hmine.symm.trans hpass
      exact List.nodup_nil
    · exact h.startedOnce m pass ((hother hm).symm.trans hpass)

theorem Fates.gatherNext (h : Fates w) (hw : w.Sound) {n : Nat} {skipped : List Nat} {outcome : GatherOutcome} {now : Int}
    {pass : GatherPass} {bindingId : Nat} {sender : String} {gathered : Gathered}
    (hnext : GathersNext settings w n skipped outcome now w' pass bindingId sender gathered)
    (hcommands : ¬Commands settings (takeBatch w (.gather n) bindingId sender skipped)) : Fates w' := by
  obtain ⟨f, hrows, hf⟩ := gatherNext_cells hw hnext
  obtain ⟨-, hstarts⟩ := gather_cases hnext.gather (hw.takeBatch_nodup ..) (hw.view_nodup ..)
  have hnew : gatheredIds (pass.started ++ gathered.started.toList) = gatheredIds pass.started ++
      startedIds (takeBatch w (.gather n) bindingId sender skipped) gathered.started := by
    rw [gatheredIds_append, gatheredIds_started fun run hrun => (hstarts run hrun).parts]
  have hmine : w'.gathers n = some { left := pass.left.tail, started := pass.started ++ gathered.started.toList } := by
    rw [hnext.after]
    exact Function.update_self ..
  have hother {m : Nat} (hm : m ≠ n) : w'.gathers m = w.gathers m := by
    rw [hnext.after]
    exact Function.update_of_ne hm _ _
  have hruns : w'.runs = w.runs := by rw [hnext.after]
  have hold {c : Cell Tx ChannelEventRow} (hc : c ∈ w'.rows) : ∃ old ∈ w.rows, f old = c :=
    List.mem_map.mp (hrows ▸ hc)
  have hkept {c : Cell Tx ChannelEventRow} (hc : c ∈ w.rows) : f c ∈ w'.rows ∧ (f c).committed = c.committed := by
    refine ⟨hrows ▸ List.mem_map_of_mem hc, ?_⟩
    have hcell := hf c hc
    generalize f c = c' at hcell ⊢
    cases hcell <;> rfl
  -- A message of the batch is free for this gather and waits.
  have htaken {id : Nat} (hmem : id ∈ startedIds (takeBatch w (.gather n) bindingId sender skipped) gathered.started) :
      gathered.started.isSome ∧ ∃ c ∈ w.rows, c.committed.id = id ∧ c.freeFor (.gather n) ∧ (c.view (.gather n)).waiting ∧
        c.committed.id ∈ ids (takeBatch w (.gather n) bindingId sender skipped) := by
    unfold startedIds at hmem
    split at hmem
    · next hstarted =>
      obtain ⟨_, hrow, hid⟩ := List.mem_map.mp hmem
      obtain ⟨c, hc, hfree, rfl, hwaiting⟩ := mem_takeBatch hrow
      have hsame := ((hw.cells c hc).view_delivery (.gather n)).id
      exact ⟨hstarted, c, hc, hsame.symm.trans hid, hfree, (Bool.and_eq_true_iff.mp hwaiting).2, hsame ▸ List.mem_map_of_mem hrow⟩
    · cases hmem
  refine ⟨fun c' hc' hmessage => ?_, fun c' hc' m version hheld => ?_, fun c' hc' m version hheld => ?_, fun id hmem => ?_,
    fun m pass' hpass' id hmem => ?_, by rw [hruns]; exact h.runsOnce, fun m pass' hpass' => ?_⟩
  · obtain ⟨c, hc, rfl⟩ := hold hc'
    rw [(hkept hc).2] at hmessage ⊢
    rw [hruns]
    exact h.rows c hc hmessage
  · obtain ⟨c, hc, rfl⟩ := hold hc'
    have hcell := hf c hc
    generalize f c = after at hcell hheld
    cases hcell with
    | untouched hbatch =>
      obtain ⟨before, hbefore, hfated⟩ := h.byGather c hc m version hheld
      by_cases hm : m = n
      · subst hm
        cases hnext.opened.symm.trans hbefore
        refine ⟨_, hmine, ?_⟩
        rw [hnew]
        refine hfated.append fun hmem => ?_
        obtain ⟨hstarted, _, hc', hid, -, -, hin⟩ := htaken hmem
        rw [((hw.cells c hc).kept Tx.noConfusion hheld).2.delivery.id] at hid
        exact hbatch hstarted (hid ▸ hin)
      · exact ⟨before, (hother hm).trans hbefore, hfated⟩
    | written hfree hwaiting hedits =>
      obtain ⟨hsame, rfl⟩ := Prod.mk.inj (Option.some.inj hheld)
      obtain rfl := Tx.gather.inj hsame
      obtain ⟨hfate, hout⟩ := h.view_out hw hnext.opened hc hfree (Bool.and_eq_true_iff.mp hwaiting).2
      refine ⟨_, hmine, ?_⟩
      rw [hnew]
      exact hedits.fated ((hw.cells c hc).view_delivery _).id (Bool.and_eq_true_iff.mp hwaiting).2 hfate hout hcommands
  · obtain ⟨c, hc, rfl⟩ := hold hc'
    have hcell := hf c hc
    generalize f c = after at hcell hheld
    cases hcell with
    | untouched => exact h.byDelivery c hc m version hheld
    | written => exact absurd (congrArg Prod.fst (Option.some.inj hheld)) Tx.noConfusion
  · rw [hruns] at hmem
    obtain ⟨c, hc, hid, _⟩ := h.runs id hmem
    refine ⟨f c, (hkept hc).1, ?_, ?_⟩ <;> rw [(hkept hc).2] <;> assumption
  · by_cases hm : m = n
    · subst hm
      cases hmine.symm.trans hpass'
      rw [hnew] at hmem
      rcases List.mem_append.mp hmem with hmem | hmem
      · obtain ⟨c, hc, hid, version, hheld⟩ := h.started m pass hnext.opened id hmem
        refine ⟨f c, (hkept hc).1, (congrArg ChannelEventRow.id (hkept hc).2).trans hid, ?_⟩
        have hcell := hf c hc
        generalize f c = after at hcell ⊢
        cases hcell with
        | untouched => exact ⟨version, hheld⟩
        | written _ _ _ => exact ⟨_, rfl⟩
      · obtain ⟨hstarted, c, hc, hid, -, -, hin⟩ := htaken hmem
        refine ⟨f c, (hkept hc).1, (congrArg ChannelEventRow.id (hkept hc).2).trans hid, ?_⟩
        have hcell := hf c hc
        generalize f c = after at hcell ⊢
        cases hcell with
        | untouched hbatch => exact absurd hin (hbatch hstarted)
        | written _ _ _ => exact ⟨_, rfl⟩
    · obtain ⟨c, hc, hid, version, hheld⟩ := h.started m pass' ((hother hm).symm.trans hpass') id hmem
      refine ⟨f c, (hkept hc).1, (congrArg ChannelEventRow.id (hkept hc).2).trans hid, version, ?_⟩
      have hcell := hf c hc
      generalize f c = after at hcell ⊢
      cases hcell with
      | untouched => exact hheld
      | written hfree => exact absurd (Tx.gather.inj (holder_of_free hfree hheld)) hm
  · by_cases hm : m = n
    · subst hm
      cases hmine.symm.trans hpass'
      rw [hnew]
      refine List.nodup_append.mpr ⟨h.startedOnce m pass hnext.opened, ?_, fun id hid id' hid' => ?_⟩
      · unfold startedIds
        split
        · exact hw.takeBatch_nodup ..
        · exact List.nodup_nil
      · rintro rfl
        obtain ⟨-, c, hc, rfl, hfree, hwaiting, -⟩ := htaken hid'
        have hout := (h.view_out hw hnext.opened hc hfree hwaiting).2
        rw [((hw.cells c hc).view_delivery _).id] at hout
        exact hout hid
    · exact h.startedOnce m pass' ((hother hm).symm.trans hpass')

end Worlds
end TinyHermes.Channels
