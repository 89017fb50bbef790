import TinyHermes.Channels.Steps

/-! The states the system reaches: rows that are told apart by their ids, sound rows, and a dispatch pass whose next
statements have their place. -/
namespace TinyHermes.Channels
open Lib

structure World.Sound (w : World) : Prop where
  unique : (w.rows.map fun c => c.committed.id).Nodup
  cells : ∀ c ∈ w.rows, SoundCell c
  left : ∀ {pass}, w.dispatch = some pass → ∀ candidate ∈ pass.left,
    ∃ c ∈ w.rows, c.committed.id = candidate.row ∧ candidate.Fits c.committed
  writing : ∀ {pass}, w.dispatch = some pass → ∀ statement ∈ pass.writing,
    ∃ c ∈ w.rows, c.committed.id = statement.1 ∧ statement.2.Fits c.committed

variable {rows : List (Cell Tx ChannelEventRow)}

section Views
variable {w : World} {c c' : Cell Tx ChannelEventRow} {t : Tx}

theorem World.Sound.cell_eq (hw : w.Sound) (hc : c ∈ w.rows) (hc' : c' ∈ w.rows) (h : c.committed.id = c'.committed.id) :
    c = c' :=
  List.inj_on_of_nodup_map hw.unique hc hc' h

theorem SoundCell.view_delivery (h : SoundCell c) (t : Tx) : (c.view t).SameDelivery c.committed := by
  cases hheld : c.held with
  | none =>
    have hview : c.view t = c.committed := by simp only [Cell.view, hheld]
    rw [hview]
    exact .refl _
  | some held =>
    obtain ⟨holder, _⟩ := held
    by_cases ht : holder = t
    · subst ht
      rw [Cell.view_of_held hheld]
      by_cases hdispatch : holder = .dispatch
      · subst hdispatch
        exact (h.stamped hheld).delivery
      · exact (h.kept hdispatch hheld).2.delivery
    · have hview : c.view t = c.committed := by simp only [Cell.view, hheld, if_neg ht]
      rw [hview]
      exact .refl _

theorem World.Sound.view_ids (hw : w.Sound) (hrows : rows ⊆ w.rows) :
    ids (rows.map (Cell.view t)) = rows.map fun c => c.committed.id := by
  rw [ids, List.map_map]
  exact List.map_congr_left fun c hc => ((hw.cells c (hrows hc)).view_delivery t).id

theorem mem_takeBatch {bindingId : Nat} {sender : String} {skipped : List Nat} {row : ChannelEventRow}
    (h : row ∈ takeBatch w t bindingId sender skipped) :
    ∃ c ∈ w.rows, c.freeFor t ∧ c.view t = row ∧ row.waitingOf bindingId sender := by
  obtain ⟨hmem, hwaiting⟩ := mem_select.mp h
  obtain ⟨c, hc, rfl⟩ := List.mem_map.mp hmem
  obtain ⟨hrow, hfree⟩ := List.mem_filter.mp hc
  exact ⟨c, hrow, (Bool.and_eq_true_iff.mp hfree).1, rfl, hwaiting⟩

theorem World.Sound.view_nodup (hw : w.Sound) (t : Tx) (p : ChannelEventRow → Bool) :
    (ids ((w.view t).filter p)).Nodup := by
  have hview : (ids (w.view t)).Nodup := (hw.view_ids (t := t) (List.Subset.refl w.rows)) ▸ hw.unique
  exact hview.sublist (List.filter_sublist.map _)

theorem World.Sound.takeBatch_nodup (hw : w.Sound) (t : Tx) (bindingId : Nat) (sender : String) (skipped : List Nat) :
    (ids (takeBatch w t bindingId sender skipped)).Nodup := by
  have hsorted := List.perm_insertionSort (fun a b => earlier a b)
    (((w.rows.filter fun c => c.freeFor t && !skipped.contains c.committed.id).map (Cell.view t)).filter
      (ChannelEventRow.waitingOf bindingId sender))
  refine (hsorted.map ChannelEventRow.id).nodup_iff.mpr ?_
  have hrows : (ids ((w.rows.filter fun c => c.freeFor t && !skipped.contains c.committed.id).map (Cell.view t))).Nodup := by
    rw [hw.view_ids List.filter_sublist.subset]
    exact hw.unique.sublist (List.filter_sublist.map _)
  exact hrows.sublist (List.filter_sublist.map _)

theorem World.Sound.view_eq (hw : w.Sound) (hc : c ∈ w.rows) {row : ChannelEventRow} (hrow : row ∈ w.view t)
    (h : row.id = c.committed.id) : c.view t = row := by
  obtain ⟨c', hc', rfl⟩ := List.mem_map.mp hrow
  rw [hw.cell_eq hc hc' (h.symm.trans ((hw.cells c' hc').view_delivery t).id)]

end Views

section Cells
variable {settings : Settings} {w w' : World} {c : Cell Tx ChannelEventRow} {t : Tx}

theorem writeAll_cells (t : Tx) (edits : List (Nat × Edit)) (rows : List (Cell Tx ChannelEventRow)) :
    World.writeAll t edits rows =
      rows.map fun c => c.writes t ((editsOf c.committed.id edits).map Edit.apply) := by
  rw [World.writeAll, writeRows_eq]
  exact List.map_congr_left fun c _ => by rw [editsOf_map]

theorem writes_edits (t : Tx) {edits : List Edit} (h : edits ≠ []) (c : Cell Tx ChannelEventRow) :
    c.writes t (edits.map Edit.apply) = ⟨c.committed, some (t, applyAll edits (c.view t))⟩ := by
  obtain ⟨_, _, rfl⟩ := List.exists_cons_of_ne_nil h
  rw [List.map_cons, Cell.writes_cons, applyAll, List.foldl_cons, List.foldl_map]

theorem canWriteAll_free {edits : List (Nat × Edit)} (h : World.canWriteAll t edits w.rows) (hc : c ∈ w.rows)
    (hne : editsOf c.committed.id edits ≠ []) : c.freeFor t := by
  obtain ⟨edit, _, hedits⟩ := List.exists_cons_of_ne_nil hne
  have hmem : edit ∈ editsOf c.committed.id edits := hedits ▸ List.mem_cons_self ..
  obtain ⟨⟨_, _⟩, hstatement, hid⟩ := List.mem_filterMap.mp hmem
  dsimp only at hid
  split at hid
  · next heq =>
    subst heq
    exact canWrite_iff.mp (List.all_eq_true.mp h _ hstatement) c hc rfl
  · cases hid

theorem RowGathered.outside {batch others : List ChannelEventRow} {started : Option StartedRun} {now : Int} {k : Nat}
    {edits : List Edit} (h : RowGathered settings batch others started now k edits) (hnil : edits = []) :
    started.isSome → k ∉ ids batch := by
  cases h with
  | untouched hbatch => exact hbatch
  | _ => exact absurd hnil (List.cons_ne_nil _ _)

inductive GatherCell (settings : Settings) (t : Tx) (bindingId : Nat) (sender : String) (batch others : List ChannelEventRow)
    (started : Option StartedRun) (now : Int) (c : Cell Tx ChannelEventRow) : Cell Tx ChannelEventRow → Prop where
  | untouched (hbatch : started.isSome → c.committed.id ∉ ids batch) :
      GatherCell settings t bindingId sender batch others started now c c
  | written {edits} (hfree : c.freeFor t) (hwaiting : (c.view t).waitingOf bindingId sender)
      (hedits : RowGathered settings batch others started now c.committed.id edits) :
      GatherCell settings t bindingId sender batch others started now c ⟨c.committed, some (t, applyAll edits (c.view t))⟩

theorem gatherNext_cells (hw : w.Sound) {n : Nat} {skipped : List Nat} {outcome : GatherOutcome} {now : Int}
    {pass : GatherPass} {bindingId : Nat} {sender : String} {gathered : Gathered}
    (h : GathersNext settings w n skipped outcome now w' pass bindingId sender gathered) :
    ∃ f : Cell Tx ChannelEventRow → Cell Tx ChannelEventRow, w'.rows = w.rows.map f ∧ ∀ c ∈ w.rows,
      GatherCell settings (.gather n) bindingId sender (takeBatch w (.gather n) bindingId sender skipped)
        ((w.view (.gather n)).filter (ChannelEventRow.waitingOf bindingId sender)) gathered.started now c (f c) := by
  obtain ⟨hrows, -⟩ := gather_cases h.gather (hw.takeBatch_nodup _ _ _ _) (hw.view_nodup _ _)
  refine ⟨_, by rw [h.after]; exact writeAll_cells _ _ _, fun c hc => ?_⟩
  have hedits := hrows c.committed.id
  by_cases hnone : editsOf c.committed.id gathered.edits = []
  · rw [hnone]
    exact .untouched (hedits.outside hnone)
  · rw [writes_edits _ hnone]
    refine .written (canWriteAll_free h.free hc hnone) ?_ hedits
    have hview {row : ChannelEventRow} (hrow : row ∈ takeBatch w (.gather n) bindingId sender skipped)
        (hid : row.id = c.committed.id) : (c.view (.gather n)).waitingOf bindingId sender := by
      obtain ⟨c', hc', -, rfl, hwaiting⟩ := mem_takeBatch hrow
      rw [hw.cell_eq hc hc' (hid.symm.trans ((hw.cells c' hc').view_delivery _).id)]
      exact hwaiting
    generalize hid : c.committed.id = k at hedits
    generalize hes : editsOf k gathered.edits = edits at hedits
    cases hedits with
    | untouched => exact absurd (hid ▸ hes) hnone
    | locked hrow => exact hview hrow hid.symm
    | refused hrow => exact hview hrow hid.symm
    | part hrow => exact hview (List.mem_of_mem_dropLast hrow) hid.symm
    | carrier hrow => exact hview (List.mem_of_mem_getLast? hrow) hid.symm
    | dropped hrow =>
      obtain ⟨hmem, hwaiting⟩ := List.mem_filter.mp hrow
      rw [hw.view_eq hc hmem hid.symm]
      exact hwaiting

theorem GatherCell.step {bindingId : Nat} {sender : String} {batch others : List ChannelEventRow}
    {started : Option StartedRun} {now : Int} {c' : Cell Tx ChannelEventRow} (ht : t ≠ .dispatch)
    (h : GatherCell settings t bindingId sender batch others started now c c') : CellStep c c' := by
  cases h with
  | untouched => exact .stays c
  | written hfree hwaiting hedits =>
    have hwaits := (Bool.and_eq_true_iff.mp hwaiting).2
    exact .gathers ht hfree hwaits (hedits.kept hwaits)

/-- What becomes of one row when `/new` lets go of its sender's messages. -/
inductive DropCell (t : Tx) (bindingId : Nat) (sender : String) (now : Int) (c : Cell Tx ChannelEventRow) :
    Cell Tx ChannelEventRow → Prop where
  | untouched : DropCell t bindingId sender now c c
  | dropped (hfree : c.freeFor t) (hwaiting : (c.view t).waitingOf bindingId sender) :
      DropCell t bindingId sender now c ⟨c.committed, some (t, (Edit.dropHeld now).apply (c.view t))⟩

theorem dropHeld_cells (hw : w.Sound) {n bindingId : Nat} {sender : String} {seen : List Nat} {now : Int}
    (h : dropHeld w n bindingId sender seen now = some w') :
    ∃ f : Cell Tx ChannelEventRow → Cell Tx ChannelEventRow, w'.rows = w.rows.map f ∧ ∀ c ∈ w.rows,
      DropCell (.delivery n) bindingId sender now c (f c) := by
  obtain ⟨hfree, rfl⟩ := dropHeld_some h
  refine ⟨_, writeAll_cells _ _ _, fun c hc => ?_⟩
  let dropped := (w.view (.delivery n)).filter fun row => row.waitingOf bindingId sender && seen.contains row.id
  have hdistinct : (ids dropped).Nodup := hw.view_nodup _ _
  by_cases hk : c.committed.id ∈ ids dropped
  · obtain ⟨row, hrow, hid⟩ := List.mem_map.mp hk
    have hedits : editsOf c.committed.id (dropped.map fun row => (row.id, Edit.dropHeld now)) = [.dropHeld now] :=
      hid ▸ editsOf_rows hrow hdistinct
    obtain ⟨hmem, hp⟩ := List.mem_filter.mp hrow
    have hne : editsOf c.committed.id (dropped.map fun row => (row.id, Edit.dropHeld now)) ≠ [] := by
      rw [hedits]
      exact List.cons_ne_nil _ _
    rw [writes_edits _ hne, hedits]
    refine .dropped (canWriteAll_free hfree hc hne) ?_
    rw [hw.view_eq hc hmem hid]
    exact (Bool.and_eq_true_iff.mp hp).1
  · rw [show editsOf c.committed.id (dropped.map fun row => (row.id, Edit.dropHeld now)) = [] from editsOf_others hk]
    exact .untouched

theorem DropCell.step {bindingId : Nat} {sender : String} {now : Int} {c' : Cell Tx ChannelEventRow} (ht : t ≠ .dispatch)
    (h : DropCell t bindingId sender now c c') : CellStep c c' := by
  cases h with
  | untouched => exact .stays c
  | dropped hfree hwaiting =>
    have hwaits := (Bool.and_eq_true_iff.mp hwaiting).2
    refine .gathers ht hfree hwaits ?_
    exact kept_taken (Edit.apply_sameDelivery _ _) rfl hwaits rfl fun hnone => absurd hnone (Option.some_ne_none _)

theorem commit_step (t : Tx) (c : Cell Tx ChannelEventRow) : CellStep c (c.commit t) := by
  rcases c.commit_cases t with ⟨_, hheld, h⟩ | ⟨-, h⟩
  · rw [h]
    exact .commits hheld
  · rw [h]
    exact .stays c

theorem rollback_step (t : Tx) (c : Cell Tx ChannelEventRow) : CellStep c (c.rollback t) := by
  rcases c.rollback_cases t with ⟨_, hheld, h⟩ | ⟨-, h⟩
  · rw [h]
    exact .rollsBack hheld
  · rw [h]
    exact .stays c

end Cells

section Runs
variable {settings : Settings} {w w' : World} {input : Input} {u : Unit}

structure ChannelEventRow.Arrived (row : ChannelEventRow) : Prop where
  sound : row.Sound
  repliedAt : row.repliedAt = none
  replyAttempts : row.replyAttempts = 0
  settledBy : row.settledBy = none
  run : row.runId.isSome → row.heldMessage = none
  heldTakenAt : row.heldTakenAt = none
  fate : row.fate = none

theorem arrived_held (event : ChannelEvent) (id bindingId : Nat) (receivedAt : Int) :
    (recordHeld event (claimDelivery id bindingId event.channelEventId receivedAt)).Arrived :=
  ⟨⟨fun _ => ⟨rfl, rfl⟩, fun h => absurd h Bool.false_ne_true⟩, rfl, rfl, rfl, fun h => absurd h Bool.false_ne_true, rfl, rfl⟩

theorem arrived_unsupported (kind sender : String) (id bindingId : Nat) (channelEventId : String) (receivedAt : Int) :
    (recordUnsupported kind sender (claimDelivery id bindingId channelEventId receivedAt)).Arrived :=
  ⟨⟨fun h => absurd h Bool.false_ne_true, fun h => absurd h Bool.false_ne_true⟩, rfl, rfl, rfl,
    fun h => absurd h Bool.false_ne_true, rfl, rfl⟩

theorem arrived_receipt (receipt : CommandReceipt) (sender : String) (id bindingId : Nat) (channelEventId : String)
    (receivedAt : Int) :
    (recordCommandReceipt receipt sender (claimDelivery id bindingId channelEventId receivedAt)).Arrived :=
  ⟨⟨fun h => absurd h Bool.false_ne_true, fun h => absurd h Bool.false_ne_true⟩, rfl, rfl, rfl,
    fun h => absurd h Bool.false_ne_true, rfl, rfl⟩

theorem arrived_compaction (id bindingId run : Nat) (channelEventId : String) (receivedAt : Int) :
    ({ claimDelivery id bindingId channelEventId receivedAt with runId := some run } : ChannelEventRow).Arrived :=
  ⟨⟨fun h => absurd h Bool.false_ne_true, fun _ => ⟨rfl, rfl, rfl⟩⟩, rfl, rfl, rfl, fun _ => rfl, rfl, rfl⟩

def HeldFor (settings : Settings) (input : Input) (row : ChannelEventRow) : Prop :=
  ∃ event, input = .arriveHeld row.id row.bindingId event row.receivedAt ∧ event.command settings.lower = none ∧
    row = recordHeld event (claimDelivery row.id row.bindingId event.channelEventId row.receivedAt)

inductive RowsStep (settings : Settings) (input : Input) (rows : List (Cell Tx ChannelEventRow)) :
    List (Cell Tx ChannelEventRow) → Prop where
  | each (f : Cell Tx ChannelEventRow → Cell Tx ChannelEventRow) (hf : ∀ c ∈ rows, CellStep c (f c)) :
      RowsStep settings input rows (rows.map f)
  | arrives {row : ChannelEventRow} (hnew : ∀ c ∈ rows, c.committed.id ≠ row.id) (harrived : row.Arrived)
      (hheld : row.heldMessage.isSome → HeldFor settings input row) : RowsStep settings input rows (rows ++ [⟨row, none⟩])

theorem RowsStep.same (settings : Settings) (input : Input) (rows : List (Cell Tx ChannelEventRow)) :
    RowsStep settings input rows rows := by
  have h : RowsStep settings input rows (rows.map id) := .each id fun c _ => .stays c
  rwa [List.map_id] at h

theorem unclaimed_new {row : ChannelEventRow} (h : w.unclaimed row) : ∀ c ∈ w.rows, c.committed.id ≠ row.id := by
  intro c hc
  have := List.all_eq_true.mp h c hc
  exact of_decide_eq_true (Bool.and_eq_true_iff.mp this).1

theorem step_rows (hw : w.Sound) (h : Step settings w input u w') : RowsStep settings input w.rows w'.rows := by
  cases input with
  | arriveHeld _ _ event =>
    obtain ⟨hcommand, harrives⟩ := arriveHeld_some h
    obtain ⟨hnew, rfl⟩ := arrive_some harrives
    exact .arrives (unclaimed_new hnew) (arrived_held ..) fun _ => ⟨event, rfl, hcommand, rfl⟩
  | arriveUnsupported =>
    obtain ⟨hnew, rfl⟩ := arrive_some h
    exact .arrives (unclaimed_new hnew) (arrived_unsupported ..) fun h => absurd h Bool.false_ne_true
  | arriveReceipt =>
    obtain ⟨hnew, rfl⟩ := arrive_some h
    exact .arrives (unclaimed_new hnew) (arrived_receipt ..) fun h => absurd h Bool.false_ne_true
  | arriveCompaction =>
    obtain ⟨-, hnew, rfl⟩ := arriveCompaction_some h
    exact .arrives (unclaimed_new hnew) (arrived_compaction ..) fun h => absurd h Bool.false_ne_true
  | dropHeld =>
    obtain ⟨f, hrows, hf⟩ := dropHeld_cells hw h
    rw [hrows]
    exact .each f fun c hc => (hf c hc).step Tx.noConfusion
  | endDelivery n commits =>
    cases h
    cases commits with
    | true => exact .each _ fun c _ => commit_step _ c
    | false => exact .each _ fun c _ => rollback_step _ c
  | beginGather =>
    obtain ⟨-, rfl⟩ := beginGather_some h
    exact .same ..
  | gatherNext =>
    obtain ⟨pass, _, _, _, hnext⟩ := gatherNext_some h
    obtain ⟨f, hrows, hf⟩ := gatherNext_cells hw hnext
    rw [hrows]
    exact .each f fun c hc => (hf c hc).step Tx.noConfusion
  | endGather =>
    obtain ⟨pass, -, ⟨-, rfl⟩ | ⟨-, rfl⟩⟩ := endGather_some h
    · exact .each _ fun c _ => commit_step _ c
    · exact .each _ fun c _ => rollback_step _ c
  | beginDispatch =>
    unfold Step perform at h
    dsimp only at h
    split at h
    · cases h
      exact .same ..
    · cases h
  | look =>
    obtain ⟨pass, -, -, -, -, rfl⟩ := look_some h
    exact .same ..
  | handle =>
    obtain ⟨pass, _, rest, hhandles⟩ := handle_some h
    rw [hhandles.after]
    exact .same ..
  | write =>
    obtain ⟨pass, id, edit, _, hpass, hwriting, hfree, rfl⟩ := write_some h
    refine .each _ fun c hc => ?_
    split
    · next hid =>
      obtain ⟨_, _, _, hfits⟩ := hw.writing hpass (id, edit) (hwriting ▸ List.mem_cons_self ..)
      exact .stamps (canWrite_iff.mp hfree c hc hid) hfits.ofDispatch
    · exact .stays c
  | endDispatch =>
    obtain ⟨pass, -, -, -, -, rfl⟩ := endDispatch_some h
    exact .each _ fun c _ => commit_step _ c
  | crashDispatch =>
    obtain ⟨_, -, rfl⟩ := crashDispatch_some h
    exact .each _ fun c _ => rollback_step _ c
  | runMoves =>
    cases h
    exact .same ..

variable {rows' : List (Cell Tx ChannelEventRow)}

theorem RowsStep.cells (h : RowsStep settings input rows rows')
    (hrows : ∀ c ∈ rows, SoundCell c) : ∀ c ∈ rows', SoundCell c := by
  cases h with
  | each f hf =>
    intro c hc
    obtain ⟨old, hold, rfl⟩ := List.mem_map.mp hc
    exact (hf old hold).sound (hrows old hold)
  | arrives hnew harrived _ =>
    intro c hc
    rcases List.mem_append.mp hc with hc | hc
    · exact hrows c hc
    · obtain rfl := List.mem_singleton.mp hc
      exact ⟨harrived.sound, fun h => absurd h.symm (Option.some_ne_none _), fun _ h => absurd h.symm (Option.some_ne_none _)⟩

theorem RowsStep.unique (h : RowsStep settings input rows rows')
    (hcells : ∀ c ∈ rows, SoundCell c) (hrows : (rows.map fun c => c.committed.id).Nodup) :
    (rows'.map fun c => c.committed.id).Nodup := by
  cases h with
  | each f hf =>
    have hids : (rows.map f).map (fun c => c.committed.id) = rows.map fun c => c.committed.id := by
      rw [List.map_map]
      exact List.map_congr_left fun c hc => ((hf c hc).grows (hcells c hc)).delivery.id
    rwa [hids]
  | arrives hnew _ _ =>
    rw [List.map_append]
    refine List.nodup_append.mpr ⟨hrows, List.nodup_singleton _, fun id hid id' hid' => ?_⟩
    obtain ⟨c, hc, rfl⟩ := List.mem_map.mp hid
    obtain rfl := List.mem_singleton.mp hid'
    exact hnew c hc

theorem RowsStep.carry (h : RowsStep settings input rows rows')
    (hcells : ∀ c ∈ rows, SoundCell c) {F : ChannelEventRow → Prop} (hF : ∀ a b, F a → Grows a b → F b) {k : Nat}
    (hk : ∃ c ∈ rows, c.committed.id = k ∧ F c.committed) : ∃ c ∈ rows', c.committed.id = k ∧ F c.committed := by
  obtain ⟨c, hc, hid, hfact⟩ := hk
  cases h with
  | each f hf =>
    have hgrows := (hf c hc).grows (hcells c hc)
    exact ⟨f c, List.mem_map_of_mem hc, hgrows.delivery.id.trans hid, hF _ _ hfact hgrows⟩
  | arrives _ _ _ => exact ⟨c, List.mem_append_left _ hc, hid, hfact⟩

theorem handled_writing {answer : Answer} {pass : DispatchPass} {candidate : Candidate} {rest : List Candidate}
    (hw : w.Sound) (h : Handles settings w answer w' pass candidate rest) :
    (∀ next ∈ (candidate.handle settings (w.view .dispatch) answer).next.toList ++ rest,
      ∃ c ∈ w.rows, c.committed.id = next.row ∧ next.Fits c.committed) ∧
    ∀ statement ∈ (candidate.handle settings (w.view .dispatch) answer).writes.map fun edit => (candidate.row, edit),
      ∃ c ∈ w.rows, c.committed.id = statement.1 ∧ statement.2.Fits c.committed := by
  obtain ⟨c, hc, hid, hfits⟩ := hw.left h.opened candidate (h.first ▸ List.mem_cons_self ..)
  obtain ⟨hwrites, hnext⟩ := Candidate.handle_fits settings hfits (w.view .dispatch) answer
  constructor
  · intro next hmem
    rcases List.mem_append.mp hmem with hmem | hmem
    · obtain ⟨hnextfits, hrow⟩ := hnext next (Option.mem_toList.mp hmem)
      exact ⟨c, hc, hid.trans hrow.symm, hnextfits⟩
    · exact hw.left h.opened next (h.first ▸ List.mem_cons_of_mem _ hmem)
  · intro _ hmem
    obtain ⟨edit, hedit, rfl⟩ := List.mem_map.mp hmem
    exact ⟨c, hc, hid, hwrites edit hedit⟩

theorem step_pass (hw : w.Sound) (h : Step settings w input u w') {pass : DispatchPass} (hpass : w'.dispatch = some pass) :
    (∀ candidate ∈ pass.left, ∃ c ∈ w.rows, c.committed.id = candidate.row ∧ candidate.Fits c.committed) ∧
      ∀ statement ∈ pass.writing, ∃ c ∈ w.rows, c.committed.id = statement.1 ∧ statement.2.Fits c.committed := by
  have hsame (hdispatch : w'.dispatch = w.dispatch) :
      (∀ candidate ∈ pass.left, ∃ c ∈ w.rows, c.committed.id = candidate.row ∧ candidate.Fits c.committed) ∧
        ∀ statement ∈ pass.writing, ∃ c ∈ w.rows, c.committed.id = statement.1 ∧ statement.2.Fits c.committed :=
    ⟨hw.left (hdispatch ▸ hpass), hw.writing (hdispatch ▸ hpass)⟩
  cases input with
  | arriveHeld =>
    obtain ⟨-, rfl⟩ := arrive_some (arriveHeld_some h).2
    exact hsame rfl
  | arriveUnsupported =>
    obtain ⟨-, rfl⟩ := arrive_some h
    exact hsame rfl
  | arriveReceipt =>
    obtain ⟨-, rfl⟩ := arrive_some h
    exact hsame rfl
  | arriveCompaction =>
    obtain ⟨-, -, rfl⟩ := arriveCompaction_some h
    exact hsame rfl
  | dropHeld =>
    obtain ⟨-, rfl⟩ := dropHeld_some h
    exact hsame rfl
  | endDelivery n commits =>
    cases h
    cases commits <;> exact hsame rfl
  | beginGather =>
    obtain ⟨-, rfl⟩ := beginGather_some h
    exact hsame rfl
  | gatherNext =>
    obtain ⟨_, _, _, _, hnext⟩ := gatherNext_some h
    rw [hnext.after] at hpass
    exact ⟨hw.left hpass, hw.writing hpass⟩
  | endGather =>
    obtain ⟨_, -, ⟨-, rfl⟩ | ⟨-, rfl⟩⟩ := endGather_some h <;> exact hsame rfl
  | beginDispatch =>
    unfold Step perform at h
    dsimp only at h
    split at h
    · cases h
      cases hpass
      exact ⟨fun _ hmem => absurd hmem List.not_mem_nil, fun _ hmem => absurd hmem List.not_mem_nil⟩
    · cases h
  | look =>
    obtain ⟨before, hbefore, -, hwriting, -, rfl⟩ := look_some h
    cases hpass
    refine ⟨fun candidate hmem => ?_, fun statement hmem => hw.writing hbefore statement hmem⟩
    obtain ⟨_, hrow, hid, hfits⟩ := look_fits hmem
    obtain ⟨c, hc, rfl⟩ := List.mem_map.mp hrow
    have hview := (hw.cells c hc).view_dispatch
    exact ⟨c, hc, hview.delivery.id.symm.trans hid, hfits.grows hview.grows_back⟩
  | handle =>
    obtain ⟨before, candidate, rest, hhandles⟩ := handle_some h
    rw [hhandles.after] at hpass
    cases hpass
    exact handled_writing hw hhandles
  | write =>
    obtain ⟨_, _, _, _, hbefore, hwriting, -, rfl⟩ := write_some h
    cases hpass
    exact ⟨fun candidate hmem => hw.left hbefore candidate hmem, fun statement hmem => hw.writing hbefore statement (hwriting ▸ List.mem_cons_of_mem _ hmem)⟩
  | endDispatch =>
    obtain ⟨_, -, -, -, -, rfl⟩ := endDispatch_some h
    cases hpass
  | crashDispatch =>
    obtain ⟨_, -, rfl⟩ := crashDispatch_some h
    cases hpass
  | runMoves =>
    cases h
    exact hsame rfl

theorem World.Sound.step (hw : w.Sound) (h : Step settings w input u w') : w'.Sound := by
  have hrows := step_rows hw h
  refine ⟨hrows.unique hw.cells hw.unique, hrows.cells hw.cells, fun hpass candidate hmem => ?_,
    fun hpass statement hmem => ?_⟩
  · exact hrows.carry hw.cells (fun _ _ => Candidate.Fits.grows) ((step_pass hw h hpass).1 candidate hmem)
  · exact hrows.carry hw.cells (fun _ _ => Edit.Fits.grows) ((step_pass hw h hpass).2 statement hmem)

theorem Stamped.grows {a b : ChannelEventRow} (h : Stamped a b) : Grows a b :=
  ⟨h.delivery, fun _ hrun => h.runId.trans hrun⟩

theorem World.Sound.version (hw : w.Sound) {c : Cell Tx ChannelEventRow} (hc : c ∈ w.rows) {row : ChannelEventRow}
    (hrow : row ∈ c.versions) : row.Sound ∧ row.SameDelivery c.committed := by
  have hcell := hw.cells c hc
  rcases Cell.mem_versions.mp hrow with rfl | ⟨t, hheld⟩
  · exact ⟨hcell.committed, .refl _⟩
  · by_cases ht : t = .dispatch
    · subst ht
      exact ⟨(hcell.stamped hheld).sound hcell.committed, (hcell.stamped hheld).delivery⟩
    · exact ⟨(hcell.kept ht hheld).2.sound hcell.committed, (hcell.kept ht hheld).2.delivery⟩

def attempt (settings : Settings) (w : World) (input : Input) : Option (Unit × World) :=
  (perform settings w input).map fun w' => ((), w')

theorem attempt_step (h : attempt settings w input = some (u, w')) : Step settings w input u w' := by
  obtain ⟨_, hafter, hpair⟩ := Option.map_eq_some_iff.mp h
  rw [← (Prod.mk.inj hpair).2]
  exact hafter

theorem sound_start : ({} : World).Sound :=
  ⟨List.nodup_nil, fun _ hc => absurd hc List.not_mem_nil, fun hpass => absurd hpass.symm (Option.some_ne_none _),
    fun hpass => absurd hpass.symm (Option.some_ne_none _)⟩

end Runs
end TinyHermes.Channels
