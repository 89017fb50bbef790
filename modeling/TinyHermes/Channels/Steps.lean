import TinyHermes.Channels.Sound

/-! One step of the system, seen from its rows: what each scan finds, what each operation does, and that sound states
stay sound. -/
namespace TinyHermes.Channels
open Lib
open Runs (RunState)

section Scans
variable {settings : Settings} {states : RunStates} {rows : List ChannelEventRow} {now : Int} {row : ChannelEventRow}

theorem mem_select {p : ChannelEventRow → Bool} : row ∈ select p rows ↔ row ∈ rows ∧ p row := by
  rw [select, List.mem_insertionSort, List.mem_filter]

variable {limit : Nat}

theorem mem_scan {α : Type} {p : ChannelEventRow → Bool} {f : ChannelEventRow → Option α} {found : α}
    (h : found ∈ ((select p rows).take limit).filterMap f) : ∃ row ∈ rows, p row ∧ f row = some found := by
  obtain ⟨row, hrow, hfound⟩ := List.mem_filterMap.mp h
  obtain ⟨hmem, hp⟩ := mem_select.mp (List.mem_of_mem_take hrow)
  exact ⟨row, hmem, hp, hfound⟩

theorem mem_pendingCardOpens {opening : PendingCard} (h : opening ∈ pendingCardOpens states limit rows) :
    ∃ row ∈ rows, row.id = opening.eventRowId ∧ row.runId = some opening.runId ∧ row.repliedAt = none ∧
      row.cardAttemptedAt = none := by
  obtain ⟨row, hrow, hp, hf⟩ := mem_scan h
  obtain ⟨_, hrun, rfl⟩ := Option.map_eq_some_iff.mp hf
  simp only [Bool.and_eq_true, Option.isNone_iff_eq_none] at hp
  exact ⟨row, hrow, rfl, hrun, hp.1.2, hp.2⟩

theorem mem_pendingRefusals {unreadable : PendingRefusal} (h : unreadable ∈ pendingRefusals limit rows) :
    ∃ row ∈ rows, row.id = unreadable.eventRowId ∧ row.unsupportedKind.isSome := by
  obtain ⟨row, hrow, hp, hf⟩ := mem_scan h
  obtain ⟨_, -, hf⟩ := Option.bind_eq_some_iff.mp hf
  obtain ⟨_, -, hf⟩ := Option.bind_eq_some_iff.mp hf
  split at hf
  · cases hf
  · cases hf
    exact ⟨row, hrow, rfl, (Bool.and_eq_true_iff.mp hp).1⟩

theorem mem_pendingCommandReceipts {command : PendingCommandReceipt}
    (h : command ∈ pendingCommandReceipts limit rows) :
    ∃ row ∈ rows, row.id = command.eventRowId ∧ row.commandReceipt.isSome := by
  obtain ⟨row, hrow, hp, hf⟩ := mem_scan h
  obtain ⟨_, -, hf⟩ := Option.bind_eq_some_iff.mp hf
  obtain ⟨_, -, hf⟩ := Option.bind_eq_some_iff.mp hf
  split at hf
  · cases hf
  · cases hf
    exact ⟨row, hrow, rfl, (Bool.and_eq_true_iff.mp hp).1⟩

theorem mem_pendingHeldQuestions {held : PendingHeldQuestion} {olderThan : Int}
    (h : held ∈ pendingHeldQuestions olderThan limit rows) :
    ∃ row ∈ rows, row.id = held.eventRowId ∧ row.heldMessage.isSome := by
  obtain ⟨row, hrow, hp, hf⟩ := mem_scan h
  obtain ⟨_, -, hf⟩ := Option.bind_eq_some_iff.mp hf
  split at hf
  · cases hf
  · cases hf
    simp only [Bool.and_eq_true] at hp
    exact ⟨row, hrow, rfl, hp.1.1.1.1⟩

theorem mem_pendingBlockedNotices {waiting : PendingNotice}
    (h : waiting ∈ pendingBlockedNotices states limit rows) :
    ∃ row ∈ rows, row.id = waiting.eventRowId ∧ row.runId = some waiting.runId ∧ row.blockedNotice.isSome ∧
      row.blockedNotifiedAt = none := by
  obtain ⟨row, hrow, hp, hf⟩ := mem_scan h
  obtain ⟨_, hrun, hf⟩ := Option.bind_eq_some_iff.mp hf
  obtain ⟨_, -, hf⟩ := Option.bind_eq_some_iff.mp hf
  cases hf
  simp only [Bool.and_eq_true, Option.isNone_iff_eq_none] at hp
  exact ⟨row, hrow, rfl, hrun, hp.1.2, hp.2⟩

theorem mem_pendingProgressNotices {progress : PendingProgress} {olderThan : Int}
    (h : progress ∈ pendingProgressNotices states olderThan limit rows) :
    ∃ row ∈ rows, row.id = progress.eventRowId ∧ row.runId = some progress.runId ∧
      ∃ state, states progress.runId = some state ∧ working state := by
  obtain ⟨row, hrow, hp, hf⟩ := mem_scan h
  obtain ⟨runId, hrun, rfl⟩ := Option.map_eq_some_iff.mp hf
  simp only [Bool.and_eq_true] at hp
  have hworking := hp.1.1.1.1
  rw [ofRuns, hrun, Option.bind_some] at hworking
  cases hstate : states runId with
  | none => simp [hstate] at hworking
  | some state => exact ⟨row, hrow, rfl, hrun, state, rfl, by simpa [hstate] using hworking⟩

theorem mem_pendingReplies {pending : PendingReply} (h : pending ∈ pendingReplies states limit rows) :
    ∃ row ∈ rows, row.id = pending.eventRowId ∧ row.runId = some pending.runId ∧ row.repliedAt = none ∧
      row.replyAttempts = pending.attempts ∧ ∃ state, states pending.runId = some state ∧ state.isTerminal := by
  obtain ⟨row, hrow, hp, hf⟩ := mem_scan h
  obtain ⟨_, hrun, hf⟩ := Option.bind_eq_some_iff.mp hf
  obtain ⟨state, hstate, hf⟩ := Option.bind_eq_some_iff.mp hf
  cases hf
  obtain ⟨hterminal, hopen⟩ := Bool.and_eq_true_iff.mp hp
  refine ⟨row, hrow, rfl, hrun, Option.isNone_iff_eq_none.mp hopen, rfl, state, hstate, ?_⟩
  simpa [ofRuns, hrun, hstate] using hterminal

theorem look_fits {stage : Stage} {candidate : Candidate} (h : candidate ∈ (stage.look settings states rows now).1) :
    ∃ row ∈ rows, row.id = candidate.row ∧ candidate.Fits row := by
  cases stage with
  | cards =>
    obtain ⟨_, hmem, rfl⟩ := List.mem_map.mp h
    obtain ⟨row, hrow, hid, hrun, -⟩ := mem_pendingCardOpens hmem
    exact ⟨row, hrow, hid, hrun⟩
  | refusals =>
    obtain ⟨_, hmem, rfl⟩ := List.mem_map.mp h
    exact mem_pendingRefusals hmem
  | receipts =>
    obtain ⟨_, hmem, rfl⟩ := List.mem_map.mp h
    exact mem_pendingCommandReceipts hmem
  | questions =>
    obtain ⟨_, hmem, rfl⟩ := List.mem_map.mp h
    exact mem_pendingHeldQuestions hmem
  | notices =>
    obtain ⟨_, hmem, rfl⟩ := List.mem_map.mp h
    obtain ⟨row, hrow, hid, hrun, -⟩ := mem_pendingBlockedNotices hmem
    exact ⟨row, hrow, hid, hrun⟩
  | progress =>
    obtain ⟨_, hmem, rfl⟩ := List.mem_map.mp h
    obtain ⟨row, hrow, hid, hrun, -⟩ := mem_pendingProgressNotices hmem
    exact ⟨row, hrow, hid, hrun⟩
  | replies =>
    obtain ⟨_, hmem, rfl⟩ := List.mem_map.mp h
    obtain ⟨row, hrow, hid, hrun, -⟩ := mem_pendingReplies hmem
    exact ⟨row, hrow, hid, hrun⟩
  | done => cases h

end Scans

section Operations
variable {settings : Settings} {w w' : World}

theorem arrive_some {row : ChannelEventRow} (h : w.arrive row = some w') :
    w.unclaimed row ∧ w' = { w with rows := w.rows ++ [⟨row, none⟩] } := by
  unfold World.arrive at h
  split at h
  · next hnew => exact ⟨hnew, (Option.some.inj h).symm⟩
  · cases h

theorem arriveHeld_some {id bindingId : Nat} {event : ChannelEvent} {receivedAt : Int}
    (h : arriveHeld settings w id bindingId event receivedAt = some w') :
    event.command settings.lower = none ∧
      w.arrive (recordHeld event (claimDelivery id bindingId event.channelEventId receivedAt)) = some w' := by
  unfold arriveHeld at h
  split at h
  · cases h
  · next hcommand => exact ⟨Option.not_isSome_iff_eq_none.mp hcommand, h⟩

theorem arriveCompaction_some {id bindingId : Nat} {event : ChannelEvent} {receivedAt : Int} {run : Nat}
    (h : arriveCompaction settings w id bindingId event receivedAt run = some w') :
    let row := { claimDelivery id bindingId event.channelEventId receivedAt with runId := some run }
    run ∉ w.drawn ∧ w.unclaimed row ∧ w' = { w with
      rows := w.rows ++ [⟨row, none⟩]
      runs := w.runs ++ [{ id := run, event, parts := [] }]
      drawn := run :: w.drawn } := by
  unfold arriveCompaction at h
  split at h
  · cases h
  · next hrun =>
    obtain ⟨_, hw₁, rfl⟩ := Option.map_eq_some_iff.mp h
    obtain ⟨hnew, rfl⟩ := arrive_some hw₁
    simp only [Bool.or_eq_true, decide_eq_true_eq, not_or] at hrun
    exact ⟨hrun.1, hnew, rfl⟩

theorem dropHeld_some {n bindingId : Nat} {sender : String} {seen : List Nat} {now : Int}
    (h : dropHeld w n bindingId sender seen now = some w') :
    let dropped := (w.view (.delivery n)).filter fun row => row.waitingOf bindingId sender && seen.contains row.id
    let edits := dropped.map fun row => (row.id, Edit.dropHeld now)
    World.canWriteAll (.delivery n) edits w.rows ∧
      w' = { w with rows := World.writeAll (.delivery n) edits w.rows } := by
  unfold dropHeld at h
  dsimp only at h
  split at h
  · next hfree => exact ⟨hfree, (Option.some.inj h).symm⟩
  · cases h

theorem beginGather_some {n : Nat} {now : Int} {chosen : List (Nat × String)}
    (h : beginGather settings w n now chosen = some w') :
    w.gathers n = none ∧ w' = { w with gathers := Function.update w.gathers n (some { left := chosen }) } := by
  unfold beginGather at h
  dsimp only at h
  split at h
  · next hready =>
    simp only [Bool.and_eq_true, Option.isNone_iff_eq_none] at hready
    exact ⟨hready.1.1, (Option.some.inj h).symm⟩
  · cases h

structure GathersNext (settings : Settings) (w : World) (n : Nat) (skipped : List Nat) (outcome : GatherOutcome) (now : Int)
    (w' : World) (pass : GatherPass) (bindingId : Nat) (sender : String) (gathered : Gathered) : Prop where
  opened : w.gathers n = some pass
  next : pass.left.head? = some (bindingId, sender)
  gather : gather settings (takeBatch w (.gather n) bindingId sender skipped)
    ((w.view (.gather n)).filter (ChannelEventRow.waitingOf bindingId sender)) outcome now = some gathered
  free : World.canWriteAll (.gather n) gathered.edits w.rows
  fresh : freshRun w gathered.started
  after : w' = { w with
    rows := World.writeAll (.gather n) gathered.edits w.rows
    gathers := Function.update w.gathers n
      (some { left := pass.left.tail, started := pass.started ++ gathered.started.toList })
    drawn := gathered.started.toList.map StartedRun.id ++ w.drawn }

theorem gatherNext_some {n : Nat} {skipped : List Nat} {outcome : GatherOutcome} {now : Int}
    (h : gatherNext settings w n skipped outcome now = some w') :
    ∃ pass bindingId sender gathered, GathersNext settings w n skipped outcome now w' pass bindingId sender gathered := by
  obtain ⟨pass, hpass, h⟩ := Option.bind_eq_some_iff.mp h
  obtain ⟨⟨bindingId, sender⟩, hnext, h⟩ := Option.bind_eq_some_iff.mp h
  obtain ⟨gathered, hgather, h⟩ := Option.bind_eq_some_iff.mp h
  split at h
  · next hfree =>
    obtain ⟨hfree, hfresh⟩ := Bool.and_eq_true_iff.mp hfree
    exact ⟨pass, bindingId, sender, gathered, hpass, hnext, hgather, hfree, hfresh, (Option.some.inj h).symm⟩
  · cases h

theorem endGather_some {n : Nat} {commits : Bool} (h : endGather w n commits = some w') :
    ∃ pass, w.gathers n = some pass ∧
      ((commits ∧ w' = { w.commit (.gather n) with
          gathers := Function.update w.gathers n none, runs := w.runs ++ pass.started }) ∨
        (commits = false ∧ w' = { w.rollback (.gather n) with gathers := Function.update w.gathers n none })) := by
  obtain ⟨pass, hpass, h⟩ := Option.bind_eq_some_iff.mp h
  refine ⟨pass, hpass, ?_⟩
  cases commits with
  | false => exact .inr ⟨rfl, (Option.some.inj h).symm⟩
  | true =>
    simp only [if_true] at h
    split at h
    · exact .inl ⟨rfl, (Option.some.inj h).symm⟩
    · cases h

theorem look_some {now : Int} (h : look settings w now = some w') :
    ∃ pass, w.dispatch = some pass ∧ pass.left = [] ∧ pass.writing = [] ∧ pass.stage ≠ .done ∧
      w' = { w with dispatch := some { pass with
        left := (pass.stage.look settings w.runStates (w.view .dispatch) now).1
        stage := (pass.stage.look settings w.runStates (w.view .dispatch) now).2 } } := by
  obtain ⟨pass, hpass, h⟩ := Option.bind_eq_some_iff.mp h
  split at h
  · next hidle =>
    simp only [Bool.and_eq_true, List.isEmpty_iff, decide_eq_true_eq] at hidle
    exact ⟨pass, hpass, hidle.1.1, hidle.1.2, hidle.2, (Option.some.inj h).symm⟩
  · cases h

structure Handles (settings : Settings) (w : World) (answer : Answer) (w' : World) (pass : DispatchPass)
    (candidate : Candidate) (rest : List Candidate) : Prop where
  opened : w.dispatch = some pass
  first : pass.left = candidate :: rest
  idle : pass.writing = []
  after : w' = { w with
    dispatch := some { pass with
      left := (candidate.handle settings (w.view .dispatch) answer).next.toList ++ rest
      writing := (candidate.handle settings (w.view .dispatch) answer).writes.map fun edit => (candidate.row, edit)
      attempted := pass.attempted ++
        if (candidate.handle settings (w.view .dispatch) answer).attempted then [candidate.row] else [] }
    chat := w.chat ++ (candidate.handle settings (w.view .dispatch) answer).sent.map fun what => { row := candidate.row, what }
    attempts := w.attempts ++
      if (candidate.handle settings (w.view .dispatch) answer).attempted then [candidate.row] else [] }

theorem handle_some {answer : Answer} (h : handle settings w answer = some w') :
    ∃ pass candidate rest, Handles settings w answer w' pass candidate rest := by
  obtain ⟨pass, hpass, h⟩ := Option.bind_eq_some_iff.mp h
  obtain ⟨candidate, hleft, h⟩ := Option.bind_eq_some_iff.mp h
  obtain ⟨rest, hleft⟩ := List.head?_eq_some_iff.mp hleft
  split at h
  · next hwriting =>
    refine ⟨pass, candidate, rest, hpass, hleft, List.isEmpty_iff.mp hwriting, ?_⟩
    rw [hleft] at h
    exact (Option.some.inj h).symm
  · cases h

theorem write_some (h : write w = some w') :
    ∃ pass id edit rest, w.dispatch = some pass ∧ pass.writing = (id, edit) :: rest ∧
      canWrite ChannelEventRow.id .dispatch id w.rows ∧
      w' = { w with
        rows := writeRow ChannelEventRow.id .dispatch id edit.apply w.rows
        dispatch := some { pass with writing := rest } } := by
  obtain ⟨pass, hpass, h⟩ := Option.bind_eq_some_iff.mp h
  obtain ⟨⟨id, edit⟩, hwriting, h⟩ := Option.bind_eq_some_iff.mp h
  obtain ⟨rest, hwriting⟩ := List.head?_eq_some_iff.mp hwriting
  dsimp only at h
  split at h
  · next hfree =>
    refine ⟨pass, id, edit, rest, hpass, hwriting, hfree, ?_⟩
    rw [hwriting] at h
    exact (Option.some.inj h).symm
  · cases h

theorem endDispatch_some (h : endDispatch w = some w') :
    ∃ pass, w.dispatch = some pass ∧ pass.left = [] ∧ pass.writing = [] ∧ pass.stage = .done ∧
      w' = { w.commit .dispatch with dispatch := none } := by
  obtain ⟨pass, hpass, h⟩ := Option.bind_eq_some_iff.mp h
  split at h
  · next hdone =>
    simp only [Bool.and_eq_true, List.isEmpty_iff, decide_eq_true_eq] at hdone
    exact ⟨pass, hpass, hdone.1.1, hdone.1.2, hdone.2, (Option.some.inj h).symm⟩
  · cases h

theorem crashDispatch_some (h : crashDispatch w = some w') :
    ∃ pass, w.dispatch = some pass ∧ w' = { w.rollback .dispatch with dispatch := none } := by
  unfold crashDispatch at h
  split at h
  · next hopen =>
    obtain ⟨pass, hpass⟩ := Option.isSome_iff_exists.mp hopen
    exact ⟨pass, hpass, (Option.some.inj h).symm⟩
  · cases h

end Operations
end TinyHermes.Channels
