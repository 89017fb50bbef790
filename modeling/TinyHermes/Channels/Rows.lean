import TinyHermes.Channels.Passes

/-! What a step of the system can do to one row, and what every row of a reachable state is. -/
namespace TinyHermes.Channels
open Lib

section Gathers
variable {settings : Settings} {batch others : List ChannelEventRow} {outcome : GatherOutcome} {now : Int}
  {gathered : Gathered}

def ids (rows : List ChannelEventRow) : List Nat := rows.map ChannelEventRow.id

def Commands (settings : Settings) (batch : List ChannelEventRow) : Prop :=
  ∃ events event, batch.mapM (heldEventOf settings) = .ok events ∧ together events = some event ∧
    (event.command settings.lower).isSome

inductive RowGathered (settings : Settings) (batch others : List ChannelEventRow) (started : Option StartedRun) (now : Int) :
    Nat → List Edit → Prop where
  | untouched {k : Nat} (hbatch : started.isSome → k ∉ ids batch) : RowGathered settings batch others started now k []
  | locked {row} (hrow : row ∈ batch) (hnone : started = none) : RowGathered settings batch others started now row.id [.lock]
  | refused {row} {note : String} (hrow : row ∈ batch) (hnone : started = none)
      (hnote : note ∈ ["binding_disabled", "erased"] ∨ Commands settings batch) :
      RowGathered settings batch others started now row.id [.markTaken now, .settleIfOpen note now]
  | part {row run} (hrow : row ∈ batch.dropLast) (hrun : started = some run) :
      RowGathered settings batch others started now row.id [.markTaken now, .settleIfOpen "gathered" now]
  | carrier {row run} {notices : List Edit} (hrow : batch.getLast? = some row) (hrun : started = some run)
      (hnotices : ∀ edit ∈ notices, ∃ notice, edit = .recordBlockedNotice notice) :
      RowGathered settings batch others started now row.id (.markTaken now :: .attachRun run.id :: notices)
  | dropped {row} (hrow : row ∈ others) (hbatch : row.id ∉ ids batch) (hnone : started = none) :
      RowGathered settings batch others started now row.id [.dropHeld now]

theorem editsOf_rows {row : ChannelEventRow} {rows : List ChannelEventRow} {e : ChannelEventRow → Edit} (hrow : row ∈ rows)
    (hdistinct : (ids rows).Nodup) : editsOf row.id (rows.map fun row => (row.id, e row)) = [e row] :=
  editsOf_each ChannelEventRow.id hrow hdistinct

theorem editsOf_others {k : Nat} {rows : List ChannelEventRow} {e : ChannelEventRow → Edit} (hk : k ∉ ids rows) :
    editsOf k (rows.map fun row => (row.id, e row)) = [] :=
  editsOf_none ChannelEventRow.id hk

theorem settled_rows {note : String} {dropped : List (Nat × Edit)} (hdistinct : (ids batch).Nodup)
    (hnote : note ∈ ["binding_disabled", "erased"] ∨ Commands settings batch)
    (hdropped : ∀ k, (k ∈ ids batch → editsOf k dropped = []) ∧
      (editsOf k dropped = [] ∨ ∃ row ∈ others, row.id = k ∧ editsOf k dropped = [.dropHeld now])) (k : Nat) :
    RowGathered settings batch others none now k (editsOf k (markAll batch now ++ dropped ++ settleAll batch note now)) := by
  rw [editsOf_append, editsOf_append]
  by_cases hk : k ∈ ids batch
  · obtain ⟨row, hrow, rfl⟩ := List.mem_map.mp hk
    rw [markAll, settleAll, editsOf_rows hrow hdistinct, editsOf_rows hrow hdistinct, (hdropped row.id).1 hk]
    exact .refused hrow rfl hnote
  · rw [markAll, settleAll, editsOf_others hk, editsOf_others hk, List.nil_append, List.append_nil]
    rcases (hdropped k).2 with hnone | ⟨_, hrow, rfl, hdrop⟩
    · rw [hnone]
      exact .untouched fun hsome => absurd hsome Bool.false_ne_true
    · rw [hdrop]
      exact .dropped hrow hk rfl

theorem editsOf_dropOthers (hothers : (ids others).Nodup) (k : Nat) :
    (k ∈ ids batch → editsOf k (dropOthers batch others now) = []) ∧
      (editsOf k (dropOthers batch others now) = [] ∨
        ∃ row ∈ others, row.id = k ∧ editsOf k (dropOthers batch others now) = [.dropHeld now]) := by
  let kept := others.filter fun row => !(batch.map ChannelEventRow.id).contains row.id
  have hkept : (ids kept).Nodup := hothers.sublist (List.filter_sublist.map _)
  by_cases hk : k ∈ ids kept
  · obtain ⟨row, hrow, rfl⟩ := List.mem_map.mp hk
    obtain ⟨hmem, hout⟩ := List.mem_filter.mp hrow
    refine ⟨fun hbatch => absurd hbatch (by simpa [ids] using hout), .inr ⟨row, hmem, rfl, ?_⟩⟩
    exact editsOf_rows hrow hkept
  · have hnone : editsOf k (dropOthers batch others now) = [] := editsOf_others hk
    exact ⟨fun _ => hnone, .inl hnone⟩

theorem carried_rows (run : StartedRun) {blocked : Option BlockedNotice} (hdistinct : (ids batch).Nodup) (k : Nat) :
    RowGathered settings batch others (some run) now k (editsOf k (markAll batch now ++ carry batch run.id blocked now)) := by
  rw [editsOf_append]
  by_cases hk : k ∈ ids batch
  · obtain ⟨row, hrow, rfl⟩ := List.mem_map.mp hk
    rw [markAll, editsOf_rows hrow hdistinct]
    obtain ⟨before, last, rfl⟩ : ∃ before last, batch = before ++ [last] := by
      rcases List.eq_nil_or_concat batch with rfl | ⟨before, last, h⟩
      · cases hrow
      · exact ⟨before, last, h.trans List.concat_eq_append⟩
    have hsplit := hdistinct
    rw [ids, List.map_append] at hsplit
    have hlast : last.id ∉ ids before := fun h =>
      (List.nodup_append.mp hsplit).2.2 last.id h last.id (by simp) rfl
    simp only [carry, List.getLast?_append, List.getLast?_singleton, Option.some_or, Option.toList_some, List.dropLast_concat,
      List.map_cons, List.map_nil, List.flatMap_cons, List.flatMap_nil, List.append_nil]
    rw [editsOf_append, editsOf_append]
    rcases List.mem_append.mp hrow with hbefore | hlastrow
    · have hne : last.id ≠ row.id := fun h => hlast (h ▸ List.mem_map_of_mem hbefore)
      have hattach : editsOf row.id [(last.id, Edit.attachRun run.id)] = [] := by
        simp [editsOf, hne]
      have hnotice : editsOf row.id (blocked.toList.map fun notice => (last.id, Edit.recordBlockedNotice notice)) = [] := by
        cases blocked <;> simp [editsOf, hne]
      rw [hattach, hnotice, settleAll, editsOf_rows hbefore (List.nodup_append.mp hsplit).1]
      exact .part (by rwa [List.dropLast_concat]) rfl
    · obtain rfl := List.mem_singleton.mp hlastrow
      have hattach : editsOf row.id [(row.id, Edit.attachRun run.id)] = [.attachRun run.id] := by simp [editsOf]
      have hnotice : editsOf row.id (blocked.toList.map fun notice => (row.id, Edit.recordBlockedNotice notice)) =
          blocked.toList.map Edit.recordBlockedNotice := by
        cases blocked <;> simp [editsOf]
      rw [hattach, hnotice, settleAll, editsOf_others hlast]
      refine .carrier (by simp) rfl fun edit hedit => ?_
      obtain ⟨notice, -, rfl⟩ := List.mem_map.mp hedit
      exact ⟨notice, rfl⟩
  · have hmark : editsOf k (markAll batch now) = [] := editsOf_others hk
    have hcarry : editsOf k (carry batch run.id blocked now) = [] := by
      apply List.filterMap_eq_nil_iff.mpr
      intro _ hedit
      apply if_neg
      rintro rfl
      apply hk
      have hcarrier {row : ChannelEventRow} (h : row ∈ batch.getLast?.toList) : row ∈ batch :=
        List.mem_of_mem_getLast? (Option.mem_toList.mp h)
      rcases List.mem_append.mp hedit with hedit | hedit
      · rcases List.mem_append.mp hedit with hedit | hedit
        · obtain ⟨row, hrow, rfl⟩ := List.mem_map.mp hedit
          exact List.mem_map_of_mem (hcarrier hrow)
        · obtain ⟨row, hrow, rfl⟩ := List.mem_map.mp hedit
          exact List.mem_map_of_mem (List.mem_of_mem_dropLast hrow)
      · obtain ⟨_, hrow, hedit⟩ := List.mem_flatMap.mp hedit
        obtain ⟨_, -, rfl⟩ := List.mem_map.mp hedit
        exact List.mem_map_of_mem (hcarrier hrow)
    rw [hmark, hcarry]
    exact .untouched fun _ => hk

structure Starts (settings : Settings) (batch : List ChannelEventRow) (outcome : GatherOutcome) (run : StartedRun) :
    Prop where
  outcome : ∃ blocked, outcome = .run run.id blocked
  parts : run.parts = batch
  state : run.state = .queued
  input : ∃ events, batch.mapM (heldEventOf settings) = .ok events ∧ together events = some run.event

theorem gatherTaken_cases {event : ChannelEvent}
    (h : gatherTaken settings batch others event outcome now = some gathered) (hdistinct : (ids batch).Nodup)
    (hothers : (ids others).Nodup) (hcommands : (event.command settings.lower).isSome → Commands settings batch) :
    (∀ k, RowGathered settings batch others gathered.started now k (editsOf k gathered.edits)) ∧
      ∀ run, gathered.started = some run → (∃ blocked, outcome = .run run.id blocked) ∧
        run.parts = batch ∧ run.state = .queued ∧ run.event = event := by
  have hdrop (k : Nat) : (k ∈ ids batch → editsOf k ([] : List (Nat × Edit)) = []) ∧
      (editsOf k ([] : List (Nat × Edit)) = [] ∨
        ∃ row ∈ others, row.id = k ∧ editsOf k ([] : List (Nat × Edit)) = [.dropHeld now]) := ⟨fun _ => rfl, .inl rfl⟩
  have hsettled {note : String} (hnote : note ∈ ["binding_disabled", "erased"]) (k : Nat) :
      RowGathered settings batch others none now k (editsOf k (markAll batch now ++ settleAll batch note now)) := by
    rw [← List.append_nil (markAll batch now)]
    exact settled_rows hdistinct (.inl hnote) hdrop k
  cases outcome with
  | raised =>
    simp only [gatherTaken, Option.some.injEq] at h
    subst h
    exact ⟨fun _ => .untouched fun hsome => absurd hsome Bool.false_ne_true, fun _ hsome => absurd hsome.symm (Option.some_ne_none _)⟩
  | bindingDisabled =>
    simp only [gatherTaken, Option.some.injEq] at h
    subst h
    exact ⟨hsettled (by simp), fun _ hsome => absurd hsome.symm (Option.some_ne_none _)⟩
  | erased =>
    simp only [gatherTaken, Option.some.injEq] at h
    subst h
    exact ⟨hsettled (by simp), fun _ hsome => absurd hsome.symm (Option.some_ne_none _)⟩
  | noRun =>
    cases hcommand : event.command settings.lower with
    | none => simp [gatherTaken, hcommand] at h
    | some command =>
      simp only [gatherTaken, hcommand, Option.some.injEq] at h
      subst h
      have hcommand : Commands settings batch := hcommands (by rw [hcommand]; rfl)
      refine ⟨settled_rows hdistinct (.inr hcommand) fun k => ?_, fun _ hsome => absurd hsome.symm (Option.some_ne_none _)⟩
      by_cases hnew : command.name = .new
      · rw [if_pos hnew]
        exact editsOf_dropOthers hothers k
      · rw [if_neg hnew]
        exact hdrop k
  | run id blocked =>
    cases hcommand : event.command settings.lower with
    | none =>
      simp only [gatherTaken, hcommand, Option.some.injEq] at h
      subst h
      refine ⟨carried_rows { id, event, parts := batch } hdistinct, fun run hrun => ?_⟩
      cases hrun
      exact ⟨⟨_, rfl⟩, rfl, rfl, rfl⟩
    | some command =>
      obtain ⟨name, _⟩ := command
      cases blocked with
      | some => cases name <;> simp [gatherTaken, hcommand] at h
      | none =>
        cases name with
        | compact =>
          simp only [gatherTaken, hcommand, Option.some.injEq] at h
          subst h
          refine ⟨carried_rows { id, event, parts := batch } hdistinct, fun run hrun => ?_⟩
          cases hrun
          exact ⟨⟨_, rfl⟩, rfl, rfl, rfl⟩
        | _ => simp [gatherTaken, hcommand] at h

theorem gather_cases (h : gather settings batch others outcome now = some gathered) (hdistinct : (ids batch).Nodup)
    (hothers : (ids others).Nodup) :
    (∀ k, RowGathered settings batch others gathered.started now k (editsOf k gathered.edits)) ∧
      ∀ run, gathered.started = some run → Starts settings batch outcome run := by
  have hnone {started : Option StartedRun} (hstarted : started = none) (run : StartedRun) :
      started = some run → Starts settings batch outcome run := fun hsome =>
    absurd (hsome.symm.trans hstarted) (Option.some_ne_none _)
  cases hread : batch.mapM (heldEventOf settings) with
  | error =>
    simp only [gather, hread, Option.some.injEq] at h
    subst h
    exact ⟨fun _ => .untouched fun hsome => absurd hsome Bool.false_ne_true, hnone rfl⟩
  | ok events =>
    simp only [gather, hread] at h
    split at h
    · cases h
      refine ⟨fun k => ?_, hnone rfl⟩
      by_cases hk : k ∈ ids batch
      · obtain ⟨_, hrow, rfl⟩ := List.mem_map.mp hk
        rw [editsOf_rows hrow hdistinct]
        exact .locked hrow rfl
      · rw [editsOf_others hk]
        exact .untouched fun hsome => absurd hsome Bool.false_ne_true
    · obtain ⟨event, htogether, htaken⟩ := Option.bind_eq_some_iff.mp h
      obtain ⟨hrows, hstarted⟩ := gatherTaken_cases htaken hdistinct hothers fun hcommand =>
        ⟨events, event, hread, htogether, hcommand⟩
      refine ⟨hrows, fun run hrun => ?_⟩
      obtain ⟨houtcome, hparts, hstate, hevent⟩ := hstarted run hrun
      exact ⟨houtcome, hparts, hstate, events, hread, hevent ▸ htogether⟩

end Gathers
end TinyHermes.Channels
