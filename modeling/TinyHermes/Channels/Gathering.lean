import TinyHermes.Channels.Fates

/-! Gathering loses and duplicates nothing: a held message waits, was let go of, was refused, or is in one Run, which has what one
sender said in its order. -/
namespace TinyHermes.Channels
open Lib

section Messages
variable {settings : Settings} {log more : List (Commit World Input Unit)} {row after : ChannelEventRow} {event : ChannelEvent}

structure HeldAs (settings : Settings) (log : List (Commit World Input Unit)) (row : ChannelEventRow) (event : ChannelEvent) :
    Prop where
  arrived : ∃ commit ∈ log, commit.input = .arriveHeld row.id row.bindingId event row.receivedAt
  delivery : row.SameDelivery (recordHeld event (claimDelivery row.id row.bindingId event.channelEventId row.receivedAt))
  command : event.command settings.lower = none
  short : event.externalUserId.toList.length ≤ 120

theorem HeldAs.mono (h : HeldAs settings log row event) (hmore : log ⊆ more) : HeldAs settings more row event := by
  obtain ⟨commit, hcommit, hinput⟩ := h.arrived
  exact ⟨⟨commit, hmore hcommit, hinput⟩, h.delivery, h.command, h.short⟩

theorem HeldAs.same (h : HeldAs settings log row event) (hsame : after.SameDelivery row) : HeldAs settings log after event := by
  refine ⟨?_, ?_, h.command, h.short⟩
  · rw [hsame.id, hsame.bindingId, hsame.receivedAt]
    exact h.arrived
  · rw [hsame.id, hsame.bindingId, hsame.receivedAt]
    exact hsame.trans h.delivery

theorem recordHeld_reads (settings : Settings) (hshort : event.externalUserId.toList.length ≤ 120)
    (hdelivery : row.SameDelivery (recordHeld event (claimDelivery row.id row.bindingId event.channelEventId row.receivedAt))) :
    heldEventOf settings row = .ok event := by
  rw [heldEventOf, hdelivery.heldMessage, hdelivery.channelEventId, hdelivery.heldOpenId]
  have hsender : clip 120 event.externalUserId = event.externalUserId := clip_of_le hshort
  simp only [recordHeld, claimDelivery, hsender, Option.getD_some]
  exact heldEvent_heldDocument settings.shown event

theorem HeldAs.reads (h : HeldAs settings log row event) : heldEventOf settings row = .ok event :=
  recordHeld_reads settings h.short h.delivery

theorem HeldAs.sender (h : HeldAs settings log row event) : row.heldOpenId = some event.externalUserId := by
  rw [h.delivery.heldOpenId, recordHeld, clip_of_le h.short]

theorem heldAs_read {batch : List ChannelEventRow} {events : List ChannelEvent}
    (hbatch : ∀ row ∈ batch, ∃ event, HeldAs settings log row event) (hread : batch.mapM (heldEventOf settings) = .ok events) :
    List.Forall₂ (HeldAs settings log) batch events := by
  induction batch generalizing events with
  | nil =>
    obtain rfl : [] = events := Except.ok.inj hread
    exact .nil
  | cons row batch ih =>
    obtain ⟨event, hevent⟩ := hbatch row (List.mem_cons_self ..)
    rw [List.mapM_cons, hevent.reads] at hread
    cases hrest : batch.mapM (heldEventOf settings) with
    | error reason =>
      rw [hrest] at hread
      have habsurd : Except.error reason = Except.ok events := hread
      cases habsurd
    | ok rest =>
      rw [hrest] at hread
      obtain rfl : event :: rest = events := Except.ok.inj hread
      exact .cons hevent (ih (fun row hrow => hbatch row (List.mem_cons_of_mem _ hrow)) hrest)

theorem heldAs_mem {batch : List ChannelEventRow} {events : List ChannelEvent}
    (h : List.Forall₂ (HeldAs settings log) batch events) (hevent : event ∈ events) : ∃ row ∈ batch, HeldAs settings log row event := by
  induction h with
  | nil => cases hevent
  | cons hfirst _ ih =>
    rcases List.mem_cons.mp hevent with rfl | hmem
    · exact ⟨_, List.mem_cons_self .., hfirst⟩
    · obtain ⟨row, hrow, hheld⟩ := ih hmem
      exact ⟨row, List.mem_cons_of_mem _ hrow, hheld⟩

theorem not_commands {batch : List ChannelEventRow} (hbatch : ∀ row ∈ batch, ∃ event, HeldAs settings log row event) :
    ¬Commands settings batch := by
  rintro ⟨_, event, hread, htogether, hcommand⟩
  have hnone : event.command settings.lower = none := together_command settings.lower htogether fun message hmessage => by
    obtain ⟨_, -, hheld⟩ := heldAs_mem (heldAs_read hbatch hread) hmessage
    exact hheld.command
  rw [hnone] at hcommand
  cases hcommand

end Messages

section Order

instance : Std.Total fun a b : ChannelEventRow => earlier a b = true := by
  refine ⟨fun a b => ?_⟩
  simp only [earlier, Bool.or_eq_true, Bool.and_eq_true, decide_eq_true_eq]
  omega

instance : IsTrans ChannelEventRow fun a b => earlier a b = true := by
  refine ⟨fun a b c hab hbc => ?_⟩
  simp only [earlier, Bool.or_eq_true, Bool.and_eq_true, decide_eq_true_eq] at *
  omega

theorem takeBatch_ordered (w : World) (t : Tx) (bindingId : Nat) (sender : String) (skipped : List Nat) :
    (takeBatch w t bindingId sender skipped).Pairwise fun a b => earlier a b :=
  List.pairwise_insertionSort (fun a b => earlier a b = true) _

end Order

section Runs
variable {settings : Settings} {log more : List (Commit World Input Unit)} {w w' : World} {input : Input} {u : Unit}

/-- A Run is started from messages of one sender in the order they came, as their texts, images and files, and not as a
command. -/
structure JoinedFrom (settings : Settings) (log : List (Commit World Input Unit)) (run : StartedRun) : Prop where
  once : (ids run.parts).Nodup
  order : run.parts.Pairwise fun a b => earlier a b
  input : ∃ bindingId sender events, List.Forall₂ (HeldAs settings log) run.parts events ∧
    (∀ row ∈ run.parts, row.bindingId = bindingId) ∧ (∀ event ∈ events, event.externalUserId = sender) ∧
    run.event.text = joinedText events ∧ run.event.images = events.flatMap ChannelEvent.images ∧
    run.event.files = events.flatMap ChannelEvent.files
  command : run.event.command settings.lower = none

theorem JoinedFrom.mono {run : StartedRun} (h : JoinedFrom settings log run) (hmore : log ⊆ more) :
    JoinedFrom settings more run := by
  obtain ⟨bindingId, sender, events, hevents, hrest⟩ := h.input
  exact ⟨h.once, h.order, ⟨bindingId, sender, events, hevents.imp fun _ _ hheld => hheld.mono hmore, hrest⟩, h.command⟩

theorem GathersNext.joined {n : Nat} {skipped : List Nat} {outcome : GatherOutcome} {now : Int} {pass : GatherPass}
    {bindingId : Nat} {sender : String} {gathered : Gathered} {run : StartedRun} (hw : w.Sound)
    (h : GathersNext settings w n skipped outcome now w' pass bindingId sender gathered) (hrun : gathered.started = some run)
    (hbatch : ∀ row ∈ takeBatch w (.gather n) bindingId sender skipped, ∃ event, HeldAs settings log row event) :
    JoinedFrom settings log run := by
  obtain ⟨-, hstarts⟩ := gather_cases h.gather (hw.takeBatch_nodup ..) (hw.view_nodup ..)
  obtain ⟨-, hparts, -, events, hread, htogether⟩ := hstarts run hrun
  have hevents := heldAs_read hbatch hread
  have hcommand : run.event.command settings.lower = none := together_command settings.lower htogether fun message hmessage => by
    obtain ⟨row, -, hheld⟩ := heldAs_mem hevents hmessage
    exact hheld.command
  have hwaiting {row : ChannelEventRow} (hrow : row ∈ takeBatch w (.gather n) bindingId sender skipped) :
      row.bindingId = bindingId ∧ row.heldOpenId = some (clip 120 sender) := by
    obtain ⟨-, -, -, -, hof⟩ := mem_takeBatch hrow
    simp only [ChannelEventRow.waitingOf, Bool.and_eq_true, decide_eq_true_eq] at hof
    exact hof.1
  obtain ⟨_, -, hjoined⟩ := Option.map_eq_some_iff.mp htogether
  refine ⟨?_, ?_, ⟨bindingId, clip 120 sender, events, ?_, ?_, fun event hevent => ?_, ?_⟩, hcommand⟩
  · rw [hparts]
    exact hw.takeBatch_nodup ..
  · rw [hparts]
    exact takeBatch_ordered ..
  · rw [hparts]
    exact hevents
  · rw [hparts]
    exact fun row hrow => (hwaiting hrow).1
  · obtain ⟨_, hrow, hheld⟩ := heldAs_mem hevents hevent
    exact Option.some.inj (hheld.sender.symm.trans (hwaiting hrow).2)
  · rw [← hjoined]
    exact ⟨rfl, rfl, rfl⟩

/-- A Run there is has been there, was started by a `/compact` on arrival, or comes from a gather that commits; and a gather
has started what it had started, and what it starts now. -/
theorem step_started (h : Step settings w input u w') :
    (∀ run ∈ w'.runs, run.parts = [] ∨ (∃ old ∈ w.runs, run.parts = old.parts ∧ run.event = old.event) ∨
      ∃ n pass, w.gathers n = some pass ∧ run ∈ pass.started) ∧
    ∀ n pass, w'.gathers n = some pass → ∀ run ∈ pass.started, (∃ before, w.gathers n = some before ∧ run ∈ before.started) ∨
      ∃ skipped outcome now before bindingId sender gathered,
        GathersNext settings w n skipped outcome now w' before bindingId sender gathered ∧ gathered.started = some run := by
  have hruns {runs : List StartedRun} (hsame : runs = w.runs) : ∀ run ∈ runs, run.parts = [] ∨
      (∃ old ∈ w.runs, run.parts = old.parts ∧ run.event = old.event) ∨ ∃ n pass, w.gathers n = some pass ∧ run ∈ pass.started :=
    fun run hrun => .inr (.inl ⟨run, hsame ▸ hrun, rfl, rfl⟩)
  have hgathers (hsame : w'.gathers = w.gathers) : ∀ n pass, w'.gathers n = some pass → ∀ run ∈ pass.started,
      (∃ before, w.gathers n = some before ∧ run ∈ before.started) ∨
        ∃ skipped outcome now before bindingId sender gathered,
          GathersNext settings w n skipped outcome now w' before bindingId sender gathered ∧ gathered.started = some run :=
    fun n pass hpass run hrun => .inl ⟨pass, hsame ▸ hpass, hrun⟩
  cases input with
  | arriveHeld =>
    obtain ⟨-, rfl⟩ := arrive_some (arriveHeld_some h).2
    exact ⟨hruns rfl, hgathers rfl⟩
  | arriveUnsupported =>
    obtain ⟨-, rfl⟩ := arrive_some h
    exact ⟨hruns rfl, hgathers rfl⟩
  | arriveReceipt =>
    obtain ⟨-, rfl⟩ := arrive_some h
    exact ⟨hruns rfl, hgathers rfl⟩
  | arriveCompaction id bindingId event receivedAt run =>
    obtain ⟨-, -, rfl⟩ := arriveCompaction_some h
    refine ⟨fun run hrun => ?_, hgathers rfl⟩
    rcases List.mem_append.mp hrun with hrun | hrun
    · exact hruns rfl run hrun
    · obtain rfl := List.mem_singleton.mp hrun
      exact .inl rfl
  | dropHeld =>
    obtain ⟨-, rfl⟩ := dropHeld_some h
    exact ⟨hruns rfl, hgathers rfl⟩
  | endDelivery n commits =>
    cases h
    cases commits <;> exact ⟨hruns rfl, hgathers rfl⟩
  | beginGather n =>
    obtain ⟨-, rfl⟩ := beginGather_some h
    refine ⟨hruns rfl, fun m pass hpass run hrun => ?_⟩
    by_cases hm : m = n
    · subst hm
      dsimp only at hpass
      rw [Function.update_self] at hpass
      cases hpass
      cases hrun
    · exact .inl ⟨pass, (Function.update_of_ne hm _ _).symm.trans hpass, hrun⟩
  | gatherNext n skipped outcome now =>
    obtain ⟨before, bindingId, sender, gathered, hnext⟩ := gatherNext_some h
    refine ⟨hruns (by rw [hnext.after]), fun m pass hpass run hrun => ?_⟩
    by_cases hm : m = n
    · subst hm
      rw [hnext.after] at hpass
      dsimp only at hpass
      rw [Function.update_self] at hpass
      cases hpass
      rcases List.mem_append.mp hrun with hrun | hrun
      · exact .inl ⟨before, hnext.opened, hrun⟩
      · exact .inr ⟨skipped, outcome, now, before, bindingId, sender, gathered, hnext, Option.mem_toList.mp hrun⟩
    · rw [hnext.after] at hpass
      exact .inl ⟨pass, (Function.update_of_ne hm _ _).symm.trans hpass, hrun⟩
  | endGather n =>
    obtain ⟨before, hbefore, hafter⟩ := endGather_some h
    have hothers (hsame : w'.gathers = Function.update w.gathers n none) {m : Nat} {pass : GatherPass}
        (hpass : w'.gathers m = some pass) : w.gathers m = some pass := by
      rw [hsame] at hpass
      by_cases hm : m = n
      · subst hm
        rw [Function.update_self] at hpass
        cases hpass
      · exact (Function.update_of_ne hm none w.gathers).symm.trans hpass
    rcases hafter with ⟨-, rfl⟩ | ⟨-, rfl⟩
    · refine ⟨fun run hrun => ?_, fun m pass hpass run hrun => .inl ⟨pass, hothers rfl hpass, hrun⟩⟩
      rcases List.mem_append.mp hrun with hrun | hrun
      · exact hruns rfl run hrun
      · exact .inr (.inr ⟨n, before, hbefore, hrun⟩)
    · exact ⟨hruns rfl, fun m pass hpass run hrun => .inl ⟨pass, hothers rfl hpass, hrun⟩⟩
  | beginDispatch =>
    unfold Step perform at h
    dsimp only at h
    split at h
    · cases h
      exact ⟨hruns rfl, hgathers rfl⟩
    · cases h
  | look =>
    obtain ⟨_, -, -, -, -, rfl⟩ := look_some h
    exact ⟨hruns rfl, hgathers rfl⟩
  | handle =>
    obtain ⟨_, _, _, hhandles⟩ := handle_some h
    exact ⟨hruns (by rw [hhandles.after]), hgathers (by rw [hhandles.after])⟩
  | write =>
    obtain ⟨_, _, _, _, -, -, -, rfl⟩ := write_some h
    exact ⟨hruns rfl, hgathers rfl⟩
  | endDispatch =>
    obtain ⟨_, -, -, -, -, rfl⟩ := endDispatch_some h
    exact ⟨hruns rfl, hgathers rfl⟩
  | crashDispatch =>
    obtain ⟨_, -, rfl⟩ := crashDispatch_some h
    exact ⟨hruns rfl, hgathers rfl⟩
  | runMoves =>
    cases h
    refine ⟨fun started hstarted => ?_, hgathers rfl⟩
    obtain ⟨old, hold, rfl⟩ := List.mem_map.mp hstarted
    refine .inr (.inl ⟨old, hold, ?_⟩)
    split <;> exact ⟨rfl, rfl⟩

theorem Fates.step (h : Fates w) (hw : w.Sound) (hstep : Step settings w input u w')
    (hcommands : ∀ n skipped bindingId sender, ¬Commands settings (takeBatch w (.gather n) bindingId sender skipped)) : Fates w' := by
  cases input with
  | arriveHeld =>
    obtain ⟨hnew, rfl⟩ := arrive_some (arriveHeld_some hstep).2
    exact h.arrives (unclaimed_new hnew) (arrived_held ..) rfl rfl rfl
  | arriveUnsupported =>
    obtain ⟨hnew, rfl⟩ := arrive_some hstep
    exact h.arrives (unclaimed_new hnew) (arrived_unsupported ..) rfl rfl rfl
  | arriveReceipt =>
    obtain ⟨hnew, rfl⟩ := arrive_some hstep
    exact h.arrives (unclaimed_new hnew) (arrived_receipt ..) rfl rfl rfl
  | arriveCompaction =>
    obtain ⟨-, hnew, rfl⟩ := arriveCompaction_some hstep
    refine h.arrives (unclaimed_new hnew) (arrived_compaction ..) rfl rfl ?_
    rw [gatheredIds_append]
    exact List.append_nil _
  | dropHeld => exact h.dropHeld hw hstep
  | endDelivery n commits =>
    cases hstep
    cases commits with
    | true => exact h.commits hw (fun _ => Tx.noConfusion) rfl rfl rfl
    | false => exact h.rollsBack hw (fun _ => Tx.noConfusion) rfl rfl rfl
  | beginGather =>
    obtain ⟨hnone, rfl⟩ := beginGather_some hstep
    exact h.opens hnone rfl rfl rfl
  | gatherNext n skipped =>
    obtain ⟨_, bindingId, sender, _, hnext⟩ := gatherNext_some hstep
    exact h.gatherNext hw hnext (hcommands n skipped bindingId sender)
  | endGather => exact h.endGather hw hstep
  | beginDispatch =>
    unfold Step perform at hstep
    dsimp only at hstep
    split at hstep
    · cases hstep
      exact h.same hw rfl rfl rfl
    · cases hstep
  | look =>
    obtain ⟨_, -, -, -, -, rfl⟩ := look_some hstep
    exact h.same hw rfl rfl rfl
  | handle =>
    obtain ⟨_, _, _, hhandles⟩ := handle_some hstep
    rw [hhandles.after]
    exact h.same hw rfl rfl rfl
  | write => exact h.write hw hstep
  | endDispatch =>
    obtain ⟨_, -, -, -, -, rfl⟩ := endDispatch_some hstep
    exact h.commits hw (fun _ => Tx.noConfusion) rfl rfl rfl
  | crashDispatch =>
    obtain ⟨_, -, rfl⟩ := crashDispatch_some hstep
    exact h.rollsBack hw (fun _ => Tx.noConfusion) rfl rfl rfl
  | runMoves =>
    cases hstep
    refine h.same hw rfl rfl ?_
    rw [moveRun, gatheredIds, gatheredIds, List.flatMap_map]
    congr 1
    funext started
    split <;> rfl

/-- A message is held under an id that fits its column. -/
def shortSender : Input → Bool
  | .arriveHeld _ _ event _ => event.externalUserId.toList.length ≤ 120
  | _ => true

/-- Where the messages of the rows and the Runs come from. -/
structure Origins (settings : Settings) (log : List (Commit World Input Unit)) (w : World) : Prop where
  rows : ∀ c ∈ w.rows, c.committed.heldMessage.isSome → ∃ event, HeldAs settings log c.committed event
  kept : ∀ commit ∈ log, ∀ id bindingId event receivedAt, commit.input = .arriveHeld id bindingId event receivedAt →
    ∃ c ∈ w.rows, c.committed.SameDelivery (recordHeld event (claimDelivery id bindingId event.channelEventId receivedAt)) ∧
      HeldAs settings log c.committed event
  runs : ∀ run ∈ w.runs, run.parts = [] ∨ JoinedFrom settings log run
  started : ∀ n pass, w.gathers n = some pass → ∀ run ∈ pass.started, JoinedFrom settings log run

theorem origins_start (settings : Settings) : Origins settings [] {} :=
  ⟨fun _ hc => absurd hc List.not_mem_nil, fun _ hcommit => absurd hcommit List.not_mem_nil,
    fun _ hrun => absurd hrun List.not_mem_nil, fun _ _ hpass => absurd hpass.symm (Option.some_ne_none _)⟩

theorem Origins.batch (h : Origins settings log w) (hw : w.Sound) {t : Tx} {bindingId : Nat} {sender : String} {skipped : List Nat} :
    ∀ row ∈ takeBatch w t bindingId sender skipped, ∃ event, HeldAs settings log row event := by
  intro _ hrow
  obtain ⟨c, hc, -, rfl, hwaiting⟩ := mem_takeBatch hrow
  have hsame := (hw.cells c hc).view_delivery t
  obtain ⟨event, hevent⟩ := h.rows c hc (by
    rw [← hsame.heldMessage]
    exact waiting_held (Bool.and_eq_true_iff.mp hwaiting).2)
  exact ⟨event, hevent.same hsame⟩

theorem Origins.step (h : Origins settings log w) (hw : w.Sound) (hshort : shortSender input) (hstep : Step settings w input u w') :
    Origins settings (log ++ [⟨w, input, u, w'⟩]) w' := by
  have hmore : log ⊆ log ++ [⟨w, input, u, w'⟩] := List.subset_append_left ..
  have hlast : (⟨w, input, u, w'⟩ : Commit World Input Unit) ∈ log ++ [⟨w, input, u, w'⟩] :=
    List.mem_append_right _ (List.mem_singleton_self _)
  have hrows := step_rows hw hstep
  obtain ⟨hruns, hstarted⟩ := step_started hstep
  refine ⟨fun c' hc' hmessage => ?_, fun commit hcommit id bindingId event receivedAt hinput => ?_, fun run hrun => ?_,
    fun n pass hpass run hrun => ?_⟩
  · generalize w'.rows = rows at hrows hc'
    cases hrows with
    | each f hf =>
      obtain ⟨c, hc, rfl⟩ := List.mem_map.mp hc'
      have hsame := ((hf c hc).grows (hw.cells c hc)).delivery
      rw [hsame.heldMessage] at hmessage
      obtain ⟨event, hevent⟩ := h.rows c hc hmessage
      exact ⟨event, (hevent.same hsame).mono hmore⟩
    | arrives _ _ hheld =>
      rcases List.mem_append.mp hc' with hc | hc
      · obtain ⟨event, hevent⟩ := h.rows c' hc hmessage
        exact ⟨event, hevent.mono hmore⟩
      · obtain rfl := List.mem_singleton.mp hc
        obtain ⟨event, hinput, hcommand, hrow⟩ := hheld hmessage
        subst hinput
        exact ⟨event, ⟨_, hlast, rfl⟩, hrow ▸ .refl _, hcommand, of_decide_eq_true hshort⟩
  · rcases List.mem_append.mp hcommit with hcommit | hcommit
    · obtain ⟨c, hc, hsame, hheld⟩ := h.kept commit hcommit id bindingId event receivedAt hinput
      obtain ⟨c', hc', -, hfact⟩ := hrows.carry hw.cells
        (F := fun row => row.SameDelivery (recordHeld event (claimDelivery id bindingId event.channelEventId receivedAt)) ∧
          HeldAs settings log row event)
        (fun a b hab hgrows => ⟨hgrows.delivery.trans hab.1, hab.2.same hgrows.delivery⟩) ⟨c, hc, rfl, hsame, hheld⟩
      exact ⟨c', hc', hfact.1, hfact.2.mono hmore⟩
    · obtain rfl := List.mem_singleton.mp hcommit
      dsimp only at hinput
      subst hinput
      obtain ⟨hcommand, harrives⟩ := arriveHeld_some hstep
      obtain ⟨-, rfl⟩ := arrive_some harrives
      exact ⟨_, List.mem_append_right _ (List.mem_singleton_self _), .refl _, ⟨_, hlast, rfl⟩, .refl _, hcommand,
        of_decide_eq_true hshort⟩
  · rcases hruns run hrun with hnone | ⟨old, hold, hparts, hevent⟩ | ⟨n, pass, hpass, hmem⟩
    · exact .inl hnone
    · rcases h.runs old hold with hnone | hjoined
      · exact .inl (hparts.trans hnone)
      · obtain ⟨_, _, _, _⟩ := hjoined.mono hmore
        refine .inr ⟨?_, ?_, ?_, ?_⟩ <;> simp only [hparts, hevent] <;> assumption
    · exact .inr ((h.started n pass hpass run hmem).mono hmore)
  · rcases hstarted n pass hpass run hrun with ⟨before, hbefore, hmem⟩ | ⟨_, _, _, _, _, _, _, hnext, hmem⟩
    · exact (h.started n before hbefore run hmem).mono hmore
    · exact (hnext.joined hw hmem (h.batch hw)).mono hmore

/-- Where a held message is: it waits, `/new` let go of it, a gather refused it for its binding or its sender, or it is in the
input of one Run. -/
inductive Placed (w : World) (row : ChannelEventRow) : Prop where
  | waits (hwaiting : row.waiting) (hout : ∀ run ∈ w.runs, row.id ∉ ids run.parts)
  | dropped (htaken : row.waiting = false) (hfate : row.fate = some .dropped) (hout : ∀ run ∈ w.runs, row.id ∉ ids run.parts)
  | refused {note : String} (htaken : row.waiting = false) (hfate : row.fate = some (.noted note))
      (hnote : note ∈ ["binding_disabled", "erased"]) (hout : ∀ run ∈ w.runs, row.id ∉ ids run.parts)
  | gathered (htaken : row.waiting = false) (hin : ∃! run, run ∈ w.runs ∧ row.id ∈ ids run.parts)

theorem Fates.placed (h : Fates w) {c : Cell Tx ChannelEventRow} (hc : c ∈ w.rows) (hmessage : c.committed.heldMessage.isSome) :
    Placed w c.committed := by
  have hnone (hout : c.committed.id ∉ gatheredIds w.runs) : ∀ run ∈ w.runs, c.committed.id ∉ ids run.parts :=
    fun run hrun hmem => hout (mem_gatheredIds.mpr ⟨run, hrun, hmem⟩)
  cases h.rows c hc hmessage with
  | waits hwaiting _ hout => exact .waits hwaiting (hnone hout)
  | dropped htaken hfate hout => exact .dropped htaken hfate (hnone hout)
  | refused htaken hfate hnote hout => exact .refused htaken hfate hnote (hnone hout)
  | gathered htaken hin =>
    obtain ⟨run, hrun, hmem⟩ := mem_gatheredIds.mp hin
    refine .gathered htaken ⟨run, ⟨hrun, hmem⟩, fun other ⟨hother, hmem'⟩ => ?_⟩
    have hdisjoint := (List.nodup_flatMap.mp h.runsOnce).2
    have hsymm : Std.Symm (Function.onFun List.Disjoint fun run : StartedRun => ids run.parts) := ⟨fun _ _ h => h.symm⟩
    by_contra hne
    exact hdisjoint.forall hother hrun hne hmem' hmem

/-- Nothing is lost, doubled or changed on the way into a Run. -/
structure GatheredExactly (settings : Settings) (log : List (Commit World Input Unit)) (w : World) : Prop where
  placed : ∀ commit ∈ log, ∀ id bindingId event receivedAt, commit.input = .arriveHeld id bindingId event receivedAt →
    ∃ c ∈ w.rows, c.committed.SameDelivery (recordHeld event (claimDelivery id bindingId event.channelEventId receivedAt)) ∧
      heldEventOf settings c.committed = .ok event ∧ Placed w c.committed
  joined : ∀ run ∈ w.runs, run.parts = [] ∨ JoinedFrom settings log run
  commands : ∀ batch event, together batch = some event → (∀ message ∈ batch, message.command settings.lower = none) →
    event.command settings.lower = none

/-- Whatever arrives, is dropped and is gathered in whatever order, every held message has its place and every Run its
messages. -/
theorem gathering_exact (h : Execution (Step settings) {} log w) (hshort : ∀ commit ∈ log, shortSender commit.input) :
    GatheredExactly settings log w := by
  have hreached : w.Sound ∧ Origins settings log w ∧ Fates w := by
    have hrun := h.strengthen (P := fun _ input _ _ => shortSender input) hshort
    clear h hshort
    induction hrun with
    | nil => exact ⟨sound_start, origins_start settings, fates_start⟩
    | snoc _ hstep ih =>
      obtain ⟨hw, horigins, hfates⟩ := ih
      obtain ⟨hshort, hstep⟩ := hstep
      exact ⟨hw.step hstep, horigins.step hw hshort hstep,
        hfates.step hw hstep fun _ _ _ _ => not_commands (horigins.batch hw)⟩
  obtain ⟨-, horigins, hfates⟩ := hreached
  refine ⟨fun commit hcommit id bindingId event receivedAt hinput => ?_, horigins.runs,
    fun _ _ htogether hnone => together_command settings.lower htogether hnone⟩
  obtain ⟨c, hc, hsame, hheld⟩ := horigins.kept commit hcommit id bindingId event receivedAt hinput
  refine ⟨c, hc, hsame, hheld.reads, hfates.placed hc ?_⟩
  rw [hsame.heldMessage]
  rfl

def gatheredInputs : List Input :=
  [.arriveHeld 1 1 question 0, .arriveHeld 2 1 report 1, .beginGather 0 2000000 [(1, "u")],
    .gatherNext 0 [] (.run 7 none) 2000000, .endGather 0 true,
    .arriveHeld 3 1 { question with channelEventId := "q2" } 3000000]

theorem question_and_report_gathered :
    ((replay (attempt plain) {} gatheredInputs).2.runs.map fun run => (run.id, ids run.parts)) = [(7, [1, 2])] ∧
      GatheredExactly plain (replay (attempt plain) {} gatheredInputs).1 (replay (attempt plain) {} gatheredInputs).2 :=
  ⟨by decide, gathering_exact (replay_execution (attempt plain) (fun _ _ _ _ => attempt_step) {} gatheredInputs)
    (List.all_eq_true.mp (by decide :
      ((replay (attempt plain) {} gatheredInputs).1.all fun commit => shortSender commit.input) = true))⟩

def refusedInputs : List Input :=
  [.arriveHeld 1 1 question 0, .beginGather 0 2000000 [(1, "u")], .gatherNext 0 [] .bindingDisabled 2000000, .endGather 0 true]

theorem disabled_binding_settles : ¬∀ (settings : Settings) (log : List (Commit World Input Unit)) (w : World),
    Execution (Step settings) {} log w → (∀ commit ∈ log, shortSender commit.input) →
      ∀ commit ∈ log, ∀ id bindingId event receivedAt, commit.input = .arriveHeld id bindingId event receivedAt →
        ∃ c ∈ w.rows, c.committed.id = id ∧ (c.committed.waiting ∨ c.committed.fate = some .dropped ∨
          ∃! run, run ∈ w.runs ∧ id ∈ ids run.parts) := by
  intro h
  have hshort : ((replay (attempt plain) {} refusedInputs).1.all fun commit => shortSender commit.input) = true := by
    decide
  have harrived : ((replay (attempt plain) {} refusedInputs).1.map Commit.input).head? = some (.arriveHeld 1 1 question 0) := rfl
  obtain ⟨commit, hcommit, hinput⟩ := List.mem_map.mp (List.mem_of_mem_head? harrived)
  obtain ⟨c, hc, -, hplaced⟩ := h plain _ _
    (replay_execution (attempt plain) (fun _ _ _ _ => attempt_step) {} refusedInputs) (List.all_eq_true.mp hshort)
    commit hcommit 1 1 question 0 hinput
  have hrefused : ((replay (attempt plain) {} refusedInputs).2.rows.all fun c =>
      !c.committed.waiting && c.committed.fate = some (.noted "binding_disabled")) = true := by decide
  have hnoRuns : (replay (attempt plain) {} refusedInputs).2.runs = [] := rfl
  have hrow := List.all_eq_true.mp hrefused c hc
  simp only [Bool.and_eq_true, Bool.not_eq_true', decide_eq_true_eq] at hrow
  rcases hplaced with hwaiting | hdropped | ⟨_, ⟨hrun, -⟩, -⟩
  · rw [hrow.1] at hwaiting
    cases hwaiting
  · rw [hrow.2] at hdropped
    exact absurd (Option.some.inj hdropped) Fate.noConfusion
  · rw [hnoRuns] at hrun
    cases hrun

end Runs
end TinyHermes.Channels
