import TinyHermes.Channels.Attempts

/-! Nothing about a delivery being worked on is said once its answer was sent. -/
namespace TinyHermes.Channels
open Lib
open Runs (RunState)

def What.isNotice : What → Bool
  | .openingCard | .blockedNotice | .progressNote => true
  | _ => false

def Candidate.notifies : Candidate → Bool
  | .card _ | .notice _ | .progress _ => true
  | _ => false

def NoticesFirst (k : Nat) (chat : List Sent) : Prop :=
  chat.Pairwise fun earlier later => earlier = ⟨k, .answer⟩ → later.row = k → later.what.isNotice = false

/-- The sender was told that the message is queued, or there is nothing to tell. -/
def told (row : ChannelEventRow) : Bool := row.blockedNotice.isNone || row.blockedNotifiedAt.isSome

/-- No scan selects the row to say that its Run is being worked on. -/
def quiet (row : ChannelEventRow) : Bool := told row && (row.cardAttemptedAt.isSome || row.repliedAt.isSome)

def answered (k : Nat) (w : World) : Bool := w.chat.contains ⟨k, .answer⟩

/-- When the answer is sent the sender was told of the queue, before a retry the opening card was attempted, and no pass is rolled
back to where a notice about an answered delivery is due. -/
def keepsOrder (settings : Settings) (k : Nat) (w : World) : Input → Bool
  | .handle answer =>
    match w.dispatch.bind fun pass => pass.left.head? with
    | some (.attempt pending) =>
      pending.eventRowId ≠ k || (answer.reaches .answer).isEmpty || w.rows.all fun c => c.committed.id ≠ k ||
        (told (c.view .dispatch) && ((c.view .dispatch).cardAttemptedAt.isSome ||
          answer.raised.isNone || settings.maxAttempts ≤ pending.attempts + 1))
    | _ => true
  | .crashDispatch => !answered k w || w.rows.all fun c => c.committed.id ≠ k || quiet c.committed
  | _ => true

section Runs
variable {settings : Settings} {w w' : World} {input : Input} {u : Unit} {run : Nat} {state : RunState}

def Ended (w : World) (run : Nat) : Prop := ∃ state, w.runStates run = some state ∧ state.isTerminal

theorem ended_append {runs more : List StartedRun} {p : StartedRun → Bool} {found : StartedRun} (h : runs.find? p = some found) :
    (runs ++ more).find? p = some found := by
  rw [List.find?_append, h]
  rfl

theorem Ended.append (h : Ended w run) {more : List StartedRun} (hruns : w'.runs = w.runs ++ more) : Ended w' run := by
  obtain ⟨_, hstate, hterminal⟩ := h
  obtain ⟨_, hfound, rfl⟩ := Option.map_eq_some_iff.mp hstate
  refine ⟨_, ?_, hterminal⟩
  unfold World.runStates
  rw [hruns, ended_append hfound]
  rfl

theorem Ended.same (h : Ended w run) (hruns : w'.runs = w.runs) : Ended w' run :=
  h.append (hruns.trans (List.append_nil _).symm)

theorem Ended.moveRun (h : Ended w run) (other : Nat) (signal : Runs.RunSignal) : Ended (moveRun w other signal) run := by
  obtain ⟨state, hstate, hterminal⟩ := h
  obtain ⟨found, hfound, rfl⟩ := Option.map_eq_some_iff.mp hstate
  refine ⟨found.state, ?_, hterminal⟩
  unfold World.runStates Channels.moveRun
  dsimp only
  rw [List.find?_map]
  have hid : ((fun started : StartedRun => decide (started.id = run)) ∘ fun started => if started.id = other then
      { started with state := (Runs.StateMachine.transitions started.state signal).getD started.state } else started) =
      fun started => decide (started.id = run) := by
    funext started
    rw [Function.comp_apply]
    split <;> rfl
  rw [hid, hfound, Option.map_some, Option.map_some]
  split
  · have hstays : Runs.StateMachine.transitions found.state signal = none := by
      cases hmove : Runs.StateMachine.transitions found.state signal with
      | none => rfl
      | some =>
        have hlive := Runs.StateMachine.transitions_live hmove
        rw [hterminal] at hlive
        exact absurd hlive (by decide)
    rw [hstays]
    rfl
  · rfl

theorem ended_step (h : Step settings w input u w') (hended : Ended w run) : Ended w' run := by
  cases input with
  | arriveHeld =>
    obtain ⟨-, rfl⟩ := arrive_some (arriveHeld_some h).2
    exact hended.same rfl
  | arriveUnsupported =>
    obtain ⟨-, rfl⟩ := arrive_some h
    exact hended.same rfl
  | arriveReceipt =>
    obtain ⟨-, rfl⟩ := arrive_some h
    exact hended.same rfl
  | arriveCompaction =>
    obtain ⟨-, -, rfl⟩ := arriveCompaction_some h
    exact hended.append rfl
  | dropHeld =>
    obtain ⟨-, rfl⟩ := dropHeld_some h
    exact hended.same rfl
  | endDelivery n commits =>
    cases h
    cases commits <;> exact hended.same rfl
  | beginGather =>
    obtain ⟨-, rfl⟩ := beginGather_some h
    exact hended.same rfl
  | gatherNext =>
    obtain ⟨_, _, _, _, hnext⟩ := gatherNext_some h
    rw [hnext.after]
    exact hended.same rfl
  | endGather =>
    obtain ⟨_, -, ⟨-, rfl⟩ | ⟨-, rfl⟩⟩ := endGather_some h
    · exact hended.append rfl
    · exact hended.same rfl
  | beginDispatch =>
    unfold Step perform at h
    dsimp only at h
    split at h
    · cases h
      exact hended.same rfl
    · cases h
  | look =>
    obtain ⟨_, -, -, -, -, rfl⟩ := look_some h
    exact hended.same rfl
  | handle =>
    obtain ⟨_, _, _, hhandles⟩ := handle_some h
    rw [hhandles.after]
    exact hended.same rfl
  | write =>
    obtain ⟨_, _, _, _, -, -, -, rfl⟩ := write_some h
    exact hended.same rfl
  | endDispatch =>
    obtain ⟨_, -, -, -, -, rfl⟩ := endDispatch_some h
    exact hended.same rfl
  | crashDispatch =>
    obtain ⟨_, -, rfl⟩ := crashDispatch_some h
    exact hended.same rfl
  | runMoves other signal =>
    cases h
    exact hended.moveRun other signal

end Runs

section Order

/-- A delivery that was answered has no notice left to come, at the latest when the open pass is through with it. -/
inductive Done (k : Nat) (w : World) (c : Cell Tx ChannelEventRow) : Prop where
  | quiet (hcommitted : quiet c.committed) (hview : quiet (c.view .dispatch))
  | closing {pass} (hpass : w.dispatch = some pass) (hstage : pass.stage = .done) (htold : told (c.view .dispatch))
      (hclosed : (c.view .dispatch).cardAttemptedAt.isSome ∨ (c.view .dispatch).repliedAt.isSome ∨
        ∃ settler note now, (k, .settleReply settler note now) ∈ pass.writing)

structure Ordered (k : Nat) (w : World) : Prop where
  chat : NoticesFirst k w.chat
  ended : ∀ pass, w.dispatch = some pass → ∀ pending, .reply pending ∈ pass.left ∨ .attempt pending ∈ pass.left →
    Ended w pending.runId
  unanswered : ∀ pass, w.dispatch = some pass → ∀ candidate ∈ pass.left, candidate.notifies → candidate.row = k →
    ⟨k, .answer⟩ ∉ w.chat
  row : ⟨k, .answer⟩ ∈ w.chat → ∃ c ∈ w.rows, c.committed.id = k ∧ Done k w c ∧
    ∃ run, c.committed.runId = some run ∧ Ended w run

variable {settings : Settings} {w w' : World} {input : Input} {u : Unit} {k : Nat}

theorem handle_sent (settings : Settings) (candidate : Candidate) (rows : List ChannelEventRow) (answer : Answer) :
    (candidate.handle settings rows answer).sent = [] ∨ ∃ what, (candidate.handle settings rows answer).sent = [what] ∧
      (what.isNotice → candidate.notifies) ∧
      (what = .answer → (∃ pending, candidate = .attempt pending) ∧ answer.reaches .answer ≠ []) := by
  have hreaches (what : What) : answer.reaches what = [] ∨ answer.reaches what = [what] := by
    unfold Answer.reaches
    split
    · exact .inr rfl
    · exact .inl rfl
  have hone {sent : List What} (what : What) (hsent : sent = [] ∨ sent = answer.reaches what) (hnot : what ≠ .answer)
      (hnotice : what.isNotice → candidate.notifies) : sent = [] ∨ ∃ what, sent = [what] ∧
        (what.isNotice → candidate.notifies) ∧
        (what = .answer → (∃ pending, candidate = .attempt pending) ∧ answer.reaches .answer ≠ []) := by
    rcases hsent with rfl | rfl
    · exact .inl rfl
    · exact (hreaches what).imp_right fun h => ⟨what, h, hnotice, fun h => absurd h hnot⟩
  have hsettle (what : What) (settler : Settler) (note : String) : (settleOnce answer what settler note).sent = [] ∨
      (settleOnce answer what settler note).sent = answer.reaches what := by
    unfold settleOnce
    split
    · exact .inl rfl
    · exact .inr rfl
  have hstamp (what : What) (stamp : Edit) : (stampOnce answer what stamp).sent = [] ∨
      (stampOnce answer what stamp).sent = answer.reaches what := by
    unfold stampOnce
    dsimp only
    split
    · exact .inl rfl
    · exact .inr rfl
  cases candidate with
  | card =>
    refine hone .openingCard ?_ What.noConfusion fun _ => rfl
    simp only [Candidate.handle, openCard]
    split
    · exact .inl rfl
    · exact .inr rfl
  | refusal _ => exact hone .refusal (hsettle _ _ _) What.noConfusion fun h => absurd h Bool.false_ne_true
  | receipt _ => exact hone .receipt (hsettle _ _ _) What.noConfusion fun h => absurd h Bool.false_ne_true
  | question =>
    refine hone .question ?_ What.noConfusion fun h => absurd h Bool.false_ne_true
    simp only [Candidate.handle, askAboutHeld]
    split
    · exact .inl rfl
    · split
      · exact .inl rfl
      · exact hsettle _ _ _
  | notice _ => exact hone .blockedNotice (hstamp _ _) What.noConfusion fun _ => rfl
  | progress _ => exact hone .progressNote (hstamp _ _) What.noConfusion fun _ => rfl
  | reply pending =>
    left
    rcases dispatch_cases answer pending with ⟨_, h⟩ | h <;> rw [Candidate.handle, h]
  | attempt pending =>
    refine (hreaches .answer).imp id fun h => ⟨.answer, h, fun hnotice => absurd hnotice Bool.false_ne_true, fun _ =>
      ⟨⟨pending, rfl⟩, fun hnone => ?_⟩⟩
    exact List.cons_ne_nil _ _ (h.symm.trans hnone)

theorem noticesFirst_append {chat sent : List Sent} (h : NoticesFirst k chat) (hone : sent.length ≤ 1)
    (hnotice : ∀ message ∈ sent, message.row = k → message.what.isNotice → ⟨k, .answer⟩ ∉ chat) :
    NoticesFirst k (chat ++ sent) := by
  refine List.pairwise_append.mpr ⟨h, ?_, fun earlier hearlier later hlater heq hrow => ?_⟩
  · match sent, hone with
    | [], _ => exact .nil
    | [_], _ => exact List.pairwise_singleton _ _
  · cases hwhat : later.what.isNotice with
    | false => rfl
    | true => exact absurd (heq ▸ hearlier) (hnotice later hlater hrow hwhat)

theorem quiet_edit {edit : Edit} (hedit : edit.ofDispatch) (row : ChannelEventRow) :
    (told row → told (edit.apply row)) ∧ (row.cardAttemptedAt.isSome → (edit.apply row).cardAttemptedAt.isSome) ∧
      (row.repliedAt.isSome → (edit.apply row).repliedAt.isSome) := by
  cases edit with
  | recordCard _ _ => exact ⟨id, fun _ => rfl, id⟩
  | settleBlockedNotice _ => exact ⟨fun _ => Bool.or_true _, id, id⟩
  | settleProgressNotice => exact ⟨id, id, id⟩
  | settleReply _ _ _ => exact ⟨id, id, fun _ => rfl⟩
  | recordReplyAttempt => exact ⟨id, id, id⟩
  | noteReplyFailure => exact ⟨id, id, id⟩
  | _ => cases hedit

theorem quiet_iff {row : ChannelEventRow} :
    quiet row ↔ told row ∧ (row.cardAttemptedAt.isSome ∨ row.repliedAt.isSome) := by
  rw [quiet, Bool.and_eq_true, Bool.or_eq_true]

theorem look_notifies {stage : Stage} {states : RunStates} {rows : List ChannelEventRow} {now : Int} {candidate : Candidate}
    (h : candidate ∈ (stage.look settings states rows now).1) (hnotifies : candidate.notifies) :
    ∃ row ∈ rows, row.id = candidate.row ∧
      (quiet row = false ∨ ∃ run state, row.runId = some run ∧ states run = some state ∧ working state) := by
  cases stage with
  | cards =>
    obtain ⟨_, hmem, rfl⟩ := List.mem_map.mp h
    obtain ⟨row, hrow, hid, -, hopen, hcard⟩ := mem_pendingCardOpens hmem
    exact ⟨row, hrow, hid, .inl (by rw [quiet, hopen, hcard, Option.isSome_none, Bool.or_false, Bool.and_false])⟩
  | notices =>
    obtain ⟨_, hmem, rfl⟩ := List.mem_map.mp h
    obtain ⟨row, hrow, hid, -, hnotice, hopen⟩ := mem_pendingBlockedNotices hmem
    refine ⟨row, hrow, hid, .inl ?_⟩
    rw [quiet, told, hopen, Option.isNone_eq_false_iff.mpr hnotice, Option.isSome_none, Bool.or_false, Bool.false_and]
  | progress =>
    obtain ⟨_, hmem, rfl⟩ := List.mem_map.mp h
    obtain ⟨row, hrow, hid, hrun, state, hstate, hworking⟩ := mem_pendingProgressNotices hmem
    exact ⟨row, hrow, hid, .inr ⟨_, state, hrun, hstate, hworking⟩⟩
  | done => cases h
  | _ =>
    obtain ⟨_, -, rfl⟩ := List.mem_map.mp h
    cases hnotifies

theorem working_live {state : RunState} (h : working state) : state.isTerminal = false := by
  cases state <;> first
    | rfl
    | cases h

theorem ordered_aside (hstep : Step settings w input u w') (h : Ordered k w)
    (hdispatch : w'.dispatch = w.dispatch) (hchat : w'.chat = w.chat) (hrows : RowsAside w.rows w'.rows) : Ordered k w' := by
  refine ⟨hchat ▸ h.chat, fun pass hpass pending hmem => ended_step hstep (h.ended pass (hdispatch ▸ hpass) pending hmem),
    fun pass hpass => hchat ▸ h.unanswered pass (hdispatch ▸ hpass), fun hanswered => ?_⟩
  obtain ⟨c, hc, hid, hdone, run, hrun, hended⟩ := h.row (hchat ▸ hanswered)
  have hkept : c ∈ w'.rows := by
    generalize w'.rows = rows' at hrows
    cases hrows with
    | each f hf =>
      have hsame := (hf c hc).run (by rw [hrun]; rfl)
      rw [← hsame]
      exact List.mem_map_of_mem hc
    | arrives _ _ => exact List.mem_append_left _ hc
  refine ⟨c, hkept, hid, ?_, run, hrun, ended_step hstep hended⟩
  cases hdone with
  | quiet hcommitted hview => exact .quiet hcommitted hview
  | closing hpass hstage htold hclosed => exact .closing (hdispatch.trans hpass) hstage htold hclosed

theorem ordered_begins (h : Ordered k w) (hnone : w.dispatch = none) :
    Ordered k { w with dispatch := some {} } := by
  refine ⟨h.chat, fun pass hpass pending hmem => ?_, fun pass hpass candidate hmem => ?_, fun hanswered => ?_⟩
  · cases hpass
    exact absurd hmem (by simp)
  · cases hpass
    cases hmem
  · obtain ⟨c, hc, hid, hdone, hrun⟩ := h.row hanswered
    refine ⟨c, hc, hid, ?_, hrun⟩
    cases hdone with
    | quiet hcommitted hview => exact .quiet hcommitted hview
    | closing hpass => cases hpass.symm.trans hnone

theorem ordered_looks (hw : w.InTurn) (h : Ordered k w) {now : Int} {pass : DispatchPass} (hpass : w.dispatch = some pass)
    (hstage : pass.stage ≠ .done) : Ordered k { w with dispatch := some { pass with
      left := (pass.stage.look settings w.runStates (w.view .dispatch) now).1
      stage := (pass.stage.look settings w.runStates (w.view .dispatch) now).2 } } := by
  have hquiet (hanswered : ⟨k, .answer⟩ ∈ w.chat) : ∃ c ∈ w.rows, c.committed.id = k ∧ quiet c.committed ∧
      quiet (c.view .dispatch) ∧ ∃ run, c.committed.runId = some run ∧ Ended w run := by
    obtain ⟨c, hc, hid, hdone, hrun⟩ := h.row hanswered
    cases hdone with
    | quiet hcommitted hview => exact ⟨c, hc, hid, hcommitted, hview, hrun⟩
    | closing hpass' hstage' =>
      cases hpass.symm.trans hpass'
      exact absurd hstage' hstage
  refine ⟨h.chat, fun after hafter pending hmem => ?_, fun after hafter candidate hmem hnotifies hrow hanswered => ?_,
    fun hanswered => ?_⟩
  · cases hafter
    obtain ⟨row, -, -, -, -, -, state, hstate, hterminal⟩ :=
      mem_pendingReplies (mem_look_reply (hmem.resolve_right look_no_attempt))
    exact ⟨state, hstate, hterminal⟩
  · cases hafter
    obtain ⟨c, hc, hid, -, hview, _, hrun, _, hstate, hterminal⟩ := hquiet hanswered
    obtain ⟨_, hmemrow, hrowid, hdue⟩ := look_notifies hmem hnotifies
    have hsame := hw.sound.view_eq hc hmemrow (hrowid.trans (hrow.trans hid.symm))
    rw [← hsame] at hdue
    rcases hdue with hloud | ⟨_, _, hrun', hstate', hworking⟩
    · exact absurd (hview.symm.trans hloud) (by decide)
    · rw [(hw.sound.cells c hc).view_dispatch.runId, hrun] at hrun'
      cases hrun'
      cases hstate.symm.trans hstate'
      exact absurd (hterminal.symm.trans (working_live hworking)) (by decide)
  · obtain ⟨c, hc, hid, hcommitted, hview, hrun⟩ := hquiet hanswered
    exact ⟨c, hc, hid, .quiet hcommitted hview, hrun⟩

theorem ordered_handles (hw : w.InTurn) (h : Ordered k w) {answer : Answer} {pass : DispatchPass} {candidate : Candidate}
    {rest : List Candidate} (hkeeps : keepsOrder settings k w (.handle answer))
    (hhandles : Handles settings w answer w' pass candidate rest) : Ordered k w' := by
  have hpass := hhandles.opened
  have hfirst : candidate ∈ pass.left := hhandles.first ▸ List.mem_cons_self ..
  have hleft {other : Candidate} (hmem : other ∈ rest) : other ∈ pass.left := hhandles.first ▸ List.mem_cons_of_mem _ hmem
  have hsent := handle_sent settings candidate (w.view .dispatch) answer
  have hnext (next : Candidate) (hmem : next ∈ (candidate.handle settings (w.view .dispatch) answer).next) :
      ∃ pending, candidate = .reply pending ∧ next = .attempt pending := by
    cases hreplies : candidate.replies with
    | none =>
      rw [(handle_early _ _ _ hreplies).1] at hmem
      exact absurd hmem (Option.not_mem_none next)
    | some =>
      cases candidate with
      | reply pending =>
        refine ⟨pending, rfl, ?_⟩
        rcases dispatch_cases answer pending with ⟨_, hhandled⟩ | hhandled <;> rw [Candidate.handle, hhandled] at hmem
        · exact absurd hmem (Option.not_mem_none next)
        · exact (Option.some.inj hmem).symm
      | attempt => exact absurd hmem (Option.not_mem_none next)
      | _ => exact absurd hreplies.symm (Option.some_ne_none _)
  have hchat : w'.chat = w.chat ++ (candidate.handle settings (w.view .dispatch) answer).sent.map fun what =>
      { row := candidate.row, what } := by rw [hhandles.after]
  have hopened : ∃ after, w'.dispatch = some after ∧
      after.left = (candidate.handle settings (w.view .dispatch) answer).next.toList ++ rest ∧ after.stage = pass.stage ∧
      after.writing = (candidate.handle settings (w.view .dispatch) answer).writes.map fun edit => (candidate.row, edit) := by
    rw [hhandles.after]
    exact ⟨_, rfl, rfl, rfl, rfl⟩
  have hrows : w'.rows = w.rows := by rw [hhandles.after]
  have hruns : w'.runs = w.runs := by rw [hhandles.after]
  obtain ⟨_, hafter, hafterleft, hafterstage, hafterwriting⟩ := hopened
  -- An answer is sent in the turn of a counted attempt, and those come last.
  have hanswering (hnew : (⟨k, .answer⟩ : Sent) ∉ w.chat) (hanswered : ⟨k, .answer⟩ ∈ w'.chat) :
      ∃ pending, candidate = .attempt pending ∧ pending.eventRowId = k ∧ answer.reaches .answer ≠ [] ∧
        pass.stage = .done := by
    rw [hchat] at hanswered
    have hmem := (List.mem_append.mp hanswered).resolve_left hnew
    obtain ⟨what, hwhat, heq⟩ := List.mem_map.mp hmem
    obtain ⟨hrow, rfl⟩ := Sent.mk.inj heq
    rcases hsent with hnone | ⟨what', hone, -, hanswer⟩
    · rw [hnone] at hwhat
      exact absurd hwhat List.not_mem_nil
    · rw [hone] at hwhat
      obtain ⟨⟨pending, rfl⟩, hreaches⟩ := hanswer (List.mem_singleton.mp hwhat).symm
      refine ⟨pending, rfl, hrow, hreaches, ?_⟩
      by_contra hnot
      exact absurd (((hw.shape pass hpass).early hnot).2 _ hfirst) (Option.some_ne_none _)
  refine ⟨?_, fun after' hafter' pending hmem => ?_, fun after' hafter' other hmem hnotifies hrow hanswered => ?_,
    fun hanswered => ?_⟩
  · rw [hchat]
    refine noticesFirst_append h.chat ?_ fun message hmem hrow hnotice => ?_
    · rw [List.length_map]
      rcases hsent with hnone | ⟨what, hone, -⟩
      · rw [hnone]
        exact Nat.zero_le 1
      · rw [hone, List.length_singleton]
    · obtain ⟨_, hwhat, rfl⟩ := List.mem_map.mp hmem
      rcases hsent with hnone | ⟨_, hone, hnotifies, -⟩
      · rw [hnone] at hwhat
        exact absurd hwhat List.not_mem_nil
      · rw [hone] at hwhat
        obtain rfl := List.mem_singleton.mp hwhat
        exact h.unanswered pass hpass candidate hfirst (hnotifies hnotice) hrow
  · obtain rfl := Option.some.inj (hafter.symm.trans hafter')
    rw [hafterleft] at hmem
    have hpending : .reply pending ∈ pass.left ∨ .attempt pending ∈ pass.left := by
      rcases hmem with hmem | hmem
      · rcases List.mem_append.mp hmem with hmem | hmem
        · obtain ⟨_, -, hcontra⟩ := hnext _ (Option.mem_toList.mp hmem)
          exact absurd hcontra Candidate.noConfusion
        · exact .inl (hleft hmem)
      · rcases List.mem_append.mp hmem with hmem | hmem
        · obtain ⟨_, rfl, hsame⟩ := hnext _ (Option.mem_toList.mp hmem)
          obtain rfl := Candidate.attempt.inj hsame
          exact .inl hfirst
        · exact .inr (hleft hmem)
    exact (h.ended pass hpass pending hpending).same hruns
  · obtain rfl := Option.some.inj (hafter.symm.trans hafter')
    rw [hafterleft] at hmem
    have hrest : other ∈ rest := by
      refine (List.mem_append.mp hmem).resolve_left fun hmem => ?_
      obtain ⟨_, -, rfl⟩ := hnext _ (Option.mem_toList.mp hmem)
      exact absurd hnotifies Bool.false_ne_true
    have hnew := h.unanswered pass hpass other (hleft hrest) hnotifies hrow
    obtain ⟨_, -, -, -, hdone⟩ := hanswering hnew hanswered
    have hreplies := (hw.shape pass hpass).late hdone other (hleft hrest)
    cases other <;> first
      | exact absurd hreplies Bool.false_ne_true
      | exact absurd hnotifies Bool.false_ne_true
  · by_cases hbefore : (⟨k, .answer⟩ : Sent) ∈ w.chat
    · obtain ⟨c, hc, hid, hdone, run, hrun, hended⟩ := h.row hbefore
      refine ⟨c, hrows ▸ hc, hid, ?_, run, hrun, hended.same hruns⟩
      cases hdone with
      | quiet hcommitted hview => exact .quiet hcommitted hview
      | closing hpass' hstage htold hclosed =>
        obtain rfl := Option.some.inj (hpass.symm.trans hpass')
        refine .closing hafter (hafterstage.trans hstage) htold ?_
        rcases hclosed with hcard | hreplied | ⟨_, _, _, hmem⟩
        · exact .inl hcard
        · exact .inr (.inl hreplied)
        · rw [hhandles.idle] at hmem
          exact absurd hmem List.not_mem_nil
    · obtain ⟨pending, rfl, hk, hreaches, hstage⟩ := hanswering hbefore hanswered
      obtain ⟨c, hc, hid, hfits⟩ := hw.sound.left hpass _ hfirst
      have hid' : c.committed.id = k := hid.trans hk
      have hended := h.ended pass hpass pending (.inr hfirst)
      refine ⟨c, hrows ▸ hc, hid', ?_, pending.runId, hfits, hended.same hruns⟩
      simp only [keepsOrder, hpass, Option.bind_some, hhandles.first, List.head?_cons, hk, ne_eq, not_true, decide_false,
        Bool.false_or, Bool.or_eq_true, List.isEmpty_iff, hreaches, false_or, List.all_eq_true] at hkeeps
      have hkeep := hkeeps c hc
      simp only [hid', not_true, decide_false, Bool.and_eq_true, Bool.or_eq_true, decide_eq_true_eq] at hkeep
      replace hkeep := hkeep.resolve_left Bool.false_ne_true
      refine .closing hafter (hafterstage.trans hstage) hkeep.1 ?_
      rcases attemptAnswer_writes settings answer pending with ⟨note, hwrites⟩ | ⟨hraised, _, -⟩
      · refine .inr (.inr ⟨.reply pending.runId, note, answer.now, ?_⟩)
        rw [hafterwriting, Candidate.handle, hwrites, ← hk]
        exact List.mem_singleton_self _
      · rcases hkeep.2 with (hcard | hraised') | hlast
        · exact .inl hcard
        · rw [Option.isNone_iff_eq_none] at hraised'
          rw [hraised'] at hraised
          exact absurd hraised Bool.false_ne_true
        · omega

theorem ordered_writes (hw : w.InTurn) (h : Ordered k w) {pass : DispatchPass} {id : Nat} {edit : Edit}
    {rest : List (Nat × Edit)} (hpass : w.dispatch = some pass) (hwriting : pass.writing = (id, edit) :: rest) :
    Ordered k { w with
      rows := writeRow ChannelEventRow.id .dispatch id edit.apply w.rows
      dispatch := some { pass with writing := rest } } := by
  obtain ⟨_, -, -, hfits⟩ := hw.sound.writing hpass (id, edit) (hwriting ▸ List.mem_cons_self ..)
  refine ⟨h.chat, fun after hafter pending hmem => ?_, fun after hafter candidate hmem => ?_, fun hanswered => ?_⟩
  · cases hafter
    exact (h.ended pass hpass pending hmem).same rfl
  · cases hafter
    exact h.unanswered pass hpass candidate hmem
  · obtain ⟨c, hc, hid, hdone, run, hrun, hended⟩ := h.row hanswered
    refine ⟨_, List.mem_map_of_mem hc, ?_, ?_, run, ?_, hended.same rfl⟩
    · split <;> exact hid
    · by_cases hk : c.committed.id = id
      · rw [if_pos hk]
        obtain ⟨htold', hcard', hreplied'⟩ := quiet_edit hfits.ofDispatch (c.view .dispatch)
        cases hdone with
        | quiet hcommitted hview =>
          refine .quiet hcommitted ?_
          obtain ⟨htold, hclosed⟩ := quiet_iff.mp hview
          rw [Cell.view_write]
          exact quiet_iff.mpr ⟨htold' htold, hclosed.imp hcard' hreplied'⟩
        | closing hpass' hstage htold hclosed =>
          cases hpass.symm.trans hpass'
          refine @Done.closing _ _ _ { pass with writing := rest } rfl hstage (by rw [Cell.view_write]; exact htold' htold) ?_
          rw [Cell.view_write]
          rcases hclosed with hcard | hreplied | ⟨settler, note, now, hmem⟩
          · exact .inl (hcard' hcard)
          · exact .inr (.inl (hreplied' hreplied))
          · rw [hwriting] at hmem
            rcases List.mem_cons.mp hmem with hmem | hmem
            · obtain ⟨-, rfl⟩ := Prod.mk.inj hmem
              exact .inr (.inl rfl)
            · exact .inr (.inr ⟨settler, note, now, hmem⟩)
      · rw [if_neg hk]
        cases hdone with
        | quiet hcommitted hview => exact .quiet hcommitted hview
        | closing hpass' hstage htold hclosed =>
          cases hpass.symm.trans hpass'
          refine @Done.closing _ _ _ { pass with writing := rest } rfl hstage htold ?_
          rcases hclosed with hcard | hreplied | ⟨settler, note, now, hmem⟩
          · exact .inl hcard
          · exact .inr (.inl hreplied)
          · rw [hwriting] at hmem
            rcases List.mem_cons.mp hmem with hmem | hmem
            · exact absurd (hid.trans (Prod.mk.inj hmem).1) hk
            · exact .inr (.inr ⟨settler, note, now, hmem⟩)
    · split <;> exact hrun

theorem ordered_ends (hw : w.InTurn) (h : Ordered k w) {pass : DispatchPass} (hpass : w.dispatch = some pass)
    (hwriting : pass.writing = []) : Ordered k { w.commit .dispatch with dispatch := none } := by
  refine ⟨h.chat, fun _ hnone => absurd hnone.symm (Option.some_ne_none _),
    fun _ hnone => absurd hnone.symm (Option.some_ne_none _), fun hanswered => ?_⟩
  obtain ⟨c, hc, hid, hdone, run, hrun, hended⟩ := h.row hanswered
  have hview := (hw.sound.cells c hc).view_dispatch
  have hquiet : quiet (c.view .dispatch) := by
    cases hdone with
    | quiet _ hview => exact hview
    | closing hpass' _ htold hclosed =>
      cases hpass.symm.trans hpass'
      refine quiet_iff.mpr ⟨htold, ?_⟩
      rcases hclosed with hcard | hreplied | ⟨_, _, _, hmem⟩
      · exact .inl hcard
      · exact .inr hreplied
      · rw [hwriting] at hmem
        cases hmem
  have hsame : (c.commit .dispatch).view .dispatch = c.view .dispatch := by
    cases hheld : (c.commit .dispatch).held with
    | none => rw [view_of_none hheld, Cell.commit_committed]
    | some held =>
      obtain ⟨_, version⟩ := held
      rw [view_of_other (fun ht => ?_) hheld, Cell.commit_committed]
      exact Cell.commit_held .dispatch c version (ht ▸ hheld)
  refine ⟨_, List.mem_map_of_mem hc, ?_, .quiet ?_ ?_, run, ?_, hended.same rfl⟩
  · rw [Cell.commit_committed, hview.delivery.id]
    exact hid
  · rw [Cell.commit_committed]
    exact hquiet
  · rw [hsame]
    exact hquiet
  · rw [Cell.commit_committed, hview.runId]
    exact hrun

theorem ordered_crashes (h : Ordered k w) (hkeeps : keepsOrder settings k w .crashDispatch) :
    Ordered k { w.rollback .dispatch with dispatch := none } := by
  refine ⟨h.chat, fun _ hnone => absurd hnone.symm (Option.some_ne_none _),
    fun _ hnone => absurd hnone.symm (Option.some_ne_none _), fun hanswered => ?_⟩
  obtain ⟨c, hc, hid, -, run, hrun, hended⟩ := h.row hanswered
  have hquiet : quiet c.committed := by
    have hchat : answered k w = true := List.contains_iff_mem.mpr hanswered
    simp only [keepsOrder, hchat, Bool.not_true, Bool.false_or, List.all_eq_true] at hkeeps
    simpa [hid] using hkeeps c hc
  have hview : (c.rollback .dispatch).view .dispatch = c.committed := by
    cases hheld : (c.rollback .dispatch).held with
    | none => rw [view_of_none hheld, Cell.rollback_committed]
    | some held =>
      obtain ⟨_, version⟩ := held
      rw [view_of_other (fun ht => ?_) hheld, Cell.rollback_committed]
      exact Cell.rollback_held .dispatch c version (ht ▸ hheld)
  refine ⟨_, List.mem_map_of_mem hc, ?_, .quiet ?_ ?_, run, ?_, hended.same rfl⟩
  · rw [Cell.rollback_committed]
    exact hid
  · rw [Cell.rollback_committed]
    exact hquiet
  · rw [hview]
    exact hquiet
  · rw [Cell.rollback_committed]
    exact hrun

theorem ordered_step (hw : w.InTurn) (hstep : Step settings w input u w') (hkeeps : keepsOrder settings k w input)
    (hordered : Ordered k w) : Ordered k w' := by
  cases step_aside hw.sound hstep with
  | aside hdispatch hchat _ hrows => exact ordered_aside hstep hordered hdispatch hchat hrows
  | begins hnone => exact ordered_begins hordered hnone
  | looks hpass _ _ hstage => exact ordered_looks hw hordered hpass hstage
  | handles hhandles => exact ordered_handles hw hordered hkeeps hhandles
  | writes hpass hwriting => exact ordered_writes hw hordered hpass hwriting
  | ends hpass _ hwriting => exact ordered_ends hw hordered hpass hwriting
  | crashes => exact ordered_crashes hordered hkeeps

/-- No notice follows the answer of a delivery, in every run whose steps keep the order for it. -/
theorem notices_first {log : List (Commit World Input Unit)} (k : Nat) (h : Execution (Step settings) {} log w)
    (hkeeps : ∀ commit ∈ log, keepsOrder settings k commit.before commit.input) : NoticesFirst k w.chat := by
  have hrun := h.strengthen (P := fun w input _ _ => keepsOrder settings k w input) hkeeps
  have hreached : w.InTurn ∧ Ordered k w := by
    refine hrun.invariant (I := fun w => w.InTurn ∧ Ordered k w) ?_ ?_
    · exact ⟨inTurn_start, .nil, fun _ hnone => absurd hnone.symm (Option.some_ne_none _),
        fun _ hnone => absurd hnone.symm (Option.some_ne_none _), fun hmem => absurd hmem List.not_mem_nil⟩
    · rintro _ _ _ _ ⟨hkeep, hstep⟩ ⟨hw, hordered⟩
      exact ⟨hw.step hstep, ordered_step hw hstep hkeep hordered⟩
  exact hreached.2.chat

theorem answer_comes_last : (replay (attempt plain) {} answeredInputs).2.chat = [⟨1, .openingCard⟩, ⟨1, .answer⟩] ∧
    NoticesFirst 1 (replay (attempt plain) {} answeredInputs).2.chat :=
  ⟨by decide, notices_first 1 (replay_execution (attempt plain) (fun _ _ _ _ => attempt_step) {} answeredInputs)
    (List.all_eq_true.mp (by decide :
      ((replay (attempt plain) {} answeredInputs).1.all fun commit => keepsOrder plain 1 commit.before commit.input) = true))⟩

def queued : BlockedNotice :=
  { blockedByRunId := some 3, headStatus := some "waiting_approval", pauseReason := none, waitKind := none, position := 2
    availableActions := [] }

def lateNoticeInputs : List Input :=
  [.arriveHeld 1 1 question 0, .beginGather 0 2000000 [(1, "u")], .gatherNext 0 [] (.run 7 (some queued)) 2000000,
    .beginDispatch, .look 2000000, .look 2000000, .look 2000000, .look 2000000, .look 2000000, .look 2000000,
    .endGather 0 true, .runMoves 7 .cancelRequested, .look 2000000, .handle { now := 2000001 }, .write,
    .handle { now := 2000001 }, .write, .endDispatch, .beginDispatch, .look 3000000, .look 3000000, .look 3000000,
    .look 3000000, .look 3000000, .handle { now := 3000001 }]

theorem notice_follows : ¬∀ (settings : Settings) (log : List (Commit World Input Unit)) (w : World) (k : Nat),
    Execution (Step settings) {} log w → NoticesFirst k w.chat := by
  intro h
  have hchat := h plain _ _ 1 (replay_execution (attempt plain) (fun _ _ _ _ => attempt_step) {} lateNoticeInputs)
  rw [show (replay (attempt plain) {} lateNoticeInputs).2.chat = [⟨1, .answer⟩, ⟨1, .blockedNotice⟩] by decide]
    at hchat
  have hlater := (List.pairwise_cons.mp hchat).1 ⟨1, .blockedNotice⟩ (List.mem_singleton_self _) rfl rfl
  exact absurd hlater (by decide)

end Order
end TinyHermes.Channels
