import TinyHermes.Channels.Answers
import TinyHermes.Channels.Turns

/-! How often the answer of a delivery is attempted: a counted attempt is made once, and the count is kept by the commit
of its pass. -/
namespace TinyHermes.Channels
open Lib

def World.attempted (w : World) : List Nat := (w.dispatch.map DispatchPass.attempted).getD []

def DispatchPass.sending (pass : DispatchPass) (k : Nat) : Nat :=
  match pass.left, pass.writing with
  | .attempt pending :: _, [] => if pending.eventRowId = k then 1 else 0
  | _, _ => 0

/-- A pass that has started an attempt of the delivery is not rolled back. -/
def keepsCount (k : Nat) (w : World) : Input → Bool
  | .crashDispatch => !w.attempted.contains k
  | _ => true

structure Bounded (max : Nat) (row : ChannelEventRow) : Prop where
  le : row.replyAttempts ≤ max
  lt : row.repliedAt = none → row.replyAttempts < max

structure InPass (max k : Nat) (pass : DispatchPass) (c : Cell Tx ChannelEventRow) : Prop where
  counted : (c.view .dispatch).replyAttempts = c.committed.replyAttempts + pass.attempted.count k + pass.sending k
  le : (c.view .dispatch).replyAttempts ≤ max
  lt : (c.view .dispatch).repliedAt = none → (c.view .dispatch).replyAttempts < max ∨ pass.sending k = 1 ∨
    ∃ settler note now, (k, .settleReply settler note now) ∈ pass.writing
  reading : ∀ pending, .reply pending ∈ pass.left ∨ .attempt pending ∈ pass.left → pending.eventRowId = k →
    pending.attempts < max ∧ (c.view .dispatch).replyAttempts = pending.attempts + pass.sending k

structure CountedRow (max k : Nat) (w : World) (c : Cell Tx ChannelEventRow) : Prop where
  counts : w.attempts.count k = c.committed.replyAttempts + w.attempted.count k
  committed : Bounded max c.committed
  once : w.attempted.count k = 0 ∨ w.attempted.count k = 1 ∧ c.committed.replyAttempts < max
  pass : ∀ pass, w.dispatch = some pass → InPass max k pass c

structure Counted (max k : Nat) (w : World) : Prop where
  unknown : (∀ c ∈ w.rows, c.committed.id ≠ k) → w.attempts.count k = 0 ∧ w.attempted.count k = 0
  rows : ∀ c ∈ w.rows, c.committed.id = k → CountedRow max k w c

variable {pending : PendingReply}

section Sending
variable {pass : DispatchPass} {k : Nat}

theorem sending_of_writing (h : pass.writing ≠ []) : pass.sending k = 0 := by
  unfold DispatchPass.sending
  split
  · next hwriting => exact absurd hwriting h
  · rfl

theorem sending_of_no_attempt (h : ∀ pending rest, pass.left ≠ .attempt pending :: rest) : pass.sending k = 0 := by
  unfold DispatchPass.sending
  split
  · next pending rest hleft _ => exact absurd hleft (h pending rest)
  · rfl

theorem sending_of_attempt {rest : List Candidate} (hleft : pass.left = .attempt pending :: rest)
    (hwriting : pass.writing = []) : pass.sending k = if pending.eventRowId = k then 1 else 0 := by
  unfold DispatchPass.sending
  rw [hleft, hwriting]

theorem sending_unknown {w : World} (hw : w.Sound) (hpass : w.dispatch = some pass) (h : ∀ c ∈ w.rows, c.committed.id ≠ k) :
    pass.sending k = 0 := by
  unfold DispatchPass.sending
  split
  · next pending rest hleft _ =>
    refine if_neg fun hk => ?_
    obtain ⟨c, hc, hid, -⟩ := hw.left hpass (.attempt pending) (hleft ▸ List.mem_cons_self ..)
    exact h c hc (hid.trans hk)
  · rfl

end Sending

section Steps
variable {settings : Settings} {w w' : World} {input : Input} {max k : Nat}

theorem attempted_none (h : w.dispatch = none) : w.attempted = [] := by
  unfold World.attempted
  rw [h]
  rfl

variable {pass : DispatchPass}

theorem attempted_some (h : w.dispatch = some pass) : w.attempted = pass.attempted := by
  unfold World.attempted
  rw [h]
  rfl

theorem counted_aside (hw : w.Sound) (hmax : 0 < max) (h : Counted max k w) (hdispatch : w'.dispatch = w.dispatch)
    (hattempts : w'.attempts = w.attempts) (hrows : RowsAside w.rows w'.rows) : Counted max k w' := by
  have hattempted : w'.attempted = w.attempted := by
    unfold World.attempted
    rw [hdispatch]
  generalize hrows' : w'.rows = rows' at hrows
  cases hrows with
  | each f hf =>
    refine ⟨fun hnone => ?_, fun c hc hid => ?_⟩
    · rw [hattempts, hattempted]
      refine h.unknown fun c hc hid => hnone (f c) (hrows' ▸ List.mem_map_of_mem hc) ?_
      exact (hf c hc).sameId.trans hid
    · rw [hrows'] at hc
      obtain ⟨old, hold, rfl⟩ := List.mem_map.mp hc
      have hsame := hf old hold
      have hrow := h.rows old hold (hsame.sameId.symm.trans hid)
      refine ⟨?_, ⟨?_, fun hreplied => ?_⟩, ?_, fun pass hpass => ?_⟩
      · rw [hattempts, hattempted, hsame.attempts]
        exact hrow.counts
      · rw [hsame.attempts]
        exact hrow.committed.le
      · rw [hsame.attempts]
        exact hrow.committed.lt (hsame.replied hreplied)
      · rw [hattempted, hsame.attempts]
        exact hrow.once
      · have hin := hrow.pass pass (hdispatch ▸ hpass)
        refine ⟨?_, ?_, fun hreplied => ?_, ?_⟩
        · rw [hsame.viewAttempts, hsame.attempts]
          exact hin.counted
        · rw [hsame.viewAttempts]
          exact hin.le
        · rw [hsame.viewAttempts]
          exact hin.lt (hsame.viewReplied hreplied)
        · rw [hsame.viewAttempts]
          exact hin.reading
  | @arrives row hnew harrived =>
    refine ⟨fun hnone => ?_, fun c hc hid => ?_⟩
    · rw [hattempts, hattempted]
      exact h.unknown fun c hc => hnone c (hrows' ▸ List.mem_append_left _ hc)
    · rw [hrows'] at hc
      rcases List.mem_append.mp hc with hc | hc
      · have hrow := h.rows c hc hid
        exact ⟨by rw [hattempts, hattempted]; exact hrow.counts, hrow.committed, by rw [hattempted]; exact hrow.once,
          fun pass hpass => hrow.pass pass (hdispatch ▸ hpass)⟩
      · obtain rfl := List.mem_singleton.mp hc
        subst hid
        obtain ⟨hcount, hnone⟩ := h.unknown hnew
        have hzero := harrived.replyAttempts
        refine ⟨?_, ⟨?_, fun _ => ?_⟩, .inl (hattempted ▸ hnone), fun pass hpass => ?_⟩
        · rw [hattempts, hattempted, hcount, hnone, hzero]
        · rw [hzero]
          exact Nat.zero_le max
        · rwa [hzero]
        · have hpass' : w.dispatch = some pass := hdispatch ▸ hpass
          have hview : (⟨row, none⟩ : Cell Tx ChannelEventRow).view .dispatch = row := rfl
          refine ⟨?_, ?_, fun _ => .inl ?_, fun pending hmem hk => ?_⟩
          · rw [hview, hzero, sending_unknown hw hpass' hnew]
            rw [attempted_some hpass'] at hnone
            rw [hnone]
          · rw [hview, hzero]
            exact Nat.zero_le max
          · rwa [hview, hzero]
          · have hcandidate : ∃ candidate ∈ pass.left, candidate.row = pending.eventRowId :=
              hmem.elim (fun hmem => ⟨_, hmem, rfl⟩) fun hmem => ⟨_, hmem, rfl⟩
            obtain ⟨candidate, hleft, hcandidate⟩ := hcandidate
            obtain ⟨c, hc, hid, -⟩ := hw.left hpass' candidate hleft
            exact absurd (hid.trans (hcandidate.trans hk)) (hnew c hc)

theorem counted_begins (hidle : w.Idle) (h : Counted max k w) (hnone : w.dispatch = none) :
    Counted max k { w with dispatch := some {} } := by
  have hempty := attempted_none hnone
  refine ⟨fun hunknown => ⟨(h.unknown hunknown).1, rfl⟩, fun c hc hid => ?_⟩
  have hrow := h.rows c hc hid
  have hview := hidle.view hnone hc
  have hcounts := hrow.counts
  rw [hempty] at hcounts
  refine ⟨hcounts, hrow.committed, .inl rfl, fun pass hpass => ?_⟩
  cases hpass
  exact ⟨by rw [hview]; rfl, by rw [hview]; exact hrow.committed.le, fun hopen => .inl (by
    rw [hview] at hopen ⊢
    exact hrow.committed.lt hopen), fun _ hmem => absurd hmem (by simp)⟩

theorem look_no_attempt {stage : Stage} {states : RunStates} {rows : List ChannelEventRow} {now : Int}
    : .attempt pending ∉ (stage.look settings states rows now).1 := by
  cases stage <;> simp [Stage.look]

theorem mem_look_reply {stage : Stage} {states : RunStates} {rows : List ChannelEventRow} {now : Int}
    (h : .reply pending ∈ (stage.look settings states rows now).1) : pending ∈ pendingReplies states settings.batchSize rows := by
  cases stage <;> simp [Stage.look] at h
  exact h

theorem counted_looks (hw : w.Sound) (h : Counted max k w) {now : Int} (hpass : w.dispatch = some pass)
    (hleft : pass.left = []) (hwriting : pass.writing = []) :
    Counted max k { w with dispatch := some { pass with
      left := (pass.stage.look settings w.runStates (w.view .dispatch) now).1
      stage := (pass.stage.look settings w.runStates (w.view .dispatch) now).2 } } := by
  have hattempted := attempted_some hpass
  refine ⟨fun hunknown => ?_, fun c hc hid => ?_⟩
  · exact ⟨(h.unknown hunknown).1, hattempted ▸ (h.unknown hunknown).2⟩
  · have hrow := h.rows c hc hid
    refine ⟨hattempted ▸ hrow.counts, hrow.committed, hattempted ▸ hrow.once, fun after hafter => ?_⟩
    cases hafter
    have hin := hrow.pass pass hpass
    have hidle : pass.sending k = 0 := sending_of_no_attempt fun _ _ hcons => by
      rw [hleft] at hcons
      exact absurd hcons.symm (List.cons_ne_nil _ _)
    have hsending : DispatchPass.sending { pass with
        left := (pass.stage.look settings w.runStates (w.view .dispatch) now).1
        stage := (pass.stage.look settings w.runStates (w.view .dispatch) now).2 } k = 0 :=
      sending_of_no_attempt fun _ _ hcons => look_no_attempt (hcons ▸ List.mem_cons_self ..)
    have hlt : (c.view .dispatch).repliedAt = none → (c.view .dispatch).replyAttempts < max := by
      intro hopen
      rcases hin.lt hopen with hlt | hone | ⟨_, _, _, hmem⟩
      · exact hlt
      · rw [hidle] at hone
        exact absurd hone (by decide)
      · rw [hwriting] at hmem
        cases hmem
    refine ⟨?_, hin.le, fun hopen => .inl (hlt hopen), fun pending hmem hk => ?_⟩
    · rw [hsending, ← hidle]
      exact hin.counted
    · have hreply := mem_look_reply (hmem.resolve_right look_no_attempt)
      obtain ⟨_, hrow, hrowid, -, hopen, hattempts, -⟩ := mem_pendingReplies hreply
      have hview := hw.view_eq hc hrow (hrowid.trans (hk.trans hid.symm))
      rw [hsending, Nat.add_zero, ← hattempts, ← hview]
      rw [← hview] at hopen
      exact ⟨hlt hopen, rfl⟩

theorem counted_turn (h : Counted max k w) {after : DispatchPass} (hpass : w.dispatch = some pass)
    (hwriting : pass.writing = []) (hattempted : after.attempted = pass.attempted) (hold : pass.sending k = 0)
    (hnew : after.sending k = 0) (hleft : ∀ pending, .reply pending ∈ after.left ∨ .attempt pending ∈ after.left →
      .reply pending ∈ pass.left ∨ .attempt pending ∈ pass.left) (chat : List Sent) :
    Counted max k { w with dispatch := some after, chat } := by
  have hbefore := attempted_some hpass
  refine ⟨fun hunknown => ?_, fun c hc hid => ?_⟩
  · obtain ⟨hcount, hnone⟩ := h.unknown hunknown
    exact ⟨hcount, (congrArg (List.count k) hattempted).trans (hbefore ▸ hnone)⟩
  · have hrow := h.rows c hc hid
    have hin := hrow.pass pass hpass
    have hcount : List.count k after.attempted = w.attempted.count k := by rw [hattempted, hbefore]
    refine ⟨hrow.counts.trans (congrArg _ hcount.symm), hrow.committed, ?_, fun now hnow => ?_⟩
    · exact hrow.once.imp hcount.trans (And.imp_left hcount.trans)
    · cases hnow
      refine ⟨?_, hin.le, fun hopen => ?_, fun pending hmem hk => ?_⟩
      · rw [hattempted, hnew, ← hold]
        exact hin.counted
      · rcases hin.lt hopen with hlt | hone | ⟨_, _, _, hmem⟩
        · exact .inl hlt
        · rw [hold] at hone
          exact absurd hone (by decide)
        · rw [hwriting] at hmem
          cases hmem
      · rw [hnew, ← hold]
        exact hin.reading pending (hleft pending hmem) hk

theorem counted_attempt (hw : w.Sound) (h : Counted settings.maxAttempts k w) {answer : Answer}
    {rest : List Candidate} (hshape : PassShape pass)
    (hhandles : Handles settings w answer w' pass (.attempt pending) rest) : Counted settings.maxAttempts k w' := by
  have hpass := hhandles.opened
  have hbefore := attempted_some hpass
  have hold := sending_of_attempt (k := k) hhandles.first hhandles.idle
  have hrest : ∀ pending, .attempt pending ∉ rest := by
    have := hshape.tail
    rwa [hhandles.first, List.tail_cons] at this
  have hdistinct := hshape.distinct
  have hfresh := hshape.fresh
  rw [hhandles.first, List.filterMap_cons_some (by rfl)] at hdistinct hfresh
  obtain ⟨hout, -⟩ := List.nodup_cons.mp hdistinct
  have hafter := hhandles.after
  simp only [Candidate.handle, show (attemptAnswer settings answer pending).next = none from rfl,
    show (attemptAnswer settings answer pending).attempted = true from rfl, Candidate.row, Option.toList_none,
    List.nil_append, if_true] at hafter
  subst hafter
  have hcount (attempts : List Nat) : (attempts ++ [pending.eventRowId]).count k =
      attempts.count k + if pending.eventRowId = k then 1 else 0 := by
    rw [List.count_append, List.count_singleton]
    simp only [beq_iff_eq]
  refine ⟨fun hunknown => ?_, fun c hc hid => ?_⟩
  · obtain ⟨c, hc, hid, -⟩ := hw.left hpass (.attempt pending) (hhandles.first ▸ List.mem_cons_self ..)
    have hne : pending.eventRowId ≠ k := fun hk => hunknown c hc (hid.trans hk)
    obtain ⟨hnone, hempty⟩ := h.unknown hunknown
    rw [hbefore] at hempty
    exact ⟨(hcount _).trans (by rw [hnone, if_neg hne]), (hcount _).trans (by rw [hempty, if_neg hne])⟩
  · have hrow := h.rows c hc hid
    have hin := hrow.pass pass hpass
    have hread := hin.reading pending (.inr (hhandles.first ▸ List.mem_cons_self ..))
    have hcounts := hrow.counts
    have honce := hrow.once
    have hcounted := hin.counted
    rw [hbefore] at hcounts honce
    rw [hold] at hcounted hread
    refine ⟨?_, hrow.committed, ?_, fun now hnow => ?_⟩
    · refine (hcount _).trans ?_
      rw [hcounts, Nat.add_assoc]
      exact congrArg _ (hcount _).symm
    · by_cases hk : pending.eventRowId = k
      · have hzero : pass.attempted.count k = 0 :=
          List.count_eq_zero.mpr (hfresh k (hk ▸ List.mem_cons_self ..))
        obtain ⟨hlt, hview⟩ := hread hk
        rw [if_pos hk] at hview hcounted
        refine .inr ⟨(hcount _).trans (by rw [hzero, if_pos hk]), ?_⟩
        omega
      · rw [show World.attempted _ = pass.attempted ++ [pending.eventRowId] from rfl, hcount, if_neg hk]
        exact honce
    · cases hnow
      have hnew : ∀ {left : List Candidate} {writing : List (Nat × Edit)} {attempted : List Nat}, left = rest →
          DispatchPass.sending { pass with left, writing, attempted } k = 0 := fun hleft =>
        sending_of_no_attempt fun _ _ hcons => hrest _ (hleft ▸ hcons ▸ List.mem_cons_self ..)
      refine ⟨?_, hin.le, fun hopen => ?_, fun other hmem hk => ?_⟩
      · rw [hnew rfl, hcount, ← Nat.add_assoc]
        exact hcounted
      · by_cases hk : pending.eventRowId = k
        · obtain ⟨hlt, hview⟩ := hread hk
          rw [if_pos hk] at hview
          rcases attemptAnswer_writes settings answer pending with ⟨note, hwrites⟩ | ⟨-, hleft, -⟩
          · refine .inr (.inr ⟨.reply pending.runId, note, answer.now, ?_⟩)
            rw [hwrites, ← hk]
            exact List.mem_singleton_self _
          · exact .inl (hview ▸ hleft)
        · rcases hin.lt hopen with hlt | hone | ⟨_, _, _, hmem⟩
          · exact .inl hlt
          · rw [hold, if_neg hk] at hone
            exact absurd hone (by decide)
          · rw [hhandles.idle] at hmem
            cases hmem
      · have hother : k ∈ rest.filterMap Candidate.replies :=
          List.mem_filterMap.mpr (hmem.elim (fun hmem => ⟨_, hmem, congrArg some hk⟩) fun hmem => ⟨_, hmem, congrArg some hk⟩)
        have hne : pending.eventRowId ≠ k := fun hk => hout (hk ▸ hother)
        have hreads := hin.reading other (hhandles.first ▸ hmem.imp (List.mem_cons_of_mem _) (List.mem_cons_of_mem _)) hk
        rw [hold, if_neg hne] at hreads
        rw [hnew rfl]
        exact hreads

theorem counted_handles (hw : w.Sound) (h : Counted settings.maxAttempts k w) {answer : Answer}
    {candidate : Candidate} {rest : List Candidate} (hshape : PassShape pass)
    (hhandles : Handles settings w answer w' pass candidate rest) : Counted settings.maxAttempts k w' := by
  have hrest : ∀ pending, .attempt pending ∉ rest := by
    have := hshape.tail
    rwa [hhandles.first, List.tail_cons] at this
  have hnext {left : List Candidate} {writing : List (Nat × Edit)} (hleft : left = rest) :
      DispatchPass.sending { pass with left, writing } k = 0 :=
    sending_of_no_attempt fun _ _ hcons => hrest _ (hleft ▸ hcons ▸ List.mem_cons_self ..)
  have hold (hnot : ∀ pending, candidate ≠ .attempt pending) : pass.sending k = 0 :=
    sending_of_no_attempt fun pending _ hcons => hnot pending (List.cons.inj (hhandles.first.symm.trans hcons)).1
  have hmem (pending : PendingReply) (h : .reply pending ∈ rest ∨ .attempt pending ∈ rest) :
      .reply pending ∈ pass.left ∨ .attempt pending ∈ pass.left :=
    hhandles.first ▸ h.imp (List.mem_cons_of_mem _) (List.mem_cons_of_mem _)
  cases hreplies : candidate.replies with
  | none =>
    obtain ⟨hnone, hattempted, -, -⟩ := handle_early settings (w.view .dispatch) answer hreplies
    have hafter := hhandles.after
    simp only [hnone, hattempted, Option.toList_none, List.nil_append, Bool.false_eq_true, if_false, List.append_nil] at hafter
    subst hafter
    refine counted_turn h hhandles.opened hhandles.idle ?_ (hold ?_) ?_ ?_ _
    · rfl
    · rintro pending rfl
      cases hreplies
    · exact hnext rfl
    · exact hmem
  | some =>
    cases candidate with
    | reply pending =>
      have hafter := hhandles.after
      rcases dispatch_cases answer pending with ⟨_, hhandled⟩ | hhandled
      · simp only [Candidate.handle, hhandled, Option.toList_none, List.nil_append, Bool.false_eq_true, if_false,
          List.append_nil] at hafter
        subst hafter
        refine counted_turn h hhandles.opened hhandles.idle ?_ (hold fun _ => Candidate.noConfusion) ?_ ?_ _
        · rfl
        · exact hnext rfl
        · exact hmem
      · simp only [Candidate.handle, hhandled, Option.toList_some, List.singleton_append, Bool.false_eq_true, if_false,
          List.append_nil] at hafter
        subst hafter
        refine counted_turn h hhandles.opened hhandles.idle ?_ (hold fun _ => Candidate.noConfusion) ?_ ?_ _
        · rfl
        · exact sending_of_writing (List.cons_ne_nil _ _)
        · rintro other (hother | hother)
          · rcases List.mem_cons.mp hother with hother | hother
            · exact absurd hother Candidate.noConfusion
            · exact hmem other (.inl hother)
          · rcases List.mem_cons.mp hother with hother | hother
            · obtain rfl := Candidate.attempt.inj hother
              exact .inl (hhandles.first ▸ List.mem_cons_self ..)
            · exact hmem other (.inr hother)
    | attempt => exact counted_attempt hw h hshape hhandles
    | _ => cases hreplies

theorem edit_counts {edit : Edit} (hedit : edit.ofDispatch) (row : ChannelEventRow) :
    edit = .recordReplyAttempt ∨ ((edit.apply row).replyAttempts = row.replyAttempts ∧
      ((edit.apply row).repliedAt = none → row.repliedAt = none ∧ ∀ settler note now, edit ≠ .settleReply settler note now)) := by
  cases edit with
  | recordReplyAttempt => exact .inl rfl
  | settleReply => exact .inr ⟨rfl, fun hnone => absurd hnone (Option.some_ne_none _)⟩
  | recordCard _ _ => exact .inr ⟨rfl, fun hnone => ⟨hnone, fun _ _ _ => Edit.noConfusion⟩⟩
  | settleBlockedNotice _ => exact .inr ⟨rfl, fun hnone => ⟨hnone, fun _ _ _ => Edit.noConfusion⟩⟩
  | settleProgressNotice _ => exact .inr ⟨rfl, fun hnone => ⟨hnone, fun _ _ _ => Edit.noConfusion⟩⟩
  | noteReplyFailure _ => exact .inr ⟨rfl, fun hnone => ⟨hnone, fun _ _ _ => Edit.noConfusion⟩⟩
  | _ => cases hedit

theorem counted_writes (hw : w.Sound) (h : Counted max k w) {id : Nat} {edit : Edit}
    {rest : List (Nat × Edit)} (hshape : PassShape pass) (hpass : w.dispatch = some pass)
    (hwriting : pass.writing = (id, edit) :: rest) : Counted max k { w with
      rows := writeRow ChannelEventRow.id .dispatch id edit.apply w.rows
      dispatch := some { pass with writing := rest } } := by
  have hbefore := attempted_some hpass
  have hold : pass.sending k = 0 := sending_of_writing (by rw [hwriting]; exact List.cons_ne_nil _ _)
  obtain ⟨_, -, -, hfits⟩ := hw.writing hpass (id, edit) (hwriting ▸ List.mem_cons_self ..)
  refine ⟨fun hunknown => ?_, fun c hc hid => ?_⟩
  · refine ⟨(h.unknown fun c hc hk => ?_).1, hbefore ▸ (h.unknown fun c hc hk => ?_).2⟩
    all_goals
      refine hunknown _ (List.mem_map_of_mem hc) ?_
      split <;> exact hk
  · obtain ⟨old, holdrow, rfl⟩ := List.mem_map.mp hc
    have hcommitted : (if old.committed.id = id then old.write .dispatch edit.apply else old).committed = old.committed := by
      split <;> rfl
    rw [hcommitted] at hid
    have hrow := h.rows old holdrow hid
    have hin := hrow.pass pass hpass
    refine ⟨by rw [hcommitted]; exact hbefore ▸ hrow.counts, by rw [hcommitted]; exact hrow.committed,
      by rw [hcommitted]; exact hbefore ▸ hrow.once, fun after hafter => ?_⟩
    cases hafter
    have hcounted := hin.counted
    have hreading := hin.reading
    rw [hold] at hcounted hreading
    by_cases hrecord : edit = .recordReplyAttempt
    · -- The count of the attempt that is now about to be made.
      subst hrecord
      obtain ⟨pending, more, hleft⟩ := hshape.record id (hwriting ▸ List.mem_cons_self ..)
      have hone := (hshape.counting pending more hleft).resolve_left (by rw [hwriting]; exact List.cons_ne_nil _ _)
      rw [hwriting] at hone
      obtain ⟨hpair, rfl⟩ := List.cons.inj hone
      obtain ⟨rfl, -⟩ := Prod.mk.inj hpair
      have hsending : DispatchPass.sending { pass with writing := [] } k = if pending.eventRowId = k then 1 else 0 :=
        sending_of_attempt hleft rfl
      by_cases hk : old.committed.id = pending.eventRowId
      · have hkey : pending.eventRowId = k := hk.symm.trans hid
        rw [if_pos hkey] at hsending
        obtain ⟨hlt, _⟩ := hreading pending (.inr (hleft ▸ List.mem_cons_self ..)) hkey
        rw [if_pos hk]
        have hwritten : ((old.write .dispatch Edit.recordReplyAttempt.apply).view .dispatch).replyAttempts =
            (old.view .dispatch).replyAttempts + 1 := by rw [Cell.view_write]; rfl
        refine ⟨?_, ?_, fun _ => .inr (.inl hsending), fun other hmem hkother => ?_⟩
        · rw [hwritten, hsending, hcounted]
          rfl
        · rw [hwritten]
          omega
        · rw [hwritten, hsending]
          obtain ⟨hltother, _⟩ := hreading other hmem hkother
          exact ⟨hltother, by omega⟩
      · have hkey : pending.eventRowId ≠ k := fun h => hk (hid.trans h.symm)
        rw [if_neg hkey] at hsending
        rw [if_neg hk]
        refine ⟨by rw [hsending]; exact hcounted, hin.le, fun hopen => ?_, by rw [hsending]; exact hreading⟩
        rcases hin.lt hopen with hlt | hone | ⟨_, _, _, hmem⟩
        · exact .inl hlt
        · exact absurd (hold.symm.trans hone) (by decide)
        · rw [hwriting] at hmem
          exact absurd (Prod.mk.inj (List.mem_singleton.mp hmem)).2 Edit.noConfusion
    · have hsending : DispatchPass.sending { pass with writing := rest } k = 0 := by
        refine sending_of_no_attempt fun pending more hleft => ?_
        rcases hshape.counting pending more hleft with hnone | hone
        · exact absurd (hwriting.symm.trans hnone) (List.cons_ne_nil _ _)
        · exact hrecord (Prod.mk.inj (List.cons.inj (hwriting.symm.trans hone)).1).2
      obtain hsame := (edit_counts hfits.ofDispatch (old.view .dispatch)).resolve_left hrecord
      split
      · next hk =>
        have hkey : id = k := hk.symm.trans hid
        subst hkey
        refine ⟨?_, ?_, fun hopen => ?_, ?_⟩
        · rw [Cell.view_write, hsame.1, hsending]
          exact hcounted
        · rw [Cell.view_write, hsame.1]
          exact hin.le
        · rw [Cell.view_write] at hopen ⊢
          obtain ⟨hopen, hnot⟩ := hsame.2 hopen
          rw [hsame.1]
          rcases hin.lt hopen with hlt | hone | ⟨settler, note, now, hmem⟩
          · exact .inl hlt
          · exact absurd (hold.symm.trans hone) (by decide)
          · rw [hwriting] at hmem
            rcases List.mem_cons.mp hmem with hmem | hmem
            · exact absurd (Prod.mk.inj hmem).2.symm (hnot settler note now)
            · exact .inr (.inr ⟨settler, note, now, hmem⟩)
        · rw [Cell.view_write, hsame.1, hsending]
          exact hreading
      · next hk =>
        refine ⟨by rw [hsending]; exact hcounted, hin.le, fun hopen => ?_, by rw [hsending]; exact hreading⟩
        rcases hin.lt hopen with hlt | hone | ⟨settler, note, now, hmem⟩
        · exact .inl hlt
        · exact absurd (hold.symm.trans hone) (by decide)
        · rw [hwriting] at hmem
          rcases List.mem_cons.mp hmem with hmem | hmem
          · exact absurd (hid.trans (Prod.mk.inj hmem).1) hk
          · exact .inr (.inr ⟨settler, note, now, hmem⟩)

theorem counted_ends (hw : w.Sound) (h : Counted max k w) (hpass : w.dispatch = some pass)
    (hleft : pass.left = []) (hwriting : pass.writing = []) :
    Counted max k { w.commit .dispatch with dispatch := none } := by
  have hbefore := attempted_some hpass
  have hidle : pass.sending k = 0 := sending_of_no_attempt fun _ _ hcons => by
    rw [hleft] at hcons
    exact absurd hcons.symm (List.cons_ne_nil _ _)
  have hsame {c : Cell Tx ChannelEventRow} (hc : c ∈ w.rows) : (c.commit .dispatch).committed.id = c.committed.id := by
    rw [Cell.commit_committed]
    exact ((hw.cells c hc).view_delivery .dispatch).id
  refine ⟨fun hunknown => ⟨(h.unknown fun c hc hk => ?_).1, rfl⟩, fun c hc hid => ?_⟩
  · exact hunknown _ (List.mem_map_of_mem hc) ((hsame hc).trans hk)
  · obtain ⟨old, hold, rfl⟩ := List.mem_map.mp hc
    have hrow := h.rows old hold ((hsame hold).symm.trans hid)
    have hin := hrow.pass pass hpass
    have hcounted := hin.counted
    have hcounts := hrow.counts
    rw [hidle, Nat.add_zero] at hcounted
    rw [hbefore, ← hcounted] at hcounts
    refine ⟨?_, ⟨?_, fun hopen => ?_⟩, .inl rfl, fun _ hnone => absurd hnone.symm (Option.some_ne_none _)⟩
    · rw [Cell.commit_committed]
      exact hcounts
    · rw [Cell.commit_committed]
      exact hin.le
    · rw [Cell.commit_committed] at hopen ⊢
      rcases hin.lt hopen with hlt | hone | ⟨_, _, _, hmem⟩
      · exact hlt
      · exact absurd (hidle.symm.trans hone) (by decide)
      · rw [hwriting] at hmem
        cases hmem

theorem counted_crashes (h : Counted max k w) (hkeeps : keepsCount k w .crashDispatch) :
    Counted max k { w.rollback .dispatch with dispatch := none } := by
  have hnone : w.attempted.count k = 0 := by
    simp only [keepsCount, Bool.not_eq_true', List.contains_eq_mem, decide_eq_false_iff_not] at hkeeps
    exact List.count_eq_zero.mpr hkeeps
  refine ⟨fun hunknown => ⟨(h.unknown fun c hc hk => ?_).1, rfl⟩, fun c hc hid => ?_⟩
  · exact hunknown _ (List.mem_map_of_mem hc) (by rw [Cell.rollback_committed]; exact hk)
  · obtain ⟨old, hold, rfl⟩ := List.mem_map.mp hc
    rw [Cell.rollback_committed] at hid
    have hrow := h.rows old hold hid
    have hcounts := hrow.counts
    rw [hnone] at hcounts
    refine ⟨?_, ?_, .inl rfl, fun _ hnone => absurd hnone.symm (Option.some_ne_none _)⟩
    · rw [Cell.rollback_committed]
      exact hcounts
    · rw [Cell.rollback_committed]
      exact hrow.committed

theorem counted_step (hw : w.InTurn) (hmax : 0 < settings.maxAttempts) (h : PassStep settings w input w')
    (hkeeps : keepsCount k w input) (hcounted : Counted settings.maxAttempts k w) : Counted settings.maxAttempts k w' := by
  cases h with
  | aside hdispatch _ hattempts hrows => exact counted_aside hw.sound hmax hcounted hdispatch hattempts hrows
  | begins hnone => exact counted_begins hw.idle hcounted hnone
  | looks hpass hleft hwriting => exact counted_looks hw.sound hcounted hpass hleft hwriting
  | handles hhandles => exact counted_handles hw.sound hcounted (hw.shape _ hhandles.opened) hhandles
  | writes hpass hwriting _ => exact counted_writes hw.sound hcounted (hw.shape _ hpass) hpass hwriting
  | ends hpass hleft hwriting => exact counted_ends hw.sound hcounted hpass hleft hwriting
  | crashes => exact counted_crashes hcounted hkeeps

theorem Counted.bound (hcounted : Counted max k w) : w.attempts.count k ≤ max := by
  by_cases hknown : ∃ c ∈ w.rows, c.committed.id = k
  · obtain ⟨c, hc, hid⟩ := hknown
    have hrow := hcounted.rows c hc hid
    rw [hrow.counts]
    have hle := hrow.committed.le
    rcases hrow.once with _ | ⟨_, _⟩ <;> omega
  · rw [(hcounted.unknown fun c hc hid => hknown ⟨c, hc, hid⟩).1]
    exact Nat.zero_le max

/-- A delivery's answer is attempted no more often than the bound, as long as no pass that has started an attempt of it
is rolled back. -/
theorem attempts_bounded {log : List (Commit World Input Unit)} (k : Nat) (h : Execution (Step settings) {} log w)
    (hmax : 0 < settings.maxAttempts) (hkeeps : ∀ commit ∈ log, keepsCount k commit.before commit.input) :
    w.attempts.count k ≤ settings.maxAttempts := by
  have hrun := h.strengthen (P := fun w input _ _ => keepsCount k w input) hkeeps
  have hreached : w.InTurn ∧ Counted settings.maxAttempts k w := by
    refine hrun.invariant (I := fun w => w.InTurn ∧ Counted settings.maxAttempts k w) ?_ ?_
    · exact ⟨inTurn_start, fun _ => ⟨rfl, rfl⟩, fun _ hc => absurd hc List.not_mem_nil⟩
    · rintro _ _ _ _ ⟨hkeep, hstep⟩ ⟨hw, hcounted⟩
      exact ⟨hw.step hstep, counted_step hw hmax (step_aside hw.sound hstep) hkeep hcounted⟩
  exact hreached.2.bound

def repeatedPass : List Input :=
  [.beginDispatch, .look 0, .handle { now := 0 }, .write, .look 0, .look 0, .look 0, .look 0, .look 0, .look 0,
    .handle { now := 0 }, .write, .handle { now := 0 }, .crashDispatch]

def compact : ChannelEvent := { channel := "feishu", channelEventId := "c", externalUserId := "u", text := "/compact" }

def finishedRun : List Input := [.arriveCompaction 1 1 compact 0 7, .runMoves 7 .cancelRequested]

theorem killed_passes_repeat : ¬∀ (settings : Settings) (log : List (Commit World Input Unit)) (w : World) (k : Nat),
    Execution (Step settings) {} log w → w.attempts.count k ≤ settings.maxAttempts := by
  intro h
  have hcount := h plain _ _ 1 (replay_execution (attempt plain) (fun _ _ _ _ => attempt_step) {}
    (finishedRun ++ (List.replicate 6 repeatedPass).flatten))
  exact absurd hcount (by decide)

def retriedPasses : List Input :=
  [.beginDispatch, .look 0, .handle { now := 0 }, .write, .look 0, .look 0, .look 0, .look 0, .look 0, .look 0,
    .handle { now := 0 }, .write, .handle { raised := some "timeout", now := 0 }, .write, .endDispatch,
    .beginDispatch, .look 0, .look 0, .look 0, .look 0, .look 0, .look 0, .look 0, .handle { now := 0 }, .write,
    .handle { now := 0 }, .write, .endDispatch]

theorem retry_counted : (replay (attempt plain) {} (finishedRun ++ retriedPasses)).2.attempts = [1, 1] ∧
    (replay (attempt plain) {} (finishedRun ++ retriedPasses)).2.attempts.count 1 ≤ plain.maxAttempts :=
  ⟨by decide, attempts_bounded 1
    (replay_execution (attempt plain) (fun _ _ _ _ => attempt_step) {} (finishedRun ++ retriedPasses)) (by decide)
    (List.all_eq_true.mp (by decide :
      ((replay (attempt plain) {} (finishedRun ++ retriedPasses)).1.all fun commit => keepsCount 1 commit.before commit.input) = true))⟩

end Steps
end TinyHermes.Channels
