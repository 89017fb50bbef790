import TinyHermes.Channels.Reachable

/-! The order of a dispatch pass: answers come last, one attempt at a time, and no delivery has two turns for its answer. -/
namespace TinyHermes.Channels
open Lib
open Runs (RunState)

def Candidate.replies : Candidate → Option Nat
  | .reply pending | .attempt pending => some pending.eventRowId
  | _ => none

structure PassShape (pass : DispatchPass) : Prop where
  tail : ∀ pending, .attempt pending ∉ pass.left.tail
  counting : ∀ pending rest, pass.left = .attempt pending :: rest →
    pass.writing = [] ∨ pass.writing = [(pending.eventRowId, .recordReplyAttempt)]
  record : ∀ id, (id, .recordReplyAttempt) ∈ pass.writing → ∃ pending rest, pass.left = .attempt pending :: rest
  early : pass.stage ≠ .done → pass.attempted = [] ∧ ∀ candidate ∈ pass.left, candidate.replies = none
  late : pass.stage = .done → ∀ candidate ∈ pass.left, candidate.replies.isSome
  distinct : (pass.left.filterMap Candidate.replies).Nodup
  fresh : ∀ id ∈ pass.left.filterMap Candidate.replies, id ∉ pass.attempted

section Scans
variable {states : RunStates} {rows : List ChannelEventRow}

theorem scan_ids {α : Type} (name : α → Nat) (f : ChannelEventRow → Option α) (hf : ∀ row a, f row = some a → name a = row.id)
    (rows : List ChannelEventRow) : ((rows.filterMap f).map name).Sublist (ids rows) := by
  induction rows with
  | nil => exact .slnil
  | cons row rows ih =>
    cases hrow : f row with
    | none =>
      rw [List.filterMap_cons_none hrow, ids, List.map_cons]
      exact ih.cons _
    | some a =>
      rw [List.filterMap_cons_some hrow, List.map_cons, ids, List.map_cons, hf row a hrow]
      exact ih.cons_cons _

theorem pendingReplies_distinct {limit : Nat} (h : (ids rows).Nodup) :
    ((pendingReplies states limit rows).map PendingReply.eventRowId).Nodup := by
  have hsub := scan_ids PendingReply.eventRowId (fun row => do
    let runId ← row.runId
    let state ← states runId
    return { eventRowId := row.id, runId, state, attempts := row.replyAttempts }) (fun row a ha => by
      obtain ⟨_, -, ha⟩ := Option.bind_eq_some_iff.mp ha
      obtain ⟨_, -, ha⟩ := Option.bind_eq_some_iff.mp ha
      rw [← Option.some.inj ha])
    ((select (fun row => ofRuns states RunState.isTerminal row && row.repliedAt.isNone) rows).take limit)
  refine List.Nodup.sublist hsub ?_
  have hselect : (ids (select (fun row => ofRuns states RunState.isTerminal row && row.repliedAt.isNone) rows)).Nodup := by
    rw [select, ids, ((List.perm_insertionSort _ _).map ChannelEventRow.id).nodup_iff]
    exact h.sublist (List.filter_sublist.map _)
  exact hselect.sublist ((List.take_sublist _ _).map _)

theorem look_shape {settings : Settings} {now : Int} {pass : DispatchPass} (h : PassShape pass) (hrows : (ids rows).Nodup)
    (hwriting : pass.writing = []) (hstage : pass.stage ≠ .done) :
    PassShape { pass with
      left := (pass.stage.look settings states rows now).1, stage := (pass.stage.look settings states rows now).2 } := by
  have hattempted := (h.early hstage).1
  have hearlier {left : List Candidate} {stage : Stage} (hleft : ∀ candidate ∈ left, candidate.replies = none)
      (hnot : stage ≠ .done) : PassShape { pass with left, stage } := by
    have hnone : left.filterMap Candidate.replies = [] := List.filterMap_eq_nil_iff.mpr hleft
    have hattempt {pending : PendingReply} (hmem : .attempt pending ∈ left) : False :=
      Option.some_ne_none pending.eventRowId (hleft (.attempt pending) hmem)
    refine ⟨fun pending hmem => hattempt (List.mem_of_mem_tail hmem), fun pending rest hcons => ?_, fun id hmem => ?_,
      fun _ => ⟨hattempted, hleft⟩, fun hdone => absurd hdone hnot, ?_, fun id hmem => ?_⟩
    · exact (hattempt (hcons ▸ List.mem_cons_self ..)).elim
    · cases hwriting ▸ hmem
    · rw [hnone]
      exact List.nodup_nil
    · rw [hnone] at hmem
      cases hmem
  have hmapped {α : Type} {candidates : List α} {f : α → Candidate} (hf : ∀ a, (f a).replies = none) :
      ∀ candidate ∈ candidates.map f, candidate.replies = none := by
    intro candidate hmem
    obtain ⟨a, -, rfl⟩ := List.mem_map.mp hmem
    exact hf a
  cases hlook : pass.stage with
  | cards => exact hearlier (hmapped fun _ => rfl) Stage.noConfusion
  | refusals => exact hearlier (hmapped fun _ => rfl) Stage.noConfusion
  | receipts => exact hearlier (hmapped fun _ => rfl) Stage.noConfusion
  | questions => exact hearlier (hmapped fun _ => rfl) Stage.noConfusion
  | notices => exact hearlier (hmapped fun _ => rfl) Stage.noConfusion
  | progress => exact hearlier (hmapped fun _ => rfl) Stage.noConfusion
  | replies =>
    have hreplies (candidate : Candidate)
        (hmem : candidate ∈ (pendingReplies states settings.batchSize rows).map Candidate.reply) :
        ∃ pending, candidate = .reply pending := by
      obtain ⟨pending, -, rfl⟩ := List.mem_map.mp hmem
      exact ⟨pending, rfl⟩
    have hids : ((pendingReplies states settings.batchSize rows).map Candidate.reply).filterMap Candidate.replies =
        (pendingReplies states settings.batchSize rows).map PendingReply.eventRowId := by
      rw [List.filterMap_map]
      exact congrFun (List.filterMap_eq_map (f := PendingReply.eventRowId)) _
    have hattempt {pending : PendingReply}
        (hmem : .attempt pending ∈ (pendingReplies states settings.batchSize rows).map Candidate.reply) : False := by
      obtain ⟨_, h⟩ := hreplies _ hmem
      exact Candidate.noConfusion h
    refine ⟨fun pending hmem => hattempt (List.mem_of_mem_tail hmem), fun pending rest hcons => ?_, fun id hmem => ?_,
      fun hnot => absurd rfl hnot, fun _ candidate hmem => ?_, ?_, fun id _ hmem => ?_⟩
    · exact (hattempt (hcons ▸ List.mem_cons_self ..)).elim
    · cases hwriting ▸ hmem
    · obtain ⟨_, rfl⟩ := hreplies candidate hmem
      rfl
    · exact hids ▸ pendingReplies_distinct hrows
    · cases hattempted ▸ hmem
  | done => exact absurd hlook hstage

end Scans

section Handled
variable {candidate : Candidate}

theorem handle_early (settings : Settings) (rows : List ChannelEventRow) (answer : Answer) (h : candidate.replies = none) :
    (candidate.handle settings rows answer).next = none ∧ (candidate.handle settings rows answer).attempted = false ∧
      .recordReplyAttempt ∉ (candidate.handle settings rows answer).writes ∧
      .answer ∉ (candidate.handle settings rows answer).sent := by
  have hreaches {what : What} (hwhat : what ≠ .answer) : .answer ∉ answer.reaches what := by
    unfold Answer.reaches
    split
    · exact fun hmem => hwhat (List.mem_singleton.mp hmem).symm
    · exact List.not_mem_nil
  have hsettle {what : What} {settler : Settler} {note : String} (hwhat : what ≠ .answer) :
      (settleOnce answer what settler note).next = none ∧ (settleOnce answer what settler note).attempted = false ∧
        .recordReplyAttempt ∉ (settleOnce answer what settler note).writes ∧
        .answer ∉ (settleOnce answer what settler note).sent := by
    unfold settleOnce
    split
    · exact ⟨rfl, rfl, by simp, List.not_mem_nil⟩
    · exact ⟨rfl, rfl, by simp, hreaches hwhat⟩
  have hstamp {what : What} {stamp : Edit} (hwhat : what ≠ .answer) (hnot : stamp ≠ .recordReplyAttempt) :
      (stampOnce answer what stamp).next = none ∧ (stampOnce answer what stamp).attempted = false ∧
        .recordReplyAttempt ∉ (stampOnce answer what stamp).writes ∧ .answer ∉ (stampOnce answer what stamp).sent := by
    refine ⟨rfl, rfl, fun hmem => hnot (List.mem_singleton.mp hmem).symm, ?_⟩
    unfold stampOnce
    dsimp only
    split
    · exact List.not_mem_nil
    · exact hreaches hwhat
  cases candidate with
  | card =>
    simp only [Candidate.handle, openCard]
    split
    · exact ⟨rfl, rfl, by simp, List.not_mem_nil⟩
    · refine ⟨rfl, rfl, ?_, hreaches What.noConfusion⟩
      dsimp only
      split
      · simp
      · split <;> simp
  | refusal => exact hsettle What.noConfusion
  | receipt => exact hsettle What.noConfusion
  | question =>
    simp only [Candidate.handle, askAboutHeld]
    split
    · exact ⟨rfl, rfl, by simp, List.not_mem_nil⟩
    · split
      · exact ⟨rfl, rfl, by simp, List.not_mem_nil⟩
      · exact hsettle What.noConfusion
  | notice => exact hstamp What.noConfusion Edit.noConfusion
  | progress => exact hstamp What.noConfusion Edit.noConfusion
  | reply => cases h
  | attempt => cases h

theorem dispatch_cases (answer : Answer) (pending : PendingReply) :
    (∃ reason, dispatch answer pending = { writes := [.settleReply (.reply pending.runId) reason answer.now] }) ∨
      dispatch answer pending = { writes := [.recordReplyAttempt], next := some (.attempt pending) } := by
  unfold dispatch
  split
  · next reason _ => exact .inl ⟨reason, rfl⟩
  · exact .inr rfl

theorem attemptAnswer_writes (settings : Settings) (answer : Answer) (pending : PendingReply) :
    (∃ note, (attemptAnswer settings answer pending).writes = [.settleReply (.reply pending.runId) note answer.now]) ∨
      answer.raised.isSome ∧ pending.attempts + 1 < settings.maxAttempts ∧
        ∃ note, (attemptAnswer settings answer pending).writes = [.noteReplyFailure note] := by
  unfold attemptAnswer
  cases answer.raised with
  | none => exact .inl ⟨_, rfl⟩
  | some =>
    simp only [failed]
    split
    · exact .inl ⟨_, rfl⟩
    · next hleft => exact .inr ⟨rfl, by omega, _, rfl⟩

end Handled

section Aside
variable {c c' : Cell Tx ChannelEventRow} {t : Tx}

/-- What the other transactions leave of a row, to the dispatch pass. -/
structure Undisturbed (c c' : Cell Tx ChannelEventRow) : Prop where
  sameId : c'.committed.id = c.committed.id
  attempts : c'.committed.replyAttempts = c.committed.replyAttempts
  replied : c'.committed.repliedAt = none → c.committed.repliedAt = none
  viewAttempts : (c'.view .dispatch).replyAttempts = (c.view .dispatch).replyAttempts
  viewReplied : (c'.view .dispatch).repliedAt = none → (c.view .dispatch).repliedAt = none
  held : ∀ version, c'.held = some (.dispatch, version) → c.held = some (.dispatch, version)
  run : c.committed.runId.isSome → c' = c

theorem Undisturbed.refl (c : Cell Tx ChannelEventRow) : Undisturbed c c :=
  ⟨rfl, rfl, id, rfl, id, fun _ => id, fun _ => rfl⟩

theorem view_of_other {version : ChannelEventRow} (ht : t ≠ .dispatch) (h : c.held = some (t, version)) :
    c.view .dispatch = c.committed := by
  simp only [Cell.view, h, if_neg ht]

theorem view_of_none (h : c.held = none) : c.view t = c.committed := by
  simp only [Cell.view, h]

theorem SoundCell.no_run (h : SoundCell c) (hwaiting : c.committed.waiting) {p : Prop} (hrun : c.committed.runId.isSome) : p := by
  have hnot := (h.committed.run hrun).1
  exact absurd (hwaiting.symm.trans hnot) (by decide)

theorem commit_undisturbed (hc : SoundCell c) (ht : t ≠ .dispatch) : Undisturbed c (c.commit t) := by
  rcases c.commit_cases t with ⟨_, hheld, h⟩ | ⟨-, h⟩
  · obtain ⟨hwaiting, hkept⟩ := hc.kept ht hheld
    rw [h]
    refine ⟨hkept.delivery.id, hkept.replyAttempts, hkept.repliedAt, ?_, ?_, fun _ hnone => ?_, hc.no_run hwaiting⟩
    · rw [view_of_other ht hheld]
      exact hkept.replyAttempts
    · rw [view_of_other ht hheld]
      exact hkept.repliedAt
    · cases hnone
  · rw [h]
    exact .refl c

theorem rollback_undisturbed (hc : SoundCell c) (ht : t ≠ .dispatch) : Undisturbed c (c.rollback t) := by
  rcases c.rollback_cases t with ⟨_, hheld, h⟩ | ⟨-, h⟩
  · obtain ⟨hwaiting, -⟩ := hc.kept ht hheld
    rw [h]
    refine ⟨rfl, rfl, id, ?_, ?_, fun _ hnone => ?_, hc.no_run hwaiting⟩
    · rw [view_of_other ht hheld]
      rfl
    · rw [view_of_other ht hheld]
      exact id
    · cases hnone
  · rw [h]
    exact .refl c

theorem held_undisturbed (hc : SoundCell c) (ht : t ≠ .dispatch) (hfree : c.freeFor t) (hwaiting : (c.view t).waiting)
    (version : ChannelEventRow) : Undisturbed c ⟨c.committed, some (t, version)⟩ := by
  have hview : c.view .dispatch = c.committed := by
    rcases Cell.held_of_freeFor hfree with hnone | ⟨version, hheld⟩
    · exact view_of_none hnone
    · exact view_of_other ht hheld
  have hafter : (⟨c.committed, some (t, version)⟩ : Cell Tx ChannelEventRow).view .dispatch = c.committed :=
    view_of_other ht rfl
  refine ⟨rfl, rfl, id, ?_, ?_, fun _ hheld => ?_, hc.no_run (hc.committed_waiting ht hfree hwaiting).1⟩
  · rw [hafter, hview]
  · rw [hafter, hview]
    exact id
  · exact absurd (congrArg Prod.fst (Option.some.inj hheld)) ht

/-- What a step besides the dispatch pass makes of the rows. -/
inductive RowsAside (rows : List (Cell Tx ChannelEventRow)) : List (Cell Tx ChannelEventRow) → Prop where
  | each (f : Cell Tx ChannelEventRow → Cell Tx ChannelEventRow) (hf : ∀ c ∈ rows, Undisturbed c (f c)) :
      RowsAside rows (rows.map f)
  | arrives {row : ChannelEventRow} (hnew : ∀ c ∈ rows, c.committed.id ≠ row.id) (harrived : row.Arrived) :
      RowsAside rows (rows ++ [⟨row, none⟩])

theorem RowsAside.same (rows : List (Cell Tx ChannelEventRow)) : RowsAside rows rows := by
  have h : RowsAside rows (rows.map id) := .each id fun c _ => .refl c
  rwa [List.map_id] at h

inductive PassStep (settings : Settings) (w : World) : Input → World → Prop where
  | aside {input w'} (hdispatch : w'.dispatch = w.dispatch) (hchat : w'.chat = w.chat) (hattempts : w'.attempts = w.attempts)
      (hrows : RowsAside w.rows w'.rows) : PassStep settings w input w'
  | begins (hnone : w.dispatch = none) : PassStep settings w .beginDispatch { w with dispatch := some {} }
  | looks {now pass} (hpass : w.dispatch = some pass) (hleft : pass.left = []) (hwriting : pass.writing = [])
      (hstage : pass.stage ≠ .done) : PassStep settings w (.look now) { w with dispatch := some { pass with
        left := (pass.stage.look settings w.runStates (w.view .dispatch) now).1
        stage := (pass.stage.look settings w.runStates (w.view .dispatch) now).2 } }
  | handles {answer w' pass candidate rest} (h : Handles settings w answer w' pass candidate rest) :
      PassStep settings w (.handle answer) w'
  | writes {pass id edit rest} (hpass : w.dispatch = some pass) (hwriting : pass.writing = (id, edit) :: rest)
      (hfree : canWrite ChannelEventRow.id .dispatch id w.rows) : PassStep settings w .write { w with
        rows := writeRow ChannelEventRow.id .dispatch id edit.apply w.rows
        dispatch := some { pass with writing := rest } }
  | ends {pass} (hpass : w.dispatch = some pass) (hleft : pass.left = []) (hwriting : pass.writing = [])
      (hstage : pass.stage = .done) : PassStep settings w .endDispatch { w.commit .dispatch with dispatch := none }
  | crashes {pass} (hpass : w.dispatch = some pass) :
      PassStep settings w .crashDispatch { w.rollback .dispatch with dispatch := none }

variable {settings : Settings} {w w' : World} {input : Input} {u : Unit}

theorem step_aside (hw : w.Sound) (h : Step settings w input u w') : PassStep settings w input w' := by
  cases input with
  | arriveHeld =>
    obtain ⟨hnew, rfl⟩ := arrive_some (arriveHeld_some h).2
    exact .aside rfl rfl rfl (.arrives (unclaimed_new hnew) (arrived_held ..))
  | arriveUnsupported =>
    obtain ⟨hnew, rfl⟩ := arrive_some h
    exact .aside rfl rfl rfl (.arrives (unclaimed_new hnew) (arrived_unsupported ..))
  | arriveReceipt =>
    obtain ⟨hnew, rfl⟩ := arrive_some h
    exact .aside rfl rfl rfl (.arrives (unclaimed_new hnew) (arrived_receipt ..))
  | arriveCompaction =>
    obtain ⟨-, hnew, rfl⟩ := arriveCompaction_some h
    exact .aside rfl rfl rfl (.arrives (unclaimed_new hnew) (arrived_compaction ..))
  | dropHeld =>
    obtain ⟨f, hrows, hf⟩ := dropHeld_cells hw h
    obtain ⟨-, hafter⟩ := dropHeld_some h
    refine .aside (by rw [hafter]) (by rw [hafter]) (by rw [hafter]) (hrows ▸ .each f fun c hc => ?_)
    have hcell := hf c hc
    generalize f c = c' at hcell ⊢
    cases hcell with
    | untouched => exact .refl c
    | dropped hfree hwaiting =>
      exact held_undisturbed (hw.cells c hc) Tx.noConfusion hfree (Bool.and_eq_true_iff.mp hwaiting).2 _
  | endDelivery n commits =>
    cases h
    cases commits with
    | true => exact .aside rfl rfl rfl (.each _ fun c hc => commit_undisturbed (hw.cells c hc) Tx.noConfusion)
    | false => exact .aside rfl rfl rfl (.each _ fun c hc => rollback_undisturbed (hw.cells c hc) Tx.noConfusion)
  | beginGather =>
    obtain ⟨-, rfl⟩ := beginGather_some h
    exact .aside rfl rfl rfl (.same _)
  | gatherNext =>
    obtain ⟨pass, _, _, _, hnext⟩ := gatherNext_some h
    obtain ⟨f, hrows, hf⟩ := gatherNext_cells hw hnext
    have hafter := hnext.after
    refine .aside (by rw [hafter]) (by rw [hafter]) (by rw [hafter]) (hrows ▸ .each f fun c hc => ?_)
    have hcell := hf c hc
    generalize f c = c' at hcell ⊢
    cases hcell with
    | untouched => exact .refl c
    | written hfree hwaiting _ =>
      exact held_undisturbed (hw.cells c hc) Tx.noConfusion hfree (Bool.and_eq_true_iff.mp hwaiting).2 _
  | endGather =>
    obtain ⟨pass, -, ⟨-, rfl⟩ | ⟨-, rfl⟩⟩ := endGather_some h
    · exact .aside rfl rfl rfl (.each _ fun c hc => commit_undisturbed (hw.cells c hc) Tx.noConfusion)
    · exact .aside rfl rfl rfl (.each _ fun c hc => rollback_undisturbed (hw.cells c hc) Tx.noConfusion)
  | beginDispatch =>
    unfold Step perform at h
    dsimp only at h
    split at h
    · next hnone =>
      cases h
      exact .begins (Option.isNone_iff_eq_none.mp hnone)
    · cases h
  | look =>
    obtain ⟨pass, hpass, hleft, hwriting, hstage, rfl⟩ := look_some h
    exact .looks hpass hleft hwriting hstage
  | handle =>
    obtain ⟨_, _, _, hhandles⟩ := handle_some h
    exact .handles hhandles
  | write =>
    obtain ⟨pass, _, _, _, hpass, hwriting, hfree, rfl⟩ := write_some h
    exact .writes hpass hwriting hfree
  | endDispatch =>
    obtain ⟨pass, hpass, hleft, hwriting, hstage, rfl⟩ := endDispatch_some h
    exact .ends hpass hleft hwriting hstage
  | crashDispatch =>
    obtain ⟨_, hpass, rfl⟩ := crashDispatch_some h
    exact .crashes hpass
  | runMoves =>
    cases h
    exact .aside rfl rfl rfl (.same _)

theorem handle_shape {answer : Answer} {pass : DispatchPass} {candidate : Candidate} {rest : List Candidate}
    (h : Handles settings w answer w' pass candidate rest) (hshape : PassShape pass) :
    ∀ after, w'.dispatch = some after → PassShape after := by
  intro after hafter
  rw [h.after] at hafter
  cases hafter
  have htail : ∀ pending, .attempt pending ∉ rest := by
    have := hshape.tail
    rwa [h.first, List.tail_cons] at this
  have hrest {pending : PendingReply} {more : List Candidate} (hcons : rest = .attempt pending :: more) : False :=
    htail pending (hcons ▸ List.mem_cons_self ..)
  have hdistinct := hshape.distinct
  have hfresh := hshape.fresh
  rw [h.first] at hdistinct hfresh
  cases hreplies : candidate.replies with
  | none =>
    obtain ⟨hnext, hattempted, hrecord, -⟩ := handle_early settings (w.view .dispatch) answer hreplies
    rw [List.filterMap_cons_none hreplies] at hdistinct hfresh
    simp only [hnext, hattempted, Option.toList_none, List.nil_append, Bool.false_eq_true, if_false, List.append_nil]
    refine ⟨fun pending hmem => htail pending (List.mem_of_mem_tail hmem), fun pending more hcons => (hrest hcons).elim,
      fun id hmem => ?_, fun hstage => ?_, fun hstage other hmem => ?_, hdistinct, hfresh⟩
    · obtain ⟨edit, hedit, hpair⟩ := List.mem_map.mp hmem
      obtain ⟨-, rfl⟩ := Prod.mk.inj hpair
      exact absurd hedit hrecord
    · obtain ⟨hnone, hleft⟩ := hshape.early hstage
      exact ⟨hnone, fun other hmem => hleft other (h.first ▸ List.mem_cons_of_mem _ hmem)⟩
    · exact hshape.late hstage other (h.first ▸ List.mem_cons_of_mem _ hmem)
  | some id =>
    have hdone : pass.stage = .done := by
      by_contra hnot
      have := (hshape.early hnot).2 candidate (h.first ▸ List.mem_cons_self ..)
      exact Option.some_ne_none _ (hreplies.symm.trans this)
    have hlate : ∀ other ∈ rest, other.replies.isSome := fun other hmem =>
      hshape.late hdone other (h.first ▸ List.mem_cons_of_mem _ hmem)
    rw [List.filterMap_cons_some hreplies] at hdistinct hfresh
    cases candidate with
    | reply pending =>
      cases hreplies
      rcases dispatch_cases answer pending with ⟨_, hhandled⟩ | hhandled
      · simp only [Candidate.handle, hhandled, Option.toList_none, List.nil_append, Bool.false_eq_true, if_false,
          List.append_nil]
        refine ⟨fun pending hmem => htail pending (List.mem_of_mem_tail hmem), fun pending more hcons => (hrest hcons).elim,
          fun id hmem => ?_, fun hstage => absurd hdone hstage, fun _ => hlate, (List.nodup_cons.mp hdistinct).2,
          fun id hmem => hfresh id (List.mem_cons_of_mem _ hmem)⟩
        simp at hmem
      · simp only [Candidate.handle, hhandled, Option.toList_some, List.singleton_append, Bool.false_eq_true, if_false,
          List.append_nil, List.map_cons, List.map_nil]
        refine ⟨fun other hmem => htail other hmem, fun other more hcons => .inr ?_, fun id hmem => ⟨pending, rest, rfl⟩,
          fun hstage => absurd hdone hstage, fun _ other hmem => ?_, ?_, ?_⟩
        · obtain ⟨hhead, -⟩ := List.cons.inj hcons
          obtain rfl := Candidate.attempt.inj hhead
          rfl
        · rcases List.mem_cons.mp hmem with rfl | hmem
          · rfl
          · exact hlate other hmem
        · rw [List.filterMap_cons_some (by rfl)]
          exact hdistinct
        · rw [List.filterMap_cons_some (by rfl)]
          exact hfresh
    | attempt pending =>
      cases hreplies
      have hnext : (attemptAnswer settings answer pending).next = none := rfl
      have hattempted : (attemptAnswer settings answer pending).attempted = true := rfl
      simp only [Candidate.handle, hnext, hattempted, Option.toList_none, List.nil_append, if_true]
      refine ⟨fun pending hmem => htail pending (List.mem_of_mem_tail hmem), fun pending more hcons => (hrest hcons).elim,
        fun id hmem => ?_, fun hstage => absurd hdone hstage, fun _ => hlate, (List.nodup_cons.mp hdistinct).2,
        fun id hmem hattempt => ?_⟩
      · obtain ⟨_, hedit, hpair⟩ := List.mem_map.mp hmem
        obtain ⟨-, rfl⟩ := Prod.mk.inj hpair
        rcases attemptAnswer_writes settings answer pending with ⟨note, hwrites⟩ | ⟨-, -, _, hwrites⟩
        all_goals
          rw [hwrites] at hedit
          exact absurd (List.mem_singleton.mp hedit) Edit.noConfusion
      · rcases List.mem_append.mp hattempt with hattempt | hattempt
        · exact hfresh id (List.mem_cons_of_mem _ hmem) hattempt
        · obtain rfl := List.mem_singleton.mp hattempt
          exact (List.nodup_cons.mp hdistinct).1 hmem
    | _ => cases hreplies

theorem shape_step (hw : w.Sound) (h : PassStep settings w input w') (hshape : ∀ pass, w.dispatch = some pass → PassShape pass) :
    ∀ pass, w'.dispatch = some pass → PassShape pass := by
  cases h with
  | aside hdispatch => rwa [hdispatch]
  | begins _ =>
    intro pass hpass
    cases hpass
    exact ⟨fun _ => List.not_mem_nil, fun _ _ h => absurd h.symm (List.cons_ne_nil _ _), fun _ h => absurd h List.not_mem_nil,
      fun _ => ⟨rfl, fun _ h => absurd h List.not_mem_nil⟩, fun _ _ h => absurd h List.not_mem_nil, List.nodup_nil,
      fun _ h => absurd h List.not_mem_nil⟩
  | looks hpass hleft hwriting hstage =>
    intro pass hlooked
    cases hlooked
    have hids : (ids (w.view .dispatch)).Nodup := (hw.view_ids (t := .dispatch) (List.Subset.refl w.rows)) ▸ hw.unique
    exact look_shape (hshape _ hpass) hids hwriting hstage
  | handles h => exact handle_shape h (hshape _ h.opened)
  | @writes pass id edit rest hpass hwriting _ =>
    intro _ hafter
    cases hafter
    have hbefore := hshape pass hpass
    refine ⟨hbefore.tail, fun pending more hcons => ?_, fun id hmem => ?_, hbefore.early, hbefore.late, hbefore.distinct,
      hbefore.fresh⟩
    · rcases hbefore.counting pending more hcons with hnone | hone
      · rw [hwriting] at hnone
        exact absurd hnone (List.cons_ne_nil _ _)
      · rw [hwriting] at hone
        exact .inl (List.cons.inj hone).2
    · exact hbefore.record id (hwriting ▸ List.mem_cons_of_mem _ hmem)
  | ends _ _ _ _ => exact fun _ hnone => absurd hnone.symm (Option.some_ne_none _)
  | crashes _ => exact fun _ hnone => absurd hnone.symm (Option.some_ne_none _)

def World.Idle (w : World) : Prop := w.dispatch = none → ∀ c ∈ w.rows, ∀ version, c.held ≠ some (.dispatch, version)

theorem World.Idle.view (h : w.Idle) (hnone : w.dispatch = none) (hc : c ∈ w.rows) : c.view .dispatch = c.committed := by
  cases hheld : c.held with
  | none => exact view_of_none hheld
  | some held =>
    obtain ⟨_, version⟩ := held
    exact view_of_other (fun ht => h hnone c hc version (ht ▸ hheld)) hheld

theorem idle_step (h : PassStep settings w input w') (hidle : w.Idle) : w'.Idle := by
  cases h with
  | aside hdispatch _ _ hrows =>
    intro hnone c hc version hheld
    generalize hrows' : w'.rows = rows' at hrows
    rw [hrows'] at hc
    cases hrows with
    | each f hf =>
      obtain ⟨old, hold, rfl⟩ := List.mem_map.mp hc
      exact hidle (hdispatch ▸ hnone) old hold version ((hf old hold).held version hheld)
    | arrives =>
      rcases List.mem_append.mp hc with hc | hc
      · exact hidle (hdispatch ▸ hnone) c hc version hheld
      · obtain rfl := List.mem_singleton.mp hc
        cases hheld
  | begins _ => exact fun hnone => absurd hnone (Option.some_ne_none _)
  | looks _ _ _ _ => exact fun hnone => absurd hnone (Option.some_ne_none _)
  | handles h =>
    intro hnone
    rw [h.after] at hnone
    cases hnone
  | writes _ _ _ => exact fun hnone => absurd hnone (Option.some_ne_none _)
  | ends _ _ _ _ =>
    intro _ c hc version
    obtain ⟨old, -, rfl⟩ := List.mem_map.mp hc
    exact Cell.commit_held .dispatch old version
  | crashes _ =>
    intro _ _ hc version
    obtain ⟨old, -, rfl⟩ := List.mem_map.mp hc
    exact Cell.rollback_held .dispatch old version

structure World.InTurn (w : World) : Prop where
  sound : w.Sound
  shape : ∀ pass, w.dispatch = some pass → PassShape pass
  idle : w.Idle

theorem inTurn_start : ({} : World).InTurn :=
  ⟨sound_start, fun _ hnone => absurd hnone.symm (Option.some_ne_none _), fun _ _ hc => absurd hc List.not_mem_nil⟩

theorem World.InTurn.step (hw : w.InTurn) (h : Step settings w input u w') : w'.InTurn := by
  have hpass := step_aside hw.sound h
  exact ⟨hw.sound.step h, shape_step hw.sound hpass hw.shape, idle_step hpass hw.idle⟩

end Aside
end TinyHermes.Channels
