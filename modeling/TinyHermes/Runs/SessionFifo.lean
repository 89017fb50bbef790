import TinyHermes.Lib.HeadQueue
import TinyHermes.Runs.Operations

/-! The Session FIFO invariant: the store's Sessions and Runs are a board of lanes, and every
transaction is a sequence of the board's moves. -/
namespace TinyHermes.Runs.SessionFifo
open Lib HeadQueue SqlRunStore StateMachine Tx

def itemOf (run : RunRow) : Item Uuid Uuid where
  lane := run.sessionId
  seq := run.sessionSequence
  live := !run.status.isTerminal
  blocker := run.blockedByRunId

def laneOf (session : SessionRow) : Lane Uuid where
  head := session.headRunId
  next := session.nextRunSequence

def board (s : Store) : Board Uuid Uuid where
  lane k := (s.sessions.lookup k).map laneOf
  item i := (s.runs.lookup i).map itemOf

def Fifo (s : Store) : Prop := WellOrdered (board s)

variable {s : Store}

theorem board_ext {s' : Store} (hlane : ∀ k, (board s').lane k = (board s).lane k)
    (hitem : ∀ i, (board s').item i = (board s).item i) : board s' = board s := by
  have h₁ := funext hlane
  have h₂ := funext hitem
  generalize board s = b at *
  generalize board s' = b' at *
  cases b
  cases b'
  simp_all

theorem itemOf_inPlace {r r' : RunRow} (h : r.InPlace r') : itemOf r' = itemOf r := by
  simp [itemOf, h.sessionId, h.sessionSequence, h.blockedByRunId, h.terminal]

theorem laneOf_inPlace {r r' : SessionRow} (h : r.InPlace r') : laneOf r' = laneOf r := by
  simp [laneOf, h.headRunId, h.nextRunSequence]

variable {runId : Uuid}

theorem board_modifyRun {f : RunRow → RunRow}
    (h : ∀ r, s.runs.lookup runId = some r → itemOf (f r) = itemOf r) :
    board { s with runs := s.runs.modify runId f } = board s := by
  refine board_ext (fun _ => rfl) fun i => ?_
  change ((s.runs.modify runId f).lookup i).map itemOf = (s.runs.lookup i).map itemOf
  rw [Table.lookup_modify]
  split
  · next hi =>
    subst hi
    cases hr : s.runs.lookup i with
    | none => rfl
    | some r => simp [h r hr]
  · rfl

variable {sessionId : Uuid}

theorem board_modifySession {f : SessionRow → SessionRow}
    (h : ∀ r, laneOf (f r) = laneOf r) : board { s with sessions := s.sessions.modify sessionId f } = board s := by
  refine board_ext (fun k => ?_) fun _ => rfl
  change ((s.sessions.modify sessionId f).lookup k).map laneOf = (s.sessions.lookup k).map laneOf
  rw [Table.lookup_modify]
  split
  · rw [Option.map_map]
    exact congrArg (Option.map · _) (funext h)
  · rfl

theorem appendEvents_keeps {env : Env} {workspaceId : Uuid} {events : List ReservedEvent} :
    Within (Keeping Fifo) (appendEvents env workspaceId runId events) := by
  refine Within.ite (fun _ => Within.pure _) fun _ => Within.bind (Within.fetch _ _) fun run => ?_
  refine Within.write fun s hs => ?_
  unfold Fifo at *
  have hboard : board { s with runs := s.runs.modify runId fun r =>
      { r with nextEventSequence := r.nextEventSequence + events.length } } = board s := board_modifyRun fun _ _ => rfl
  rw [← hboard] at hs
  exact hs

theorem insertSession_keeps {row : SessionRow} (hhead : row.headRunId = none)
    (hnext : row.nextRunSequence = 1) : Within (Keeping Fifo) (insertSession sessionId row) := by
  intro s _ _ h hs
  simp only [insertSession, get_bind, require_bind_ok, write_ok] at h
  obtain ⟨hfree, rfl⟩ := h
  refine Opened.wellOrdered (b := board s) (k := sessionId) ⟨?_, ?_, fun k hk => ?_, fun _ => rfl⟩ hs
  · simp [board, hfree]
  · simp [board, laneOf, hhead, hnext]
  · simp [board, AList.lookup_insert_ne hk]

theorem joinSession_keeps {row : RunRow} (hstatus : row.status = .queued) :
    Within (Keeping Fifo) (joinSession sessionId runId row) := by
  intro s _ _ h hs
  simp only [joinSession, insertRun, modifySession, bind_assoc, fetch_bind_ok, get_bind, require_bind_ok, write_bind,
    write_ok] at h
  obtain ⟨session, hsession, _, hfree, rfl⟩ := h
  refine Enqueued.wellOrdered (b := board s) (k := sessionId) (i := runId) (l := laneOf session)
    ⟨?_, ?_, ?_, fun k hk => ?_, ?_, fun j hj => ?_⟩ hs
  · simp [board, hfree]
  · simp [board, hsession]
  · cases hh : session.headRunId <;> simp [board, hsession, laneOf, hh]
  · simp [board, Table.lookup_modify_of_ne hk]
  · simp [board, itemOf, laneOf, hstatus, RunState.isTerminal]
  · simp [board, AList.lookup_insert_ne hj]

theorem successorCandidate_first {id : Uuid} {row : RunRow}
    (h : successorCandidate s sessionId runId = some (id, row)) : (board s).First sessionId (· ≠ runId) id := by
  have hmem := Table.mem_select.mp (List.argmin_mem h)
  obtain ⟨hrow, hcond⟩ := hmem
  simp only [Bool.and_eq_true, decide_eq_true_eq, Bool.not_eq_true'] at hcond
  obtain ⟨⟨hsession, hne⟩, hlive⟩ := hcond
  refine ⟨hne, itemOf row, ⟨by simp [board, hrow], hsession, by simp [itemOf, hlive]⟩, ?_⟩
  rintro j _ hj ⟨hjt, hlane, hjlive⟩
  simp only [board, Option.map_eq_some_iff] at hjt
  obtain ⟨jrow, hjrow, rfl⟩ := hjt
  have hjmem : (j, jrow) ∈ s.runs.select fun id run =>
      run.sessionId = sessionId && id ≠ runId && !run.status.isTerminal := by
    refine Table.mem_select.mpr ⟨hjrow, ?_⟩
    have h₁ : jrow.sessionId = sessionId := hlane
    have h₂ : jrow.status.isTerminal = false := by simpa [itemOf] using hjlive
    simp [h₁, h₂, hj]
  exact List.le_of_mem_argmin (f := fun e : Uuid × RunRow => e.2.sessionSequence) hjmem h

theorem successorCandidate_none
    (h : successorCandidate s sessionId runId = none) (j : Uuid) (jt : Item Uuid Uuid) (hj : j ≠ runId) :
    ¬ (board s).Live sessionId j jt := by
  rintro ⟨hjt, hlane, hjlive⟩
  simp only [board, Option.map_eq_some_iff] at hjt
  obtain ⟨jrow, hjrow, rfl⟩ := hjt
  have hnil := List.argmin_eq_none.mp h
  have hjmem : (j, jrow) ∈ s.runs.select fun id run =>
      run.sessionId = sessionId && id ≠ runId && !run.status.isTerminal := by
    refine Table.mem_select.mpr ⟨hjrow, ?_⟩
    have h₁ : jrow.sessionId = sessionId := hlane
    have h₂ : jrow.status.isTerminal = false := by simpa [itemOf] using hjlive
    simp [h₁, h₂, hj]
  rw [hnil] at hjmem
  cases hjmem

/-- What `passHead` does to the items of the board. -/
private def passedItem (sessionId runId : Uuid) (succ : Option Uuid) (j : Uuid) (it : Item Uuid Uuid) : Item Uuid Uuid :=
  let freed := if succ = some j then { it with blocker := none } else it
  if freed.lane = sessionId ∧ freed.blocker = some runId ∧ j ≠ succ.getD runId then { freed with blocker := succ }
  else freed

private theorem passedItem_eq {succ : Option Uuid} {j : Uuid} (hj : j ≠ runId)
    (it : Item Uuid Uuid) : passedItem sessionId runId succ j it = repointed sessionId runId succ j it := by
  unfold passedItem repointed
  by_cases hs : succ = some j
  · simp [hs]
  · have hne : j ≠ succ.getD runId := by
      cases succ with
      | none => exact hj
      | some => exact fun hc => hs (by rw [hc]; rfl)
    simp [hs, hne]

private theorem passedItem_self {succ : Option Uuid} (hs : succ ≠ some runId)
    {it : Item Uuid Uuid} (hfree : it.blocker = none) : passedItem sessionId runId succ runId it = it := by
  simp [passedItem, hs, hfree]

private theorem passHead_board {env : Env} {succ : Option Uuid} {s' : Store} {u : Unit}
    (h : passHead env sessionId runId succ s = .ok (u, s')) :
    (∀ k, (board s').lane k =
      if k = sessionId then ((board s).lane k).map fun l => { l with head := succ } else (board s).lane k) ∧
    (∀ j, (board s').item j = ((board s).item j).map (passedItem sessionId runId succ j)) := by
  have hlane : ∀ k, ((s.sessions.modify sessionId fun row => { row with headRunId := succ }).lookup k).map laneOf =
      if k = sessionId then ((s.sessions.lookup k).map laneOf).map fun l => { l with head := succ }
      else (s.sessions.lookup k).map laneOf := by
    intro _
    rw [Table.lookup_modify]
    split
    · simp [Function.comp_def, laneOf]
    · rfl
  cases succ with
  | none =>
    obtain rfl : s' = _ := by
      simpa [passHead, modifySession, repointBlocked, Tx.forEach, pure_bind_run, write_bind, write_ok] using h
    refine ⟨hlane, fun j => ?_⟩
    simp only [board, Table.lookup_mapRows, Option.map_map]
    refine congrArg (Option.map · _) (funext fun r => ?_)
    simp only [Function.comp_apply, passedItem, reduceCtorEq, if_false, Option.getD_none, itemOf]
    split <;> rfl
  | some n =>
    obtain rfl : s' = _ := by
      simpa [passHead, modifySession, modifyRun, repointBlocked, Tx.forEach, bind_assoc, pure_bind_run, write_bind,
        write_ok] using h
    refine ⟨hlane, fun j => ?_⟩
    simp only [board, Table.lookup_mapRows, Table.modify, Option.map_map]
    refine congrArg (Option.map · _) (funext fun r => ?_)
    simp only [Function.comp_apply, passedItem, Option.some.injEq, Option.getD_some, itemOf]
    by_cases hj : n = j
    · subst hj
      simp
    · have hj' : j ≠ n := fun h => hj h.symm
      simp only [hj, hj', if_false, ne_eq, not_false_eq_true, and_true]
      by_cases hc : r.sessionId = sessionId ∧ r.blockedByRunId = some runId
      · rw [if_pos hc, if_pos hc]
      · rw [if_neg hc, if_neg hc]

/-- `terminalize` either finds that its Run was not the head, or passes the lane on. -/
private theorem terminalize_board {env : Env} {s' : Store} {u : Unit}
    (h : terminalize env runId s = .ok (u, s')) :
    ∃ run session t, s.runs.lookup runId = some run ∧ s.sessions.lookup run.sessionId = some session ∧
      board t = board s ∧
      ((session.headRunId ≠ some runId ∧ s' = t) ∨
        (session.headRunId = some runId ∧
          passHead env run.sessionId runId ((successorCandidate t run.sessionId runId).map (·.1)) t = .ok (u, s'))) := by
  simp only [terminalize, modifyRun, fetch_bind_ok, get_bind, write_bind] at h
  obtain ⟨run, hrun, session, hsession, h⟩ := h
  have hreport : ∀ r : RunRow, itemOf (if run.parentRunId.isSome ∧ run.delegationResult = none then
      { r with delegationResult := some (childResultFor env s runId run) } else r) = itemOf r := by
    intro r
    split <;> rfl
  by_cases hhead : session.headRunId = some runId
  · rw [if_neg (not_not.mpr hhead), get_bind] at h
    refine ⟨run, session, _, hrun, hsession, ?_, .inr ⟨hhead, h⟩⟩
    exact board_modifyRun fun r _ => hreport r
  · rw [if_pos hhead, pure_ok] at h
    refine ⟨run, session, _, hrun, hsession, ?_, .inl ⟨hhead, h.2.symm⟩⟩
    exact board_modifyRun fun r _ => hreport r

private theorem retire_keeps {env : Env} {run : RunRow} {s₁ s' : Store} {u : Unit} (hs : Fifo s)
    (hrun : s.runs.lookup runId = some run) (h : terminalize env runId s₁ = .ok (u, s'))
    (hlane : ∀ k, (board s₁).lane k = (board s).lane k)
    (hself : (board s₁).item runId = some { itemOf run with live := false, blocker := none })
    (hother : ∀ j, j ≠ runId → (board s₁).item j = (board s).item j) : Fifo s' := by
  obtain ⟨run₁, session, t, hrun₁, hsession, ht, h⟩ := terminalize_board h
  have hid : run₁.sessionId = run.sessionId := by
    have : (board s₁).item runId = some (itemOf run₁) := by simp [board, hrun₁]
    exact congrArg Item.lane (Option.some.inj (this.symm.trans hself))
  rw [hid] at hsession h
  have hitem : (board s).item runId = some (itemOf run) := by simp [board, hrun]
  have hbefore : (board s).lane run.sessionId = some (laneOf session) := by
    rw [← hlane]
    simp [board, hsession]
  have hlive : ∀ k j jt, j ≠ runId → ((board t).Live k j jt ↔ (board s).Live k j jt) := by
    intro k j jt hj
    rw [ht, Board.Live, hother j hj, Board.Live]
  rcases h with ⟨hhead, rfl⟩ | ⟨hhead, hpass⟩
  · have hmove : Stepped (board s) (board s') runId (itemOf run) (laneOf session) := by
      refine ⟨hitem, hbefore, hhead, fun k => ?_, ?_, fun j hj => ?_⟩
      · rw [ht, hlane]
      · rw [ht, hself]
      · rw [ht, hother j hj]
    exact hmove.wellOrdered hs
  · generalize hsucc : (successorCandidate t run.sessionId runId).map (·.1) = succ at hpass
    obtain ⟨hl, hi⟩ := passHead_board hpass
    rw [ht] at hl hi
    have hfirst : ∀ n, succ = some n → (board s).First run.sessionId (· ≠ runId) n := by
      rintro _ rfl
      obtain ⟨⟨_, _⟩, hm, rfl⟩ := Option.map_eq_some_iff.mp hsucc
      obtain ⟨hne, it, hit, hmin⟩ := successorCandidate_first hm
      exact ⟨hne, it, (hlive _ _ _ hne).mp hit, fun j jt hj hjt => hmin j jt hj ((hlive _ _ _ hj).mpr hjt)⟩
    have hnot : succ ≠ some runId := fun hc => (hfirst runId hc).1 rfl
    have hmove : Passed (board s) (board s') runId (itemOf run) (laneOf session) succ := by
      refine ⟨hitem, hbefore, hhead, hfirst, fun hnone j jt hj hjt => ?_, ?_, fun k hk => ?_, ?_, fun j hj => ?_⟩
      · subst hnone
        exact successorCandidate_none (Option.map_eq_none_iff.mp hsucc) j jt hj ((hlive _ _ _ hj).mpr hjt)
      · rw [hl]
        simp [itemOf, hlane, hbefore]
      · have hk' : k ≠ run.sessionId := hk
        rw [hl, if_neg hk', hlane]
      · rw [hi, hself, Option.map_some, passedItem_self hnot rfl]
      · rw [hi, hother j hj]
        exact congrArg (Option.map · _) (funext fun it => passedItem_eq hj it)
    exact hmove.wellOrdered hs

theorem decideAndWrite_keeps {env : Env} {signal : RunSignal} {args : SignalArgs} :
    Within (Keeping Fifo) (decideAndWrite env runId signal args) := by
  intro _ _ _ h hs
  simp only [decideAndWrite, modifyRun, fetch_bind_ok, lift_bind_ok, write_bind] at h
  obtain ⟨run, hrun, budget, _, d, hd, h⟩ := h
  obtain ⟨_, _, hterm, hev⟩ := bind_ok.mp h
  refine appendEvents_keeps hev ?_
  have hlive : run.status.isTerminal = false := by
    cases hdec : RunStateMachine.decide (stateView run budget env.now) signal args.pauseReason args.waitKind
      args.waitDeadlineAt with
    | error =>
      rw [hdec] at hd
      cases hd
    | ok => exact decide_live hdec
  rcases onlyIf_ok.mp hterm with ⟨hfinal, hterm⟩ | ⟨hopen, rfl⟩
  · refine retire_keeps hs hrun hterm (fun _ => rfl) ?_ fun j hj => ?_
    · have : d.state.isTerminal = true := hfinal
      simp [board, hrun, itemOf, decidedRow, applyDecision, StateDecision.isTerminal, this]
    · simp [board, Table.lookup_modify_of_ne hj]
  · unfold Fifo
    rw [board_modifyRun]
    · exact hs
    · intro _ hr
      cases hrun.symm.trans hr
      have : d.state.isTerminal = false := by simpa [StateDecision.isTerminal] using hopen
      simp [itemOf, decidedRow, applyDecision, StateDecision.isTerminal, this, hlive]

section Repair
variable {env : Env}

private theorem liveRuns_live {id : Uuid} {it : Item Uuid Uuid} :
    (board s).Live sessionId id it ↔ ∃ row, (id, row) ∈ liveRuns s sessionId ∧ it = itemOf row := by
  simp only [Board.Live, board, mem_liveRuns, Option.map_eq_some_iff]
  constructor
  · rintro ⟨⟨row, hrow, rfl⟩, hlane, hlive⟩
    exact ⟨row, ⟨hrow, hlane, by simpa [itemOf] using hlive⟩, rfl⟩
  · rintro ⟨row, ⟨hrow, hlane, hlive⟩, rfl⟩
    exact ⟨⟨row, hrow, rfl⟩, hlane, by simp [itemOf, hlive]⟩

private theorem liveRuns_head {session : SessionRow} (hs : Fifo s)
    (hsession : s.sessions.lookup sessionId = some session) :
    (liveRuns s sessionId).head?.map (·.1) = session.headRunId := by
  have hlane : (board s).lane sessionId = some (laneOf session) := by simp [board, hsession]
  have hordered : LaneOrdered (board s) sessionId session.headRunId := hs.ordered sessionId _ hlane
  cases hlive : liveRuns s sessionId with
  | nil =>
    cases hhead : session.headRunId with
    | none => rfl
    | some h =>
      obtain ⟨_, _, hit, _⟩ := hordered.first h hhead
      obtain ⟨row, hmem, _⟩ := liveRuns_live.mp hit
      rw [hlive] at hmem
      cases hmem
  | cons e =>
    obtain ⟨id, row⟩ := e
    have hmem : (id, row) ∈ liveRuns s sessionId := by rw [hlive]; exact List.mem_cons_self
    have hfirst : (board s).First sessionId (fun _ => True) id := by
      refine ⟨trivial, itemOf row, liveRuns_live.mpr ⟨row, hmem, rfl⟩, fun j jt _ hjt => ?_⟩
      obtain ⟨_, hj, rfl⟩ := liveRuns_live.mp hjt
      have hsorted := liveRuns_sorted s sessionId
      rw [hlive] at hj hsorted
      rcases List.mem_cons.mp hj with heq | hrest
      · rw [(Prod.mk.inj heq).2]
      · exact List.rel_of_pairwise_cons hsorted hrest
    cases hhead : session.headRunId with
    | none => exact absurd (liveRuns_live.mpr ⟨row, hmem, rfl⟩) (hordered.empty hhead id _)
    | some h => exact congrArg some (hs.unique_first hfirst (hordered.first h hhead))

theorem repairSessionHead_eq {session : SessionRow} (hs : Fifo s)
    (hsession : s.sessions.lookup sessionId = some session) :
    repairSessionHead env sessionId s = .ok ({ changed := false, headRunId := none }, s) := by
  have hlane : (board s).lane sessionId = some (laneOf session) := by simp [board, hsession]
  have hordered : LaneOrdered (board s) sessionId session.headRunId := hs.ordered sessionId _ hlane
  have hright : ((liveRuns s sessionId).filter fun e =>
      e.2.blockedByRunId ≠ if some e.1 = session.headRunId then none else session.headRunId) = [] := by
    refine List.filter_eq_nil_iff.mpr ?_
    rintro ⟨id, row⟩ hmem
    have hlive := liveRuns_live.mpr ⟨row, hmem, rfl⟩
    cases hhead : session.headRunId with
    | none => exact absurd hlive (hordered.empty hhead id _)
    | some x =>
      by_cases hx : id = x
      · subst hx
        have hfree : row.blockedByRunId = none := hordered.free id _ hhead hlive
        simp [hfree]
      · have hbehind : row.blockedByRunId = some x := hordered.behind x id _ hhead hlive hx
        simp [hbehind, hx]
  simp only [repairSessionHead, fetch_bind_run, hsession, get_bind]
  rw [liveRuns_head hs hsession, if_pos ⟨rfl, hright⟩]
  rfl

theorem fifo_closed : Closed (Keeping Fifo) where
  aside s s' hruns hsessions hs := by
    have hboard : board s' = board s := by
      unfold board
      rw [hruns, hsessions]
    unfold Fifo at *
    rwa [hboard]
  run s runId f h hs := by
    unfold Fifo at *
    rw [board_modifyRun fun r hr => itemOf_inPlace (h r hr)]
    exact hs
  session s sessionId f h hs := by
    unfold Fifo at *
    rw [board_modifySession fun r => laneOf_inPlace (h r)]
    exact hs
  opens sessionId row hhead hnext := insertSession_keeps hhead hnext
  joins sessionId runId row hstatus := joinSession_keeps hstatus
  decides env runId signal args := decideAndWrite_keeps
  repairs env sessionId s result s' h hs := by
    obtain ⟨_, hsession, _⟩ := fetch_bind_ok.mp h
    rw [repairSessionHead_eq hs hsession] at h
    obtain ⟨_, rfl⟩ := Prod.mk.inj (Except.ok.inj h)
    exact hs

end Repair

theorem fifo_empty : Fifo {} := by
  have hitem : ∀ i, (board {}).item i = none := fun _ => rfl
  have hlane : ∀ k, (board {}).lane k = none := fun _ => rfl
  refine ⟨fun i it h => ?_, fun i j it jt h => ?_, fun k l h => ?_, fun i it h => ?_⟩
  · rw [hitem] at h
    cases h
  · rw [hitem] at h
    cases h
  · rw [hlane] at h
    cases h
  · rw [hitem] at h
    cases h

theorem reachable_fifo (h : ReachableStore s) : Fifo s :=
  h.invariant fifo_empty fun _ i _ _ hstep hs => Operations.exec_within fifo_closed i.2 hstep hs

def Unfinished (s : Store) (sessionId runId : Uuid) (run : RunRow) : Prop :=
  s.runs.lookup runId = some run ∧ run.sessionId = sessionId ∧ run.status.isTerminal = false

/-- One Session as its callers may rely on it: the head is the first unfinished Run, it waits for
nobody, and everybody else who is unfinished waits for it. -/
structure InOrder (s : Store) (sessionId : Uuid) (session : SessionRow) : Prop where
  head_none_iff : session.headRunId = none ↔ ∀ runId run, ¬ Unfinished s sessionId runId run
  head_first : ∀ head, session.headRunId = some head → ∃ row, Unfinished s sessionId head row ∧
    row.blockedByRunId = none ∧
    ∀ runId run, Unfinished s sessionId runId run → row.sessionSequence ≤ run.sessionSequence ∧
      (runId ≠ head → row.sessionSequence < run.sessionSequence ∧ run.blockedByRunId = some head)
  finished_free : ∀ runId run, s.runs.lookup runId = some run → run.sessionId = sessionId →
    run.status.isTerminal = true → run.blockedByRunId = none

private theorem Unfinished.live {run : RunRow}
    (h : Unfinished s sessionId runId run) : (board s).Live sessionId runId (itemOf run) :=
  ⟨by simp [board, h.1], h.2.1, by simp [itemOf, h.2.2]⟩

private theorem unfinished_of_live {it : Item Uuid Uuid}
    (h : (board s).Live sessionId runId it) : ∃ run, Unfinished s sessionId runId run ∧ it = itemOf run := by
  obtain ⟨row, hmem, rfl⟩ := liveRuns_live.mp h
  exact ⟨row, mem_liveRuns.mp hmem, rfl⟩

private theorem Fifo.inOrder {session : SessionRow} (hs : Fifo s)
    (hsession : s.sessions.lookup sessionId = some session) : InOrder s sessionId session := by
  have hlane : (board s).lane sessionId = some (laneOf session) := by simp [board, hsession]
  have hordered : LaneOrdered (board s) sessionId session.headRunId := hs.ordered sessionId _ hlane
  refine ⟨⟨fun hnone runId run hu => hordered.empty hnone runId _ hu.live, fun hnone => ?_⟩, fun head hhead => ?_,
    fun runId run hrun hid hfinal => ?_⟩
  · cases hhead : session.headRunId with
    | none => rfl
    | some head =>
      obtain ⟨_, it, hit, _⟩ := hordered.first head hhead
      obtain ⟨run, hu, _⟩ := unfinished_of_live hit
      exact absurd hu (hnone head run)
  · obtain ⟨_, _, hit, hmin⟩ := hordered.first head hhead
    obtain ⟨row, hu, rfl⟩ := unfinished_of_live hit
    refine ⟨row, hu, hordered.free head _ hhead hit, fun runId run hrun => ?_⟩
    have hle : row.sessionSequence ≤ run.sessionSequence := hmin runId _ trivial hrun.live
    refine ⟨hle, fun hne => ⟨lt_of_le_of_ne hle fun heq => hne ?_, hordered.behind head runId _ hhead hrun.live hne⟩⟩
    exact hs.seq_inj runId head _ _ hrun.live.1 hit.1 (hrun.live.2.1.trans hit.2.1.symm) heq.symm
  · exact hs.dead runId (itemOf run) (by simp [board, hrun]) (by simp [itemOf, hfinal])

/-- In every state the platform can reach every Session is in order, and repairing it changes nothing. -/
theorem sessions_in_order :
    ∀ s, ReachableStore s → ∀ sessionId session, s.sessions.lookup sessionId = some session →
      InOrder s sessionId session ∧
        ∀ env, repairSessionHead env sessionId s = .ok ({ changed := false, headRunId := none }, s) := by
  intro _ hreach _ _ hsession
  have hs := reachable_fifo hreach
  exact ⟨hs.inOrder hsession, fun env => repairSessionHead_eq hs hsession⟩

def twoAsked : List (Env × Op) :=
  [(clock 0, openSession 2), (clock 1, ask 2 3 "first"), (clock 2, ask 2 4 "second"), (clock 3, take 5)]

theorem two_asked_in_order :
    ∃ session, (attempt twoAsked).2.sessions.lookup 2 = some session ∧ session.headRunId = some 3 ∧
      ((attempt twoAsked).2.runs.lookup 4).map (·.blockedByRunId) = some (some 3) ∧
      InOrder (attempt twoAsked).2 2 session :=
  ⟨_, rfl, rfl, rfl, (sessions_in_order _ ⟨_, attempt_executes twoAsked⟩ 2 _ rfl).1⟩

end TinyHermes.Runs.SessionFifo
