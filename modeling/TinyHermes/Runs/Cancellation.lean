import TinyHermes.Runs.RunMoves
import TinyHermes.Runs.Scheduler
import TinyHermes.Runs.WorkerSlices

/-! Runs that are being cancelled: `_record` cancels in one transaction, `_dispose_after_commit` in two, and the first of them
already gives the lease back. -/
namespace TinyHermes.Runs.Cancellation
open Lib Tx SqlRunStore StateMachine Worker Scheduler RunMoves Relation

/-- Every Run that is being cancelled will be picked by some scan whose step can move it on. -/
def NoneStranded (s : Store) : Prop :=
  ∀ runId row, s.runs.lookup runId = some row → row.status = .cancelling →
    ∃ now signal, Picks now s runId signal ∧ (transitions row.status signal).isSome

/-- The next transaction of a slice is a `SAFE_CANCEL_STARTED` on its own. -/
def startsCancel (w : World) : Act → Bool
  | .applyNext leaseId =>
    (w.slices.lookup leaseId).any fun slice =>
      match slice.phase with
      | .applying (command :: _) => command.signal = .safeCancelStarted
      | _ => false
  | _ => false

section Quiet

def NotCancelling (v : RunView) : Prop := ∀ row, v.row = some row → row.status ≠ .cancelling

structure NoStart (A : Allowed) : Prop where
  applies : ¬ A.applies .safeCancelStarted
  records : ∀ cmd, A.records cmd → cmd.signal ≠ some .safeCancelStarted

theorem transitions_cancelling {st : RunState} {signal : RunSignal} (h : transitions st signal = some .cancelling) :
    signal = .safeCancelStarted := by
  cases st <;> cases signal <;> simp [transitions] at h ⊢

theorem decides_not_cancelling {row : RunRow} {signal : RunSignal} {d : StateDecision} (h : Decides row signal d)
    (hsignal : signal ≠ .safeCancelStarted) : d.state ≠ .cancelling := by
  intro hstate
  rcases h.cases with ⟨_, hrunning, _⟩ | hmoved
  · rw [hrunning] at hstate
    cases hstate
  · rw [hstate] at hmoved
    exact hsignal (transitions_cancelling hmoved)

variable {A : Allowed} {v v' : RunView}

theorem notCancelling_of_beside (hb : v.Beside v') (h : NotCancelling v) : NotCancelling v' := by
  intro _ hrow' hstatus
  have hsame := hb.map_row (f := RunRow.status) fun r r' hr => by rw [hr]
  rw [hrow', Option.map_some, eq_comm, Option.map_eq_some_iff] at hsame
  obtain ⟨row, hrow, heq⟩ := hsame
  exact h row hrow (heq.trans hstatus)

theorem notCancelling_move (hA : NoStart A) (hmove : RunMove A v v') (h : NotCancelling v) : NotCancelling v' := by
  cases hmove with
  | beside hb => exact notCancelling_of_beside hb h
  | born hnew hrow =>
    rintro _ ⟨rfl⟩ hstatus
    rw [hrow.queued] at hstatus
    cases hstatus
  | claimed now hrow hd =>
    rintro _ ⟨rfl⟩
    exact decides_not_cancelling hd (by decide)
  | renewed => exact h
  | sent hrow =>
    rintro _ ⟨rfl⟩
    have hkept := h _ hrow
    exact hkept
  | recorded now hrow =>
    rintro _ ⟨rfl⟩
    have hkept := h _ hrow
    exact hkept
  | ended now hrow hrecord hsignal _ _ hd =>
    rintro _ ⟨rfl⟩
    refine decides_not_cancelling hd fun hstart => hA.records _ hrecord ?_
    rw [hsignal, hstart]
  | signalled clears now hrow happly hd =>
    rintro _ ⟨rfl⟩
    rw [cleaned_status]
    refine decides_not_cancelling hd fun hstart => hA.applies ?_
    rwa [← hstart]
  | swept now hrow hsignal hd =>
    rintro _ ⟨rfl⟩
    refine decides_not_cancelling hd fun hstart => ?_
    rw [hstart] at hsignal
    revert hsignal
    decide
  | reclaimed now hrow hd =>
    rintro _ ⟨rfl⟩
    exact decides_not_cancelling hd (by decide)
  | told hrow =>
    rintro _ ⟨rfl⟩
    have hkept := h _ hrow
    exact hkept

end Quiet

section Steps
variable {env : Env} {s s' : Store}

theorem exec_notCancelling {op : Op} {answer : Answer} (hexec : exec env op s = .ok (answer, s'))
    (hop : ∀ id, NoStart (op.allows id)) (h : ∀ id, NotCancelling (view s id)) (id : Uuid) :
    NotCancelling (view s' id) :=
  keep_moves (fun _ _ => notCancelling_move (hop id)) (exec_moves op hexec id) (h id)

/-- `_record` of a cancellation leaves its Run cancelled. -/
theorem recordRound_notCancelling {cmd : RecordSliceCommand} {u : Unit} (hround : recordRound env cmd s = .ok (u, s'))
    (h : ∀ id, NotCancelling (view s id)) (id : Uuid) : NotCancelling (view s' id) := by
  by_cases hstart : cmd.signal = some .safeCancelStarted
  · obtain ⟨_, _, hslice, hround⟩ := bind_ok.mp hround
    rcases onlyIf_ok.mp hround with ⟨_, hfinish⟩ | ⟨hnot, _⟩
    · obtain ⟨_, _, _, _, hd, _, hrow', hb, hother, _⟩ := applySignal_cases hfinish
      by_cases hid : id = cmd.runId
      · subst hid
        intro _ hafter
        cases hrow'.symm.trans hafter
        rw [hb]
        exact decides_not_cancelling hd nofun
      · refine notCancelling_of_beside (hother id hid) ?_
        refine keep_moves (fun _ _ => notCancelling_move ?_)
          (recordSlice_moves (A := (Op.recordSlice cmd).allows) ⟨rfl, rfl⟩ hslice id) (h id)
        refine ⟨fun happly => happly, ?_⟩
        rintro _ ⟨hrun, rfl⟩
        exact absurd hrun.symm hid
    · exact absurd hstart hnot
  · have hexec : exec env (.recordRound cmd) s = .ok (.done, s') := by
      rw [exec, bind_of_ok hround]
      rfl
    refine exec_notCancelling hexec (fun id => ⟨fun happly => ?_, ?_⟩) h id
    · cases happly.2.2
    · rintro _ ⟨_, rfl⟩
      exact hstart

theorem besideSlices_noStart {op : Op} (h : besideSlices op = true) (id : Uuid) : NoStart (op.allows id) := by
  cases op <;> first
    | exact ⟨fun happly => happly, fun _ hrecord => hrecord.elim⟩
    | cases h
    | skip
  all_goals
    refine ⟨fun happly => ?_, fun _ hrecord => hrecord.elim⟩
    simp [besideSlices, ← happly.2] at h

theorem step_notCancelling {w w' : World} {a : Act} {o : Option OutsideCall} (hstep : WorldStep w (env, a) o w')
    (hquiet : startsCancel w a = false) (h : ∀ id, NotCancelling (view w.store id)) :
    ∀ id, NotCancelling (view w'.store id) := by
  rcases hstep.store_cases with hsame | ⟨_, _, hcommits, hexec⟩
  · rwa [hsame]
  cases hcommits with
  | beside hbeside => exact exec_notCancelling hexec (besideSlices_noStart hbeside) h
  | claim => exact exec_notCancelling hexec (fun _ => ⟨fun happly => happly, fun _ hrecord => hrecord.elim⟩) h
  | send => exact exec_notCancelling hexec (fun _ => ⟨fun happly => happly, fun _ hrecord => hrecord.elim⟩) h
  | record =>
    obtain ⟨_, _, hround, hpure⟩ := bind_ok.mp hexec
    obtain ⟨_, rfl⟩ := pure_ok.mp hpure
    exact recordRound_notCancelling hround h
  | checkpoint hsignal =>
    refine exec_notCancelling hexec (fun _ => ⟨fun happly => happly, ?_⟩) h
    rintro _ ⟨_, rfl⟩
    rw [hsignal]
    nofun
  | apply hslice hphase =>
    refine exec_notCancelling hexec (fun _ => ⟨fun happly => ?_, fun _ hrecord => hrecord.elim⟩) h
    simp [startsCancel, hslice, hphase, ← happly.2] at hquiet

/-- Only a lease that was not given back lets a scan move a Run on from `cancelling`. -/
theorem picks_cancelling {now : Time} {runId : Uuid} {signal : RunSignal} (h : Picks now s runId signal)
    (hmoves : (transitions .cancelling signal).isSome = true) :
    ∃ lease, s.leases.lookup runId = some lease ∧ lease.releasedAt = none := by
  cases h with
  | expiredLease h =>
    obtain ⟨⟨_, _⟩, hmem, rfl⟩ := List.mem_map.mp h
    have hpicked := (mem_selectRuns.mp hmem).2
    rw [Bool.and_eq_true, Option.any_eq_true] at hpicked
    obtain ⟨_, lease, hlease, hfree⟩ := hpicked
    rw [Bool.and_eq_true, Option.isNone_iff_eq_none] at hfree
    exact ⟨lease, hlease, hfree.1⟩
  | _ => simp [transitions] at hmoves

theorem released_releasedAt (now : Time) (lease : WorkerLeaseRow) : (released now lease).releasedAt ≠ none := by
  unfold released
  split
  · nofun
  · assumption

theorem applySignal_strands {cmd : ApplySignalCommand} {u : Unit} (hstart : cmd.signal = .safeCancelStarted)
    (h : applySignal env cmd s = .ok (u, s')) : ¬ NoneStranded s' := by
  obtain ⟨row, d, row', _, hd, _, hrow', hb, _, hleases, _⟩ := applySignal_cases h
  have hstate : d.state = .cancelling := by
    rw [hstart] at hd
    rcases hd.cases with ⟨_, _, hs | hs⟩ | hmoved
    · cases hs
    · cases hs
    · cases hstatus : row.status <;> simp [hstatus, transitions] at hmoved
      exact hmoved.symm
  have hcancelling : row'.status = .cancelling := by
    rw [hb]
    exact (cleaned_status _ _).trans hstate
  intro hall
  obtain ⟨now, _, hpicks, hmoves⟩ := hall cmd.runId row' hrow' hcancelling
  rw [hcancelling] at hmoves
  obtain ⟨_, hlease, hfree⟩ := picks_cancelling hpicks hmoves
  rw [hleases, if_neg (by rw [hstate]; rintro ⟨⟩), Table.lookup_modify_self] at hlease
  obtain ⟨before, _, rfl⟩ := Option.map_eq_some_iff.mp hlease
  exact released_releasedAt env.now before hfree

theorem step_strands {w w' : World} {a : Act} {o : Option OutsideCall} (hstep : WorldStep w (env, a) o w')
    (hstart : startsCancel w a = true) : ¬ NoneStranded w'.store := by
  cases a with
  | applyNext =>
    obtain ⟨_, _, _, hslice, hphase, happly⟩ := applyNext_commits (of_then_none hstep)
    simp only [startsCancel, hslice, Option.any_some, hphase, decide_eq_true_eq] at hstart
    exact applySignal_strands hstart happly
  | _ => cases hstart

end Steps

section Runs
variable {log : WorldHistory} {w : World}

theorem executes_notCancelling (h : WorldExecutes log w) (hquiet : ∀ c ∈ log, startsCancel c.before c.input.2 = false) :
    ∀ id, NotCancelling (view w.store id) := by
  induction h with
  | nil =>
    intro id row hrow
    have hnone : ({} : Store).runs.lookup id = none := AList.lookup_empty id
    rw [show (view ({} : World).store id).row = none from hnone] at hrow
    cases hrow
  | @snoc log s s' i a _ hstep ih =>
    have hlast : startsCancel s i.2 = false := hquiet ⟨s, i, a, s'⟩ (List.mem_append_right _ (List.mem_singleton_self _))
    exact step_notCancelling hstep hlast (ih fun c hc => hquiet c (List.mem_append_left _ hc))

/-- No state of a run strands a Run that is being cancelled, if and only if no slice of it starts a cancellation in a
transaction of its own. -/
theorem none_stranded_iff (h : WorldExecutes log w) :
    (∀ c ∈ log, NoneStranded c.after.store) ↔ ∀ c ∈ log, startsCancel c.before c.input.2 = false := by
  constructor
  · intro hall c hc
    obtain ⟨before, after, hlog⟩ := List.append_of_mem hc
    rw [hlog] at h
    by_contra hstart
    rw [Bool.not_eq_false] at hstart
    exact step_strands h.split.2.1 hstart (hall c hc)
  · intro hquiet c hc
    obtain ⟨before, _, hlog⟩ := List.append_of_mem hc
    rw [hlog] at h
    have hbefore : ∀ d ∈ before, startsCancel d.before d.input.2 = false := by
      intro d hd
      apply hquiet d
      rw [hlog]
      exact List.mem_append_left _ hd
    have hnone := step_notCancelling h.split.2.1 (hquiet c hc) (executes_notCancelling h.split.1 hbefore)
    intro runId row hrow hstatus
    exact absurd hstatus (hnone runId row hrow)

end Runs

section Example

def shellResult : ToolResultBlock where
  callId := "call-1"
  output := "done"
  exitCode := 0
  failed := false
  callId_ne := call_1_ne

def askedToCancel : List (Env × Act) :=
  [(clock 0, .beside (openSession 2)), (clock 1, .beside (ask 2 3 "question")),
    (clock 2, .claim { workerId := "worker", leaseSeconds := 60 } 5), (clock 3, .respond 5 shellTurn),
    (clock 4, .answer 5 shellResult)]

def cancelRequested : SlicePolicy.RoundOutcome := { verdict := { outcome := .continue_ }, cancelRequested := true }

def cancelledAtOnce : List (Env × Act) :=
  askedToCancel ++ [(clock 5, .recordCalls 5 shellRound cancelRequested true [] none)]

theorem cancelledAtOnce_none_stranded :
    ((attemptActs cancelledAtOnce).2.store.runs.lookup 3).map (·.status) = some .cancelled ∧
      ∀ c ∈ (attemptActs cancelledAtOnce).1, NoneStranded c.after.store := by
  refine ⟨by decide +kernel, (none_stranded_iff (attemptActs_executes cancelledAtOnce)).mpr ?_⟩
  decide +kernel

def cancelledHalfway : List (Env × Act) :=
  askedToCancel ++ [(clock 5, .commitCalls 5 shellRound cancelRequested true [] none none 9),
    (clock 6, .applyNext 5), (clock 7, .crash 5)]

/-- The Run is being cancelled, its lease was given back, and no scan will move it on. -/
theorem cancelledHalfway_stranded : ¬ ∀ log w, WorldExecutes log w → NoneStranded w.store := by
  intro hall
  have hstarts : (attemptActs cancelledHalfway).1.any fun c => startsCancel c.before c.input.2 := by decide +kernel
  have hrun := attemptActs_executes cancelledHalfway
  generalize attemptActs cancelledHalfway = run at hstarts hrun
  obtain ⟨_, hc, hstart⟩ := List.any_eq_true.mp hstarts
  obtain ⟨_, _, hlog⟩ := List.append_of_mem hc
  rw [hlog] at hrun
  exact step_strands hrun.split.2.1 hstart (hall _ _ (.snoc hrun.split.1 hrun.split.2.1))

end Example

end TinyHermes.Runs.Cancellation
