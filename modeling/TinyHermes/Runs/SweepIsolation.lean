import TinyHermes.Lib.Sweep
import TinyHermes.Runs.BudgetScopes
import TinyHermes.Runs.ChildWaits
import TinyHermes.Runs.ClaimProgress
import TinyHermes.Runs.RoundPaths
import TinyHermes.Runs.Scheduler

/-! Whether one Run of a sweep can keep the others from being settled: a sweep is one transaction, so it commits exactly when each
of its Runs could be settled alone. -/
namespace TinyHermes.Runs.SweepIsolation
open Lib Tx SqlRunStore StateMachine SlicePolicy Scheduler ChildDeliveries
open Billing (kinOf)
open ChildWaits (waits waitsForAny)
open RoundPaths (Standing decideAndWrite_of_ok)

variable {C : Uuid → Prop} {id runId : Uuid} {row : RunRow}

section Frames
variable {env : Env} {s s' : Store}

def Sound (s : Store) : Prop := ∀ id row, s.runs.lookup id = some row → ∃ budget, Standing s id row budget

theorem reachable_sound (h : ReachableStore s) : Sound s := by
  intro id row hrow
  obtain ⟨log, hlog⟩ := h
  have hkin : kinOf s id = some (Billing.kin row) := by rw [kinOf, hrow, Option.map_some]
  have hscope := (BudgetScopes.executes_balanced hlog).rooted.scope id _ hkin
  obtain ⟨budget, hbudget⟩ := Option.isSome_iff_exists.mp hscope
  exact ⟨budget, hrow, hbudget, ClaimProgress.reachable_homed ⟨log, hlog⟩ id row hrow⟩

/-- The rows of the named Runs are what they were but for their place in line, and no scope moved. -/
structure Untouched (C : Uuid → Prop) (s s' : Store) : Prop where
  budgets : s'.budgets = s.budgets
  rows : ∀ id, C id → Both RunRow.Kept (s.runs.lookup id) (s'.runs.lookup id)

instance (C : Uuid → Prop) : Std.Refl (Untouched C) := ⟨fun _ => ⟨rfl, fun _ _ => .refl .refl _⟩⟩

instance (C : Uuid → Prop) : IsTrans Store (Untouched C) :=
  ⟨fun _ _ _ h₁ h₂ => ⟨h₂.budgets.trans h₁.budgets, fun id hid => (h₁.rows id hid).trans .trans (h₂.rows id hid)⟩⟩

theorem Untouched.mono {C' : Uuid → Prop} (h : Untouched C s s') (hC : ∀ id, C' id → C id) : Untouched C' s s' :=
  ⟨h.budgets, fun id hid => h.rows id (hC id hid)⟩

theorem Untouched.found (h : Untouched C s s') (hid : C id)
    (hrow : s.runs.lookup id = some row) : ∃ row', s'.runs.lookup id = some row' ∧ row.Kept row' := by
  have hboth := h.rows id hid
  rw [hrow] at hboth
  exact hboth.of_some

theorem Untouched.symm (h : Untouched C s s') : Untouched C s' s :=
  ⟨h.budgets.symm, fun id hid => (h.rows id hid).symm .symm⟩

theorem Untouched.carries {P : RunRow → Prop} (h : Untouched C s s') (hid : C id)
    (hP : ∀ r r' : RunRow, r.Kept r' → P r → P r') (hs : ∃ row, s.runs.lookup id = some row ∧ P row) :
    ∃ row, s'.runs.lookup id = some row ∧ P row := by
  obtain ⟨row, hrow, hrest⟩ := hs
  obtain ⟨row', hrow', hkept⟩ := h.found hid hrow
  exact ⟨row', hrow', hP row row' hkept hrest⟩

theorem Untouched.any (h : Untouched C s s') (hid : C id) {f : RunRow → Bool}
    (hf : ∀ r r' : RunRow, r.Kept r' → f r' = f r) : (s'.runs.lookup id).any f = (s.runs.lookup id).any f := by
  rw [Bool.eq_iff_iff, Option.any_eq_true, Option.any_eq_true]
  constructor
  · exact h.symm.carries hid fun r r' hkept => (hf r r' hkept).trans
  · exact h.carries hid fun r r' hkept => (hf r r' hkept).trans

theorem decideAndWrite_untouched {signal : RunSignal} {args : SignalArgs} {u : Unit}
    (h : decideAndWrite env runId signal args s = .ok (u, s')) : Untouched (· ≠ runId) s s' := by
  obtain ⟨_, _, _, _, _, _, hkeep⟩ := decideAndWrite_spec h
  refine ⟨hkeep.budgets, fun id hid => ?_⟩
  have hrow := hkeep.runs id
  rwa [Table.lookup_modify_of_ne hid] at hrow

theorem decideAndWrite_decided {signal : RunSignal} {args : SignalArgs} {u : Unit}
    (hrow : s.runs.lookup runId = some row) (h : decideAndWrite env runId signal args s = .ok (u, s')) :
    ∃ budget d row', s.budgets.lookup row.budgetRootRunId = some budget ∧
      RunStateMachine.decide (stateView row budget env.now) signal args.pauseReason args.waitKind args.waitDeadlineAt =
        .ok d ∧ s'.runs.lookup runId = some row' ∧ (decidedRow row d args.waitPolicy env.now).Kept row' := by
  obtain ⟨_, budget, d, hrun, hbudget, hd, hkeep⟩ := decideAndWrite_spec h
  cases hrow.symm.trans hrun
  have hself := hkeep.runs runId
  rw [Table.lookup_modify_self, hrow, Option.map_some] at hself
  obtain ⟨row', hrow', hkept⟩ := hself.of_some
  exact ⟨budget, d, row', hbudget, hd, hrow', hkept⟩

theorem decideAndWrite_sound {signal : RunSignal} {args : SignalArgs} {u : Unit} (hs : Sound s)
    (h : decideAndWrite env runId signal args s = .ok (u, s')) : Sound s' := by
  obtain ⟨_, _, d, _, _, _, hkeep⟩ := decideAndWrite_spec h
  intro id _ hrow'
  have hboth := hkeep.runs id
  rw [hrow'] at hboth
  obtain ⟨moved, hmoved, hkept⟩ := hboth.to_some
  -- the row before the decision stood in the same place
  obtain ⟨row, hrow, hplace⟩ : ∃ row, s.runs.lookup id = some row ∧ moved.budgetRootRunId = row.budgetRootRunId ∧
      moved.sessionId = row.sessionId ∧ moved.workspaceId = row.workspaceId := by
    rw [Table.lookup_modify] at hmoved
    split at hmoved
    · obtain ⟨row, hrow, rfl⟩ := Option.map_eq_some_iff.mp hmoved
      exact ⟨row, hrow, rfl, rfl, rfl⟩
    · exact ⟨moved, hmoved, rfl, rfl, rfl⟩
  obtain ⟨budget, hstands⟩ := hs id row hrow
  refine ⟨budget, hrow', ?_, ?_⟩
  · rw [hkeep.budgets, hkept]
    exact hplace.1 ▸ hstands.funded
  · have hhoused := RoundPaths.housed_kept
      (s := { s with runs := s.runs.modify runId fun r => decidedRow r d args.waitPolicy env.now }) hstands.housed hkeep
    rw [hkept]
    exact hplace.2.1 ▸ hplace.2.2 ▸ hhoused

theorem decideAndWrite_total {signal : RunSignal} {args : SignalArgs} (hs : Sound s)
    (hrow : s.runs.lookup runId = some row)
    (hd : ∀ budget, s.budgets.lookup row.budgetRootRunId = some budget → ∃ d, RunStateMachine.decide
      (stateView row budget env.now) signal args.pauseReason args.waitKind args.waitDeadlineAt = .ok d) :
    ∃ s', decideAndWrite env runId signal args s = .ok ((), s') := by
  obtain ⟨budget, hstands⟩ := hs runId row hrow
  obtain ⟨_, hd⟩ := hd budget hstands.funded
  obtain ⟨s', _, hrun, _⟩ := decideAndWrite_of_ok hstands hd
  exact ⟨s', hrun⟩

theorem sweepRun_skips {α : Type} {applies : RunRow → Bool} {unchanged : α}
    {sweep : RunRow → SessionRow → StoreTx α} (h : ∀ row, s.runs.lookup runId = some row → applies row = false) :
    sweepRun runId applies unchanged sweep s = .ok (unchanged, s) := by
  have hnone : (s.runs.lookup runId).filter applies = none := by
    cases hrow : s.runs.lookup runId with
    | none => rfl
    | some row => rw [Option.filter_some, h row hrow]; rfl
  simp only [sweepRun, get_bind, hnone]
  rfl

theorem sweepRun_sound {α : Type} {applies : RunRow → Bool} {unchanged : α} {sweep : RunRow → StoreTx α}
    (hs : Sound s) (hrow : s.runs.lookup runId = some row) (happlies : applies row = true) :
    sweepRun runId applies unchanged (fun run _ => sweep run) s = sweep row s := by
  obtain ⟨_, hstands⟩ := hs runId row hrow
  obtain ⟨_, hsession, hhome⟩ := hstands.housed
  exact RunMoves.sweepRun_found hrow happlies hsession hhome

end Frames

section Decisions
variable {view : RunStateView} {d : StateDecision}

theorem decide_cancel (hlive : view.state.isTerminal = false) (hnot : view.state ≠ .cancelling) :
    ∃ d, RunStateMachine.decide view .cancelRequested none none none = .ok d := by
  obtain ⟨state, _, _, _⟩ := view
  cases state with
  | cancelling => exact absurd rfl hnot
  | completed | failed | cancelled => cases hlive
  | _ => exact ⟨_, rfl⟩

theorem decide_cancel_cases (h : RunStateMachine.decide view .cancelRequested none none none = .ok d) :
    view.state ≠ .cancelling ∧ (d.state = .cancelled ∨
      (d.state = .running ∧ d.clearCancelRequest = false ∧ d.setCancelRequested = true)) := by
  obtain ⟨state, _, _, _⟩ := view
  cases state with
  | cancelling | completed | failed | cancelled => cases h
  | running =>
    obtain rfl := Except.ok.inj h
    exact ⟨nofun, .inr ⟨rfl, rfl, rfl⟩⟩
  | _ =>
    obtain rfl := Except.ok.inj h
    exact ⟨nofun, .inl rfl⟩

theorem decide_ready (hwait : view.state = .waitingExternal) (hallows : view.budgetAllowsExecution = true) :
    ∃ d, RunStateMachine.decide view .externalReady none none none = .ok d := by
  obtain ⟨state, _, _, allows⟩ := view
  obtain rfl : state = .waitingExternal := hwait
  obtain rfl : allows = true := hallows
  exact ⟨_, rfl⟩

theorem decide_ready_cases (h : RunStateMachine.decide view .externalReady none none none = .ok d) :
    d.state = .queued ∧ view.budgetAllowsExecution = true := by
  have hstate : d.state = .queued := by
    rcases decide_cases h with ⟨_, _, hsignal | hsignal⟩ | htarget
    · cases hsignal
    · cases hsignal
    · cases hv : view.state <;> rw [hv] at htarget <;> simp [transitions] at htarget
      exact htarget.symm
  have hrequest : requestOnly view .externalReady = none := by
    unfold requestOnly
    split
    · next hsignal => cases hsignal
    · next hsignal => cases hsignal
    · rfl
  exact ⟨hstate, decide_budget h hrequest (.inl hstate)⟩

theorem decide_timeout {view : RunStateView} (hwait : view.state = .waitingExternal) :
    ∃ d, RunStateMachine.decide view .externalPaused (some .externalTimeout) none none = .ok d ∧ d.state = .paused := by
  obtain ⟨state, _, _, _⟩ := view
  obtain rfl : state = .waitingExternal := hwait
  exact ⟨_, rfl, rfl⟩

end Decisions

section Cancelling
variable {env : Env} {s s' : Store}

def Stopped (s : Store) (id : Uuid) : Prop :=
  ∃ row, s.runs.lookup id = some row ∧
    (row.status = .cancelled ∨ (row.status = .running ∧ row.cancelRequestedAt.isSome = true))

theorem Stopped.kept (h : Stopped s id) (hkeep : Untouched (· = id) s s') : Stopped s' id := by
  refine hkeep.carries rfl (fun r r' hkept hstopped => ?_) h
  rw [hkept]
  exact hstopped

theorem Stopped.standing (h : Stopped s id) (hsame : standing s' id = standing s id) : Stopped s' id := by
  obtain ⟨_, hrow, hstopped⟩ := h
  rw [ChildDeliveries.standing, ChildDeliveries.standing, hrow, Option.map_some, Option.map_eq_some_iff] at hsame
  obtain ⟨row', hrow', heq⟩ := hsame
  obtain ⟨hstatus, hasked⟩ := Prod.mk.inj heq
  refine ⟨row', hrow', ?_⟩
  rw [hstatus, hasked]
  exact hstopped

theorem cancelChild_total {reason : String} (hs : Sound s)
    (hnot : ∀ row, s.runs.lookup id = some row → row.status ≠ .cancelling) :
    ∃ s', cancelChild env id reason s = .ok ((), s') := by
  by_cases hlive : ∃ row, s.runs.lookup id = some row ∧ row.status.isTerminal = false
  · obtain ⟨row, hrow, hlive⟩ := hlive
    rw [cancelChild, sweepRun_sound hs hrow (by rw [hlive]; rfl)]
    exact decideAndWrite_total hs hrow fun budget _ => decide_cancel hlive (hnot row hrow)
  · refine ⟨s, sweepRun_skips fun row hrow => ?_⟩
    cases hterminal : row.status.isTerminal with
    | false => exact absurd ⟨row, hrow, hterminal⟩ hlive
    | true => rfl

theorem cancelChild_live {reason : String} {u : Unit} (hs : Sound s)
    (h : cancelChild env id reason s = .ok (u, s')) (hrow : s.runs.lookup id = some row)
    (hlive : row.status.isTerminal = false) : row.status ≠ .cancelling ∧ Stopped s' id := by
  rw [cancelChild, sweepRun_sound hs hrow (by rw [hlive]; rfl)] at h
  obtain ⟨_, _, row', _, hd, hrow', hkept⟩ := decideAndWrite_decided hrow h
  obtain ⟨hnot, hmoved⟩ := decide_cancel_cases hd
  refine ⟨hnot, row', hrow', ?_⟩
  rw [hkept]
  rcases hmoved with hcancelled | ⟨hrunning, hclear, hset⟩
  · exact .inl hcancelled
  · refine .inr ⟨hrunning, ?_⟩
    simp [decidedRow, applyDecision, hclear, hset]

theorem cancelChild_sound {reason : String} {u : Unit} (hs : Sound s)
    (h : cancelChild env id reason s = .ok (u, s')) : Sound s' := by
  rcases RunMoves.sweepRun_cases h with ⟨_, rfl⟩ | ⟨_, _, _, _, _, _, h⟩
  · exact hs
  · exact decideAndWrite_sound hs h

theorem cancelChild_untouched {reason : String} :
    Within (Untouched (· ≠ id)) (cancelChild env id reason) := by
  refine Operations.sweepRun_within fun _ _ s u s' h => ?_
  exact decideAndWrite_untouched h

theorem notCancelling_kept (h : Untouched (· = id) s s')
    (hnot : ∀ row, s.runs.lookup id = some row → row.status ≠ .cancelling) :
    ∀ row, s'.runs.lookup id = some row → row.status ≠ .cancelling := by
  intro row' hrow'
  obtain ⟨row, hrow, hkept⟩ := h.symm.found rfl hrow'
  rw [← show row.status = row'.status by rw [hkept]]
  exact hnot row hrow

theorem cancels_independent (env : Env) (reason : String) (ids : List Uuid) :
    Independent (fun id => cancelChild env id reason) ids Sound (fun id => Untouched (· = id))
      (fun id s => ∀ row, s.runs.lookup id = some row → row.status ≠ .cancelling)
      fun id s s' => ∀ row, s.runs.lookup id = some row → row.status.isTerminal = false → Stopped s' id where
  refl _ _ := Std.Refl.refl _
  trans _ _ _ _ h₁ h₂ := IsTrans.trans _ _ _ h₁ h₂
  total id _ s hs hadmissible := cancelChild_total hs hadmissible
  only id _ s s' hs h row hrow := by
    cases hlive : row.status.isTerminal with
    | false => exact (cancelChild_live hs h hrow hlive).1
    | true =>
      intro hcancelling
      rw [hcancelling] at hlive
      cases hlive
  keeps id _ s s' hs h := cancelChild_sound hs h
  settles id _ s s' hs h row hrow hlive := (cancelChild_live hs h hrow hlive).2
  apart id _ other _ hne s s' _ h := (cancelChild_untouched h).mono fun _ heq heq' => hne (heq'.symm.trans heq)
  admissible id _ s t _ _ hagree := ⟨notCancelling_kept hagree, notCancelling_kept hagree.symm⟩
  before id _ s t u _ _ hagree hsettled row hrow hlive := by
    obtain ⟨row', hrow', hkept⟩ := hagree.found rfl hrow
    refine hsettled row' hrow' ?_
    rw [hkept]
    exact hlive
  after id _ s t u _ _ _ hsettled hagree row hrow hlive := (hsettled row hrow hlive).kept hagree

end Cancelling

variable {due : Uuid × Option String}

section DueWaits
variable {env : Env} {s s' : Store}

/-- Whether the Run's scope lets it go on at `now`. -/
def scopeAllows (now : Time) (s : Store) (runId : Uuid) : Bool :=
  (s.runs.lookup runId).any fun row =>
    (s.budgets.lookup row.budgetRootRunId).any fun budget => budget.summary.allowsExecution now

theorem scopeAllows_iff {now : Time} {budget : RunBudgetScopeRow}
    (hrow : s.runs.lookup runId = some row) (hbudget : s.budgets.lookup row.budgetRootRunId = some budget) :
    scopeAllows now s runId = budget.summary.allowsExecution now := by
  rw [scopeAllows, hrow, Option.any_some, hbudget, Option.any_some]

theorem scopeAllows_kept {now : Time} (h : Untouched C s s') (hid : C runId) :
    scopeAllows now s' runId = scopeAllows now s runId := by
  rw [scopeAllows, scopeAllows, h.budgets]
  refine h.any hid fun r r' hkept => ?_
  rw [hkept]

def Waiting (s : Store) (runId : Uuid) : Prop :=
  ∃ row, s.runs.lookup runId = some row ∧ row.status = .waitingExternal

theorem Waiting.kept (hkeep : Untouched (· = runId) s s') (h : Waiting s runId) : Waiting s' runId :=
  hkeep.carries rfl (fun r r' hkept hwaiting => by rw [hkept, hwaiting]) h

/-- A timer put its Run back in the queue, any other deadline paused it. -/
def DueSettled (due : Uuid × Option String) (s' : Store) : Prop :=
  ∃ row, s'.runs.lookup due.1 = some row ∧ row.status = if due.2 = some waitTimer then .queued else .paused

theorem DueSettled.kept (h : DueSettled due s) (hkeep : Untouched (· = due.1) s s') : DueSettled due s' :=
  hkeep.carries rfl (fun r r' hkept hstatus => by rw [hkept, hstatus]) h

theorem settleDueWait_eq (hs : Sound s)
    (hrow : s.runs.lookup due.1 = some row) (hwaiting : row.status = .waitingExternal) :
    settleDueWait env due s = if due.2 = some waitTimer then
      decideAndWrite env due.1 .externalReady { payload := [("reason", "wait_timer_elapsed")] } s
    else decideAndWrite env due.1 .externalPaused
      { pauseReason := some .externalTimeout, payload := [("reason", "wait_deadline_passed")] } s := by
  rw [settleDueWait]
  split
  · rw [wakeExternalWait, sweepRun_sound hs hrow (by rw [hwaiting]; rfl)]
  · rw [timeOutExternalWait, sweepRun_sound hs hrow (by rw [hwaiting]; rfl)]

theorem settleDueWait_idle (h : ¬ Waiting s due.1) :
    settleDueWait env due s = .ok ((), s) := by
  have hskips : ∀ row, s.runs.lookup due.1 = some row → decide (row.status = .waitingExternal) = false := by
    intro row hrow
    rw [decide_eq_false_iff_not]
    exact fun hwaiting => h ⟨row, hrow, hwaiting⟩
  rw [settleDueWait]
  split
  · exact sweepRun_skips hskips
  · exact sweepRun_skips hskips

/-- What may be settled: a timer needs room in the scope, another deadline nothing. -/
def DueAdmissible (now : Time) (due : Uuid × Option String) (s : Store) : Prop :=
  Waiting s due.1 → due.2 = some waitTimer → scopeAllows now s due.1 = true

theorem settleDueWait_total (hs : Sound s) (h : DueAdmissible env.now due s) :
    ∃ s', settleDueWait env due s = .ok ((), s') := by
  by_cases hwaiting : Waiting s due.1
  · obtain ⟨row, hrow, hstatus⟩ := hwaiting
    rw [settleDueWait_eq hs hrow hstatus]
    split
    · next htimer =>
      refine decideAndWrite_total hs hrow fun budget hbudget => decide_ready hstatus ?_
      have hallows := h ⟨row, hrow, hstatus⟩ htimer
      rwa [scopeAllows_iff hrow hbudget] at hallows
    · refine decideAndWrite_total hs hrow fun budget _ => ?_
      obtain ⟨d, hd, _⟩ := @decide_timeout (stateView row budget env.now) hstatus
      exact ⟨d, hd⟩
  · exact ⟨s, settleDueWait_idle hwaiting⟩

theorem settleDueWait_settles (hs : Sound s) {u : Unit}
    (h : settleDueWait env due s = .ok (u, s')) (hwaiting : Waiting s due.1) :
    (due.2 = some waitTimer → scopeAllows env.now s due.1 = true) ∧ DueSettled due s' := by
  obtain ⟨row, hrow, hstatus⟩ := hwaiting
  rw [settleDueWait_eq hs hrow hstatus] at h
  split at h
  · next htimer =>
    obtain ⟨budget, d, row', hbudget, hd, hrow', hkept⟩ := decideAndWrite_decided hrow h
    obtain ⟨hqueued, hallows⟩ := decide_ready_cases hd
    refine ⟨fun _ => by rw [scopeAllows_iff hrow hbudget]; exact hallows, row', hrow', ?_⟩
    rw [hkept, if_pos htimer]
    exact hqueued
  · next hother =>
    obtain ⟨budget, _, row', _, hd, hrow', hkept⟩ := decideAndWrite_decided hrow h
    obtain ⟨_, hd', hpaused⟩ := @decide_timeout (stateView row budget env.now) hstatus
    obtain rfl := Except.ok.inj (hd'.symm.trans hd)
    refine ⟨fun htimer => absurd htimer hother, row', hrow', ?_⟩
    rw [hkept, if_neg hother]
    exact hpaused

theorem settleDueWait_frame {u : Unit} (h : settleDueWait env due s = .ok (u, s')) :
    Untouched (· ≠ due.1) s s' ∧ (Sound s → Sound s') := by
  have hsweep {applies : RunRow → Bool} {signal : RunSignal} {args : SignalArgs}
      (h : sweepRun due.1 applies () (fun _ _ => decideAndWrite env due.1 signal args) s = .ok (u, s')) :
      Untouched (· ≠ due.1) s s' ∧ (Sound s → Sound s') := by
    rcases RunMoves.sweepRun_cases h with ⟨_, rfl⟩ | ⟨_, _, _, _, _, _, h⟩
    · exact ⟨Std.Refl.refl _, id⟩
    · exact ⟨decideAndWrite_untouched h, fun hs => decideAndWrite_sound hs h⟩
  rw [settleDueWait] at h
  split at h
  · exact hsweep h
  · exact hsweep h

theorem dueWaits_independent {items : List (Uuid × Option String)}
    (hids : ∀ x ∈ items, ∀ y ∈ items, x ≠ y → x.1 ≠ y.1) :
    Independent (settleDueWait env) items Sound (fun due => Untouched (· = due.1)) (DueAdmissible env.now)
      fun due s s' => Waiting s due.1 → DueSettled due s' where
  refl _ _ := Std.Refl.refl _
  trans _ _ _ _ h₁ h₂ := IsTrans.trans _ _ _ h₁ h₂
  total due _ s hs hadmissible := settleDueWait_total hs hadmissible
  only due _ s s' hs h hwaiting := (settleDueWait_settles hs h hwaiting).1
  keeps due _ s s' hs h := (settleDueWait_frame h).2 hs
  settles due _ s s' hs h hwaiting := (settleDueWait_settles hs h hwaiting).2
  apart due hdue other hother hne s s' _ h :=
    (settleDueWait_frame h).1.mono fun _ heq heq' => hids due hdue other hother hne (heq'.symm.trans heq)
  admissible due _ s t _ _ hagree := by
    rw [DueAdmissible, DueAdmissible, scopeAllows_kept hagree rfl]
    exact imp_congr ⟨.kept hagree, .kept hagree.symm⟩ Iff.rfl
  before due _ s t u _ _ hagree hsettled hwaiting := hsettled (hwaiting.kept hagree)
  after due _ s t u _ _ _ hsettled hagree hwaiting := (hsettled hwaiting).kept hagree

end DueWaits

section Families
variable {env : Env} {s s' : Store}

def Flat (s : Store) : Prop :=
  ∀ id k p, kinOf s id = some k → k.parent = some p → ∃ k', kinOf s p = some k' ∧ k'.parent = none

theorem Flat.congr (h : Flat s) (hkin : ∀ id, kinOf s' id = kinOf s id) : Flat s' := by
  intro id k p hk hp
  rw [hkin] at hk ⊢
  exact h id k p hk hp

theorem Flat.join {k : Billing.Kin} (h : Flat s) (hjoined : Billing.Joined runId k s s')
    (hparent : ∀ p, k.parent = some p → ∃ k', kinOf s p = some k' ∧ k'.parent = none) : Flat s' := by
  intro id k' p hk hp
  have hroot : ∃ k'', kinOf s p = some k'' ∧ k''.parent = none := by
    rw [hjoined.2] at hk
    split at hk
    · cases hk
      exact hparent p hp
    · exact h id k' p hk hp
  obtain ⟨k'', hk'', hnone⟩ := hroot
  exact ⟨k'', hjoined.remembers hk'', hnone⟩

theorem Flat.sires {p root : Uuid} (h : Flat s) (hroot : ∃ k, kinOf s p = some k ∧ k.parent = none)
    (hsires : Relation.ReflTransGen (Billing.Sires p root) s s') : Flat s' := by
  obtain ⟨k, hk, hnone⟩ := hroot
  induction hsires with
  | refl => exact h
  | tail hbefore hlast ih =>
    obtain ⟨_, _, hjoined⟩ := hlast
    refine ih.join hjoined fun q hq => ?_
    cases hq
    exact ⟨k, Billing.sires_remembers hbefore hk, hnone⟩

theorem exec_flat {op : Op} {a : Answer} (h : Flat s)
    (hlineage : ∀ id row, s.runs.lookup id = some row → DelegationBounds.Lineage row)
    (hexec : exec env op s = .ok (a, s')) : Flat s' := by
  by_cases hop : Billing.makesRuns op = false
  · exact h.congr (Billing.exec_kin hop hexec)
  cases op with
  | acceptRun =>
    obtain ⟨accepted, _, hrun, hexec⟩ := bind_ok.mp hexec
    obtain ⟨rfl, rfl⟩ := pure_ok.mp hexec
    rcases Billing.acceptRun_bills hrun with hkept | ⟨hjoined, _⟩
    · exact h.congr hkept.kin
    · exact h.join hjoined nofun
  | deriveRetry =>
    obtain ⟨_, _, hrun, hexec⟩ := bind_ok.mp hexec
    obtain ⟨rfl, rfl⟩ := pure_ok.mp hexec
    rcases Billing.deriveRetry_bills hrun with hkept | ⟨_, _, _, _, _, _, hjoined⟩
    · exact h.congr hkept.kin
    · exact h.join hjoined nofun
  | delegateChildren parentRunId requests =>
    obtain ⟨_, _, hrun, hexec⟩ := bind_ok.mp hexec
    obtain ⟨rfl, rfl⟩ := pure_ok.mp hexec
    rcases Billing.delegateChildren_cases hrun with ⟨rfl, _⟩ | ⟨parent, _, _, _, _, hparent, hdepth, hchildren⟩
    · exact h
    · refine h.sires ⟨Billing.kin parent, by rw [kinOf, hparent]; rfl, ?_⟩ (Billing.createChildren_sires requests hchildren)
      -- only a Run at depth zero gets this far, and such a Run has no parent
      rcases hlineage parentRunId parent hparent with ⟨hnone, _⟩ | ⟨_, hdeep, _⟩
      · exact hnone
      · exact absurd hdeep (Nat.not_le_of_lt hdepth)
  | _ => exact absurd rfl hop

theorem reachable_flat (h : ReachableStore s) : Flat s := by
  obtain ⟨_, h⟩ := h
  induction h with
  | nil =>
    intro _ _ _ hk
    cases hk
  | snoc hbefore hstep ih => exact exec_flat ih (DelegationBounds.reachable_lineage ⟨_, hbefore⟩) hstep

def concerns (s : Store) (p id : Uuid) : Prop := ∃ k, kinOf s id = some k ∧ (k.parent = some p ∨ (id = p ∧ k.parent = none))

theorem kinOf_row (hrow : s.runs.lookup id = some row) :
    kinOf s id = some (Billing.kin row) := by
  rw [kinOf, hrow, Option.map_some]

/-- A store in the middle of a sweep that started in `start`. -/
structure MidSweep (start s : Store) : Prop where
  reachable : ReachableStore s
  kin : ∀ id, kinOf s id = kinOf start id

theorem MidSweep.child {start : Store} (h : MidSweep start s) {p : Uuid}
    (hrow : s.runs.lookup id = some row) (hparent : row.parentRunId = some p) : concerns start p id :=
  ⟨Billing.kin row, by rw [← h.kin, kinOf_row hrow], .inl hparent⟩

theorem MidSweep.self {start : Store} (h : MidSweep start s) {p : Uuid}
    (hrow : s.runs.lookup id = some row) (hparent : row.parentRunId = some p) : concerns start p p := by
  obtain ⟨k, hk, hnone⟩ := reachable_flat h.reachable id _ p (kinOf_row hrow) hparent
  exact ⟨k, by rw [← h.kin, hk], .inr ⟨rfl, hnone⟩⟩

end Families

section Cascade
variable {env : Env} {s s' start : Store} {p : Uuid}

theorem cancels_untouched (reason : String) (ids : List Uuid) :
    Within (Untouched (· ∉ ids)) (forEach ids fun id => cancelChild env id reason) := by
  refine Within.forEach _ fun id hid s u s' h => ?_
  exact (cancelChild_untouched h).mono fun other hother heq => hother (heq ▸ hid)

/-- The children of `p` that are still going. -/
def liveChildren (s : Store) (p : Uuid) : List Uuid := childrenOf s p fun run => !run.status.isTerminal

theorem mem_liveChildren : id ∈ liveChildren s p ↔
    ∃ row, s.runs.lookup id = some row ∧ row.parentRunId = some p ∧ row.status.isTerminal = false := by
  rw [liveChildren, mem_childrenOf]
  simp only [Bool.not_eq_true']

theorem cascade_finished (h : Finished s p) :
    cascadeCancelChildren env p s = forEach (liveChildren s p) (fun id => cancelChild env id "parent_terminated") s := by
  obtain ⟨row, hrow, hdone⟩ := h
  have hfound : (s.runs.lookup p).filter (fun run => run.status.isTerminal) = some row :=
    Option.filter_eq_some_iff.mpr ⟨hrow, hdone⟩
  simp only [cascadeCancelChildren, get_bind, hfound]
  rfl

theorem cascade_idle (h : ¬ Finished s p) : cascadeCancelChildren env p s = .ok ((), s) := by
  have hnone : (s.runs.lookup p).filter (fun run => run.status.isTerminal) = none := by
    cases hrow : s.runs.lookup p with
    | none => rfl
    | some row =>
      rw [Option.filter_some, if_neg]
      exact fun hdone => h ⟨row, hrow, hdone⟩
  simp only [cascadeCancelChildren, get_bind, hnone]
  rfl

def CascadeAdmissible (p : Uuid) (s : Store) : Prop :=
  Finished s p → ∀ id row, s.runs.lookup id = some row → row.parentRunId = some p → row.status ≠ .cancelling

def CascadeSettled (p : Uuid) (s s' : Store) : Prop :=
  Finished s p → ∀ id row, s.runs.lookup id = some row → row.parentRunId = some p → row.status.isTerminal = false →
    Stopped s' id

theorem cascade_total (hs : Sound s) (h : CascadeAdmissible p s) : ∃ s', cascadeCancelChildren env p s = .ok ((), s') := by
  by_cases hdone : Finished s p
  · rw [cascade_finished hdone]
    refine (cancels_independent env "parent_terminated" (liveChildren s p)).forEach_total (List.Subset.refl _)
      nodup_childrenOf hs fun id hid row hrow => ?_
    obtain ⟨_, hrow', hparent, _⟩ := mem_liveChildren.mp hid
    cases hrow.symm.trans hrow'
    exact h hdone id row hrow hparent
  · exact ⟨s, cascade_idle hdone⟩

theorem cascade_settles (hs : Sound s) (h : cascadeCancelChildren env p s = .ok ((), s')) :
    CascadeAdmissible p s ∧ CascadeSettled p s s' := by
  have hchild (hdone : Finished s p) {id : Uuid} {row : RunRow} (hrow : s.runs.lookup id = some row)
      (hparent : row.parentRunId = some p) (hlive : row.status.isTerminal = false) :
      row.status ≠ .cancelling ∧ Stopped s' id := by
    rw [cascade_finished hdone] at h
    obtain ⟨hadmissible, hstopped⟩ := (cancels_independent env "parent_terminated" (liveChildren s p)).forEach_settles
      (List.Subset.refl _) nodup_childrenOf hs h id (mem_liveChildren.mpr ⟨row, hrow, hparent, hlive⟩)
    exact ⟨hadmissible row hrow, hstopped row hrow hlive⟩
  refine ⟨fun hdone id row hrow hparent hcancelling => ?_, fun hdone id row hrow hparent hlive =>
    (hchild hdone hrow hparent hlive).2⟩
  have hlive : row.status.isTerminal = false := by rw [hcancelling]; rfl
  exact (hchild hdone hrow hparent hlive).1 hcancelling

theorem cascade_untouched (h : cascadeCancelChildren env p s = .ok ((), s')) :
    Untouched (fun id => ∀ row, s.runs.lookup id = some row → row.parentRunId ≠ some p) s s' := by
  by_cases hdone : Finished s p
  · rw [cascade_finished hdone] at h
    refine (cancels_untouched _ _ h).mono fun id hid hmem => ?_
    obtain ⟨row, hrow, hparent, _⟩ := mem_liveChildren.mp hmem
    exact hid row hrow hparent
  · rw [cascade_idle hdone] at h
    cases h
    exact Std.Refl.refl _

theorem MidSweep.cascade (h : MidSweep start s) (hrun : cascadeCancelChildren env p s = .ok ((), s')) :
    MidSweep start s' where
  reachable := by
    obtain ⟨_, hlog⟩ := h.reachable
    have hstep : Step s (env, .cascadeCancelChildren p) .done s' := bind_ok.mpr ⟨(), s', hrun, rfl⟩
    exact ⟨_, hlog.snoc hstep⟩
  kin id := by rw [(Operations.cascadeCancelChildren_within Billing.rows_plain hrun).kin, h.kin]

theorem MidSweep.apart (h : MidSweep start s) {q : Uuid} (hne : p ≠ q) (hid : concerns start q id) :
    ∀ row, s.runs.lookup id = some row → row.parentRunId ≠ some p := by
  intro row hrow hparent
  obtain ⟨_, hk, hcase⟩ := hid
  rw [← h.kin, kinOf_row hrow] at hk
  cases hk
  rcases hcase with hchild | ⟨_, hnone⟩
  · exact hne (Option.some.inj (hparent.symm.trans hchild))
  · rw [show (Billing.kin row).parent = row.parentRunId from rfl, hparent] at hnone
    cases hnone

theorem finished_kept (h : Untouched C s s') (hid : C id) : Finished s id ↔ Finished s' id := by
  have honward {s s' : Store} (h : Untouched C s s') : Finished s id → Finished s' id :=
    h.carries hid fun r r' hkept hdone => by rw [hkept, hdone]
  exact ⟨honward h, honward h.symm⟩

theorem MidSweep.child_kept {t : Store} (hs : MidSweep start s) (h : Untouched (concerns start p) s t)
    (hrow : s.runs.lookup id = some row) (hparent : row.parentRunId = some p) :
    ∃ row', t.runs.lookup id = some row' ∧ row.Kept row' ∧ row'.parentRunId = some p := by
  obtain ⟨row', hrow', hkept⟩ := h.found (hs.child hrow hparent) hrow
  exact ⟨row', hrow', hkept, by rw [hkept]; exact hparent⟩

theorem CascadeAdmissible.kept {t : Store} (ht : MidSweep start t) (hagree : Untouched (concerns start p) s t)
    (hroot : concerns start p p) (h : CascadeAdmissible p s) : CascadeAdmissible p t := by
  intro hdone id row' hrow' hparent
  obtain ⟨row, hrow, hkept, hparent⟩ := ht.child_kept hagree.symm hrow' hparent
  rw [← show row.status = row'.status by rw [hkept]]
  exact h ((finished_kept hagree hroot).mpr hdone) id row hrow hparent

theorem cascades_independent {items : List Uuid} (hroots : ∀ p ∈ items, concerns start p p) :
    Independent (cascadeCancelChildren env) items (MidSweep start) (fun p => Untouched (concerns start p))
      CascadeAdmissible CascadeSettled where
  refl _ _ := Std.Refl.refl _
  trans _ _ _ _ h₁ h₂ := IsTrans.trans _ _ _ h₁ h₂
  total p _ s hs hadmissible := cascade_total (reachable_sound hs.reachable) hadmissible
  only p _ s s' hs h := (cascade_settles (reachable_sound hs.reachable) h).1
  keeps p _ s s' hs h := hs.cascade h
  settles p _ s s' hs h := (cascade_settles (reachable_sound hs.reachable) h).2
  apart p _ q _ hne s s' hs h := (cascade_untouched h).mono fun id hid => hs.apart hne hid
  admissible p hp s t hs ht hagree := ⟨.kept ht hagree (hroots p hp), .kept hs hagree.symm (hroots p hp)⟩
  before p hp s t u hs ht hagree hsettled hdone id row hrow hparent hlive := by
    obtain ⟨row', hrow', hkept, hparent⟩ := hs.child_kept hagree hrow hparent
    refine hsettled ((finished_kept hagree (hroots p hp)).mp hdone) id row' hrow' hparent ?_
    rw [hkept]
    exact hlive
  after p _ s t u hs _ _ hsettled hagree hdone id row hrow hparent hlive := by
    refine (hsettled hdone id row hrow hparent hlive).kept (hagree.mono ?_)
    rintro _ rfl
    exact hs.child hrow hparent

end Cascade

section ChildWaits
variable {env : Env} {s s' start : Store} {p : Uuid}

/-- One success is enough for the wait of `p`, and there is one it has not heard of. -/
def OneSucceeded (s : Store) (p : Uuid) : Prop :=
  waitsForAny s p = true ∧ ∃ id row, Unheard s p id row ∧ row.status = .completed

/-- Whether the wait of `p` is over. -/
structure WakeDue (s : Store) (p : Uuid) : Prop where
  waiting : waits s p = true
  unheard : ∃ id row, Unheard s p id row
  settled : OneSucceeded s p ∨ ∀ id row, Unheard s p id row → row.status.isTerminal = true

/-- A parent whose wait is over can be woken when its scope lets it go on and nobody it would cancel is stopping
already. -/
def ChildAdmissible (now : Time) (p : Uuid) (s : Store) : Prop :=
  WakeDue s p → scopeAllows now s p = true ∧
    (OneSucceeded s p → ∀ id row, Unheard s p id row → row.status ≠ .cancelling)

/-- The parent is back in the queue, it was told of whoever had finished, and nobody it no longer needs goes on. -/
def ChildSettled (now : Time) (p : Uuid) (s s' : Store) : Prop :=
  WakeDue s p → (∃ row, s'.runs.lookup p = some row ∧ row.status = .queued) ∧
    (∀ id row, Unheard s p id row → row.status.isTerminal = true → deliveredAt s' id = some now) ∧
    (OneSucceeded s p → ∀ id row, Unheard s p id row → row.status.isTerminal = false → Stopped s' id)

/-- The children `settle_child_wait` reads. -/
def unheardChildren (s : Store) (p : Uuid) : List Uuid := childrenOf s p fun run => run.resultDeliveredAt.isNone

theorem unheardChildren_eq_nil : unheardChildren s p = [] ↔ ¬ ∃ id row, Unheard s p id row := by
  rw [List.eq_nil_iff_forall_not_mem, not_exists]
  exact forall_congr' fun id => not_congr mem_unheard

theorem succeeded_ne_nil : finishedAmong s (unheardChildren s p) (fun status => status = .completed) ≠ [] ↔
    ∃ id row, Unheard s p id row ∧ row.status = .completed := by
  constructor
  · intro hsome
    obtain ⟨id, hid⟩ := List.exists_mem_of_ne_nil _ hsome
    obtain ⟨hchild, _, hrow', hdone⟩ := mem_finishedAmong.mp hid
    obtain ⟨row, hunheard⟩ := mem_unheard.mp hchild
    obtain rfl := Option.some.inj (hunheard.found.symm.trans hrow')
    exact ⟨id, row, hunheard, of_decide_eq_true hdone⟩
  · rintro ⟨_, row, hunheard, hdone⟩
    refine List.ne_nil_of_mem (mem_finishedAmong.mpr ⟨mem_unheard.mpr ⟨row, hunheard⟩, row, hunheard.found, ?_⟩)
    exact decide_eq_true hdone

theorem finished_length : (finishedAmong s (unheardChildren s p) RunState.isTerminal).length = (unheardChildren s p).length ↔
    ∀ id row, Unheard s p id row → row.status.isTerminal = true := by
  rw [finishedAmong, List.length_filter_eq_length_iff]
  refine forall_congr' fun id => ?_
  rw [unheardChildren, mem_unheard, Option.any_eq_true]
  constructor
  · intro h row hunheard
    obtain ⟨_, hrow', hdone⟩ := h ⟨row, hunheard⟩
    cases hunheard.found.symm.trans hrow'
    exact hdone
  · rintro h ⟨row, hunheard⟩
    exact ⟨row, hunheard.found, h row hunheard⟩

theorem policy_any {parent : RunRow} (hparent : s.runs.lookup p = some parent) :
    parent.waitPolicy.getD .all = .any ↔ waitsForAny s p = true := by
  rw [waitsForAny, hparent, Option.any_some, decide_eq_true_eq]
  cases parent.waitPolicy <;> simp

theorem settle_reads {parent : RunRow} (hs : Sound s) (hparent : s.runs.lookup p = some parent) (hwaits : waits s p = true) :
    settleChildWait env p s = settleAmong env p parent (unheardChildren s p) s := by
  rw [waits, hparent, Option.any_some] at hwaits
  rw [settleChildWait, sweepRun_sound hs hparent hwaits, settleChildren_eq]
  rfl

theorem settle_idle (hs : Sound s) (h : ¬ WakeDue s p) : settleChildWait env p s = .ok (false, s) := by
  by_cases hwaits : waits s p = true
  · obtain ⟨_, hparent, _⟩ := Option.any_eq_true _ _ |>.mp hwaits
    rw [settle_reads hs hparent hwaits, settleAmong, get_bind]
    split
    · rfl
    next hsome =>
      have hunheard : ∃ id row, Unheard s p id row := not_not.mp (mt unheardChildren_eq_nil.mpr hsome)
      rw [if_neg, if_pos]
      · rfl
      · exact fun hall => h ⟨hwaits, hunheard, .inr (finished_length.mp hall)⟩
      · rintro ⟨hany, hsucceeded⟩
        exact h ⟨hwaits, hunheard, .inl ⟨(policy_any hparent).mp hany, succeeded_ne_nil.mp hsucceeded⟩⟩
  · refine sweepRun_skips fun row hrow => ?_
    rw [waits, hrow, Option.any_some] at hwaits
    exact Bool.eq_false_iff.mpr hwaits

theorem settle_succeeded {parent : RunRow} (hs : Sound s) (hparent : s.runs.lookup p = some parent) (h : WakeDue s p)
    (hone : OneSucceeded s p) :
    settleChildWait env p s = (do
      forEach (unheardChildren s p) fun id => cancelChild env id "sibling_succeeded"
      let s₁ ← get
      wakeParent env p parent (parent.waitPolicy.getD .all) (finishedAmong s₁ (unheardChildren s p) RunState.isTerminal)
        (finishedAmong s (unheardChildren s p) fun status => status = .completed) : StoreTx Bool) s := by
  rw [settle_reads hs hparent h.waiting, settleAmong, get_bind]
  rw [if_neg fun hnil => unheardChildren_eq_nil.mp hnil h.unheard,
    if_pos ⟨(policy_any hparent).mpr hone.1, succeeded_ne_nil.mpr hone.2⟩]

theorem settle_allDone {parent : RunRow} (hs : Sound s) (hparent : s.runs.lookup p = some parent) (h : WakeDue s p)
    (hone : ¬ OneSucceeded s p) :
    settleChildWait env p s = wakeParent env p parent (parent.waitPolicy.getD .all)
      (finishedAmong s (unheardChildren s p) RunState.isTerminal)
      (finishedAmong s (unheardChildren s p) fun status => status = .completed) s := by
  have hall := h.settled.resolve_left hone
  rw [settle_reads hs hparent h.waiting, settleAmong, get_bind]
  rw [if_neg fun hnil => unheardChildren_eq_nil.mp hnil h.unheard, if_neg, if_neg (not_not.mpr (finished_length.mpr hall))]
  rintro ⟨hany, hsucceeded⟩
  exact hone ⟨(policy_any hparent).mp hany, succeeded_ne_nil.mp hsucceeded⟩

theorem forEach_write_total {α : Type} (xs : List α) (g : α → Store → Store) (s : Store) :
    ∃ s', forEach xs (fun x => (Tx.write (g x) : StoreTx Unit)) s = .ok ((), s') := by
  induction xs generalizing s with
  | nil => exact ⟨s, rfl⟩
  | cons x rest ih => exact ih (g x s)

theorem deliverChildResults_total (env : Env) (p : Uuid) {parent : RunRow} (children : List Uuid) {session : SessionRow}
    (hsession : s.sessions.lookup parent.sessionId = some session) :
    ∃ s₁, deliverChildResults env p parent children s = .ok ((), s₁) ∧
      ∀ id home, s.sessions.lookup id = some home → ∃ home', s₁.sessions.lookup id = some home' ∧
        home'.workspaceId = home.workspaceId := by
  obtain ⟨t₁, hgrants⟩ := forEach_write_total ((children.filterMap fun id => (s.runs.lookup id).map fun row => (id, row)).flatMap
    fun e => (e.2.delegationResult.map (·.artifacts)).getD []) (fun id s =>
      if { artifactId := id, runId := p } ∈ s.grants then s else { s with grants := { artifactId := id, runId := p } :: s.grants }) s
  obtain ⟨_, hstamps⟩ := forEach_write_total children (fun id s =>
    { s with runs := s.runs.modify id fun row => { row with resultDeliveredAt := some env.now } }) t₁
  obtain ⟨_, rfl⟩ := forEach_grants _ hgrants
  obtain ⟨_, rfl, _⟩ := forEach_stamped _ hstamps
  refine ⟨_, by
    rw [deliverChildResults, get_bind]
    exact bind_ok.mpr ⟨(), _, hgrants, bind_ok.mpr ⟨(), _, hstamps, fetch_bind_ok.mpr ⟨session, hsession, rfl⟩⟩⟩, ?_⟩
  intro id home hhome
  change ∃ home', (s.sessions.modify parent.sessionId _).lookup id = some home' ∧ _
  rw [Table.lookup_modify, hhome]
  split
  · exact ⟨_, rfl, rfl⟩
  · exact ⟨home, rfl, rfl⟩

theorem wakeParent_total {parent : RunRow} {policy : WaitPolicy} {finished succeeded : List Uuid} (hs : Sound s)
    (hrow : s.runs.lookup p = some row) (hkept : parent.Kept row) (hwaiting : parent.status = .waitingExternal)
    (hallows : scopeAllows env.now s p = true) :
    ∃ s', wakeParent env p parent policy finished succeeded s = .ok (true, s') := by
  obtain ⟨budget, hstands⟩ := hs p row hrow
  obtain ⟨session, hsession, hhome⟩ := hstands.housed
  have hplace : row.sessionId = parent.sessionId := by rw [hkept]
  have hstatus : row.status = .waitingExternal := by rw [hkept, hwaiting]
  obtain ⟨s₁, hdeliver, hhomes⟩ := deliverChildResults_total env p finished (hplace ▸ hsession)
  obtain ⟨hruns, hbudgets, _⟩ := deliverChildResults_spec hdeliver
  -- the parent's row is the same but perhaps for a stamp
  obtain ⟨row₁, hrow₁, hsame⟩ : ∃ row₁, s₁.runs.lookup p = some row₁ ∧
      row₁ = { row with resultDeliveredAt := row₁.resultDeliveredAt } := by
    rw [hruns p, hrow]
    split
    · exact ⟨_, rfl, rfl⟩
    · exact ⟨row, rfl, rfl⟩
  have hstands₁ : Standing s₁ p row₁ budget := by
    refine ⟨hrow₁, ?_, ?_⟩
    · rw [hbudgets, hsame]
      exact hstands.funded
    · obtain ⟨home', hhome', hsamehome⟩ := hhomes row.sessionId session hsession
      rw [hsame]
      exact ⟨home', hhome', hsamehome.trans hhome⟩
  rw [scopeAllows_iff hrow hstands.funded] at hallows
  have hstatus₁ : row₁.status = .waitingExternal := by rw [hsame, hstatus]
  obtain ⟨d, hd⟩ := @decide_ready (stateView row₁ budget env.now) hstatus₁ hallows
  have hdecide (payload : Payload) : ∃ s₂, decideAndWrite env p .externalReady { payload } s₁ = .ok ((), s₂) := by
    obtain ⟨s₂, _, hwritten, _⟩ := @decideAndWrite_of_ok env p row₁ budget s₁ .externalReady { payload } d hstands₁ hd
    exact ⟨s₂, hwritten⟩
  obtain ⟨s₂, hwritten⟩ := hdecide _
  exact ⟨s₂, bind_ok.mpr ⟨(), s₁, hdeliver, bind_ok.mpr ⟨(), s₂, hwritten, rfl⟩⟩⟩

variable {woken : Bool}

theorem wakeParent_untouched {parent : RunRow} {policy : WaitPolicy} {finished succeeded : List Uuid}
    (h : wakeParent env p parent policy finished succeeded s = .ok (woken, s')) :
    Untouched (fun id => id ≠ p ∧ id ∉ finished) s s' := by
  rw [wakeParent] at h
  obtain ⟨_, s₁, hdeliver, h⟩ := bind_ok.mp h
  obtain ⟨_, _, hdecide, h⟩ := bind_ok.mp h
  obtain ⟨_, rfl⟩ := pure_ok.mp h
  obtain ⟨hruns, hbudgets, _⟩ := deliverChildResults_spec hdeliver
  have htold : Untouched (fun id => id ≠ p ∧ id ∉ finished) s s₁ := by
    refine ⟨hbudgets, fun id hid => ?_⟩
    rw [hruns id, if_neg hid.2]
    exact .refl .refl _
  exact IsTrans.trans _ _ _ htold ((decideAndWrite_untouched hdecide).mono fun _ hid => hid.1)

theorem wakeParent_queues {parent : RunRow} {policy : WaitPolicy} {finished succeeded : List Uuid}
    (h : wakeParent env p parent policy finished succeeded s = .ok (woken, s')) (hrow : s.runs.lookup p = some row) :
    scopeAllows env.now s p = true ∧ ∃ row', s'.runs.lookup p = some row' ∧ row'.status = .queued := by
  rw [wakeParent] at h
  obtain ⟨_, s₁, hdeliver, h⟩ := bind_ok.mp h
  obtain ⟨_, _, hdecide, h⟩ := bind_ok.mp h
  obtain ⟨_, rfl⟩ := pure_ok.mp h
  obtain ⟨hruns, hbudgets, _⟩ := deliverChildResults_spec hdeliver
  obtain ⟨row₁, hrow₁, hroot⟩ : ∃ row₁, s₁.runs.lookup p = some row₁ ∧ row₁.budgetRootRunId = row.budgetRootRunId := by
    rw [hruns p, hrow]
    split
    · exact ⟨_, rfl, rfl⟩
    · exact ⟨row, rfl, rfl⟩
  obtain ⟨_, _, row', hbudget, hd, hrow', hkept⟩ := decideAndWrite_decided hrow₁ hdecide
  obtain ⟨hqueued, hallows⟩ := decide_ready_cases hd
  refine ⟨?_, row', hrow', by rw [hkept]; exact hqueued⟩
  rw [hbudgets, hroot] at hbudget
  rw [scopeAllows_iff hrow hbudget]
  exact hallows

theorem WakeDue.parent (h : WakeDue s p) (hflat : Flat s) :
    ∃ row, s.runs.lookup p = some row ∧ row.status = .waitingExternal ∧ p ∉ unheardChildren s p := by
  obtain ⟨row, hrow, hwaits⟩ := Option.any_eq_true _ _ |>.mp h.waiting
  rw [Bool.and_eq_true, decide_eq_true_eq] at hwaits
  refine ⟨row, hrow, hwaits.1, fun hmem => ?_⟩
  obtain ⟨_, hunheard⟩ := mem_unheard.mp hmem
  cases hrow.symm.trans hunheard.found
  obtain ⟨_, hk, hnone⟩ := hflat p _ p (kinOf_row hrow) hunheard.child
  rw [kinOf_row hrow] at hk
  cases hk
  rw [show (Billing.kin row).parent = row.parentRunId from rfl, hunheard.child] at hnone
  cases hnone

theorem settle_total (hs : Sound s) (hflat : Flat s) (h : ChildAdmissible env.now p s) :
    ∃ woken s', settleChildWait env p s = .ok (woken, s') := by
  by_cases hdue : WakeDue s p
  · obtain ⟨hallows, hnot⟩ := h hdue
    obtain ⟨parent, hparent, hwaiting, hself⟩ := hdue.parent hflat
    by_cases hone : OneSucceeded s p
    · rw [settle_succeeded hs hparent hdue hone]
      have hcancels := cancels_independent env "sibling_succeeded" (unheardChildren s p)
      obtain ⟨s₁, hs₁⟩ := hcancels.forEach_total (List.Subset.refl _) nodup_childrenOf hs fun id hid row hrow => by
        obtain ⟨_, hunheard⟩ := mem_unheard.mp hid
        cases hrow.symm.trans hunheard.found
        exact hnot hone id row hunheard
      have huntouched := cancels_untouched _ _ hs₁
      obtain ⟨_, hrow₁, hkept⟩ := huntouched.found hself hparent
      have hsound₁ := (hcancels.forEach_apart (List.Subset.refl _) hs hs₁).1
      have hallows₁ : scopeAllows env.now s₁ p = true := by
        rw [scopeAllows_kept huntouched hself, hallows]
      obtain ⟨s', hwake⟩ := wakeParent_total hsound₁ hrow₁ hkept hwaiting hallows₁
      refine ⟨true, s', ?_⟩
      rw [bind_of_ok hs₁, get_bind]
      exact hwake
    · rw [settle_allDone hs hparent hdue hone]
      obtain ⟨s', hwake⟩ := wakeParent_total hs hparent (.refl parent) hwaiting hallows
      exact ⟨true, s', hwake⟩
  · exact ⟨false, s, settle_idle hs hdue⟩

theorem settle_settles (hs : Sound s) (hflat : Flat s) (h : settleChildWait env p s = .ok (woken, s')) :
    ChildAdmissible env.now p s ∧ ChildSettled env.now p s s' := by
  by_cases hdue : WakeDue s p
  swap
  · exact ⟨fun hover => absurd hover hdue, fun hover => absurd hover hdue⟩
  obtain ⟨parent, hparent, _, hself⟩ := hdue.parent hflat
  by_cases hone : OneSucceeded s p
  · rw [settle_succeeded hs hparent hdue hone] at h
    obtain ⟨_, s₁, hs₁, h⟩ := bind_ok.mp h
    rw [get_bind] at h
    have hcancels := (cancels_independent env "sibling_succeeded" (unheardChildren s p)).forEach_settles
      (List.Subset.refl _) nodup_childrenOf hs hs₁
    have huntouched := cancels_untouched _ _ hs₁
    obtain ⟨_, hrow₁, _⟩ := huntouched.found hself hparent
    obtain ⟨hallows, hqueued⟩ := wakeParent_queues h hrow₁
    rw [scopeAllows_kept huntouched hself] at hallows
    obtain ⟨_, hhands, hstill⟩ := wakeParent_spec h fun id hid => (mem_finishedAmong.mp hid).2
    have hmem {id : Uuid} {row : RunRow} (hunheard : Unheard s p id row) : id ∈ unheardChildren s p :=
      mem_unheard.mpr ⟨row, hunheard⟩
    refine ⟨fun _ => ⟨hallows, fun _ id row hunheard => (hcancels id (hmem hunheard)).1 row hunheard.found⟩,
      fun _ => ⟨hqueued, fun id row hunheard hdone => ?_, fun _ id row hunheard hlive => ?_⟩⟩
    · -- whoever had finished is left alone by the cancellations, and told of
      have hmoving : RunMoves.Moving (fun _ => {}) s s₁ := Within.forEach _ (fun _ _ => RunMoves.cancelChild_moves) hs₁
      rw [hhands.marks id, if_pos]
      exact mem_finishedAmong.mpr ⟨hmem hunheard, finished_moving hmoving ⟨row, hunheard.found, hdone⟩⟩
    · have hne : id ≠ p := fun heq => hself (heq ▸ hmem hunheard)
      exact ((hcancels id (hmem hunheard)).2 row hunheard.found hlive).standing (hstill id hne)
  · rw [settle_allDone hs hparent hdue hone] at h
    obtain ⟨hallows, hqueued⟩ := wakeParent_queues h hparent
    obtain ⟨_, hhands, _⟩ := wakeParent_spec h fun id hid => (mem_finishedAmong.mp hid).2
    refine ⟨fun _ => ⟨hallows, fun hsucceeded => absurd hsucceeded hone⟩,
      fun _ => ⟨hqueued, fun id row hunheard hdone => ?_, fun hsucceeded => absurd hsucceeded hone⟩⟩
    rw [hhands.marks id, if_pos]
    exact mem_finishedAmong.mpr ⟨mem_unheard.mpr ⟨row, hunheard⟩, row, hunheard.found, hdone⟩

theorem settle_untouched (h : settleChildWait env p s = .ok (woken, s')) :
    Untouched (fun id => id ≠ p ∧ id ∉ unheardChildren s p) s s' := by
  rcases RunMoves.sweepRun_cases h with ⟨_, rfl⟩ | ⟨parent, _, _, _, _, _, h⟩
  · exact Std.Refl.refl _
  have hwake {t : Store} {policy : WaitPolicy} {q : RunState → Bool} {succeeded : List Uuid}
      (h : wakeParent env p parent policy (finishedAmong t (unheardChildren s p) q) succeeded t = .ok (woken, s')) :
      Untouched (fun id => id ≠ p ∧ id ∉ unheardChildren s p) t s' :=
    (wakeParent_untouched h).mono fun _ hid => ⟨hid.1, fun hmem => hid.2 (mem_finishedAmong.mp hmem).1⟩
  rw [settleChildren_eq, settleAmong, get_bind] at h
  split at h
  · obtain ⟨_, rfl⟩ := pure_ok.mp h
    exact Std.Refl.refl _
  split at h
  · obtain ⟨_, _, hs₁, h⟩ := bind_ok.mp h
    rw [get_bind] at h
    exact IsTrans.trans _ _ _ ((cancels_untouched _ _ hs₁).mono fun _ hid => hid.2) (hwake h)
  split at h
  · obtain ⟨_, rfl⟩ := pure_ok.mp h
    exact Std.Refl.refl _
  · exact hwake h

theorem settle_childless (hs : Sound s)
    (hnone : ∀ id row, s.runs.lookup id = some row → row.parentRunId ≠ some p)
    (h : settleChildWait env p s = .ok (woken, s')) : s' = s := by
  have hidle : ¬ WakeDue s p := by
    intro hdue
    obtain ⟨id, row, hunheard⟩ := hdue.unheard
    exact hnone id row hunheard.found hunheard.child
  rw [settle_idle hs hidle] at h
  cases h
  rfl

theorem MidSweep.settle (h : MidSweep start s) (hrun : settleChildWait env p s = .ok (woken, s')) :
    MidSweep start s' where
  reachable := by
    obtain ⟨_, hlog⟩ := h.reachable
    have hstep : Step s (env, .settleChildWait p) (.settled woken) s' := bind_ok.mpr ⟨woken, s', hrun, rfl⟩
    exact ⟨_, hlog.snoc hstep⟩
  kin id := by rw [(Operations.settleChildWait_within Billing.rows_plain (fun _ => Billing.modifyRun_plain fun _ => rfl) hrun).kin, h.kin]

theorem settle_apart (h : MidSweep start s) {q : Uuid} (hne : p ≠ q)
    (hrun : settleChildWait env p s = .ok (woken, s')) : Untouched (concerns start q) s s' := by
  by_cases hchildless : ∀ id row, s.runs.lookup id = some row → row.parentRunId ≠ some p
  · rw [settle_childless (reachable_sound h.reachable) hchildless hrun]
    exact Std.Refl.refl _
  · simp only [not_forall, not_not] at hchildless
    obtain ⟨child, _, hrow, hparent⟩ := hchildless
    obtain ⟨_, hk, hcase⟩ := h.self hrow hparent
    refine (settle_untouched hrun).mono fun id hid => ⟨?_, fun hmem => ?_⟩
    · rintro rfl
      obtain ⟨_, hk', hcase'⟩ := hid
      cases hk.symm.trans hk'
      rcases hcase with hself | ⟨_, hroot⟩
      · rcases hcase' with hother | ⟨heq, _⟩
        · exact hne (Option.some.inj (hself.symm.trans hother))
        · exact hne heq
      · rcases hcase' with hother | ⟨heq, _⟩
        · rw [hroot] at hother
          cases hother
        · exact hne heq
    · obtain ⟨row', hunheard⟩ := mem_unheard.mp hmem
      exact h.apart hne hid row' hunheard.found hunheard.child

theorem MidSweep.unheard_kept {t : Store} (hs : MidSweep start s) (h : Untouched (concerns start p) s t)
    (hunheard : Unheard s p id row) : ∃ row', Unheard t p id row' ∧ row'.status = row.status := by
  obtain ⟨row', hrow', hkept, hparent⟩ := hs.child_kept h hunheard.found hunheard.child
  exact ⟨row', ⟨hrow', hparent, by rw [hkept, hunheard.undelivered]⟩, by rw [hkept]⟩

theorem waits_kept {t : Store} (h : Untouched (concerns start p) s t) (hself : concerns start p p) :
    waits t p = waits s p ∧ waitsForAny t p = waitsForAny s p := by
  constructor
  · exact h.any hself fun r r' hkept => by rw [hkept]
  · exact h.any hself fun r r' hkept => by rw [hkept]

theorem OneSucceeded.kept {t : Store} (hs : MidSweep start s) (h : Untouched (concerns start p) s t)
    (hself : concerns start p p) (hone : OneSucceeded s p) : OneSucceeded t p := by
  obtain ⟨hany, id, _, hunheard, hdone⟩ := hone
  obtain ⟨row', hunheard', hstatus⟩ := hs.unheard_kept h hunheard
  exact ⟨(waits_kept h hself).2.trans hany, id, row', hunheard', hstatus.trans hdone⟩

theorem WakeDue.kept {t : Store} (hs : MidSweep start s) (ht : MidSweep start t)
    (h : Untouched (concerns start p) s t) (hself : concerns start p p) (hdue : WakeDue s p) : WakeDue t p := by
  obtain ⟨id, row, hunheard⟩ := hdue.unheard
  obtain ⟨row', hunheard', _⟩ := hs.unheard_kept h hunheard
  refine ⟨(waits_kept h hself).1.trans hdue.waiting, ⟨id, row', hunheard'⟩, hdue.settled.imp (.kept hs h hself) ?_⟩
  intro hall id _ hunheard'
  obtain ⟨row, hunheard, hstatus⟩ := ht.unheard_kept h.symm hunheard'
  rw [← hstatus]
  exact hall id row hunheard

theorem WakeDue.self (hs : MidSweep start s) (h : WakeDue s p) : concerns start p p := by
  obtain ⟨_, _, hunheard⟩ := h.unheard
  exact hs.self hunheard.found hunheard.child

theorem ChildAdmissible.kept {t : Store} (hs : MidSweep start s) (ht : MidSweep start t)
    (hagree : Untouched (concerns start p) s t) (h : ChildAdmissible env.now p s) : ChildAdmissible env.now p t := by
  intro hdue
  have hself := hdue.self ht
  obtain ⟨hallows, hnot⟩ := h (hdue.kept ht hs hagree.symm hself)
  refine ⟨(scopeAllows_kept hagree hself).trans hallows, fun hone id row' hunheard' => ?_⟩
  obtain ⟨row, hunheard, hstatus⟩ := ht.unheard_kept hagree.symm hunheard'
  rw [← hstatus]
  exact hnot (hone.kept ht hagree.symm hself) id row hunheard

theorem childWaits_independent (items : List Uuid) :
    Independent (fun p => do let _ ← settleChildWait env p) items (MidSweep start)
      (fun p => Untouched (concerns start p)) (ChildAdmissible env.now) (ChildSettled env.now) where
  refl _ _ := Std.Refl.refl _
  trans _ _ _ _ h₁ h₂ := IsTrans.trans _ _ _ h₁ h₂
  total p _ s hs hadmissible := by
    obtain ⟨woken, s', hrun⟩ := settle_total (reachable_sound hs.reachable) (reachable_flat hs.reachable) hadmissible
    exact ⟨s', bind_ok.mpr ⟨woken, s', hrun, rfl⟩⟩
  only p _ s s' hs h := by
    obtain ⟨woken, s₁, hrun, h⟩ := bind_ok.mp h
    exact (settle_settles (reachable_sound hs.reachable) (reachable_flat hs.reachable) hrun).1
  keeps p _ s s' hs h := by
    obtain ⟨woken, s₁, hrun, h⟩ := bind_ok.mp h
    obtain ⟨_, rfl⟩ := pure_ok.mp h
    exact hs.settle hrun
  settles p _ s s' hs h := by
    obtain ⟨woken, s₁, hrun, h⟩ := bind_ok.mp h
    obtain ⟨_, rfl⟩ := pure_ok.mp h
    exact (settle_settles (reachable_sound hs.reachable) (reachable_flat hs.reachable) hrun).2
  apart p _ q _ hne s s' hs h := by
    obtain ⟨_, _, hrun, h⟩ := bind_ok.mp h
    obtain ⟨_, rfl⟩ := pure_ok.mp h
    exact settle_apart hs hne hrun
  admissible p _ s t hs ht hagree := ⟨.kept hs ht hagree, .kept ht hs hagree.symm⟩
  before p _ s t u hs ht hagree hsettled hdue := by
    have hself := hdue.self hs
    obtain ⟨hqueued, htold, hstopped⟩ := hsettled (hdue.kept hs ht hagree hself)
    refine ⟨hqueued, fun id row hunheard hdone => ?_, fun hone id row hunheard hlive => ?_⟩
    · obtain ⟨row', hunheard', hstatus⟩ := hs.unheard_kept hagree hunheard
      exact htold id row' hunheard' (by rw [hstatus, hdone])
    · obtain ⟨row', hunheard', hstatus⟩ := hs.unheard_kept hagree hunheard
      exact hstopped (hone.kept hs hagree hself) id row' hunheard' (by rw [hstatus, hlive])
  after p _ s t u hs _ _ hsettled hagree hdue := by
    obtain ⟨⟨_, hrow, hqueued⟩, htold, hstopped⟩ := hsettled hdue
    obtain ⟨row', hrow', hkept⟩ := hagree.found (hdue.self hs) hrow
    refine ⟨⟨row', hrow', by rw [hkept, hqueued]⟩, fun id child hunheard hdone => ?_,
      fun hsucceeded id child hunheard hlive => ?_⟩
    · have hmark := htold id child hunheard hdone
      rw [deliveredAt] at hmark ⊢
      obtain ⟨_, htold, hat⟩ := Option.bind_eq_some_iff.mp hmark
      obtain ⟨_, htold', hkept⟩ := hagree.found (hs.child hunheard.found hunheard.child) htold
      rw [htold', Option.bind_some, hkept]
      exact hat
    · refine (hstopped hsucceeded id child hunheard hlive).kept (hagree.mono ?_)
      rintro _ rfl
      exact hs.child hunheard.found hunheard.child

end ChildWaits

/-- The sweep commits, and every item it selected that could be settled alone has been settled, whatever the state of
the others. -/
def Isolated {β : Type} (sweep : StoreTx Unit) (selected : List β) (settle : β → StoreTx Unit)
    (Settled : β → Store → Store → Prop) (s : Store) : Prop :=
  ∃ s', sweep s = .ok ((), s') ∧ ∀ x ∈ selected, (∃ s₁, settle x s = .ok ((), s₁)) → Settled x s s'

theorem isolated_iff {β : Type} {settle : β → StoreTx Unit} {items : List β} {Inv : Store → Prop}
    {Agree : β → Store → Store → Prop} {Admissible : β → Store → Prop} {Settled : β → Store → Store → Prop} {s : Store}
    (sweep : StoreTx Unit) (h : Independent settle items Inv Agree Admissible Settled) (hnodup : items.Nodup)
    (hs : Inv s) (hsweep : sweep s = forEach items settle s) :
    Isolated sweep items settle Settled s ↔ ∀ x ∈ items, Admissible x s := by
  rw [Isolated, hsweep]
  constructor
  · rintro ⟨s', hrun, _⟩ x hx
    exact (h.forEach_settles (List.Subset.refl _) hnodup hs hrun x hx).1
  · intro hall
    obtain ⟨s', hrun, hsettled⟩ := (h.forEach_iff hnodup hs).mpr hall
    exact ⟨s', hrun, fun x hx _ => hsettled x hx⟩

section Sweeps
variable {env : Env} {s : Store}

theorem mem_expiredWaitRuns {now : Time} (h : due ∈ expiredWaitRuns now s) :
    Waiting s due.1 := by
  obtain ⟨⟨_, row⟩, hmem, rfl⟩ := List.mem_map.mp h
  obtain ⟨hrow, hpicked⟩ := mem_selectRuns.mp hmem
  rw [Bool.and_eq_true, decide_eq_true_eq] at hpicked
  exact ⟨row, hrow, hpicked.1⟩

theorem nodup_expiredWaitRuns (now : Time) (s : Store) : ((expiredWaitRuns now s).map (·.1)).Nodup := by
  rw [expiredWaitRuns, List.map_map]
  exact nodup_selectRuns _ _ _

theorem dueWaits_isolated_iff (h : ReachableStore s) (batchSize : Nat) :
    Isolated (settleDueWaits env batchSize) ((expiredWaitRuns env.now s).take batchSize) (settleDueWait env)
        (fun due _ s' => DueSettled due s') s ↔
      ∀ runId, (runId, some waitTimer) ∈ (expiredWaitRuns env.now s).take batchSize → scopeAllows env.now s runId = true := by
  have hnodup := (nodup_expiredWaitRuns env.now s).sublist ((List.take_sublist batchSize _).map _)
  have hwaiting : ∀ due ∈ (expiredWaitRuns env.now s).take batchSize, Waiting s due.1 :=
    fun due hdue => mem_expiredWaitRuns (List.mem_of_mem_take hdue)
  have hiff := isolated_iff (settleDueWaits env batchSize) (dueWaits_independent
    fun x hx y hy hne heq => hne (List.inj_on_of_nodup_map hnodup hx hy heq)) hnodup.of_map (reachable_sound h) rfl
  constructor
  · rintro ⟨s', hrun, hsettled⟩ _ hmem
    refine hiff.mp ⟨s', hrun, fun due hdue halone _ => hsettled due hdue halone⟩ _ hmem ?_ rfl
    exact hwaiting _ hmem
  · intro hall
    obtain ⟨s', hrun, hsettled⟩ := hiff.mpr fun due hdue _ htimer => hall due.1 (by rw [← htimer]; exact hdue)
    exact ⟨s', hrun, fun due hdue halone => hsettled due hdue halone (hwaiting due hdue)⟩

theorem childWaits_isolated_iff (h : ReachableStore s) (batchSize : Nat) :
    Isolated (settleChildWaits env batchSize) ((parentsAwaitingChildren s).take batchSize)
        (fun p => do let _ ← settleChildWait env p) (ChildSettled env.now) s ↔
      ∀ p ∈ (parentsAwaitingChildren s).take batchSize, ChildAdmissible env.now p s := by
  have hmid : MidSweep s s := ⟨h, fun _ => rfl⟩
  have hnodup : (parentsAwaitingChildren s).Nodup := nodup_selectRuns _ _ _
  exact isolated_iff _ (childWaits_independent _) (hnodup.sublist (List.take_sublist batchSize _)) hmid rfl

theorem mem_cancelledParents {p : Uuid} (h : p ∈ cancelledParentsWithChildren s) :
    Finished s p ∧ ∃ id row, s.runs.lookup id = some row ∧ row.parentRunId = some p := by
  obtain ⟨⟨_, row⟩, hmem, rfl⟩ := List.mem_map.mp h
  obtain ⟨hrow, hpicked⟩ := Table.mem_select.mp hmem
  rw [Bool.and_eq_true, Bool.not_eq_true', List.isEmpty_eq_false_iff] at hpicked
  obtain ⟨hdone, hsome⟩ := hpicked
  obtain ⟨⟨child, childRow⟩, hchild⟩ := List.exists_mem_of_ne_nil _ hsome
  obtain ⟨hchildRow, hlive⟩ := Table.mem_select.mp hchild
  rw [Bool.and_eq_true, decide_eq_true_eq] at hlive
  exact ⟨⟨row, hrow, hdone⟩, child, childRow, hchildRow, hlive.1⟩

theorem cascades_isolated_iff (h : ReachableStore s) (batchSize : Nat) :
    Isolated (cascadeCancels env batchSize) ((cancelledParentsWithChildren s).take batchSize) (cascadeCancelChildren env)
        CascadeSettled s ↔
      ∀ p ∈ (cancelledParentsWithChildren s).take batchSize, ∀ id row, s.runs.lookup id = some row →
        row.parentRunId = some p → row.status ≠ .cancelling := by
  have hmid : MidSweep s s := ⟨h, fun _ => rfl⟩
  have hpicked : ∀ p ∈ (cancelledParentsWithChildren s).take batchSize, Finished s p ∧ concerns s p p := by
    intro p hp
    obtain ⟨hdone, _, _, hrow, hparent⟩ := mem_cancelledParents (List.mem_of_mem_take hp)
    exact ⟨hdone, hmid.self hrow hparent⟩
  have hnodup : (cancelledParentsWithChildren s).Nodup := Table.nodup_select _ _
  have hiff := isolated_iff (cascadeCancels env batchSize)
    (cascades_independent fun p hp => (hpicked p hp).2) (hnodup.sublist (List.take_sublist batchSize _)) hmid rfl
  rw [hiff]
  refine forall_congr' fun p => forall_congr' fun hp => ?_
  exact ⟨fun hadmissible => hadmissible (hpicked p hp).1, fun hadmissible _ => hadmissible⟩

/-- Each sweep is isolated exactly when nothing it selected fails: every timer and every parent to be woken has room
in its scope, and nobody to be cancelled is stopping already. -/
theorem sweeps_isolated_iff (s : Store) (h : ReachableStore s) (env : Env) (batchSize : Nat) :
    (Isolated (settleDueWaits env batchSize) ((expiredWaitRuns env.now s).take batchSize) (settleDueWait env)
        (fun due _ s' => DueSettled due s') s ↔
      ∀ runId, (runId, some waitTimer) ∈ (expiredWaitRuns env.now s).take batchSize → scopeAllows env.now s runId = true) ∧
    (Isolated (settleChildWaits env batchSize) ((parentsAwaitingChildren s).take batchSize)
        (fun p => do let _ ← settleChildWait env p) (ChildSettled env.now) s ↔
      ∀ p ∈ (parentsAwaitingChildren s).take batchSize, ChildAdmissible env.now p s) ∧
    (Isolated (cascadeCancels env batchSize) ((cancelledParentsWithChildren s).take batchSize)
        (cascadeCancelChildren env) CascadeSettled s ↔
      ∀ p ∈ (cancelledParentsWithChildren s).take batchSize, ∀ id row, s.runs.lookup id = some row →
        row.parentRunId = some p → row.status ≠ .cancelling) :=
  ⟨dueWaits_isolated_iff h batchSize, childWaits_isolated_iff h batchSize, cascades_isolated_iff h batchSize⟩

end Sweeps

section Example

def sleep (runId leaseId : Uuid) : Op :=
  .recordSlice { slice runId leaseId 2 (some .externalWaitStarted) with waitKind := some waitTimer, waitSeconds := some 60 }

def oneTimer : List (Env × Op) :=
  [(clock 0, openSession 2), (clock 1, ask 2 3 "question"), (clock 2, take 5), (clock 3, sleep 3 5)]

def twoTimers : List (Env × Op) :=
  oneTimer ++ [(clock (seconds 86000), openSession 12), (clock (seconds 86000), ask 12 13 "again"),
    (clock (seconds 86001), take 15), (clock (seconds 86002), sleep 13 15)]

/-- A timer within its Run's day is settled. -/
theorem oneTimer_isolated :
    (3, some waitTimer) ∈ expiredWaitRuns (seconds 70) (attempt oneTimer).2 ∧
      Isolated (settleDueWaits (clock (seconds 70)) 10) ((expiredWaitRuns (seconds 70) (attempt oneTimer).2).take 10)
        (settleDueWait (clock (seconds 70))) (fun due _ s' => DueSettled due s') (attempt oneTimer).2 := by
  have hdue : expiredWaitRuns (seconds 70) (attempt oneTimer).2 = [(3, some waitTimer)] := by decide +kernel
  have hallows : scopeAllows (seconds 70) (attempt oneTimer).2 3 = true := by decide +kernel
  have hiff := sweeps_isolated_iff (attempt oneTimer).2 ⟨_, attempt_executes oneTimer⟩ (clock (seconds 70)) 10
  generalize (attempt oneTimer).2 = s at *
  refine ⟨by rw [hdue]; exact List.mem_singleton_self _, hiff.1.mpr fun runId hmem => ?_⟩
  rw [show (clock (seconds 70)).now = seconds 70 from rfl, hdue] at hmem
  obtain ⟨rfl, _⟩ := Prod.mk.inj (List.mem_singleton.mp (List.mem_of_mem_take hmem))
  exact hallows

/-- A Run whose day is over keeps another one's timer, which could be settled alone, from being settled. -/
theorem twoTimers_not_isolated :
    ReachableStore (attempt twoTimers).2 ∧
      (13, some waitTimer) ∈ (expiredWaitRuns (seconds 86401) (attempt twoTimers).2).take 10 ∧
      (∃ s₁, settleDueWait (clock (seconds 86401)) (13, some waitTimer) (attempt twoTimers).2 = .ok ((), s₁)) ∧
      ¬ Isolated (settleDueWaits (clock (seconds 86401)) 10) ((expiredWaitRuns (seconds 86401) (attempt twoTimers).2).take 10)
        (settleDueWait (clock (seconds 86401))) (fun due _ s' => DueSettled due s') (attempt twoTimers).2 := by
  have hreach : ReachableStore (attempt twoTimers).2 := ⟨_, attempt_executes twoTimers⟩
  have hpicked : [3, 13].map (fun id => ((attempt twoTimers).2.runs.lookup id).map fun run =>
      (run.status == .waitingExternal && run.waitDeadlineAt.any (· ≤ seconds 86401), run.waitKind)) =
        [some (true, some waitTimer), some (true, some waitTimer)] := by decide +kernel
  have hfew : ((attempt twoTimers).2.runs.select fun _ run =>
      run.status = .waitingExternal && run.waitDeadlineAt.any (· ≤ seconds 86401)).length ≤ 10 := by decide +kernel
  have hallows : scopeAllows (seconds 86401) (attempt twoTimers).2 13 = true := by decide +kernel
  have hspent : scopeAllows (seconds 86401) (attempt twoTimers).2 3 = false := by decide +kernel
  generalize (attempt twoTimers).2 = s at *
  have hmem {id : Uuid} (h : (s.runs.lookup id).map (fun run =>
      (run.status == .waitingExternal && run.waitDeadlineAt.any (· ≤ seconds 86401), run.waitKind)) =
        some (true, some waitTimer)) : (id, some waitTimer) ∈ (expiredWaitRuns (seconds 86401) s).take 10 := by
    obtain ⟨row, hrow, hread⟩ := Option.map_eq_some_iff.mp h
    obtain ⟨hdue, hkind⟩ := Prod.mk.inj hread
    rw [List.take_of_length_le]
    · refine List.mem_map.mpr ⟨(id, row), mem_selectRuns.mpr ⟨hrow, ?_⟩, by rw [hkind]⟩
      exact hdue
    · rw [expiredWaitRuns, List.length_map, selectRuns, List.length_mergeSort]
      exact hfew
  simp only [List.map_cons, List.map_nil, List.cons.injEq, and_true] at hpicked
  refine ⟨hreach, hmem hpicked.2, settleDueWait_total (reachable_sound hreach) fun _ _ => hallows, fun hisolated => ?_⟩
  have hroom := (dueWaits_isolated_iff hreach 10).mp hisolated 3 (hmem hpicked.1)
  rw [show (clock (seconds 86401)).now = seconds 86401 from rfl, hspent] at hroom
  cases hroom

end Example

end TinyHermes.Runs.SweepIsolation
