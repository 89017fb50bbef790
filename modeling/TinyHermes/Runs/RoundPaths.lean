import TinyHermes.Runs.RunMoves
import TinyHermes.Runs.Worker

/-! Whether a round ends its Run the same way when it is recorded in one transaction and when it is
recorded with its workspace revision and signalled afterwards. -/
namespace TinyHermes.Runs.RoundPaths
open Lib SqlRunStore StateMachine SlicePolicy Worker Tx

def limitPayloads (events : List ReservedEvent) : List Payload :=
  (events.filter fun e => e.eventType = .runLimitReached).map (·.payload)

def limits (s : Store) (runId : Uuid) : List Payload :=
  limitPayloads ((s.events.filter fun row => row.runId = runId).map (·.event))

structure Ended where
  status : RunState
  pauseReason : Option PauseReason
  waitKind : Option String
  waitPolicy : Option WaitPolicy
  waitDeadlineAt : Option Time
  claimableAfter : Option Time
  limits : List Payload
  deriving DecidableEq

def endOf (row : RunRow) (limits : List Payload) : Ended where
  status := row.status
  pauseReason := row.pauseReason
  waitKind := row.waitKind
  waitPolicy := row.waitPolicy
  waitDeadlineAt := row.waitDeadlineAt
  claimableAfter := row.claimableAfter
  limits := limits

def ended (s : Store) (runId : Uuid) : Option Ended :=
  (s.runs.lookup runId).map fun row => endOf row (limits s runId)

structure Standing (s : Store) (runId : Uuid) (row : RunRow) (budget : RunBudgetScopeRow) : Prop where
  stored : s.runs.lookup runId = some row
  funded : s.budgets.lookup row.budgetRootRunId = some budget
  housed : ∃ session, s.sessions.lookup row.sessionId = some session ∧ session.workspaceId = row.workspaceId

section Statements
variable {env : Env} {runId : Uuid} {row : RunRow} {budget : RunBudgetScopeRow} {s s' : Store} {u : Unit}

theorem Standing.ended (h : Standing s runId row budget) : ended s runId = some (endOf row (limits s runId)) := by
  simp [RoundPaths.ended, h.stored]

theorem endOf_kept {row' : RunRow} (h : row.Kept row') (l : List Payload) : endOf row' l = endOf row l := by
  rw [h]
  rfl

theorem limitPayloads_append (l r : List ReservedEvent) : limitPayloads (l ++ r) = limitPayloads l ++ limitPayloads r := by
  simp [limitPayloads]

theorem limitPayloads_of_none {events : List ReservedEvent} (h : ∀ e ∈ events, e.eventType ≠ .runLimitReached) :
    limitPayloads events = [] := by
  unfold limitPayloads
  rw [List.filter_eq_nil_iff.mpr]
  · rfl
  · intro e he
    simpa using h e he

theorem limits_congr (h : s'.events = s.events) : limits s' runId = limits s runId := by
  unfold limits
  rw [h]

theorem appendEvents_total {events : List ReservedEvent} {workspaceId : Uuid} (hrow : s.runs.lookup runId = some row)
    (hworkspace : row.workspaceId = workspaceId) :
    ∃ s', appendEvents env workspaceId runId events s = .ok ((), s') := by
  unfold appendEvents
  split
  · exact ⟨s, rfl⟩
  · simp only [lockRun, modifyRun, fetch_bind_ok, write_bind, write_ok]
    refine ⟨_, row, ?_, rfl⟩
    rw [hrow, Option.filter_some]
    exact if_pos (decide_eq_true hworkspace)

theorem appendEvents_limits {events : List ReservedEvent} {workspaceId : Uuid}
    (h : appendEvents env workspaceId runId events s = .ok (u, s')) :
    limits s' runId = limits s runId ++ limitPayloads events := by
  unfold appendEvents at h
  split at h
  · next hnil =>
    obtain ⟨_, rfl⟩ := pure_ok.mp h
    rw [hnil]
    simp [limitPayloads]
  · simp only [lockRun, modifyRun, fetch_bind_ok, write_bind, write_ok] at h
    obtain ⟨_, _, rfl⟩ := h
    have hall (row : ReservedEvent × Nat → RunEventRow) (hrow : ∀ e, (row e).runId = runId) :
        (events.zipIdx.map row).filter (fun r => r.runId = runId) = events.zipIdx.map row := by
      apply List.filter_eq_self.mpr
      intro _ hr
      obtain ⟨e, _, rfl⟩ := List.mem_map.mp hr
      exact decide_eq_true (hrow e)
    unfold limits
    rw [List.filter_append, hall _ fun _ => rfl, List.map_append, limitPayloads_append, List.map_map]
    congr 2
    exact List.zipIdx_map_fst 0 events

theorem passHead_total (sessionId : Uuid) (next : Option Uuid) (s : Store) :
    ∃ s', passHead env sessionId runId next s = .ok ((), s') := by
  cases next with
  | none => exact ⟨_, rfl⟩
  | some => exact ⟨_, rfl⟩

theorem terminalize_total {session : SessionRow} (hrow : s.runs.lookup runId = some row)
    (hsession : s.sessions.lookup row.sessionId = some session) : ∃ s', terminalize env runId s = .ok ((), s') := by
  have hclose : ∀ t : Store, ∃ s', (if session.headRunId ≠ some runId then pure () else do
      let s ← get
      passHead env row.sessionId runId ((successorCandidate s row.sessionId runId).map (·.1)) : StoreTx Unit) t =
        .ok ((), s') := by
    intro t
    split
    · exact ⟨t, rfl⟩
    · exact passHead_total _ _ _
  simp only [terminalize, modifyRun, fetch_bind_ok, get_bind, write_bind]
  obtain ⟨s', hs'⟩ := hclose _
  exact ⟨s', row, hrow, session, hsession, hs'⟩

theorem terminalize_events {events : List RunEventRow} :
    Within (Keeping fun s => s.events = events) (terminalize env runId) := by
  have hsame : ∀ {f : Store → Store}, (∀ s, (f s).events = s.events) →
      Within (Keeping fun s => s.events = events) (Tx.write f : StoreTx Unit) := by
    intro _ hf
    exact Within.write fun s hs => (hf s).trans hs
  refine Within.bind (Within.fetch _ _) fun run => Within.bind Within.get fun before => ?_
  refine Within.bind (hsame fun _ => rfl) fun _ => Within.bind (hsame fun _ => rfl) fun _ => ?_
  refine Within.bind (Within.fetch _ _) fun session => Within.ite (fun _ => Within.pure _) fun _ => ?_
  refine Within.bind Within.get fun after => Within.bind (hsame fun _ => rfl) fun _ => ?_
  exact Within.bind (Within.forEach _ fun _ _ => hsame fun _ => rfl) fun _ => hsame fun _ => rfl

theorem housed_kept {sessionId workspaceId : Uuid}
    (h : ∃ session, s.sessions.lookup sessionId = some session ∧ session.workspaceId = workspaceId)
    (hkeep : Housekeeping s s') :
    ∃ session, s'.sessions.lookup sessionId = some session ∧ session.workspaceId = workspaceId := by
  obtain ⟨_, hsession, hhome⟩ := h
  have hboth := hkeep.sessions sessionId
  rw [hsession] at hboth
  obtain ⟨session', hsession', hkept⟩ := hboth.of_some
  refine ⟨session', hsession', ?_⟩
  rw [hkept]
  exact hhome

variable {signal : RunSignal} {args : SignalArgs} {d : StateDecision}

private theorem limitPayloads_cons_signal (payload : Payload) (events : List ReservedEvent) :
    limitPayloads ({ eventType := .ofSignal signal, payload } :: events) = limitPayloads events := by
  simp [limitPayloads]

theorem decideAndWrite_of_error {e : RunStateError} (h : Standing s runId row budget)
    (hd : RunStateMachine.decide (stateView row budget env.now) signal args.pauseReason args.waitKind args.waitDeadlineAt =
      .error e) : decideAndWrite env runId signal args s = .error (.state e) := by
  simp only [decideAndWrite, fetch_bind_run, h.stored, h.funded, hd]
  rfl

theorem decideAndWrite_of_ok (h : Standing s runId row budget)
    (hd : RunStateMachine.decide (stateView row budget env.now) signal args.pauseReason args.waitKind args.waitDeadlineAt =
      .ok d) :
    ∃ s' row', decideAndWrite env runId signal args s = .ok ((), s') ∧ Standing s' runId row' budget ∧
      (decidedRow row d args.waitPolicy env.now).Kept row' ∧
      limits s' runId = limits s runId ++ limitPayloads args.extraEvents := by
  obtain ⟨session, hsession, hhome⟩ := h.housed
  let s₁ : Store := { s with runs := s.runs.modify runId fun row => decidedRow row d args.waitPolicy env.now }
  have hrow₁ : s₁.runs.lookup runId = some (decidedRow row d args.waitPolicy env.now) := by
    simp [s₁, h.stored]
  have hclosed : ∃ s₂, Tx.onlyIf (d.isTerminal = true) (terminalize env runId) s₁ = .ok ((), s₂) := by
    by_cases hfinal : d.isTerminal = true
    · obtain ⟨s₂, hs₂⟩ := terminalize_total hrow₁ hsession
      exact ⟨s₂, by rw [Tx.onlyIf, if_pos hfinal, hs₂]⟩
    · exact ⟨s₁, by rw [Tx.onlyIf, if_neg hfinal]; rfl⟩
  obtain ⟨s₂, hs₂⟩ := hclosed
  have hkeep₂ : Housekeeping s₁ s₂ := Within.onlyIf (fun _ => Housekeeping.of_terminalize) hs₂
  have hevents₂ : s₂.events = s.events := by
    have hkeeps : Keeping (fun t => t.events = s.events) s₁ s₂ := Within.onlyIf (fun _ => terminalize_events) hs₂
    exact hkeeps rfl
  have hself₂ := hkeep₂.runs runId
  rw [hrow₁] at hself₂
  obtain ⟨row₂, hrow₂, hkept₂⟩ := hself₂.of_some
  have hworkspace₂ : row₂.workspaceId = row.workspaceId := by
    rw [hkept₂]
    rfl
  obtain ⟨s₃, hs₃⟩ : ∃ s₃, appendEvents env row.workspaceId runId
      ({ eventType := .ofSignal signal, payload := args.payload } :: args.extraEvents) s₂ = .ok ((), s₃) :=
    appendEvents_total hrow₂ hworkspace₂
  have hrun : decideAndWrite env runId signal args s = .ok ((), s₃) := by
    have hlift : (Tx.lift ((RunStateMachine.decide (stateView row budget env.now) signal args.pauseReason args.waitKind
        args.waitDeadlineAt).mapError .state) : StoreTx StateDecision) s = .ok (d, s) := by
      rw [hd]
      rfl
    refine fetch_bind_ok.mpr ⟨row, h.stored, fetch_bind_ok.mpr ⟨budget, h.funded, bind_ok.mpr ⟨d, s, hlift, ?_⟩⟩⟩
    exact bind_ok.mpr ⟨(), s₁, rfl, bind_ok.mpr ⟨(), s₂, hs₂, hs₃⟩⟩
  have hkeep₃ := Housekeeping.of_appendEvents hs₃
  have hself₃ := hkeep₃.runs runId
  rw [hrow₂] at hself₃
  obtain ⟨row₃, hrow₃, hkept₃⟩ := hself₃.of_some
  have hkept := hkept₂.trans hkept₃
  refine ⟨s₃, row₃, hrun, ⟨hrow₃, ?_, ?_⟩, hkept, ?_⟩
  · rw [hkeep₃.budgets, hkeep₂.budgets, hkept]
    exact h.funded
  · have hhoused₁ : ∃ session, s₁.sessions.lookup row.sessionId = some session ∧ session.workspaceId = row.workspaceId :=
      ⟨session, hsession, hhome⟩
    rw [hkept]
    exact housed_kept (housed_kept hhoused₁ hkeep₂) hkeep₃
  · rw [appendEvents_limits hs₃, limits_congr hevents₂, limitPayloads_cons_signal]

end Statements

section Signals
variable {env : Env} {round : Round} {row : RunRow} {budget : RunBudgetScopeRow} {s : Store} {signal : RunSignal}
  {reason : Option PauseReason} {d : StateDecision}

def roundSignals : List RunSignal :=
  [.safeCancelStarted, .safeCancelFinished, .safePauseReached, .approvalRequested, .externalWaitStarted, .sliceEnded,
    .completed, .failed]

/-- Past its locks, `_apply` is the decision, a cleanup that is not confirmed, and the release. -/
theorem apply_eq (h : Standing s round.runId row budget) (hround : round.workspaceId = row.workspaceId)
    (hsignal : signal ∈ roundSignals) :
    apply env round signal reason s = (do
      decideAndWrite env round.runId signal { pauseReason := reason }
      modifyRun round.runId fun row => row
      let after ← (Tx.fetch (·.runs.lookup round.runId) .unknownRun : StoreTx RunRow)
      Tx.onlyIf (after.status ≠ RunState.running) (releaseLease env round.runId)) s := by
  obtain ⟨session, hsession, hhome⟩ := h.housed
  have hrun : (s.runs.lookup round.runId).filter (fun run => run.workspaceId = round.workspaceId) = some row := by
    rw [h.stored, Option.filter_some]
    exact if_pos (decide_eq_true hround.symm)
  have hlocked : (s.sessions.lookup row.sessionId).filter (fun session => session.workspaceId = round.workspaceId) =
      some session := by
    rw [hsession, Option.filter_some]
    exact if_pos (decide_eq_true (hhome.trans hround.symm))
  simp only [roundSignals, List.mem_cons, List.not_mem_nil, or_false] at hsignal
  have hconfirmed : ∀ run, cleanupConfirmed
      { workspaceId := round.workspaceId, runId := round.runId, signal := signal, pauseReason := reason } run = true := by
    rcases hsignal with rfl | rfl | rfl | rfl | rfl | rfl | rfl | rfl <;> exact fun _ => rfl
  have hclears : clearsCleanup
      { workspaceId := round.workspaceId, runId := round.runId, signal := signal, pauseReason := reason } = false := by
    rcases hsignal with rfl | rfl | rfl | rfl | rfl | rfl | rfl | rfl <;> rfl
  simp only [apply, applySignal, lockRun, lockSession, fetch_bind_run, hrun, hlocked, require_bind_run, hconfirmed, hclears,
    Option.all_none, if_true, Bool.false_eq_true, if_false]

theorem apply_of_error {e : RunStateError} (h : Standing s round.runId row budget) (hround : round.workspaceId = row.workspaceId)
    (hsignal : signal ∈ roundSignals)
    (hd : RunStateMachine.decide (stateView row budget env.now) signal reason = .error e) :
    apply env round signal reason s = .error (.state e) := by
  have hdecided : decideAndWrite env round.runId signal { pauseReason := reason } s = .error (.state e) :=
    decideAndWrite_of_error h hd
  rw [apply_eq h hround hsignal]
  change (decideAndWrite env round.runId signal { pauseReason := reason } s).bind _ = _
  rw [hdecided]
  rfl

theorem apply_of_ok (h : Standing s round.runId row budget) (hround : round.workspaceId = row.workspaceId)
    (hsignal : signal ∈ roundSignals)
    (hd : RunStateMachine.decide (stateView row budget env.now) signal reason = .ok d) :
    ∃ s' row', apply env round signal reason s = .ok ((), s') ∧ Standing s' round.runId row' budget ∧
      (decidedRow row d none env.now).Kept row' ∧ limits s' round.runId = limits s round.runId := by
  have hwrites : ∃ s' row', decideAndWrite env round.runId signal { pauseReason := reason } s = .ok ((), s') ∧
      Standing s' round.runId row' budget ∧ (decidedRow row d none env.now).Kept row' ∧
      limits s' round.runId = limits s round.runId ++ limitPayloads [] := decideAndWrite_of_ok h hd
  obtain ⟨s₁, row₁, hdecided, hstands, hkept, hlimits⟩ := hwrites
  have hrow₂ : (s₁.runs.modify round.runId fun row => row).lookup round.runId = some row₁ := by
    rw [Table.lookup_modify_self, hstands.stored]
    rfl
  obtain ⟨s₃, hs₃, hruns₃, hsessions₃, hbudgets₃, hevents₃⟩ : ∃ s₃,
      Tx.onlyIf (row₁.status ≠ .running) (releaseLease env round.runId)
        { s₁ with runs := s₁.runs.modify round.runId fun row => row } = .ok ((), s₃) ∧
      s₃.runs = s₁.runs.modify round.runId (fun row => row) ∧ s₃.sessions = s₁.sessions ∧ s₃.budgets = s₁.budgets ∧
      s₃.events = s₁.events := by
    unfold Tx.onlyIf
    split
    · exact ⟨_, rfl, rfl, rfl, rfl, rfl⟩
    · exact ⟨_, rfl, rfl, rfl, rfl, rfl⟩
  refine ⟨s₃, row₁, ?_, ⟨?_, ?_, ?_⟩, hkept, ?_⟩
  · rw [apply_eq h hround hsignal]
    refine bind_ok.mpr ⟨(), s₁, hdecided, ?_⟩
    simp only [modifyRun, write_bind, fetch_bind_ok]
    exact ⟨row₁, hrow₂, hs₃⟩
  · rw [hruns₃]
    exact hrow₂
  · rw [hbudgets₃]
    exact hstands.funded
  · rw [hsessions₃]
    exact hstands.housed
  · rw [limits_congr hevents₃, hlimits]
    exact List.append_nil _

end Signals

section Writing
variable {env : Env} {round : Round} {decision : SliceDecision} {run : RunRow} {budget : RunBudgetScopeRow} {s s' : Store}
  {u : Unit}

/-- The first half of `record_slice`, which knows nothing of the decision. -/
def writeRound (env : Env) (cmd : RecordSliceCommand) : StoreTx Unit := do
  let run ← lockRun cmd.workspaceId cmd.runId .unknownRun
  let _ ← lockLease cmd.runId cmd.leaseId fun _ => true
  Tx.require (run.stateVersion = cmd.expectedStateVersion) .stateVersionConflict
  let _ ← lockSession cmd.workspaceId run.sessionId
  modifyRun cmd.runId (checkpointed cmd env.now)
  appendMessages run.sessionId cmd.runId cmd.appended
  consumeBudget run.budgetRootRunId cmd.executedMs cmd.modelCalls cmd.tokens cmd.cost

theorem recordSlice_eq (cmd : RecordSliceCommand) :
    recordSlice env cmd = (do
      writeRound env cmd
      match cmd.signal with
      | none => appendEvents env cmd.workspaceId cmd.runId cmd.events
      | some signal => endSlice env cmd signal) := by
  simp only [writeRound, bind_assoc]
  rfl

def charged (round : Round) (budget : RunBudgetScopeRow) : RunBudgetScopeRow :=
  accumulateCost { budget with
    consumedExecutionMs := budget.consumedExecutionMs + round.executedMs
    consumedModelCalls := budget.consumedModelCalls + round.modelCalls
    consumedTokens := budget.consumedTokens + round.tokens
    version := budget.version + 1 } round.cost

def writtenRow (round : Round) (now : Time) (run : RunRow) : RunRow :=
  checkpointed (sliceCommand round { signal := none }) now run

/-- The Worker may record the round: it holds the lease and read the version that is still there. -/
structure Ready (s : Store) (round : Round) (run : RunRow) (budget : RunBudgetScopeRow) : Prop where
  standing : Standing s round.runId run budget
  workspace : round.workspaceId = run.workspaceId
  version : run.stateVersion = round.expectedStateVersion
  leased : ∃ lease, s.leases.lookup round.runId = some lease ∧ lease.id = round.leaseId ∧ lease.releasedAt = none

theorem ready_of_write (h : writeRound env (sliceCommand round decision) s = .ok (u, s')) :
    ∃ run budget, Ready s round run budget := by
  simp only [writeRound, lockRun, lockSession, fetch_bind_ok] at h
  obtain ⟨run, hrun, h⟩ := h
  obtain ⟨lease, ⟨hlease, hid, hheld, _⟩, h⟩ := RunMoves.lockLease_bind_ok.mp h
  simp only [modifyRun, require_bind_ok, fetch_bind_ok, write_bind] at h
  obtain ⟨hversion, session, hsession, h⟩ := h
  obtain ⟨_, _, happend, hconsume⟩ := bind_ok.mp h
  simp only [consumeBudget, fetch_bind_ok, write_ok] at hconsume
  obtain ⟨budget, hbudget, _⟩ := hconsume
  obtain ⟨hstored, hworkspace⟩ := Option.filter_eq_some_iff.mp hrun
  obtain ⟨hfound, hhome⟩ := Option.filter_eq_some_iff.mp hsession
  have hworkspace : run.workspaceId = round.workspaceId := of_decide_eq_true hworkspace
  have hhome : session.workspaceId = round.workspaceId := of_decide_eq_true hhome
  rw [(RunMoves.appendMessages_ownTurns happend).2.2.2.1] at hbudget
  exact ⟨run, budget, ⟨hstored, hbudget, session, hfound, hhome.trans hworkspace.symm⟩, hworkspace.symm, hversion, lease,
    hlease, hid, hheld⟩

theorem appendMessages_total {sessionId : Uuid} {session : SessionRow} (runId : Uuid) (messages : List CanonicalMessage)
    (hsession : s.sessions.lookup sessionId = some session) :
    ∃ s' session', appendMessages sessionId runId messages s = .ok ((), s') ∧ s'.runs = s.runs ∧ s'.budgets = s.budgets ∧
      s'.events = s.events ∧ s'.sessions.lookup sessionId = some session' ∧
      session'.workspaceId = session.workspaceId := by
  induction messages generalizing s session with
  | nil => exact ⟨s, session, rfl, rfl, rfl, rfl, hsession, rfl⟩
  | cons message rest ih =>
    let s₁ : Store := { s with
      messages := s.messages ++ [{ sessionId, sequence := session.nextMessageSequence, message, sourceRunId := some runId }]
      sessions := s.sessions.modify sessionId fun row => { row with nextMessageSequence := row.nextMessageSequence + 1 } }
    have hfirst : appendMessage sessionId runId message s = .ok ((), s₁) := by
      simp only [appendMessage, modifySession, fetch_bind_run, hsession]
      rfl
    have hsession₁ : s₁.sessions.lookup sessionId =
        some { session with nextMessageSequence := session.nextMessageSequence + 1 } := by
      simp [s₁, hsession]
    obtain ⟨s', session', hrest, hruns, hbudgets, hevents, hfound, hworkspace⟩ := ih hsession₁
    exact ⟨s', session', bind_ok.mpr ⟨(), s₁, hfirst, hrest⟩, hruns, hbudgets, hevents, hfound, hworkspace⟩

theorem writeRound_total (h : Ready s round run budget) (decision : SliceDecision) :
    ∃ s', writeRound env (sliceCommand round decision) s = .ok ((), s') ∧
      Standing s' round.runId (writtenRow round env.now run) (charged round budget) ∧ s'.events = s.events := by
  obtain ⟨session, hsession, hhome⟩ := h.standing.housed
  obtain ⟨lease, hlease, hid, hheld⟩ := h.leased
  let s₁ : Store := { s with runs := s.runs.modify round.runId (writtenRow round env.now) }
  have hsession₁ : s₁.sessions.lookup run.sessionId = some session := hsession
  obtain ⟨s₂, session₂, happend, hruns, hbudgets, hevents, hfound, hworkspace⟩ :=
    appendMessages_total round.runId round.appended hsession₁
  have hbudget₂ : s₂.budgets.lookup run.budgetRootRunId = some budget := by
    rw [hbudgets]
    exact h.standing.funded
  let s₃ : Store := { s₂ with budgets := s₂.budgets.modify run.budgetRootRunId (charged round) }
  have hrow₃ : s₃.runs.lookup round.runId = some (writtenRow round env.now run) := by
    simp [s₃, hruns, s₁, h.standing.stored]
  refine ⟨s₃, ?_, ⟨hrow₃, ?_, session₂, hfound, hworkspace.trans hhome⟩, hevents⟩
  · simp only [writeRound, lockRun, lockSession, fetch_bind_ok]
    refine ⟨run, ?_, RunMoves.lockLease_bind_ok.mpr ⟨lease, ⟨hlease, hid, hheld, rfl⟩, ?_⟩⟩
    · exact Option.filter_eq_some_iff.mpr ⟨h.standing.stored, decide_eq_true h.workspace.symm⟩
    simp only [modifyRun, require_bind_ok, fetch_bind_ok, write_bind]
    refine ⟨h.version, session, ?_, bind_ok.mpr ⟨(), s₂, happend, ?_⟩⟩
    · exact Option.filter_eq_some_iff.mpr ⟨hsession, decide_eq_true (hhome.trans h.workspace.symm)⟩
    simp only [consumeBudget, fetch_bind_ok, write_ok]
    exact ⟨budget, hbudget₂, rfl⟩
  · change (s₂.budgets.modify run.budgetRootRunId (charged round)).lookup run.budgetRootRunId = _
    rw [Table.lookup_modify_self, hbudget₂]
    rfl

theorem commit_stands {sessionId revision : Uuid} {base : Option Uuid}
    (h : commitCheckpoint env (checkpointOf round decision sessionId base revision) s = .ok (true, s')) :
    ∃ run budget row, Ready s round run budget ∧ Standing s' round.runId row (charged round budget) ∧
      (∀ l, endOf row l = endOf run l) ∧ (∀ b, stateView row b env.now = stateView run b env.now) ∧
      row.workspaceId = run.workspaceId ∧ limits s' round.runId = limits s round.runId := by
  simp only [commitCheckpoint, lockSession, fetch_bind_ok] at h
  obtain ⟨session, _, h⟩ := h
  split at h
  · obtain ⟨hfalse, _⟩ := pure_ok.mp h
    cases hfalse
  simp only [mint, modifySession, bind_assoc, get_bind, require_bind_ok, write_bind] at h
  obtain ⟨_, h⟩ := h
  obtain ⟨_, s₃, hrecord, h⟩ := bind_ok.mp h
  simp only [modifyRun, write_bind, pure_ok] at h
  obtain ⟨_, rfl⟩ := h
  rw [recordSlice_eq] at hrecord
  obtain ⟨_, s₂, hwrite, hevents⟩ := bind_ok.mp hrecord
  obtain ⟨run, budget, hready⟩ := ready_of_write hwrite
  obtain ⟨s₂', hwrite', hstands, hquiet⟩ := writeRound_total hready (interim decision)
  obtain rfl : s₂ = s₂' := (Prod.mk.inj (Except.ok.inj (hwrite.symm.trans hwrite'))).2
  have hhoused : ∃ session, s.sessions.lookup run.sessionId = some session ∧ session.workspaceId = run.workspaceId := by
    obtain ⟨session', hsession', hhome⟩ := hready.standing.housed
    rw [Table.lookup_modify] at hsession'
    split at hsession'
    · obtain ⟨session, hsession, rfl⟩ := Option.map_eq_some_iff.mp hsession'
      exact ⟨session, hsession, hhome⟩
    · exact ⟨session', hsession', hhome⟩
  have hevents : appendEvents env round.workspaceId round.runId round.events s₂ = .ok ((), s₃) := hevents
  have hkeep := Housekeeping.of_appendEvents hevents
  have hself := hkeep.runs round.runId
  rw [hstands.stored] at hself
  obtain ⟨row₃, hrow₃, hkept⟩ := hself.of_some
  refine ⟨run, budget, { row₃ with checkpointWorkspaceRevisionId := some revision },
    ⟨⟨hready.standing.stored, hready.standing.funded, hhoused⟩, hready.workspace, hready.version, hready.leased⟩,
    ⟨?_, ?_, ?_⟩, fun l => ?_, fun b => ?_, ?_, ?_⟩
  · change (s₃.runs.modify round.runId _).lookup round.runId = _
    rw [Table.lookup_modify_self, hrow₃]
    rfl
  · change s₃.budgets.lookup row₃.budgetRootRunId = _
    rw [hkeep.budgets, hkept]
    exact hstands.funded
  · change ∃ session, s₃.sessions.lookup row₃.sessionId = some session ∧ session.workspaceId = row₃.workspaceId
    rw [hkept]
    exact housed_kept hstands.housed hkeep
  · change endOf row₃ l = _
    rw [endOf_kept hkept]
    rfl
  · change stateView row₃ b env.now = _
    rw [hkept]
    rfl
  · change row₃.workspaceId = _
    rw [hkept]
    rfl
  · change limits s₃ round.runId = _
    rw [appendEvents_limits hevents, limitPayloads_of_none round.no_limit, List.append_nil, limits_congr hquiet]
    exact limits_congr rfl

end Writing

section Landing
variable {env : Env} {round : Round} {decision : SliceDecision} {run row : RunRow} {budget : RunBudgetScopeRow} {s : Store}
  {signal : RunSignal} {d : StateDecision}

def landed (run : RunRow) (l : List Payload) (policy : Option WaitPolicy) (extra : List Payload) :
    Except RunStateError StateDecision → Ended
  | .error _ => endOf run l
  | .ok d =>
    { status := d.state, pauseReason := d.pauseReason, waitKind := d.waitKind
      waitPolicy := if d.waitKind = none then none else policy
      waitDeadlineAt := d.waitDeadlineAt, claimableAfter := run.claimableAfter, limits := l ++ extra }

theorem endSlice_of_ok (h : Standing s round.runId row budget) (hretry : decision.retryAfterSeconds = none)
    (hd : RunStateMachine.decide (stateView row budget env.now) signal decision.pauseReason decision.waitKind
      (decision.deadline env.now) = .ok d) :
    ∃ s' row', endSlice env (sliceCommand round decision) signal s = .ok ((), s') ∧ Standing s' round.runId row' budget ∧
      (decidedRow row d decision.waitPolicy env.now).Kept row' ∧
      limits s' round.runId = limits s round.runId ++ limitPayloads (limitEvents (sliceCommand round decision)) := by
  have hwrites : ∃ s' row', decideAndWrite env round.runId signal
      { pauseReason := decision.pauseReason, waitKind := decision.waitKind, waitPolicy := decision.waitPolicy
        waitDeadlineAt := decision.deadline env.now, payload := slicePayload (sliceCommand round decision)
        extraEvents := limitEvents (sliceCommand round decision) ++ round.events } s = .ok ((), s') ∧
      Standing s' round.runId row' budget ∧ (decidedRow row d decision.waitPolicy env.now).Kept row' ∧
      limits s' round.runId = limits s round.runId ++
        limitPayloads (limitEvents (sliceCommand round decision) ++ round.events) := decideAndWrite_of_ok h hd
  obtain ⟨s₁, row₁, hdecided, hstands, hkept, hlimits⟩ := hwrites
  have hheld : heldOff (sliceCommand round decision) env.now = id := by
    funext r
    simp [heldOff, sliceCommand, hretry]
  refine ⟨{ s₁ with
      runs := s₁.runs.modify round.runId (heldOff (sliceCommand round decision) env.now)
      leases := s₁.leases.modify round.runId (released env.now) }, row₁,
    bind_ok.mpr ⟨(), s₁, hdecided, rfl⟩, ⟨?_, hstands.funded, hstands.housed⟩, hkept, ?_⟩
  · rw [hheld]
    change (s₁.runs.modify round.runId id).lookup round.runId = _
    rw [Table.lookup_modify_self, hstands.stored]
    rfl
  · change limits s₁ round.runId = _
    rw [hlimits, limitPayloads_append, limitPayloads_of_none round.no_limit, List.append_nil]

theorem recordSlice_of_ok (h : Ready s round run budget) (hsignal : decision.signal = some signal)
    (hretry : decision.retryAfterSeconds = none)
    (hd : RunStateMachine.decide (stateView run (charged round budget) env.now) signal decision.pauseReason
      decision.waitKind (decision.deadline env.now) = .ok d) :
    ∃ s' row', recordSlice env (sliceCommand round decision) s = .ok ((), s') ∧
      Standing s' round.runId row' (charged round budget) ∧
      (decidedRow (writtenRow round env.now run) d decision.waitPolicy env.now).Kept row' ∧
      limits s' round.runId = limits s round.runId ++ limitPayloads (limitEvents (sliceCommand round decision)) := by
  obtain ⟨s₁, hwrite, hstands, hquiet⟩ := writeRound_total h decision
  obtain ⟨s₂, row₂, hend, hstands₂, hkept, hlimits⟩ := endSlice_of_ok hstands hretry hd
  refine ⟨s₂, row₂, ?_, hstands₂, hkept, ?_⟩
  · rw [recordSlice_eq]
    refine bind_ok.mpr ⟨(), s₁, hwrite, ?_⟩
    have hsignal : (sliceCommand round decision).signal = some signal := hsignal
    rw [hsignal]
    exact hend
  · rw [hlimits, limits_congr hquiet]

theorem recordSlice_of_error {e : RunStateError} (h : Ready s round run budget) (hsignal : decision.signal = some signal)
    (hd : RunStateMachine.decide (stateView run (charged round budget) env.now) signal decision.pauseReason
      decision.waitKind (decision.deadline env.now) = .error e) :
    recordSlice env (sliceCommand round decision) s = .error (.state e) := by
  obtain ⟨s₁, hwrite, hstands, _⟩ : ∃ s₁, writeRound env (sliceCommand round decision) s = .ok ((), s₁) ∧
      Standing s₁ round.runId (writtenRow round env.now run) (charged round budget) ∧ s₁.events = s.events :=
    writeRound_total h decision
  have hdecided : decideAndWrite env round.runId signal
      { pauseReason := decision.pauseReason, waitKind := decision.waitKind, waitPolicy := decision.waitPolicy
        waitDeadlineAt := decision.deadline env.now, payload := slicePayload (sliceCommand round decision)
        extraEvents := limitEvents (sliceCommand round decision) ++ round.events } s₁ = .error (.state e) :=
    decideAndWrite_of_error hstands hd
  have hsignal : (sliceCommand round decision).signal = some signal := hsignal
  rw [recordSlice_eq, hsignal, bind_of_ok hwrite]
  exact bind_of_error hdecided

theorem ended_record (h : Ready s round run budget) (hsignal : decision.signal = some signal)
    (hnot : signal ≠ .safeCancelStarted) (hretry : decision.retryAfterSeconds = none) :
    ended (record env round decision s) round.runId =
      some (landed run (limits s round.runId) decision.waitPolicy (limitPayloads (limitEvents (sliceCommand round decision)))
        (RunStateMachine.decide (stateView run (charged round budget) env.now) signal decision.pauseReason
          decision.waitKind (decision.deadline env.now))) := by
  have hplain : ∀ t : Store, (Tx.onlyIf ((sliceCommand round decision).signal = some .safeCancelStarted)
      (applySignal env { workspaceId := round.workspaceId, runId := round.runId, signal := .safeCancelFinished })) t =
        .ok ((), t) := by
    intro _
    have hcmd : (sliceCommand round decision).signal ≠ some .safeCancelStarted := by
      change decision.signal ≠ _
      rw [hsignal]
      exact fun heq => hnot (Option.some.inj heq)
    rw [Tx.onlyIf, if_neg hcmd]
    rfl
  cases hd : RunStateMachine.decide (stateView run (charged round budget) env.now) signal decision.pauseReason
      decision.waitKind (decision.deadline env.now) with
  | error =>
    have hrecord : record env round decision s = s :=
      commit_of_error (bind_of_error (recordSlice_of_error h hsignal hd))
    rw [hrecord]
    exact h.standing.ended
  | ok =>
    obtain ⟨s₁, _, hslice, hstands, hkept, hlimits⟩ := recordSlice_of_ok h hsignal hretry hd
    have hrecord : record env round decision s = s₁ := commit_of_ok ((bind_of_ok hslice).trans (hplain s₁))
    rw [hrecord, hstands.ended, endOf_kept hkept, hlimits]
    rfl

theorem ended_dispose (h : Standing s round.runId row budget) (hround : round.workspaceId = row.workspaceId)
    (hsignal : decision.signal = some signal) (hmem : signal ∈ roundSignals) (hnot : signal ≠ .safeCancelStarted) :
    ended (disposeAfterCommit env round decision s) round.runId =
      some (landed row (limits s round.runId) none []
        (RunStateMachine.decide (stateView row budget env.now) signal decision.pauseReason)) := by
  unfold disposeAfterCommit
  rw [hsignal]
  cases hd : RunStateMachine.decide (stateView row budget env.now) signal decision.pauseReason with
  | error =>
    simp only [apply_of_error h hround hmem hd]
    exact h.ended
  | ok =>
    obtain ⟨_, _, happly, hstands, hkept, hlimits⟩ := apply_of_ok h hround hmem hd
    simp only [happly, if_neg hnot]
    rw [hstands.ended, endOf_kept hkept, hlimits]
    simp [landed, endOf, decidedRow, applyDecision]

def cancelledEnd (run : RunRow) (l : List Payload) : Ended where
  status := .cancelled
  pauseReason := none
  waitKind := none
  waitPolicy := none
  waitDeadlineAt := none
  claimableAfter := run.claimableAfter
  limits := l

theorem decide_cancelStarted (hrunning : row.status = .running) (budget : RunBudgetScopeRow) (now : Time) :
    ∃ d, RunStateMachine.decide (stateView row budget now) .safeCancelStarted = .ok d ∧ d.state = .cancelling := by
  unfold stateView
  rw [hrunning]
  exact ⟨_, rfl, rfl⟩

theorem apply_cancelFinished (env : Env) (h : Standing s round.runId row budget) (hround : round.workspaceId = row.workspaceId)
    (hcancelling : row.status = .cancelling) :
    ∃ s', apply env round .safeCancelFinished none s = .ok ((), s') ∧
      ended s' round.runId = some (cancelledEnd row (limits s round.runId)) := by
  have hdecide : ∃ d, RunStateMachine.decide (stateView row budget env.now) .safeCancelFinished = .ok d ∧
      d.state = .cancelled ∧ d.pauseReason = none ∧ d.waitKind = none ∧ d.waitDeadlineAt = none := by
    unfold stateView
    rw [hcancelling]
    exact ⟨_, rfl, rfl, rfl, rfl, rfl⟩
  obtain ⟨_, hd, hstate, hreason, hkind, hdeadline⟩ := hdecide
  obtain ⟨s₁, _, happly, hstands, hkept, hlimits⟩ := apply_of_ok h hround (by decide) hd
  refine ⟨s₁, happly, ?_⟩
  rw [hstands.ended, endOf_kept hkept, hlimits]
  simp [endOf, cancelledEnd, decidedRow, applyDecision, hstate, hreason, hkind, hdeadline]

theorem ended_record_cancel (h : Ready s round run budget) (hrunning : run.status = .running) :
    ended (record env round { signal := some .safeCancelStarted } s) round.runId =
      some (cancelledEnd run (limits s round.runId)) := by
  obtain ⟨d, hd, hstate⟩ := decide_cancelStarted hrunning (charged round budget) env.now
  have hslices : ∃ s' row', recordSlice env (sliceCommand round { signal := some .safeCancelStarted }) s = .ok ((), s') ∧
      Standing s' round.runId row' (charged round budget) ∧
      (decidedRow (writtenRow round env.now run) d none env.now).Kept row' ∧
      limits s' round.runId = limits s round.runId ++ limitPayloads [] := recordSlice_of_ok h rfl rfl hd
  obtain ⟨_, row₁, hslice, hstands, hkept, hlimits⟩ := hslices
  have hstatus : row₁.status = .cancelling := by
    rw [hkept]
    exact hstate
  have hworkspace : round.workspaceId = row₁.workspaceId := by
    rw [hkept]
    exact h.workspace
  obtain ⟨s₂, happly, hend⟩ := apply_cancelFinished env hstands hworkspace hstatus
  have hrecord : record env round { signal := some .safeCancelStarted } s = s₂ :=
    commit_of_ok ((bind_of_ok hslice).trans happly)
  rw [hrecord, hend, hlimits, hkept]
  simp [limitPayloads, cancelledEnd, decidedRow, applyDecision, writtenRow, checkpointed]

theorem ended_dispose_cancel (h : Standing s round.runId row budget) (hround : round.workspaceId = row.workspaceId)
    (hrunning : row.status = .running) :
    ended (disposeAfterCommit env round { signal := some .safeCancelStarted } s) round.runId =
      some (cancelledEnd row (limits s round.runId)) := by
  obtain ⟨_, hd, hstate⟩ := decide_cancelStarted hrunning budget env.now
  obtain ⟨_, row₁, happly, hstands, hkept, hlimits⟩ := apply_of_ok h hround (by decide) hd
  have hstatus : row₁.status = .cancelling := by
    rw [hkept]
    exact hstate
  have hworkspace : round.workspaceId = row₁.workspaceId := by
    rw [hkept]
    exact hround
  obtain ⟨s₂, hfinish, hend⟩ := apply_cancelFinished env hstands hworkspace hstatus
  have hdispose : disposeAfterCommit env round { signal := some .safeCancelStarted } s = s₂ := by
    simp only [disposeAfterCommit, happly, if_true]
    exact commit_of_ok hfinish
  rw [hdispose, hend, hlimits, hkept]
  rfl

end Landing

section Agreement
variable {run row : RunRow} {l : List Payload} {v : RunStateView} {decision : SliceDecision} {signal : RunSignal} {now : Time}

/-- The whole decision and its signal alone take a Run to the same place. -/
def LandsAlike (v : RunStateView) (run : RunRow) (l : List Payload) (decision : SliceDecision) (signal : RunSignal)
    (now : Time) : Prop :=
  landed run l decision.waitPolicy (if decision.limitReached then [[("reason", decision.limitValve)]] else [])
      (RunStateMachine.decide v signal decision.pauseReason decision.waitKind (decision.deadline now)) =
    landed run l none [] (RunStateMachine.decide v signal decision.pauseReason)

theorem landed_congr (h : ∀ l, endOf row l = endOf run l) : landed row = landed run := by
  funext l policy extra d
  cases d with
  | error => exact h l
  | ok =>
    have hafter : row.claimableAfter = run.claimableAfter := congrArg Ended.claimableAfter (h [])
    simp [landed, hafter]

theorem landsAlike_plain (hkind : decision.waitKind = none) (hseconds : decision.waitSeconds = none)
    (hpolicy : decision.waitPolicy = none) (hlimit : decision.limitReached = false) :
    LandsAlike v run l decision signal now := by
  simp [LandsAlike, SliceDecision.deadline, hkind, hseconds, hpolicy, hlimit]

theorem not_landsAlike_limit (hv : v.state = .running) (valve : String) :
    ¬ LandsAlike v run l
      { signal := some .safePauseReached, pauseReason := some .limit, limitReached := true, limitValve := valve }
      .safePauseReached now := by
  have hdecide : ∃ d, RunStateMachine.decide v .safePauseReached (some .limit) = .ok d := by
    obtain ⟨state, _, _, _⟩ := v
    obtain rfl : state = .running := hv
    exact ⟨_, rfl⟩
  obtain ⟨_, hd⟩ := hdecide
  intro h
  have hlimits := congrArg (fun e : Ended => e.limits.length) h
  simp [SliceDecision.deadline, hd, landed] at hlimits

theorem not_landsAlike_wait {kind : String} {n : Int} {policy : Option WaitPolicy} (hv : v.state = .running)
    (hrunning : run.status = .running) (hblank : Text.isBlank kind = false)
    (hsignal : signal = .approvalRequested ∨ signal = .externalWaitStarted) :
    ¬ LandsAlike v run l { signal := some signal, waitKind := some kind, waitSeconds := some n, waitPolicy := policy }
      signal now := by
  intro h
  have hstatus := congrArg Ended.status h
  obtain ⟨state, _, _, _⟩ := v
  obtain rfl : state = .running := hv
  rcases hsignal with rfl | rfl
  · simp [RunStateMachine.decide, requestOnly, transitions, settleReason, enter, waitingApproval, hblank, landed, endOf,
      hrunning, bind, Except.bind] at hstatus
  · simp [RunStateMachine.decide, requestOnly, transitions, settleReason, enter, waitingExternal, SliceDecision.deadline,
      landed, endOf, hrunning, bind, Except.bind] at hstatus

theorem landsAlike_untimed {kind : String} (hv : v.state = .running) :
    LandsAlike v run l { signal := some .externalWaitStarted, waitKind := some kind, waitSeconds := none }
      .externalWaitStarted now := by
  obtain ⟨state, _, _, _⟩ := v
  obtain rfl : state = .running := hv
  simp [LandsAlike, RunStateMachine.decide, requestOnly, transitions, settleReason, enter, waitingExternal,
    SliceDecision.deadline, landed, bind, Except.bind]

/-- The verdict ends the round without a limit and without a timer that could run. -/
def VerdictSurvives (outcome : RoundOutcome) : Prop :=
  outcome.verdict.outcome = .done ∨ outcome.verdict.outcome = .failed ∨ outcome.verdict.outcome = .undecidable ∨
    (outcome.roundsExhausted = false ∧ (outcome.verdict.outcome = .wait → outcome.verdict.waitSeconds = none))

/-- What ends the round needs nothing the commit leaves behind: no wait that would start, and no limit. -/
def SurvivesCommit (now : Time) (outcome : RoundOutcome) : Prop :=
  outcome.cancelRequested = true ∨ outcome.pauseRequested = true ∨
    ((outcome.budgetAllows = true ∨ endsTheRun outcome = true) ∧
      match outcome.approval with
      | some check => ¬ Answerable now check
      | none => outcome.delegated = none ∧ VerdictSurvives outcome)

theorem awaiting_landsAlike_iff {decidedAt : Time} {check : ApprovalCheck} (hv : v.state = .running)
    (hrunning : run.status = .running) (hsignal : (awaiting decidedAt check).signal = some signal) :
    LandsAlike v run l (awaiting decidedAt check) signal now ↔ ¬ Answerable decidedAt check := by
  unfold awaiting at hsignal ⊢
  by_cases hverdict : check.verdict = .unavailable
  · rw [if_pos hverdict]
    exact iff_of_true (landsAlike_plain rfl rfl rfl rfl) fun h => h.1 hverdict
  rw [if_neg hverdict] at hsignal ⊢
  cases hexpires : check.expiresAt with
  | none =>
    refine iff_of_true (landsAlike_plain rfl rfl rfl rfl) ?_
    rintro ⟨_, expiresAt, hsome, _⟩
    rw [hexpires] at hsome
    cases hsome
  | some expiresAt =>
    rw [hexpires] at hsignal
    simp only at hsignal ⊢
    by_cases hleft : remainingSeconds expiresAt decidedAt ≤ 0
    · rw [if_pos hleft]
      refine iff_of_true (landsAlike_plain rfl rfl rfl rfl) ?_
      rintro ⟨_, _, hsome, hlate⟩
      cases hexpires.symm.trans hsome
      have := (remainingSeconds_pos_iff expiresAt decidedAt).mpr hlate
      omega
    · rw [if_neg hleft] at hsignal ⊢
      cases hsignal
      have hlate := (remainingSeconds_pos_iff expiresAt decidedAt).mp (by omega)
      refine iff_of_false (not_landsAlike_wait hv hrunning (by decide) (.inl rfl)) ?_
      exact not_not.mpr ⟨hverdict, expiresAt, hexpires, hlate⟩

theorem afterVerdict_landsAlike_iff {outcome : RoundOutcome} (hv : v.state = .running) (hrunning : run.status = .running)
    (hsignal : (afterVerdict outcome).signal = some signal) :
    LandsAlike v run l (afterVerdict outcome) signal now ↔ VerdictSurvives outcome := by
  unfold afterVerdict at hsignal ⊢
  by_cases hdone : outcome.verdict.outcome = .done
  · rw [if_pos hdone]
    exact iff_of_true (landsAlike_plain rfl rfl rfl rfl) (.inl hdone)
  rw [if_neg hdone] at hsignal ⊢
  by_cases hfailed : outcome.verdict.outcome = .failed
  · rw [if_pos hfailed]
    exact iff_of_true (landsAlike_plain rfl rfl rfl rfl) (.inr (.inl hfailed))
  rw [if_neg hfailed] at hsignal ⊢
  by_cases hundecidable : outcome.verdict.outcome = .undecidable
  · rw [if_pos hundecidable]
    exact iff_of_true (landsAlike_plain rfl rfl rfl rfl) (.inr (.inr (.inl hundecidable)))
  rw [if_neg hundecidable] at hsignal ⊢
  have hrest : VerdictSurvives outcome ↔ outcome.roundsExhausted = false ∧
      (outcome.verdict.outcome = .wait → outcome.verdict.waitSeconds = none) := by
    simp [VerdictSurvives, hdone, hfailed, hundecidable]
  rw [hrest]
  by_cases hrounds : outcome.roundsExhausted = true
  · rw [if_pos hrounds] at hsignal ⊢
    cases hsignal
    refine iff_of_false (not_landsAlike_limit hv _) ?_
    rw [hrounds]
    simp
  rw [if_neg hrounds] at hsignal ⊢
  have hrounds : outcome.roundsExhausted = false := by simpa using hrounds
  by_cases hwait : outcome.verdict.outcome = .wait
  · rw [if_pos hwait] at hsignal ⊢
    cases hsignal
    cases hseconds : outcome.verdict.waitSeconds with
    | none => exact iff_of_true (landsAlike_untimed hv) ⟨hrounds, fun _ => rfl⟩
    | some =>
      refine iff_of_false (not_landsAlike_wait hv hrunning (by decide) (.inr rfl)) ?_
      rintro ⟨_, hnone⟩
      cases hnone hwait
  rw [if_neg hwait] at hsignal ⊢
  refine iff_of_true ?_ ⟨hrounds, fun h => absurd h hwait⟩
  split
  · exact landsAlike_plain rfl rfl rfl rfl
  · split
    · exact landsAlike_plain rfl rfl rfl rfl
    · split
      · split <;> exact landsAlike_plain rfl rfl rfl rfl
      · exact landsAlike_plain rfl rfl rfl rfl

theorem decideAfterRound_landsAlike_iff {decidedAt : Time} {outcome : RoundOutcome} (hv : v.state = .running)
    (hrunning : run.status = .running) (hsignal : (decideAfterRound decidedAt outcome).signal = some signal) :
    LandsAlike v run l (decideAfterRound decidedAt outcome) signal now ↔ SurvivesCommit decidedAt outcome := by
  unfold decideAfterRound at hsignal ⊢
  unfold SurvivesCommit
  by_cases hcancel : outcome.cancelRequested = true
  · rw [if_pos hcancel]
    exact iff_of_true (landsAlike_plain rfl rfl rfl rfl) (.inl hcancel)
  rw [if_neg hcancel] at hsignal ⊢
  by_cases hpause : outcome.pauseRequested = true
  · rw [if_pos hpause]
    exact iff_of_true (landsAlike_plain rfl rfl rfl rfl) (.inr (.inl hpause))
  rw [if_neg hpause] at hsignal ⊢
  by_cases hvalve : (!outcome.budgetAllows && !endsTheRun outcome) = true
  · rw [if_pos hvalve] at hsignal ⊢
    cases hsignal
    refine iff_of_false (not_landsAlike_limit hv _) ?_
    simp only [Bool.and_eq_true, Bool.not_eq_true'] at hvalve
    simp [hcancel, hpause, hvalve]
  rw [if_neg hvalve] at hsignal ⊢
  have hopen : outcome.budgetAllows = true ∨ endsTheRun outcome = true := by
    cases hb : outcome.budgetAllows with
    | true => exact .inl rfl
    | false =>
      simp only [hb, Bool.not_false, Bool.true_and, Bool.not_eq_true'] at hvalve
      exact .inr (by simpa using hvalve)
  simp only [hcancel, hpause, hopen, Bool.false_eq_true, false_or, true_and]
  cases happroval : outcome.approval with
  | some =>
    rw [happroval] at hsignal
    exact awaiting_landsAlike_iff hv hrunning hsignal
  | none =>
    rw [happroval] at hsignal
    cases hdelegated : outcome.delegated with
    | some =>
      rw [hdelegated] at hsignal
      cases hsignal
      refine iff_of_false (not_landsAlike_wait hv hrunning (by decide) (.inr rfl)) ?_
      simp
    | none =>
      rw [hdelegated] at hsignal
      simp only [true_and]
      exact afterVerdict_landsAlike_iff hv hrunning hsignal

theorem limitEvents_payloads (round : Round) (decision : SliceDecision) :
    limitPayloads (limitEvents (sliceCommand round decision)) =
      if decision.limitReached then [[("reason", decision.limitValve)]] else [] := by
  unfold limitEvents
  cases hlimit : decision.limitReached <;> simp [sliceCommand, hlimit, limitPayloads]

structure Uncancelled (decision : SliceDecision) : Prop where
  signals : ∀ signal, decision.signal = some signal → signal ∈ roundSignals ∧ signal ≠ .safeCancelStarted
  noHoldOff : decision.retryAfterSeconds = none

theorem awaiting_uncancelled (decidedAt : Time) (check : ApprovalCheck) : Uncancelled (awaiting decidedAt check) := by
  unfold awaiting
  split
  · exact ⟨by simp [roundSignals], rfl⟩
  · split
    · exact ⟨by simp [roundSignals], rfl⟩
    · split
      · exact ⟨by simp [roundSignals], rfl⟩
      · exact ⟨by simp [roundSignals], rfl⟩

theorem afterVerdict_uncancelled (outcome : RoundOutcome) : Uncancelled (afterVerdict outcome) := by
  unfold afterVerdict
  repeat' split
  all_goals exact ⟨by simp [roundSignals], rfl⟩

theorem decideAfterRound_uncancelled {outcome : RoundOutcome} (decidedAt : Time) (h : outcome.cancelRequested = false) :
    Uncancelled (decideAfterRound decidedAt outcome) := by
  unfold decideAfterRound
  rw [h, if_neg (by decide)]
  split
  · exact ⟨by simp [roundSignals], rfl⟩
  · split
    · exact ⟨by simp [roundSignals], rfl⟩
    · split
      · exact awaiting_uncancelled decidedAt _
      · split
        · exact ⟨by simp [roundSignals], rfl⟩
        · exact afterVerdict_uncancelled outcome

/-- The two ways of recording a round end the Run alike exactly when what ended the round survives the commit. -/
theorem paths_agree_iff {env : Env} {round : Round} {outcome : RoundOutcome} {decidedAt : Time} {run : RunRow}
    {sessionId revision : Uuid} {base : Option Uuid} {s s₁ : Store} (hrun : s.runs.lookup round.runId = some run)
    (hrunning : run.status = .running)
    (hcommit : commitCheckpoint env
      (checkpointOf round (decideAfterRound decidedAt outcome) sessionId base revision) s = .ok (true, s₁))
    (hsignal : (decideAfterRound decidedAt outcome).signal.isSome = true) :
    ended (record env round (decideAfterRound decidedAt outcome) s) round.runId =
        ended (disposeAfterCommit env round (decideAfterRound decidedAt outcome) s₁) round.runId ↔
      SurvivesCommit decidedAt outcome := by
  obtain ⟨_, _, row, hready, hstands, hend, hview, hworkspace, hlimits⟩ := commit_stands hcommit
  cases hrun.symm.trans hready.standing.stored
  have hround : round.workspaceId = row.workspaceId := hready.workspace.trans hworkspace.symm
  cases hcancel : outcome.cancelRequested with
  | true =>
    have hdecision : decideAfterRound decidedAt outcome = { signal := some .safeCancelStarted } := by
      rw [decideAfterRound, if_pos hcancel]
    have hstatus : row.status = .running := (congrArg Ended.status (hend [])).trans hrunning
    rw [hdecision, ended_record_cancel hready hrunning, ended_dispose_cancel hstands hround hstatus, hlimits]
    refine iff_of_true ?_ (.inl hcancel)
    have hafter : row.claimableAfter = run.claimableAfter := congrArg Ended.claimableAfter (hend [])
    simp [cancelledEnd, hafter]
  | false =>
    have hshape := decideAfterRound_uncancelled decidedAt hcancel
    obtain ⟨signal, hsome⟩ := Option.isSome_iff_exists.mp hsignal
    obtain ⟨hmem, hnot⟩ := hshape.signals signal hsome
    rw [ended_record hready hsome hnot hshape.noHoldOff, ended_dispose hstands hround hsome hmem hnot, hlimits,
      landed_congr hend, hview, limitEvents_payloads, Option.some.injEq]
    exact decideAfterRound_landsAlike_iff hrunning hrunning hsome

end Agreement

section Example

def oneTaken : Store := (attempt [(clock 0, openSession 2), (clock 1, ask 2 3 "question"), (clock 2, take 5)]).2

def oneRound : Round := { workspaceId := 1, runId := 3, leaseId := 5, expectedStateVersion := 2, no_limit := no_events }

def finishing : RoundOutcome := { verdict := { outcome := .done } }

def sleeping : RoundOutcome := { verdict := { outcome := .wait, waitSeconds := some 60 } }

def commitOf (outcome : RoundOutcome) : Except StoreError (Bool × Store) :=
  commitCheckpoint (clock 3) (checkpointOf oneRound (decideAfterRound 3 outcome) 2 none 9) oneTaken

private theorem one_taken_running : ∃ run, oneTaken.runs.lookup 3 = some run ∧ run.status = .running := by
  have h : (oneTaken.runs.lookup 3).map (·.status) = some .running := by decide +kernel
  obtain ⟨run, hrun, hstatus⟩ := Option.map_eq_some_iff.mp h
  exact ⟨run, hrun, hstatus⟩

theorem finishing_paths_agree_iff :
    ∃ run s₁, oneTaken.runs.lookup 3 = some run ∧ run.status = .running ∧ commitOf finishing = .ok (true, s₁) ∧
      (ended (record (clock 3) oneRound (decideAfterRound 3 finishing) oneTaken) 3 =
          ended (disposeAfterCommit (clock 3) oneRound (decideAfterRound 3 finishing) s₁) 3 ↔
        SurvivesCommit 3 finishing) := by
  obtain ⟨run, hrun, hrunning⟩ := one_taken_running
  have hcommits : (commitOf finishing).toOption.map (·.1) = some true := by decide +kernel
  obtain ⟨⟨_, s₁⟩, hok, rfl⟩ := Option.map_eq_some_iff.mp hcommits
  have hcommit : commitOf finishing = .ok (true, s₁) := ok_of_toOption hok
  exact ⟨run, s₁, hrun, hrunning, hcommit, paths_agree_iff hrun hrunning hcommit rfl⟩

/-- Recorded plainly the Run sleeps; committed with its files it stays running, with nobody to run it. -/
theorem sleeping_paths_differ :
    ∃ run s₁, ReachableStore oneTaken ∧ oneTaken.runs.lookup 3 = some run ∧ run.status = .running ∧ commitOf sleeping = .ok (true, s₁) ∧
      (decideAfterRound 3 sleeping).signal = some .externalWaitStarted ∧
      ended (record (clock 3) oneRound (decideAfterRound 3 sleeping) oneTaken) 3 ≠
        ended (disposeAfterCommit (clock 3) oneRound (decideAfterRound 3 sleeping) s₁) 3 := by
  obtain ⟨run, hrun, hrunning⟩ := one_taken_running
  have hplain : (ended (record (clock 3) oneRound (decideAfterRound 3 sleeping) oneTaken) 3).map (·.status) =
      some .waitingExternal := by decide +kernel
  have hcommitted : (commitOf sleeping).toOption.map (fun p => (p.1,
      (ended (disposeAfterCommit (clock 3) oneRound (decideAfterRound 3 sleeping) p.2) 3).map (·.status))) =
        some (true, some .running) := by decide +kernel
  obtain ⟨⟨_, s₁⟩, hok, hpair⟩ := Option.map_eq_some_iff.mp hcommitted
  obtain ⟨rfl, hstatus⟩ := Prod.mk.inj hpair
  have hcommit : commitOf sleeping = .ok (true, s₁) := ok_of_toOption hok
  refine ⟨run, s₁, ⟨_, attempt_executes _⟩, hrun, hrunning, hcommit, rfl, fun heq => ?_⟩
  rw [heq, hstatus] at hplain
  cases hplain

end Example

end TinyHermes.Runs.RoundPaths
