import TinyHermes.Runs.Operations

/-! Who `claim_head` takes, and when a Run at the front of the queue stops everybody behind it. -/
namespace TinyHermes.Runs.ClaimProgress
open Lib SqlRunStore StateMachine Tx

def Homed (s : Store) : Prop :=
  ∀ id run, s.runs.lookup id = some run →
    ∃ session, s.sessions.lookup run.sessionId = some session ∧ session.workspaceId = run.workspaceId

theorem Homed.housekeeping {s s' : Store} (hs : Homed s) (h : Housekeeping s s') : Homed s' := by
  intro id _ hrun'
  have hrow := h.runs id
  rw [hrun'] at hrow
  obtain ⟨run, hrun, hkept⟩ := hrow.to_some
  obtain ⟨_, hsession, hhome⟩ := hs id run hrun
  have hsess := h.sessions run.sessionId
  rw [hsession] at hsess
  obtain ⟨session', hsession', hkept'⟩ := hsess.of_some
  rw [hkept]
  refine ⟨session', hsession', ?_⟩
  rw [hkept']
  exact hhome

theorem homed_modifyRun {s : Store} {runId : Uuid} {f : RunRow → RunRow} (hs : Homed s)
    (h : ∀ r, s.runs.lookup runId = some r → (f r).workspaceId = r.workspaceId ∧ (f r).sessionId = r.sessionId) :
    Homed { s with runs := s.runs.modify runId f } := by
  intro id run hrun
  change (s.runs.modify runId f).lookup id = some run at hrun
  rw [Table.lookup_modify] at hrun
  split at hrun
  · next hid =>
    subst hid
    obtain ⟨old, hold, rfl⟩ := Option.map_eq_some_iff.mp hrun
    obtain ⟨hworkspace, hsession⟩ := h old hold
    rw [hworkspace, hsession]
    exact hs id old hold
  · exact hs id run hrun

theorem homed_closed : Closed (Keeping Homed) where
  aside s s' hruns hsessions hs id run hrun := by
    rw [hruns] at hrun
    rw [hsessions]
    exact hs id run hrun
  run s runId f h hs := homed_modifyRun hs fun r hr => ⟨(h r hr).workspaceId, (h r hr).sessionId⟩
  session s sessionId f h hs id run hrun := by
    obtain ⟨session, hsession, hhome⟩ := hs id run hrun
    change ∃ session, (s.sessions.modify sessionId f).lookup run.sessionId = some session ∧ _
    rw [Table.lookup_modify, hsession]
    split
    · exact ⟨f session, rfl, (h session).workspaceId.trans hhome⟩
    · exact ⟨session, rfl, hhome⟩
  opens sessionId row _ _ s u s' h hs id run hrun := by
    simp only [insertSession, get_bind, require_bind_ok, write_ok] at h
    obtain ⟨hfree, rfl⟩ := h
    obtain ⟨session, hsession, hhome⟩ := hs id run hrun
    have hne : run.sessionId ≠ sessionId := by
      intro heq
      rw [heq, hfree] at hsession
      cases hsession
    refine ⟨session, ?_, hhome⟩
    rw [AList.lookup_insert_ne hne]
    exact hsession
  joins sessionId runId row _ s u s' h hs id run hrun := by
    simp only [joinSession, insertRun, modifySession, bind_assoc, fetch_bind_ok, get_bind, require_bind_ok, write_bind,
      write_ok] at h
    obtain ⟨session, hsession, hhome, _, rfl⟩ := h
    have hkeeps : ∀ k found, s.sessions.lookup k = some found → ∃ found', (s.sessions.modify sessionId fun s => { s with
        nextRunSequence := s.nextRunSequence + 1
        headRunId := if s.headRunId = none then some runId else s.headRunId }).lookup k = some found' ∧
        found'.workspaceId = found.workspaceId := by
      intro _ found hfound
      rw [Table.lookup_modify, hfound]
      split
      · exact ⟨_, rfl, rfl⟩
      · exact ⟨found, rfl, rfl⟩
    by_cases hid : id = runId
    · subst hid
      cases (AList.lookup_insert s.runs).symm.trans hrun
      obtain ⟨found, hfound, hsame⟩ := hkeeps sessionId session hsession
      exact ⟨found, hfound, hsame.trans hhome⟩
    · rw [AList.lookup_insert_ne hid] at hrun
      obtain ⟨old, hold, hsame⟩ := hs id run hrun
      obtain ⟨found, hfound, hkept⟩ := hkeeps run.sessionId old hold
      exact ⟨found, hfound, hkept.trans hsame⟩
  decides env runId signal args s u s' h hs := by
    obtain ⟨_, _, _, _, _, _, hkeep⟩ := decideAndWrite_spec h
    apply Homed.housekeeping _ hkeep
    exact homed_modifyRun hs fun r _ => ⟨rfl, rfl⟩
  repairs env sessionId s u s' h hs := hs.housekeeping (Housekeeping.of_repairSessionHead h)

theorem reachable_homed {s : Store} (h : ReachableStore s) : Homed s := by
  apply h.invariant
  · intro _ _ hrun
    cases hrun
  · intro _ i _ _ hstep hs
    exact Operations.exec_within homed_closed i.2 hstep hs

section Queue
variable {env : Env} {s : Store} {cmd : ClaimRunCommand} {leaseId runId : Uuid} {run : RunRow}

def BudgetAllows (env : Env) (s : Store) (run : RunRow) : Prop :=
  ∃ budget, s.budgets.lookup run.budgetRootRunId = some budget ∧ budget.summary.allowsExecution env.now = true

def Takeable (env : Env) (s : Store) (cmd : ClaimRunCommand) : Prop :=
  ∃ runId run, s.runs.lookup runId = some run ∧ eligible env s cmd runId run = true ∧ BudgetAllows env s run

structure FirstInLine (env : Env) (s : Store) (cmd : ClaimRunCommand) (runId : Uuid) (run : RunRow) : Prop where
  stored : s.runs.lookup runId = some run
  eligible : eligible env s cmd runId run = true
  first : ∀ other row, s.runs.lookup other = some row → SqlRunStore.eligible env s cmd other row = true →
    claimOrder env s cmd (runId, run) ≤ claimOrder env s cmd (other, row)

/-- `claim_head` takes a Run. -/
def Claims (env : Env) (s : Store) (cmd : ClaimRunCommand) (leaseId : Uuid) : Prop :=
  ∃ claimed s', claimHead env cmd leaseId s = .ok (some claimed, s')

theorem FirstInLine.unique {other : Uuid} {row : RunRow} (h : FirstInLine env s cmd runId run)
    (h' : FirstInLine env s cmd other row) : runId = other ∧ run = row := by
  have horder := le_antisymm (h.first other row h'.stored h'.eligible) (h'.first runId run h.stored h.eligible)
  have hid : runId = other := by
    have hpair := congrArg ofLex horder
    simp only [claimOrder, ofLex_toLex, Prod.mk.injEq, EmbeddingLike.apply_eq_iff_eq] at hpair
    exact hpair.2.2
  subst hid
  exact ⟨rfl, Option.some.inj (h.stored.symm.trans h'.stored)⟩

theorem selectClaimable_first (h : selectClaimable env s cmd {} = some (runId, run)) :
    FirstInLine env s cmd runId run := by
  obtain ⟨hstored, heligible⟩ := selectClaimable_mem h
  refine ⟨hstored, heligible, fun other row hother hrow => ?_⟩
  simp only [eligible, Bool.and_eq_true] at hrow
  apply List.le_of_mem_argmin _ h
  apply Table.mem_select.mpr
  refine ⟨hother, ?_⟩
  simp [hrow, SetAside.admits]

theorem exists_first (h : Takeable env s cmd) : ∃ runId run, selectClaimable env s cmd {} = some (runId, run) := by
  obtain ⟨runId, run, hstored, heligible, _⟩ := h
  cases hsel : selectClaimable env s cmd {} with
  | some candidate => exact ⟨candidate.1, candidate.2, rfl⟩
  | none =>
    have hnil := List.argmin_eq_none.mp hsel
    simp only [eligible, Bool.and_eq_true] at heligible
    have hmem : (runId, run) ∈ s.runs.select fun id run =>
        claimable s env.now id run && underLimits env s cmd run && SetAside.admits {} s run && commandAdmits cmd run := by
      apply Table.mem_select.mpr
      refine ⟨hstored, ?_⟩
      simp [heligible, SetAside.admits]
    rw [hnil] at hmem
    cases hmem

theorem recount_none (h : eligible env s cmd runId run = true) : recount env s cmd run {} = none := by
  simp only [eligible, Bool.and_eq_true] at h
  have hlimits := h.1.2
  unfold underLimits at hlimits
  unfold recount
  split
  · next limits caller hlim hcall =>
    rw [hlim, hcall] at hlimits
    simp only [Bool.and_eq_true, Bool.or_eq_true, decide_eq_true_eq] at hlimits
    obtain ⟨hcaller, hworkspace⟩ := hlimits
    rw [if_neg, if_neg]
    · rintro ⟨hperson, hfull⟩
      rcases hcaller with hservice | hroom
      · exact hperson hservice
      · unfold callerLimit at hroom
        cases hcap : limits.maxRunningRunsPerCaller with
        | none =>
          simp only [hcap, Option.getD_none] at hroom hfull
          omega
        | some cap =>
          cases cap with
          | zero => simp [hcap] at hroom
          | succ =>
            simp only [hcap, Option.getD_some] at hroom hfull
            omega
    · intro hfull
      cases hcap : limits.maxRunningRuns with
      | none => simp [hcap] at hfull
      | some =>
        simp only [hcap, Option.any_some, Option.all_some, decide_eq_true_eq] at hfull hworkspace
        omega
  · rfl

theorem claimable_first (h : selectClaimable env s cmd {} = some (runId, run)) :
    claimableWithinLimits env s cmd claimAttempts {} = some (runId, run) := by
  obtain ⟨_, heligible⟩ := selectClaimable_mem h
  unfold claimAttempts claimableWithinLimits
  simp only [h, recount_none heligible]

theorem claims_of_allowed (hhome : Homed s) (hfresh : leaseId ∉ s.drawn)
    (hsel : selectClaimable env s cmd {} = some (runId, run)) (hallows : BudgetAllows env s run) :
    Claims env s cmd leaseId := by
  obtain ⟨hstored, heligible⟩ := selectClaimable_mem hsel
  obtain ⟨session, hsession, hworkspace⟩ := hhome runId run hstored
  obtain ⟨budget, hbudget, hallows⟩ := hallows
  have hclaimable : claimable s env.now runId run = true := by
    simp only [eligible, Bool.and_eq_true] at heligible
    exact heligible.1.1
  have hqueued := claimable_queued hclaimable
  have hhead : session.headRunId = some runId := by
    simp only [claimable, hsession, Bool.and_eq_true, decide_eq_true_eq] at hclaimable
    exact hclaimable.1.1.1.2
  have hdecide : ∃ d, RunStateMachine.decide { state := run.status, budgetAllowsExecution := true } .leaseAcquired =
      .ok d := by
    rw [hqueued]
    exact ⟨_, rfl⟩
  obtain ⟨d, hd⟩ := hdecide
  have hfront : ((s.sessions.lookup run.sessionId).filter fun session =>
      session.workspaceId = run.workspaceId).bind (·.headRunId) = some runId := by
    rw [hsession, Option.filter_some, if_pos (by simp [hworkspace])]
    exact hhead
  unfold Claims claimHead
  simp only [get_bind, claimable_first hsel, hfront, ne_eq, not_true, if_false, modifyRun, mint, upsertLease, appendEvents,
    lockRun, bind_assoc, fetch_bind_ok, lift_bind_ok, write_bind, require_bind_ok, pure_bind, reduceCtorEq, pure_ok]
  refine ⟨_, _, budget, hbudget, d, by rw [hallows, hd]; rfl, hfresh, claimedRow d env.now run, ?_, rfl, rfl⟩
  rw [Table.lookup_modify_self, hstored, Option.map_some, Option.filter_some]
  exact if_pos (decide_eq_true rfl)

theorem not_claims_of_spent (hsel : selectClaimable env s cmd {} = some (runId, run)) (hspent : ¬ BudgetAllows env s run) :
    ¬ Claims env s cmd leaseId := by
  rintro ⟨_, _, h⟩
  unfold claimHead at h
  simp only [get_bind, claimable_first hsel] at h
  split at h
  · obtain ⟨hnone, _⟩ := pure_ok.mp h
    cases hnone
  · simp only [fetch_bind_ok, lift_bind_ok] at h
    obtain ⟨budget, hbudget, _, hd, _⟩ := h
    apply hspent
    refine ⟨budget, hbudget, ?_⟩
    cases hallows : budget.summary.allowsExecution env.now with
    | true => rfl
    | false =>
      obtain ⟨_, heligible⟩ := selectClaimable_mem hsel
      simp only [eligible, Bool.and_eq_true] at heligible
      rw [hallows, claimable_queued heligible.1.1] at hd
      cases hd

/-- One Run cannot keep the others from being taken exactly as long as the first in line has budget left. -/
theorem queue_moves_iff (hs : ReachableStore s) (hfresh : leaseId ∉ s.drawn) :
    (Takeable env s cmd → Claims env s cmd leaseId) ↔
      (Takeable env s cmd → ∃ runId run, FirstInLine env s cmd runId run ∧ BudgetAllows env s run) := by
  constructor
  · intro hclaims htake
    obtain ⟨runId, run, hsel⟩ := exists_first htake
    refine ⟨runId, run, selectClaimable_first hsel, ?_⟩
    by_contra hspent
    exact not_claims_of_spent hsel hspent (hclaims htake)
  · intro hfront htake
    obtain ⟨_, _, hsel⟩ := exists_first htake
    obtain ⟨_, _, hfirst, hallows⟩ := hfront htake
    obtain ⟨rfl, rfl⟩ := hfirst.unique (selectClaimable_first hsel)
    exact claims_of_allowed (reachable_homed hs) hfresh hsel hallows

end Queue

section Example

def late : Time := seconds 100000

def anyRun : ClaimRunCommand := { workerId := "worker", leaseSeconds := 60 }

def spentFirst : List (Env × Op) :=
  [(clock 0, openSession 2), (clock 0, ask 2 3 "early"), (clock late, openSession 4), (clock late, ask 4 5 "late")]

private theorem spent_first_fresh : (7 : Uuid) ∉ (attempt spentFirst).2.drawn := by
  decide

theorem spent_first_moves_iff :
    (Takeable (clock late) (attempt spentFirst).2 anyRun → Claims (clock late) (attempt spentFirst).2 anyRun 7) ↔
      (Takeable (clock late) (attempt spentFirst).2 anyRun →
        ∃ runId run, FirstInLine (clock late) (attempt spentFirst).2 anyRun runId run ∧
          BudgetAllows (clock late) (attempt spentFirst).2 run) :=
  queue_moves_iff ⟨_, attempt_executes spentFirst⟩ spent_first_fresh

private theorem spent_first_takeable : Takeable (clock late) (attempt spentFirst).2 anyRun := by
  have hrow : ((attempt spentFirst).2.runs.lookup 5).map (fun run =>
      (eligible (clock late) (attempt spentFirst).2 anyRun 5 run, run.budgetRootRunId)) = some (true, 5) := by decide
  have hbudget : ((attempt spentFirst).2.budgets.lookup 5).map (fun budget => budget.summary.allowsExecution late) =
      some true := by decide
  obtain ⟨run, hrun, hpair⟩ := Option.map_eq_some_iff.mp hrow
  obtain ⟨heligible, hroot⟩ := Prod.mk.inj hpair
  obtain ⟨budget, hlookup, hallows⟩ := Option.map_eq_some_iff.mp hbudget
  refine ⟨5, run, hrun, heligible, budget, ?_, hallows⟩
  rw [hroot]
  exact hlookup

/-- The Run that came first has run out of time, and nobody behind it can be taken. -/
theorem spent_first_blocks :
    ReachableStore (attempt spentFirst).2 ∧ (7 : Uuid) ∉ (attempt spentFirst).2.drawn ∧
      Takeable (clock late) (attempt spentFirst).2 anyRun ∧
      claimHead (clock late) anyRun 7 (attempt spentFirst).2 = .error (.state .runLimitReached) := by
  refine ⟨⟨_, attempt_executes spentFirst⟩, spent_first_fresh, spent_first_takeable, ?_⟩
  have hrefused : (match claimHead (clock late) anyRun 7 (attempt spentFirst).2 with
      | .error e => some e
      | .ok _ => none) = some (.state .runLimitReached) := by decide
  split at hrefused
  · next e he => rw [he, Option.some.inj hrefused]
  · cases hrefused

end Example

end TinyHermes.Runs.ClaimProgress
