import TinyHermes.Runs.Writes

/-! `claim_head`: which queued Run a Worker takes, and what taking it writes. -/
namespace TinyHermes.Runs.SqlRunStore
open Lib StateMachine

structure ClaimRunCommand where
  workspaceId : Option Uuid := none
  workerId : String
  leaseSeconds : Int
  perCallerDefault : Nat := 3
  promoteAfterSeconds : Int := 120
  sessionId : Option Uuid := none

structure ClaimedRun where
  runId : Uuid
  stateVersion : Nat
  leaseId : Uuid
  leaseVersion : Nat
  leaseExpiresAt : Time
  deriving DecidableEq, Repr

/-- `_claimable`: queued, Session Head, unblocked, unleased, and its hold-off over. -/
def claimable (s : Store) (now : Time) (runId : Uuid) (run : RunRow) : Bool :=
  run.status = .queued && ((s.sessions.lookup run.sessionId).bind (·.headRunId)) = some runId &&
    run.blockedByRunId.isNone &&
    !((s.leases.lookup runId).any fun lease => lease.releasedAt.isNone && lease.expiresAt > now) &&
    run.claimableAfter.all (· ≤ now)

def sessionCaller (s : Store) (run : RunRow) : Option CallerIdentity :=
  (s.sessions.lookup run.sessionId).map (·.caller)

def workspaceRunning (s : Store) (workspaceId : Uuid) : Nat :=
  s.runs.count fun _ run => run.workspaceId = workspaceId && run.status = .running

def callerRunning (s : Store) (workspaceId : Uuid) (caller : CallerIdentity) : Nat :=
  s.runs.count fun _ run =>
    run.workspaceId = workspaceId && run.status = .running && sessionCaller s run = some caller

/-- The caller's limit as the query computes it: `coalesce(limit, default)`. -/
def callerLimit (limits : WorkspaceLimits) (cmd : ClaimRunCommand) : Nat :=
  limits.maxRunningRunsPerCaller.getD cmd.perCallerDefault

/-- Nobody's running limit is full: the two conditions of `_select_claimable` on counts. -/
def underLimits (env : Env) (s : Store) (cmd : ClaimRunCommand) (run : RunRow) : Bool :=
  match env.catalog.workspaceLimits run.workspaceId, sessionCaller s run with
  | some limits, some caller =>
    (caller.callerType = .serviceAccount ||
      callerRunning s run.workspaceId caller < callerLimit limits cmd) &&
    limits.maxRunningRuns.all fun cap => workspaceRunning s run.workspaceId < cap
  | _, _ => false

def commandAdmits (cmd : ClaimRunCommand) (run : RunRow) : Bool :=
  cmd.workspaceId.all (· = run.workspaceId) && cmd.sessionId.all (· = run.sessionId)

/-- Somebody is at a screen waiting, or the Run has waited long enough to count as if. -/
def interactiveOrPromoted (env : Env) (s : Store) (cmd : ClaimRunCommand) (run : RunRow) : Bool :=
  (run.parentRunId.isNone &&
    (run.deliveryMode = some .chatCompletions ||
      ((sessionCaller s run).any fun caller => caller.callerType = .endUser))) ||
  max run.queuedAt (run.claimableAfter.getD run.queuedAt) ≤ env.now - seconds cmd.promoteAfterSeconds

/-- `ORDER BY case(interactive or promoted → 0, else 1), queued_at, id`. -/
def claimOrder (env : Env) (s : Store) (cmd : ClaimRunCommand) (e : Uuid × RunRow) : Nat ×ₗ Time ×ₗ Uuid :=
  toLex (if interactiveOrPromoted env s cmd e.2 then 0 else 1, toLex (e.2.queuedAt, e.1))

structure SetAside where
  callers : List CallerIdentity := []
  workspaces : List Uuid := []

def SetAside.admits (aside : SetAside) (s : Store) (run : RunRow) : Bool :=
  run.workspaceId ∉ aside.workspaces &&
    aside.callers.all fun full =>
      (sessionCaller s run).any fun caller =>
        caller.callerType ≠ full.callerType || caller.callerId ≠ full.callerId

/-- `_select_claimable`: the first Run in claim order among those that may be taken. -/
def selectClaimable (env : Env) (s : Store) (cmd : ClaimRunCommand) (aside : SetAside) : Option (Uuid × RunRow) :=
  (s.runs.select fun id run =>
    claimable s env.now id run && underLimits env s cmd run && aside.admits s run && commandAdmits cmd run).argmin
      (claimOrder env s cmd)

/-- The recount under the locks; it names whoever turned out to be full. -/
def recount (env : Env) (s : Store) (cmd : ClaimRunCommand) (run : RunRow) (aside : SetAside) : Option SetAside :=
  match env.catalog.workspaceLimits run.workspaceId, sessionCaller s run with
  | some limits, some caller =>
    if limits.maxRunningRuns.any fun cap => workspaceRunning s run.workspaceId ≥ cap then
      some { aside with workspaces := run.workspaceId :: aside.workspaces }
    else if caller.callerType ≠ .serviceAccount ∧
        callerRunning s run.workspaceId caller ≥
          -- `caller_limit or default`: here a limit of zero falls back to the default
          (match limits.maxRunningRunsPerCaller with
            | some 0 | none => cmd.perCallerDefault
            | some cap => cap) then
      some { aside with callers := caller :: aside.callers }
    else none
  | _, _ => none

/-- `_CLAIM_ATTEMPTS`: how many candidates a claim may set aside before giving up this round. -/
def claimAttempts : Nat := 5

def claimableWithinLimits (env : Env) (s : Store) (cmd : ClaimRunCommand) : Nat → SetAside → Option (Uuid × RunRow)
  | 0, _ => none
  | attempts + 1, aside =>
    match selectClaimable env s cmd aside with
    | none => none
    | some candidate =>
      match recount env s cmd candidate.2 aside with
      | some aside => claimableWithinLimits env s cmd attempts aside
      | none => some candidate

def leaseFor (env : Env) (cmd : ClaimRunCommand) (leaseId : Uuid) (version : Nat) : WorkerLeaseRow where
  id := leaseId
  workerId := cmd.workerId
  expiresAt := env.now + seconds cmd.leaseSeconds
  version := version

def upsertLease (env : Env) (cmd : ClaimRunCommand) (runId leaseId : Uuid) : StoreTx Nat := do
  let s ← get
  let version := match s.leases.lookup runId with
    | some lease => lease.version + 1
    | none => 1
  Tx.write fun s => { s with leases := s.leases.insert runId (leaseFor env cmd leaseId version) }
  pure version

/-- Take one queued Head Run and its single lease, or take nothing. -/
def claimHead (env : Env) (cmd : ClaimRunCommand) (leaseId : Uuid) : StoreTx (Option ClaimedRun) := do
  let s ← get
  match claimableWithinLimits env s cmd claimAttempts {} with
  | none => pure none
  | some (runId, candidate) =>
    if ((s.sessions.lookup candidate.sessionId).filter fun session =>
        session.workspaceId = candidate.workspaceId).bind (·.headRunId) ≠ some runId then pure none
    else do
      let budget ← Tx.fetch (·.budgets.lookup candidate.budgetRootRunId) .unknownRun
      let d ← Tx.lift ((RunStateMachine.decide
        { state := candidate.status, budgetAllowsExecution := budget.summary.allowsExecution env.now }
        .leaseAcquired).mapError .state)
      modifyRun runId fun row =>
        { applyDecision row d env.now with
          stateVersion := row.stateVersion + 1, updatedAt := env.now, inflightRound := none }
      mint leaseId
      let version ← upsertLease env cmd runId leaseId
      appendEvents env candidate.workspaceId runId
        [{ eventType := .ofSignal .leaseAcquired, payload := [("worker_id", cmd.workerId)] }]
      pure (some {
        runId, stateVersion := candidate.stateVersion + 1, leaseId, leaseVersion := version
        leaseExpiresAt := env.now + seconds cmd.leaseSeconds })

section Selection
variable {env : Env} {s : Store} {cmd : ClaimRunCommand} {aside : SetAside} {runId : Uuid} {run : RunRow}

def eligible (env : Env) (s : Store) (cmd : ClaimRunCommand) (runId : Uuid) (run : RunRow) : Bool :=
  claimable s env.now runId run && underLimits env s cmd run && commandAdmits cmd run

theorem selectClaimable_mem (h : selectClaimable env s cmd aside = some (runId, run)) :
    s.runs.lookup runId = some run ∧ eligible env s cmd runId run = true := by
  obtain ⟨hrun, hp⟩ := Table.mem_select.mp (List.argmin_mem h)
  simp only [Bool.and_eq_true] at hp
  exact ⟨hrun, by simp [eligible, hp]⟩

theorem claimableWithinLimits_mem {attempts : Nat}
    (h : claimableWithinLimits env s cmd attempts aside = some (runId, run)) :
    s.runs.lookup runId = some run ∧ eligible env s cmd runId run = true := by
  induction attempts generalizing aside with
  | zero => cases h
  | succ attempts ih =>
    simp only [claimableWithinLimits] at h
    split at h
    · cases h
    · next candidate hsel =>
      split at h
      · exact ih h
      · cases h
        exact selectClaimable_mem hsel

theorem claimable_queued {now : Time} (h : claimable s now runId run = true) : run.status = .queued := by
  simp only [claimable, Bool.and_eq_true, decide_eq_true_eq] at h
  exact h.1.1.1.1

end Selection

section Taking
open Tx
variable {env : Env} {cmd : ClaimRunCommand} {leaseId : Uuid} {s s' : Store} {answer : Option ClaimedRun}

def claimedRow (d : StateDecision) (now : Time) (row : RunRow) : RunRow :=
  { applyDecision row d now with stateVersion := row.stateVersion + 1, updatedAt := now, inflightRound := none }

/-- What `claim_head` does: nothing, or one queued Run becomes running under a lease nobody had. -/
theorem claimHead_spec (h : claimHead env cmd leaseId s = .ok (answer, s')) :
    (answer = none ∧ s' = s) ∨
      ∃ runId run budget d s₁ s₂ version claimed, answer = some claimed ∧ claimed.runId = runId ∧
        claimed.leaseId = leaseId ∧ s.runs.lookup runId = some run ∧ eligible env s cmd runId run = true ∧
        s.budgets.lookup run.budgetRootRunId = some budget ∧
        RunStateMachine.decide { state := run.status, budgetAllowsExecution := budget.summary.allowsExecution env.now }
          .leaseAcquired = .ok d ∧ leaseId ∉ s.drawn ∧
        s₁ = { s with runs := s.runs.modify runId (claimedRow d env.now), drawn := leaseId :: s.drawn } ∧
        s₂ = { s₁ with leases := s.leases.insert runId (leaseFor env cmd leaseId version) } ∧
        appendEvents env run.workspaceId runId
          [{ eventType := .ofSignal .leaseAcquired, payload := [("worker_id", cmd.workerId)] }] s₂ = .ok ((), s') := by
  simp only [claimHead, get_bind] at h
  cases hsel : claimableWithinLimits env s cmd claimAttempts {} with
  | none =>
    simp only [hsel, pure_ok] at h
    exact .inl ⟨h.1.symm, h.2.symm⟩
  | some candidate =>
    obtain ⟨runId, run⟩ := candidate
    simp only [hsel] at h
    split at h
    · obtain ⟨ha, hs⟩ := pure_ok.mp h
      exact .inl ⟨ha.symm, hs.symm⟩
    obtain ⟨hrun, helig⟩ := claimableWithinLimits_mem hsel
    simp only [mint, modifyRun, upsertLease, bind_assoc, fetch_bind_ok, lift_bind_ok, write_bind, get_bind,
      require_bind_ok, pure_bind] at h
    obtain ⟨budget, hbudget, d, hd, hfresh, h⟩ := h
    obtain ⟨_, _, hev, hpure⟩ := bind_ok.mp h
    obtain ⟨rfl, rfl⟩ := pure_ok.mp hpure
    refine .inr ⟨runId, run, budget, d, _, _, _, _, rfl, rfl, rfl, hrun, helig, hbudget, ?_, hfresh, rfl, rfl, hev⟩
    revert hd
    cases RunStateMachine.decide
      { state := run.status, budgetAllowsExecution := budget.summary.allowsExecution env.now } .leaseAcquired with
    | error => simp [Except.mapError]
    | ok => simp [Except.mapError]

theorem claimHead_selects {claimed : ClaimedRun} (h : claimHead env cmd leaseId s = .ok (some claimed, s')) :
    ∃ run, claimableWithinLimits env s cmd claimAttempts {} = some (claimed.runId, run) ∧
      s.runs.lookup claimed.runId = some run := by
  simp only [claimHead, get_bind] at h
  cases hsel : claimableWithinLimits env s cmd claimAttempts {} with
  | none =>
    simp only [hsel, pure_ok] at h
    cases h.1
  | some candidate =>
    obtain ⟨_, run⟩ := candidate
    simp only [hsel] at h
    split at h
    · cases (pure_ok.mp h).1
    simp only [mint, modifyRun, upsertLease, bind_assoc, fetch_bind_ok, lift_bind_ok, write_bind, get_bind,
      require_bind_ok, pure_bind] at h
    obtain ⟨_, _, _, _, _, h⟩ := h
    obtain ⟨_, _, _, hpure⟩ := bind_ok.mp h
    obtain ⟨heq, _⟩ := pure_ok.mp hpure
    cases heq
    exact ⟨run, rfl, (claimableWithinLimits_mem hsel).1⟩

end Taking

end TinyHermes.Runs.SqlRunStore
