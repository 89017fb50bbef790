import TinyHermes.Runs.ClaimProgress
import TinyHermes.Runs.LeaseFencing

/-! Claims that overlap: each statement of `claim_head` reads what is committed by then, and the rows and advisory locks it takes
are its own until its transaction ends. -/
namespace TinyHermes.Runs.ConcurrentClaims
open Lib Tx SqlRunStore StateMachine

/-- What `_lock_running` names. -/
inductive RunningKey where
  | workspace (workspaceId : Uuid)
  | caller (workspaceId : Uuid) (caller : CallerIdentity)
  deriving DecidableEq

/-- `hashtextextended(f"running:{key}", 0)`: the number that is locked. -/
abbrev KeyHash := RunningKey → Int

/-- The row `_select_claimable` returns. -/
structure Candidate where
  runId : Uuid
  row : RunRow
  caller : CallerIdentity
  limits : WorkspaceLimits

def Candidate.workspaceKey (c : Candidate) : RunningKey := .workspace c.row.workspaceId

def Candidate.callerKey (c : Candidate) : RunningKey := .caller c.row.workspaceId c.caller

/-- `caller_limit or command.per_caller_default`. -/
def Candidate.callerCap (c : Candidate) (cmd : ClaimRunCommand) : Nat :=
  match c.limits.maxRunningRunsPerCaller with
  | some 0 | none => cmd.perCallerDefault
  | some cap => cap

/-- Where a claimer is in `claim_head`; `attempts` are the rounds of the loop after this one. -/
inductive Phase where
  | selecting (attempts : Nat)
  | lockingWorkspace (attempts : Nat) (candidate : Candidate) (cap : Nat)
  | countingWorkspace (attempts : Nat) (candidate : Candidate) (cap : Nat)
  | lockingCaller (attempts : Nat) (candidate : Candidate)
  | countingCaller (attempts : Nat) (candidate : Candidate)
  | chosen (candidate : Candidate)
  | claimed (candidate : Candidate) (decision : StateDecision)
  | finished

def Phase.asks : Phase → Option RunningKey
  | .lockingWorkspace _ candidate _ => some candidate.workspaceKey
  | .lockingCaller _ candidate => some candidate.callerKey
  | _ => none

structure Claimer where
  command : ClaimRunCommand
  now : Time
  aside : SetAside := {}
  /-- The advisory locks it holds. -/
  held : List Int := []
  rows : List Uuid := []
  phase : Phase := .selecting claimAttempts

/-- The committed database, and the claims that have begun and not ended. -/
structure World where
  store : Store := {}
  claimers : Table Nat Claimer := ∅

abbrev WorldTx := Tx World StoreError

/-- `_select_claimable` with `FOR UPDATE SKIP LOCKED`: rows locked elsewhere are passed over. -/
def selectUnlocked (env : Env) (s : Store) (cmd : ClaimRunCommand) (aside : SetAside) (locked : List Uuid) :
    Option (Uuid × RunRow) :=
  (s.runs.select fun id run =>
    (claimable s env.now id run && underLimits env s cmd run && aside.admits s run && commandAdmits cmd run) &&
      id ∉ locked).argmin (claimOrder env s cmd)

def candidate (env : Env) (s : Store) (cmd : ClaimRunCommand) (aside : SetAside) (locked : List Uuid) : Option Candidate := do
  let (runId, row) ← selectUnlocked env s cmd aside locked
  let limits ← env.catalog.workspaceLimits row.workspaceId
  let caller ← sessionCaller s row
  pure { runId, row, caller, limits }

/-- What is left to do once the workspace has room, or no limit. -/
def afterWorkspace (attempts : Nat) (c : Candidate) : Phase :=
  if c.caller.callerType ≠ .serviceAccount then .lockingCaller attempts c else .chosen c

def afterSelect (attempts : Nat) (c : Candidate) : Phase :=
  match c.limits.maxRunningRuns with
  | some cap => .lockingWorkspace attempts c cap
  | none => afterWorkspace attempts c

def claimerOf (id : Nat) : WorldTx Claimer := fetch (·.claimers.lookup id) .integrity

def setClaimer (id : Nat) (f : Claimer → Claimer) : WorldTx Unit :=
  write fun w => { w with claimers := w.claimers.modify id f }

def lockedByOthers (w : World) (id : Nat) : List Uuid :=
  (w.claimers.select fun j _ => j ≠ id).flatMap fun e => e.2.rows

def arrive (env : Env) (id : Nat) (cmd : ClaimRunCommand) : WorldTx Unit := do
  let w ← get
  require (w.claimers.lookup id = none) .integrity
  write fun w => { w with claimers := w.claimers.insert id { command := cmd, now := env.now } }

/-- One round of the loop begins. `busy` are the rows that transactions other than claims have locked. -/
def select (env : Env) (id : Nat) (busy : List Uuid) : WorldTx Unit := do
  let a ← claimerOf id
  let w ← get
  match a.phase with
  | .selecting 0 => setClaimer id fun a => { a with phase := .finished }
  | .selecting (attempts + 1) =>
    match candidate { env with now := a.now } w.store a.command a.aside (lockedByOthers w id ++ busy) with
    | none => setClaimer id fun a => { a with phase := .finished }
    | some c => setClaimer id fun a => { a with rows := c.runId :: a.rows, phase := afterSelect attempts c }
  | _ => throw .integrity

/-- `pg_advisory_xact_lock` returns: nobody else holds it. -/
def acquire (hash : KeyHash) (id : Nat) : WorldTx Unit := do
  let a ← claimerOf id
  let w ← get
  match a.phase with
  | .lockingWorkspace attempts c cap => do
    require (w.claimers.select (fun j b => j ≠ id && hash c.workspaceKey ∈ b.held) = []) .integrity
    setClaimer id fun a =>
      { a with held := hash c.workspaceKey :: a.held, phase := .countingWorkspace attempts c cap }
  | .lockingCaller attempts c => do
    require (w.claimers.select (fun j b => j ≠ id && hash c.callerKey ∈ b.held) = []) .integrity
    setClaimer id fun a => { a with held := hash c.callerKey :: a.held, phase := .countingCaller attempts c }
  | _ => throw .integrity

/-- `_running` under the lock, and what follows from it. -/
def count (id : Nat) : WorldTx Unit := do
  let a ← claimerOf id
  let w ← get
  match a.phase with
  | .countingWorkspace attempts c cap =>
    if workspaceRunning w.store c.row.workspaceId ≥ cap then
      setClaimer id fun a =>
        { a with
          aside := { a.aside with workspaces := c.row.workspaceId :: a.aside.workspaces }, phase := .selecting attempts }
    else setClaimer id fun a => { a with phase := afterWorkspace attempts c }
  | .countingCaller attempts c =>
    if callerRunning w.store c.row.workspaceId c.caller ≥ c.callerCap a.command then
      setClaimer id fun a =>
        { a with aside := { a.aside with callers := c.caller :: a.aside.callers }, phase := .selecting attempts }
    else setClaimer id fun a => { a with phase := .chosen c }
  | _ => throw .integrity

def isHead (s : Store) (c : Candidate) : Bool :=
  ((s.sessions.lookup c.row.sessionId).filter fun session =>
    session.workspaceId = c.row.workspaceId).bind (·.headRunId) = some c.runId

def claimDecision (s : Store) (now : Time) (c : Candidate) : Except StoreError StateDecision :=
  match s.budgets.lookup c.row.budgetRootRunId with
  | none => .error .unknownRun
  | some budget =>
    (RunStateMachine.decide
      { state := c.row.status, budgetAllowsExecution := budget.summary.allowsExecution now } .leaseAcquired).mapError .state

/-- The rest of `claim_head` up to its writes: the Session's head and the budget are read again. -/
def decideClaim (id : Nat) : WorldTx Unit := do
  let a ← claimerOf id
  let w ← get
  match a.phase with
  | .chosen c =>
    if isHead w.store c = false then setClaimer id fun a => { a with phase := .finished }
    else
      match claimDecision w.store a.now c with
      | .error _ => setClaimer id fun a => { a with phase := .finished }
      | .ok d => setClaimer id fun a => { a with phase := .claimed c d }
  | _ => throw .integrity

/-- What a claim writes; nobody sees it before the commit. -/
def takeRun (env : Env) (cmd : ClaimRunCommand) (c : Candidate) (d : StateDecision) (leaseId : Uuid) :
    StoreTx ClaimedRun := do
  modifyRun c.runId fun row => claimedRow d env.now row
  mint leaseId
  let version ← upsertLease env cmd c.runId leaseId
  appendEvents env c.row.workspaceId c.runId
    [{ eventType := .ofSignal .leaseAcquired, payload := [("worker_id", cmd.workerId)] }]
  pure {
    runId := c.runId, stateVersion := c.row.stateVersion + 1, leaseId, leaseVersion := version
    leaseExpiresAt := env.now + seconds cmd.leaseSeconds }

/-- The end of the transaction, which gives up its rows and its locks. -/
def commit (env : Env) (id : Nat) (leaseId : Uuid) : WorldTx Unit := do
  let a ← claimerOf id
  let w ← get
  match a.phase with
  | .claimed c d => do
    let (_, s) ← lift (takeRun { env with now := a.now } a.command c d leaseId w.store)
    write fun w => { store := s, claimers := w.claimers.erase id }
  | .finished => write fun w => { w with claimers := w.claimers.erase id }
  | _ => throw .integrity

/-- A claim that is rolled back, wherever it had come. -/
def abort (id : Nat) : WorldTx Unit := do
  let _ ← claimerOf id
  write fun w => { w with claimers := w.claimers.erase id }

def beside (env : Env) (op : Op) : WorldTx Unit := do
  let w ← get
  let (_, s) ← lift (exec env op w.store)
  require ((w.claimers.select fun _ a => a.rows.any fun runId =>
    s.runs.lookup runId ≠ w.store.runs.lookup runId) = []) .integrity
  write fun w => { w with store := s }

inductive Act where
  | arrive (id : Nat) (cmd : ClaimRunCommand)
  | select (id : Nat) (busy : List Uuid)
  | acquire (id : Nat)
  | count (id : Nat)
  | decideClaim (id : Nat)
  | commit (id : Nat) (leaseId : Uuid)
  | abort (id : Nat)
  | beside (op : Op)

def act (hash : KeyHash) (env : Env) : Act → WorldTx Unit
  | .arrive id cmd => arrive env id cmd
  | .select id busy => select env id busy
  | .acquire id => acquire hash id
  | .count id => count id
  | .decideClaim id => decideClaim id
  | .commit id leaseId => commit env id leaseId
  | .abort id => abort id
  | .beside op => beside env op

/-- Every Run that comes to run comes through a claim. -/
def Act.Permitted : Act → Prop
  | .beside (.claimHead _ _) => False
  | .beside op => LeaseFencing.AsCalled op
  | _ => True

def WorldStep (hash : KeyHash) (w : World) (i : Env × Act) (_ : Unit) (w' : World) : Prop :=
  i.2.Permitted ∧ act hash i.1 i.2 w = .ok ((), w')

abbrev WorldHistory := List (Commit World (Env × Act) Unit)

abbrev WorldExecutes (hash : KeyHash) (log : WorldHistory) (w : World) : Prop := Execution (WorldStep hash) {} log w

section Alone
variable {env : Env} {s : Store} {cmd : ClaimRunCommand}

theorem recount_eq {aside : SetAside} {c : Candidate}
    (hlimits : env.catalog.workspaceLimits c.row.workspaceId = some c.limits) (hcaller : sessionCaller s c.row = some c.caller) :
    recount env s cmd c.row aside =
      if c.limits.maxRunningRuns.any fun cap => workspaceRunning s c.row.workspaceId ≥ cap then
        some { aside with workspaces := c.row.workspaceId :: aside.workspaces }
      else if c.caller.callerType ≠ .serviceAccount ∧
          callerRunning s c.row.workspaceId c.caller ≥ c.callerCap cmd then
        some { aside with callers := c.caller :: aside.callers }
      else none := by
  simp only [recount, hlimits, hcaller]
  rfl

theorem claimHead_eq {leaseId : Uuid} {c : Candidate}
    (hsel : claimableWithinLimits env s cmd claimAttempts {} = some (c.runId, c.row)) :
    claimHead env cmd leaseId s =
      if isHead s c = false then .ok (none, s)
      else match claimDecision s env.now c with
        | .error e => .error e
        | .ok d => (takeRun env cmd c d leaseId >>= fun claimed => pure (some claimed)) s := by
  rw [claimHead, get_bind, hsel]
  simp only [isHead, claimDecision, ne_eq, decide_eq_false_iff_not]
  split_ifs with hhead
  · rw [fetch_bind_run]
    cases s.budgets.lookup c.row.budgetRootRunId with
    | none => rfl
    | some budget =>
      dsimp only
      cases hd : RunStateMachine.decide
        { state := c.row.status, budgetAllowsExecution := budget.summary.allowsExecution env.now } .leaseAcquired with
      | error => rfl
      | ok =>
        simp only [Except.mapError, takeRun, bind_assoc, pure_bind]
        rfl
  · rfl

end Alone
section Moves
variable {hash : KeyHash} {env : Env} {w w' : World} {id : Nat} {a a' : Claimer}

def Phase.granted : Phase → Phase
  | .lockingWorkspace attempts c cap => .countingWorkspace attempts c cap
  | .lockingCaller attempts c => .countingCaller attempts c
  | phase => phase

/-- A step of one claimer that writes nothing to the database. -/
inductive Advances (hash : KeyHash) (env : Env) (w : World) (id : Nat) (a : Claimer) : Act → Claimer → Prop where
  | gaveUp {act : Act} : Advances hash env w id a act { a with phase := .finished }
  | selected {attempts : Nat} {c : Candidate} {busy : List Uuid} (hphase : a.phase = .selecting (attempts + 1))
      (hc : candidate { env with now := a.now } w.store a.command a.aside (lockedByOthers w id ++ busy) = some c) :
      Advances hash env w id a (.select id busy) { a with rows := c.runId :: a.rows, phase := afterSelect attempts c }
  | locked {act : Act} {key : RunningKey} (hasks : a.phase.asks = some key)
      (hfree : ∀ j b, j ≠ id → w.claimers.lookup j = some b → hash key ∉ b.held) :
      Advances hash env w id a act { a with held := hash key :: a.held, phase := a.phase.granted }
  | wentOn {act : Act} {attempts : Nat} (aside : SetAside) :
      Advances hash env w id a act { a with aside, phase := .selecting attempts }
  | workspaceFree {act : Act} {attempts : Nat} {c : Candidate} {cap : Nat} (hphase : a.phase = .countingWorkspace attempts c cap)
      (hroom : workspaceRunning w.store c.row.workspaceId < cap) :
      Advances hash env w id a act { a with phase := afterWorkspace attempts c }
  | callerFree {act : Act} {attempts : Nat} {c : Candidate} (hphase : a.phase = .countingCaller attempts c)
      (hroom : callerRunning w.store c.row.workspaceId c.caller < c.callerCap a.command) :
      Advances hash env w id a act { a with phase := .chosen c }
  | decided {act : Act} {c : Candidate} {d : StateDecision} (hphase : a.phase = .chosen c)
      (hd : claimDecision w.store a.now c = .ok d) : Advances hash env w id a act { a with phase := .claimed c d }

inductive Moves (hash : KeyHash) (env : Env) (w : World) : Act → World → Prop where
  | arrived {id : Nat} {cmd : ClaimRunCommand} (hnew : w.claimers.lookup id = none) :
      Moves hash env w (.arrive id cmd) { w with claimers := w.claimers.insert id { command := cmd, now := env.now } }
  | advanced {act : Act} {id : Nat} {a : Claimer} {f : Claimer → Claimer} (ha : w.claimers.lookup id = some a)
      (hstep : Advances hash env w id a act (f a)) : Moves hash env w act { w with claimers := w.claimers.modify id f }
  | committed {id : Nat} {leaseId : Uuid} {a : Claimer} {c : Candidate} {d : StateDecision} {s : Store}
      {claimed : ClaimedRun} (ha : w.claimers.lookup id = some a) (hphase : a.phase = .claimed c d)
      (htake : takeRun { env with now := a.now } a.command c d leaseId w.store = .ok (claimed, s)) :
      Moves hash env w (.commit id leaseId) { store := s, claimers := w.claimers.erase id }
  | ended {act : Act} {id : Nat} : Moves hash env w act { w with claimers := w.claimers.erase id }
  | besides {op : Op} {answer : Answer} {s : Store} (hexec : exec env op w.store = .ok (answer, s))
      (hrows : ∀ j b, w.claimers.lookup j = some b → ∀ runId ∈ b.rows, s.runs.lookup runId = w.store.runs.lookup runId) :
      Moves hash env w (.beside op) { w with store := s }

theorem select_eq_nil {p : Nat → Claimer → Bool} (h : w.claimers.select p = []) {j : Nat} {b : Claimer}
    (hb : w.claimers.lookup j = some b) : p j b = false := by
  cases hp : p j b with
  | false => rfl
  | true =>
    have hmem := Table.mem_select.mpr ⟨hb, hp⟩
    rw [h] at hmem
    cases hmem

theorem select_moves {busy : List Uuid} (h : select env id busy w = .ok ((), w')) :
    Moves hash env w (.select id busy) w' := by
  rw [select, claimerOf, fetch_bind_ok] at h
  obtain ⟨a, ha, h⟩ := h
  rw [get_bind] at h
  cases hphase : a.phase with
  | selecting attempts =>
    rw [hphase] at h
    cases attempts with
    | zero =>
      rw [write_ok.mp h]
      exact .advanced ha .gaveUp
    | succ =>
      dsimp only at h
      cases hc : candidate { env with now := a.now } w.store a.command a.aside (lockedByOthers w id ++ busy) with
      | none =>
        rw [hc] at h
        rw [write_ok.mp h]
        exact .advanced ha .gaveUp
      | some =>
        rw [hc] at h
        rw [write_ok.mp h]
        exact .advanced ha (.selected hphase hc)
  | _ =>
    rw [hphase] at h
    exact absurd h throw_ok

theorem acquire_moves (h : acquire hash id w = .ok ((), w')) : Moves hash env w (.acquire id) w' := by
  rw [acquire, claimerOf, fetch_bind_ok] at h
  obtain ⟨a, ha, h⟩ := h
  rw [get_bind] at h
  have hgrant : ∀ key, a.phase.asks = some key → w.claimers.select (fun j b => j ≠ id && hash key ∈ b.held) = [] →
      Advances hash env w id a (.acquire id) { a with held := hash key :: a.held, phase := a.phase.granted } := by
    intro _ hasks hfree
    refine .locked hasks fun j b hj hb hheld => ?_
    have hnot := select_eq_nil hfree hb
    simp [hj, hheld] at hnot
  cases hphase : a.phase with
  | lockingWorkspace _ c =>
    rw [hphase] at h
    obtain ⟨hfree, h⟩ := require_bind_ok.mp h
    rw [write_ok.mp h]
    refine .advanced ha ?_
    have hstep := hgrant c.workspaceKey (by rw [hphase]; rfl) hfree
    rwa [hphase] at hstep
  | lockingCaller attempts c =>
    rw [hphase] at h
    obtain ⟨hfree, h⟩ := require_bind_ok.mp h
    rw [write_ok.mp h]
    refine .advanced ha ?_
    have hstep := hgrant c.callerKey (by rw [hphase]; rfl) hfree
    rwa [hphase] at hstep
  | _ =>
    rw [hphase] at h
    exact absurd h throw_ok

theorem count_moves (h : count id w = .ok ((), w')) : Moves hash env w (.count id) w' := by
  rw [count, claimerOf, fetch_bind_ok] at h
  obtain ⟨a, ha, h⟩ := h
  rw [get_bind] at h
  cases hphase : a.phase with
  | countingWorkspace =>
    rw [hphase] at h
    dsimp only at h
    split_ifs at h with hfull
    · rw [write_ok.mp h]
      exact .advanced ha (.wentOn _)
    · rw [write_ok.mp h]
      exact .advanced ha (.workspaceFree hphase (Nat.lt_of_not_le hfull))
  | countingCaller =>
    rw [hphase] at h
    dsimp only at h
    split_ifs at h with hfull
    · rw [write_ok.mp h]
      exact .advanced ha (.wentOn _)
    · rw [write_ok.mp h]
      exact .advanced ha (.callerFree hphase (Nat.lt_of_not_le hfull))
  | _ =>
    rw [hphase] at h
    exact absurd h throw_ok

theorem decideClaim_moves (h : decideClaim id w = .ok ((), w')) : Moves hash env w (.decideClaim id) w' := by
  rw [decideClaim, claimerOf, fetch_bind_ok] at h
  obtain ⟨a, ha, h⟩ := h
  rw [get_bind] at h
  cases hphase : a.phase with
  | chosen c =>
    rw [hphase] at h
    dsimp only at h
    split_ifs at h
    · rw [write_ok.mp h]
      exact .advanced ha .gaveUp
    · cases hd : claimDecision w.store a.now c with
      | error =>
        rw [hd] at h
        rw [write_ok.mp h]
        exact .advanced ha .gaveUp
      | ok =>
        rw [hd] at h
        rw [write_ok.mp h]
        exact .advanced ha (.decided hphase hd)
  | _ =>
    rw [hphase] at h
    exact absurd h throw_ok

theorem commit_moves {leaseId : Uuid} (h : commit env id leaseId w = .ok ((), w')) :
    Moves hash env w (.commit id leaseId) w' := by
  rw [commit, claimerOf, fetch_bind_ok] at h
  obtain ⟨a, ha, h⟩ := h
  rw [get_bind] at h
  cases hphase : a.phase with
  | claimed =>
    rw [hphase] at h
    obtain ⟨⟨_, _⟩, htake, h⟩ := lift_bind_ok.mp h
    rw [write_ok.mp h]
    exact .committed ha hphase htake
  | finished =>
    rw [hphase] at h
    rw [write_ok.mp h]
    exact .ended
  | _ =>
    rw [hphase] at h
    exact absurd h throw_ok

theorem beside_moves {op : Op} (h : beside env op w = .ok ((), w')) : Moves hash env w (.beside op) w' := by
  rw [beside, get_bind] at h
  obtain ⟨⟨_, _⟩, hexec, h⟩ := lift_bind_ok.mp h
  obtain ⟨hrows, h⟩ := require_bind_ok.mp h
  rw [write_ok.mp h]
  refine .besides hexec fun j b hb runId hrun => ?_
  have hsame := select_eq_nil hrows hb
  simp only [List.any_eq_false, decide_eq_true_eq, not_not] at hsame
  exact hsame runId hrun

theorem act_moves {x : Act} (h : act hash env x w = .ok ((), w')) : Moves hash env w x w' := by
  cases x with
  | arrive =>
    simp only [act, arrive, get_bind, require_bind_ok, write_ok] at h
    obtain ⟨hnew, rfl⟩ := h
    exact .arrived hnew
  | select => exact select_moves h
  | acquire => exact acquire_moves h
  | count => exact count_moves h
  | decideClaim => exact decideClaim_moves h
  | commit => exact commit_moves h
  | abort =>
    simp only [act, abort, claimerOf, fetch_bind_ok, write_ok] at h
    obtain ⟨_, _, rfl⟩ := h
    exact .ended
  | beside => exact beside_moves h

end Moves

section Exclusive

variable {hash : KeyHash} {env : Env} {w w' : World} {id : Nat} {a a' : Claimer} {x : Act}

structure Apart (claimers : Table Nat Claimer) : Prop where
  locks : claimers.Exclusive fun a lock => lock ∈ a.held
  rows : claimers.Exclusive fun a runId => runId ∈ a.rows

theorem selectUnlocked_mem {s : Store} {cmd : ClaimRunCommand} {aside : SetAside} {locked : List Uuid} {runId : Uuid}
    {row : RunRow} (h : selectUnlocked env s cmd aside locked = some (runId, row)) :
    s.runs.lookup runId = some row ∧ eligible env s cmd runId row = true ∧ runId ∉ locked := by
  obtain ⟨hrow, hp⟩ := Table.mem_select.mp (List.argmin_mem h)
  simp only [Bool.and_eq_true, decide_eq_true_eq] at hp
  exact ⟨hrow, by simp [eligible, hp], hp.2⟩

theorem candidate_spec {s : Store} {cmd : ClaimRunCommand} {aside : SetAside} {locked : List Uuid} {c : Candidate}
    (h : candidate env s cmd aside locked = some c) :
    s.runs.lookup c.runId = some c.row ∧ eligible env s cmd c.runId c.row = true ∧ c.runId ∉ locked ∧
      env.catalog.workspaceLimits c.row.workspaceId = some c.limits ∧ sessionCaller s c.row = some c.caller := by
  simp only [candidate, Option.bind_eq_bind, Option.bind_eq_some_iff, Option.pure_def, Option.some.injEq] at h
  obtain ⟨⟨_, _⟩, hsel, _, hlimits, _, hcaller, rfl⟩ := h
  obtain ⟨hrow, helig, hfree⟩ := selectUnlocked_mem hsel
  exact ⟨hrow, helig, hfree, hlimits, hcaller⟩

theorem not_locked_by {busy : List Uuid} {runId : Uuid} (h : runId ∉ lockedByOthers w id ++ busy) {j : Nat} {b : Claimer}
    (hj : j ≠ id) (hb : w.claimers.lookup j = some b) : runId ∉ b.rows := by
  intro hrow
  refine h (List.mem_append_left _ (List.mem_flatMap.mpr ⟨(j, b), Table.mem_select.mpr ⟨hb, ?_⟩, hrow⟩))
  simpa using hj

theorem Advances.held (h : Advances hash env w id a x a') {lock : Int} (hlock : lock ∈ a'.held) :
    lock ∈ a.held ∨ ∀ j b, j ≠ id → w.claimers.lookup j = some b → lock ∉ b.held := by
  cases h with
  | locked hasks hfree =>
    rcases List.mem_cons.mp hlock with rfl | hold
    · exact .inr hfree
    · exact .inl hold
  | _ => exact .inl hlock

theorem Advances.rows (h : Advances hash env w id a x a') {runId : Uuid} (hrow : runId ∈ a'.rows) :
    runId ∈ a.rows ∨ ∀ j b, j ≠ id → w.claimers.lookup j = some b → runId ∉ b.rows := by
  cases h with
  | selected hphase hc =>
    rcases List.mem_cons.mp hrow with rfl | hold
    · exact .inr fun j b hj hb => not_locked_by (candidate_spec hc).2.2.1 hj hb
    · exact .inl hold
  | _ => exact .inl hrow

theorem Moves.apart (hmove : Moves hash env w x w') (h : Apart w.claimers) : Apart w'.claimers := by
  cases hmove with
  | arrived =>
    constructor
    · apply h.locks.insert
      simp
    · apply h.rows.insert
      simp
  | advanced ha hstep =>
    constructor
    · exact h.locks.modify ha fun lock => hstep.held
    · exact h.rows.modify ha fun runId => hstep.rows
  | committed => exact ⟨h.locks.erase, h.rows.erase⟩
  | ended => exact ⟨h.locks.erase, h.rows.erase⟩
  | besides => exact h

theorem apart_run {log : WorldHistory} (h : WorldExecutes hash log w) : Apart w.claimers := by
  apply h.invariant (I := fun w => Apart w.claimers)
  · constructor
    · intro i j a b _ ha
      cases ha
    · intro i _ _ _ _ ha
      cases ha
  · intro _ _ _ _ hs hw
    exact (act_moves hs.2).apart hw

end Exclusive

section Replay

def performAct (hash : KeyHash) (w : World) (i : Env × Act) : Option (Unit × World) := (act hash i.1 i.2 w).toOption

def attemptActs (hash : KeyHash) (inputs : List (Env × Act)) : WorldHistory × World := replay (performAct hash) {} inputs

theorem attemptActs_executes {hash : KeyHash} {inputs : List (Env × Act)} (h : ∀ i ∈ inputs, i.2.Permitted) :
    WorldExecutes hash (attemptActs hash inputs).1 (attemptActs hash inputs).2 := by
  have hplain : Execution (fun w i (_ : Unit) w' => act hash i.1 i.2 w = .ok ((), w')) {} (attemptActs hash inputs).1
      (attemptActs hash inputs).2 := by
    refine replay_execution (performAct hash) (fun w i u w' hp => ?_) {} inputs
    exact Tx.ok_of_toOption hp
  exact hplain.strengthen fun c hc => h _ (replay_inputs _ _ _ c hc)

end Replay

section Example
open Agents

def oneEach : Catalog := { oneAgent with workspaceLimits := fun _ => some { maxRunningRuns := some 1 } }

def plainHash : KeyHash
  | .workspace workspaceId => workspaceId
  | .caller workspaceId caller => -(1 + 100 * workspaceId + caller.callerId)

def question (workspaceId sessionId runId : Uuid) (key : String) : List Act :=
  [.beside (.createSession { workspaceId, agentId := 10, caller := somebody, sessionMode := .persistent } sessionId),
    .beside (.acceptRun
      { workspaceId, sessionId, caller := somebody, endpoint := "runs", idempotencyKey := key,
        requestFingerprint := key, message := some (say key), message_or_compaction := say_submits key .answer } runId)]

def begins (id : Nat) : List Act := [.arrive id { workerId := "worker", leaseSeconds := 60 }, .select id []]

def locks (id : Nat) : List Act := [.acquire id, .count id]

def questions : List Act :=
  question 1 31 11 "a" ++ question 2 32 21 "b" ++ question 1 33 12 "c" ++ question 2 34 22 "d" ++ question 2 35 23 "e" ++
    question 1 36 13 "f"

def fourClaimers : List Act :=
  questions ++ begins 1 ++ locks 1 ++ locks 1 ++ [.decideClaim 1] ++ begins 2 ++ locks 2 ++ locks 2 ++ [.decideClaim 2] ++
    begins 3 ++ begins 4

def timed (acts : List Act) : List (Env × Act) := acts.zipIdx.map fun (x, n) => ({ catalog := oneEach, now := n }, x)

theorem timed_permitted {acts : List Act} (h : ∀ x ∈ acts, x.Permitted) : ∀ i ∈ timed acts, i.2.Permitted := by
  intro _ hi
  obtain ⟨⟨x, _⟩, hx, rfl⟩ := List.mem_map.mp hi
  exact h x (List.fst_mem_of_mem_zipIdx hx)

theorem fourClaimers_permitted : ∀ x ∈ fourClaimers, x.Permitted := by
  simp [fourClaimers, questions, question, begins, locks, Act.Permitted, LeaseFencing.AsCalled]

end Example

end TinyHermes.Runs.ConcurrentClaims
