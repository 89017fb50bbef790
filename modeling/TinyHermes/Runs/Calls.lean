import TinyHermes.Runs.LeaseFencing
import TinyHermes.Runs.ModelRounds
import TinyHermes.Runs.Worker

/-! Slices as the model endpoints and the budget see them: what a round reads before it asks, every call it makes, and what is
billed. Any number run beside each other, and a slice may stop anywhere. -/
namespace TinyHermes.Runs.SqlRunStore
open Lib

/-- One call outside a round, billed with the event that explains it. -/
structure RecordSummaryUsageCommand where
  workspaceId : Uuid
  runId : Uuid
  rootRunId : Uuid
  modelCalls : Nat
  tokens : Nat
  cost : Cost
  event : ReservedEvent

/-- What such a call adds to a scope: no execution time, and everything else. -/
def summarized (cmd : RecordSummaryUsageCommand) (row : RunBudgetScopeRow) : RunBudgetScopeRow :=
  accumulateCost { row with
    consumedModelCalls := row.consumedModelCalls + cmd.modelCalls
    consumedTokens := row.consumedTokens + cmd.tokens
    version := row.version + 1 } (some cmd.cost)

/-- `record_summary_usage`: under no lease. -/
def recordSummaryUsage (env : Env) (cmd : RecordSummaryUsageCommand) : StoreTx Unit := do
  let _ ← Tx.fetch (·.budgets.lookup cmd.rootRunId) .unknownRun
  Tx.write fun s => { s with budgets := s.budgets.modify cmd.rootRunId (summarized cmd) }
  appendEvents env cmd.workspaceId cmd.runId [cmd.event]

end TinyHermes.Runs.SqlRunStore

namespace TinyHermes.Runs.Calls
open Lib Tx ModelCatalog SqlRunStore SlicePolicy Worker Billing

/-- Where a slice stands between two calls or transactions. -/
inductive Phase where
  /-- At the top of the loop, before the round reads its context. -/
  | boundary
  | planning (context : ExecutionContext)
  /-- The summary was asked for. -/
  | summarizing (context : ExecutionContext) (inputEstimate : Nat)
  /-- The plan is made. `billed` counts the calls billed since the context was read. -/
  | planned (context : ExecutionContext) (inputEstimate billed : Nat)
  /-- In `_complete_recovering`, with a call on its way. -/
  | asking (recovery : Recovery) (inputEstimate billed : Nat)
  | answered (response : ModelResponse)
  /-- The round's decision is made, on a context read after the call. -/
  | judged (after : ExecutionContext) (response : ModelResponse) (executedMs : Nat) (decision : SliceDecision)
  /-- `_execute_slice` has returned. -/
  | ended
  /-- The skill review was asked for. -/
  | reviewing
  | closed

structure Slice where
  workspaceId : Uuid
  runId : Uuid
  budgetRootRunId : Uuid
  phase : Phase := .boundary

/-- The database, and the slices some Worker is in the middle of, by lease id. -/
structure Floor where
  store : Store := {}
  slices : Table Uuid Slice := ∅

/-- The ways a slice stops before its round asks anything. -/
inductive Stop where
  | revalidation | contextOverflow | costExceeded | compactionDone
  deriving DecidableEq, Repr

def Stop.decision : Stop → SliceDecision
  | .revalidation => { signal := some .safePauseReached, pauseReason := some .toolBudgetExceeded }
  | .contextOverflow => { signal := some .safePauseReached, pauseReason := some .contextOverflow }
  | .costExceeded => { signal := some .safePauseReached, pauseReason := some .limit, limitReached := true }
  | .compactionDone => { signal := some .completed }

/-- The ways a slice loses its sandbox, or does not get one, after the round was answered. -/
inductive Loss where
  | gone
  | notReady (retryAfterSeconds : Option Int)
  | unreachable
  | failed
  deriving DecidableEq, Repr

def Loss.decision : Loss → SliceDecision
  | .gone | .unreachable => { signal := some .interrupted }
  | .notReady retryAfterSeconds => { signal := some .sliceEnded, retryAfterSeconds }
  | .failed => { signal := some .failed }

/-- `_no_round`. -/
def noRound : ModelResponse := { stopReason := .continue_, modelCalls := 0, usageQuality := .unavailable }

/-- `_close_sandbox`, `_end_kept` and `_dispose_frozen`: what could not be confirmed is `INTERRUPTED`. -/
def closing (closed : Bool) (decision : SliceDecision) : SliceDecision :=
  if closed then decision else { signal := some .interrupted }

/-- `_slice_command` under the slice's own lease, with what the response used at the prices it is handed. -/
def commandFor (slice : Slice) (leaseId : Uuid) (round : Round) (response : ModelResponse)
    (prices : Option TokenPrices) (decision : SliceDecision) : RecordSliceCommand :=
  sliceCommand
    { round with
      workspaceId := slice.workspaceId, runId := slice.runId, leaseId := leaseId
      modelCalls := response.modelCalls, tokens := response.billableTokens, cost := costFrom response prices }
    decision

/-- `_bill_summary_call`. -/
def billCall (slice : Slice) (response : ModelResponse) (prices : Option TokenPrices) (event : ReservedEvent) :
    RecordSummaryUsageCommand where
  workspaceId := slice.workspaceId
  runId := slice.runId
  rootRunId := slice.budgetRootRunId
  modelCalls := response.modelCalls
  tokens := response.billableTokens
  cost := costOf prices response.inputTokens response.outputTokens response.usageQuality response.cachedInputTokens
  event := event

inductive Turn where
  /-- `_read_context`; the budget is the scope's row of that moment. -/
  | read (context : ExecutionContext)
  | plan (inputEstimate : Nat)
  | askSummary (inputEstimate : Nat)
  /-- The summary call raised. -/
  | summaryLost
  | summaryAnswered (response : ModelResponse) (prices : Option TokenPrices) (event : ReservedEvent)
  | stop (why : Stop) (round : Round) (closed : Bool)
  | ask
  | reply (routes : Routes) (response : ModelResponse)
  | lose (loss : Loss) (round : Round) (prices : Option TokenPrices) (closed : Bool)
  | judge (after : ExecutionContext) (outcome : RoundOutcome) (executedMs : Nat)
  | record (round : Round) (closed : Bool)
  | commit (round : Round) (sessionId : Uuid) (base : Option Uuid) (revision : Uuid)
  /-- The checkpoint found nothing changed. -/
  | unchanged (round : Round) (closed : Bool)
  /-- The freeze failed, or the round is rolled back. -/
  | undo (round : Round) (target : Option WorkspaceCleanupTarget) (sandboxId : Uuid)
  /-- `_execute_slice` returns early. -/
  | giveUp
  | review (context : ExecutionContext) (inputEstimate : Nat)
  | reviewAnswered (response : ModelResponse) (prices : Option TokenPrices) (event : ReservedEvent)

def next (decision : SliceDecision) : Phase := if decision.signal = none then .boundary else .ended

structure Bill where
  rootRunId : Uuid
  executedMs : Nat
  modelCalls : Nat
  tokens : Nat
  cost : Option Cost

def Bill.charge (bill : Bill) (row : RunBudgetScopeRow) : RunBudgetScopeRow :=
  accumulateCost { row with
    consumedExecutionMs := row.consumedExecutionMs + bill.executedMs
    consumedModelCalls := row.consumedModelCalls + bill.modelCalls
    consumedTokens := row.consumedTokens + bill.tokens
    version := row.version + 1 } bill.cost

def billOf (rootRunId : Uuid) (cmd : RecordSliceCommand) : Bill where
  rootRunId := rootRunId
  executedMs := cmd.executedMs
  modelCalls := cmd.modelCalls
  tokens := cmd.tokens
  cost := cmd.cost

abbrev TurnTx := StoreTx (Phase × Option Bill)

def stand (phase : Phase) : TurnTx := pure (phase, none)

def recordAt (env : Env) (slice : Slice) (cmd : RecordSliceCommand) (phase : Phase) : TurnTx := do
  recordRound env cmd
  pure (phase, some (billOf slice.budgetRootRunId cmd))

def billAt (env : Env) (cmd : RecordSummaryUsageCommand) (phase : Phase) : TurnTx := do
  recordSummaryUsage env cmd
  pure (phase, some
    { rootRunId := cmd.rootRunId, executedMs := 0, modelCalls := cmd.modelCalls, tokens := cmd.tokens
      cost := some cmd.cost })

/-- A committed checkpoint records its round; a conflict leaves it to be undone. -/
def commitAt (env : Env) (slice : Slice) (commit : CommitCheckpoint) (before after : Phase) : TurnTx := do
  let moved ← commitCheckpoint env commit
  pure (if moved then (after, some (billOf slice.budgetRootRunId commit.slice)) else (before, none))

/-- Nobody has reviewed this Run's work yet, and it is done. -/
def reviewable (s : Store) (runId : Uuid) : Bool :=
  (s.runs.lookup runId).any (·.status = .completed) &&
    s.events.all fun e => !(e.runId = runId && e.event.eventType = .skillReview)

/-- One turn of a slice: what it commits, and where it stands then. No provider counts more than the call it
made. -/
def turn (env : Env) (s : Store) (leaseId : Uuid) (slice : Slice) : Phase → Turn → Option TurnTx
  | .boundary, .read context =>
    (s.budgets.lookup slice.budgetRootRunId).map fun budget => stand (.planning { context with budget })
  | .planning context, .plan inputEstimate => some (stand (.planned context inputEstimate 0))
  | .planning context, .askSummary inputEstimate =>
    if costPrecheck context inputEstimate = .allowed ∧ callsPrecheck context.budget = true then
      some (stand (.summarizing context inputEstimate))
    else none
  | .summarizing context inputEstimate, .summaryLost => some (stand (.planned context inputEstimate 0))
  | .summarizing context inputEstimate, .summaryAnswered response prices event =>
    if response.modelCalls = 1 then
      some (billAt env (billCall slice response prices event) (.planned context inputEstimate response.modelCalls))
    else none
  | .boundary, .stop .revalidation round closed =>
    some (recordAt env slice (commandFor slice leaseId round noRound none (closing closed Stop.revalidation.decision)) .ended)
  | .planned _ _ _, .stop why round closed =>
    some (recordAt env slice (commandFor slice leaseId round noRound none (closing closed why.decision)) .ended)
  | .planned context inputEstimate billed, .ask =>
    if costPrecheck context inputEstimate = .allowed then some (stand (.asking { context } inputEstimate billed))
    else none
  | .asking recovery inputEstimate billed, .reply routes response =>
    if response.modelCalls = 1 then
      match recovery.receive routes inputEstimate response with
      | .inl recovery => some (stand (.asking recovery inputEstimate billed))
      | .inr final => some (stand (.answered final))
    else none
  | .answered response, .lose loss round prices closed =>
    some (recordAt env slice (commandFor slice leaseId round response prices (closing closed loss.decision)) .ended)
  | .answered response, .judge after outcome executedMs =>
    (s.budgets.lookup slice.budgetRootRunId).map fun budget =>
      -- `work.tool_limit_reached` closes the valve whatever the budget says
      let allows := budgetAfter env.now budget response executedMs && outcome.budgetAllows
      stand (.judged { after with budget } response executedMs
        (decideAfterRound env.now { outcome with budgetAllows := allows }))
  | .judged after response _ decision, .record round closed =>
    let final := closing (closed || decision.signal = none) decision
    some (recordAt env slice (commandFor slice leaseId round response after.prices final) (next final))
  | .judged after response executedMs decision, .commit round sessionId base revision =>
    some (commitAt env slice
      { workspaceId := slice.workspaceId, sessionId, baseRevisionId := base, revisionId := revision
        slice := commandFor slice leaseId round response after.prices (interim decision) }
      (.judged after response executedMs decision) (next decision))
  | .judged _ response _ decision, .unchanged round closed =>
    let final := closing closed decision
    some (recordAt env slice (commandFor slice leaseId round response none final) (next final))
  | .judged _ response _ _, .undo round target sandboxId =>
    some (recordAt env slice
      { commandFor slice leaseId round response none { signal := some .interrupted } with
        workspaceCleanupTarget := target
        workspaceCleanupSandboxId := if target.isSome then some sandboxId else none }
      .ended)
  | .closed, .giveUp => none
  | .ended, .giveUp => none
  | .reviewing, .giveUp => some (stand .closed)
  | _, .giveUp => some (stand .ended)
  | .ended, .review context inputEstimate =>
    (s.budgets.lookup slice.budgetRootRunId).bind fun budget =>
      if reviewable s slice.runId ∧ sideCallAllowed { context with budget } inputEstimate = true then
        some (stand .reviewing)
      else none
  | .reviewing, .reviewAnswered response prices event =>
    if response.modelCalls = 1 then some (billAt env (billCall slice response prices event) .closed) else none
  | _, _ => none

/-- The transactions besides those of the slices above. -/
def besideCalls : Op → Bool
  | .claimHead .. | .recordSlice .. | .recordRound .. | .commitCheckpoint .. => false
  | _ => true

inductive Act where
  | beside (op : Op)
  | claim (cmd : ClaimRunCommand) (leaseId : Uuid)
  | turn (leaseId : Uuid) (turn : Turn)
  | crash (leaseId : Uuid)

abbrev FloorTx := Tx Floor StoreError

def onStore {α : Type} (x : StoreTx α) : FloorTx α :=
  fun w => match x w.store with
    | .ok (a, s) => .ok (a, { w with store := s })
    | .error e => .error e

/-- One transaction of one process, or one turn of a slice, and what it billed. -/
def act (env : Env) : Act → FloorTx (Option Bill)
  | .beside op => do
    require (besideCalls op = true) .valueError
    let _ ← onStore (exec env op)
    pure none
  | .claim cmd leaseId => do
    match ← onStore (claimHead env cmd leaseId) with
    | none => pure none
    | some claimed => do
      let row ← fetch (·.store.runs.lookup claimed.runId) .unknownRun
      write fun w =>
        { w with
          slices := w.slices.insert leaseId
            { workspaceId := row.workspaceId, runId := claimed.runId, budgetRootRunId := row.budgetRootRunId } }
      pure none
  | .turn leaseId t => do
    let slice ← fetch (·.slices.lookup leaseId) .leaseLost
    let commits ← fetch (fun w => turn env w.store leaseId slice slice.phase t) .valueError
    let (phase, bill) ← onStore commits
    write fun w => { w with slices := w.slices.insert leaseId { slice with phase } }
    pure bill
  | .crash leaseId => do
    write fun w => { w with slices := w.slices.erase leaseId }
    pure none

def FloorStep (w : Floor) (i : Env × Act) (bill : Option Bill) (w' : Floor) : Prop := act i.1 i.2 w = .ok (bill, w')

abbrev FloorHistory := List (Commit Floor (Env × Act) (Option Bill))

/-- The runs of the platform with its slices, from an empty database. -/
abbrev FloorExecutes (log : FloorHistory) (w : Floor) : Prop := Execution FloorStep {} log w

def attemptActs (inputs : List (Env × Act)) : FloorHistory × Floor :=
  replay (fun w i => (act i.1 i.2 w).toOption) {} inputs

theorem attemptActs_executes (inputs : List (Env × Act)) :
    FloorExecutes (attemptActs inputs).1 (attemptActs inputs).2 := by
  apply replay_execution
  intro _ _ _ _ h
  exact ok_of_toOption h

section Steps
variable {env : Env} {w w' : Floor} {bill : Option Bill} {leaseId : Uuid}

theorem onStore_bind_ok {α β : Type} {x : StoreTx α} {f : α → FloorTx β} {b : β} :
    (onStore x >>= f) w = .ok (b, w') ↔
      ∃ a s, x w.store = .ok (a, s) ∧ f a { w with store := s } = .ok (b, w') := by
  rw [bind_ok]
  cases hx : x w.store with
  | error => simp [onStore, hx]
  | ok r =>
    obtain ⟨_, _⟩ := r
    simp [onStore, hx]

theorem beside_ok {op : Op} (h : act env (.beside op) w = .ok (bill, w')) :
    besideCalls op = true ∧ bill = none ∧ w'.slices = w.slices ∧ ∃ a, exec env op w.store = .ok (a, w'.store) := by
  simp only [act, require_bind_ok, onStore_bind_ok, pure_ok] at h
  obtain ⟨hop, a, _, hexec, rfl, rfl⟩ := h
  exact ⟨hop, rfl, rfl, a, hexec⟩

theorem claim_ok {cmd : ClaimRunCommand} (h : act env (.claim cmd leaseId) w = .ok (bill, w')) :
    bill = none ∧ ((claimHead env cmd leaseId w.store = .ok (none, w'.store) ∧ w'.slices = w.slices) ∨
      ∃ claimed row, claimHead env cmd leaseId w.store = .ok (some claimed, w'.store) ∧
        w'.store.runs.lookup claimed.runId = some row ∧
        w'.slices = w.slices.insert leaseId
          { workspaceId := row.workspaceId, runId := claimed.runId, budgetRootRunId := row.budgetRootRunId }) := by
  obtain ⟨claimed, _, hclaim, h⟩ := onStore_bind_ok.mp h
  cases claimed with
  | none =>
    obtain ⟨rfl, rfl⟩ := pure_ok.mp h
    exact ⟨rfl, .inl ⟨hclaim, rfl⟩⟩
  | some claimed =>
    simp only [fetch_bind_ok, write_bind, pure_ok] at h
    obtain ⟨row, hrow, rfl, rfl⟩ := h
    exact ⟨rfl, .inr ⟨claimed, row, hclaim, hrow, rfl⟩⟩

theorem turn_ok {t : Turn} (h : act env (.turn leaseId t) w = .ok (bill, w')) :
    ∃ slice commits phase, w.slices.lookup leaseId = some slice ∧
      turn env w.store leaseId slice slice.phase t = some commits ∧
      commits w.store = .ok ((phase, bill), w'.store) ∧ w'.slices = w.slices.insert leaseId { slice with phase } := by
  simp only [act, fetch_bind_ok, onStore_bind_ok] at h
  obtain ⟨slice, hslice, commits, hcommits, ⟨phase, _⟩, _, hrun, h⟩ := h
  simp only [write_bind, pure_ok] at h
  obtain ⟨rfl, rfl⟩ := h
  exact ⟨slice, commits, phase, hslice, hcommits, hrun, rfl⟩

theorem crash_ok (h : act env (.crash leaseId) w = .ok (bill, w')) :
    bill = none ∧ w' = { w with slices := w.slices.erase leaseId } := by
  simp only [act, write_bind, pure_ok] at h
  exact ⟨h.1.symm, h.2.symm⟩

end Steps

section Charging
variable {env : Env} {s s' : Store} {leaseId : Uuid} {slice : Slice} {phase : Phase} {bill : Option Bill}

def Current (s : Store) (runId leaseId : Uuid) : Prop := (s.leases.lookup runId).map (·.id) = some leaseId

def Spends (s : Store) (slice : Slice) : Prop := ∃ k, kinOf s slice.runId = some k ∧ k.root = slice.budgetRootRunId

/-- The calls made outside a round, which no lease is asked for. -/
def Turn.aside : Turn → Bool
  | .summaryAnswered .. | .reviewAnswered .. => true
  | _ => false

/-- What a turn does to the database as the scopes see it: one bill at most, to the scope of its Run. -/
structure Charged (leaseId : Uuid) (slice : Slice) (aside : Bool) (bill : Option Bill) (s s' : Store) : Prop where
  leases : ∀ id, (s'.leases.lookup id).map (·.id) = (s.leases.lookup id).map (·.id)
  kin : ∀ id, kinOf s' id = kinOf s id
  quiet : bill = none → s'.budgets = s.budgets
  billed : ∀ b, bill = some b →
    b.rootRunId = slice.budgetRootRunId ∧ (s.budgets.lookup slice.budgetRootRunId).isSome = true ∧
      s'.budgets = s.budgets.modify slice.budgetRootRunId b.charge ∧
      (aside = false → Current s slice.runId leaseId)

theorem stand_charged {aside : Bool} {p : Phase} (h : stand p s = .ok ((phase, bill), s')) :
    phase = p ∧ bill = none ∧ Charged leaseId slice aside bill s s' := by
  obtain ⟨hp, rfl⟩ := pure_ok.mp h
  cases hp
  exact ⟨rfl, rfl, fun _ => rfl, fun _ => rfl, fun _ => rfl, nofun⟩

theorem exec_leases {op : Op} {a : Answer} (h : exec env op s = .ok (a, s')) (hop : ∀ cmd leaseId, op ≠ .claimHead cmd leaseId)
    (id : Uuid) : (s'.leases.lookup id).map (·.id) = (s.leases.lookup id).map (·.id) := by
  have hids := LeaseFencing.exec_leaseId h id
  rw [LeaseFencing.claimOf_eq_none h] at hids
  · exact hids
  · rintro ⟨cmd, leaseId, rfl⟩
    exact hop cmd leaseId rfl

theorem recordAt_charged {aside : Bool} {cmd : RecordSliceCommand} {p : Phase} (hspends : Spends s slice)
    (hrun : cmd.runId = slice.runId) (hlease : cmd.leaseId = leaseId)
    (h : recordAt env slice cmd p s = .ok ((phase, bill), s')) :
    phase = p ∧ bill = some (billOf slice.budgetRootRunId cmd) ∧ Charged leaseId slice aside bill s s' := by
  obtain ⟨_, s₁, hround, h⟩ := bind_ok.mp h
  obtain ⟨hp, rfl⟩ := pure_ok.mp h
  cases hp
  have hexec : exec env (.recordRound cmd) s = .ok (.done, s₁) := by rw [exec, bind_of_ok hround]; rfl
  obtain ⟨_, _, hrow, hbudget, hbills, hkin⟩ := recordRound_bills hround
  obtain ⟨_, hheld, hid, _⟩ := LeaseFencing.presents_held hexec rfl (by rintro ⟨⟩)
  obtain ⟨_, hk, hroot⟩ := hspends
  rw [kinOf, ← hrun, hrow] at hk
  cases hk
  refine ⟨rfl, rfl, exec_leases hexec (by rintro _ _ ⟨⟩), hkin, by rintro ⟨⟩, fun _ hb => ?_⟩
  cases hb
  rw [← hroot]
  refine ⟨rfl, Option.isSome_of_eq_some hbudget, hbills, fun _ => ?_⟩
  rw [Current, ← hrun, hheld, ← hlease, ← hid]
  rfl

theorem commitAt_charged {aside : Bool} {commit : CommitCheckpoint} {before after : Phase} (hspends : Spends s slice)
    (hrun : commit.slice.runId = slice.runId) (hlease : commit.slice.leaseId = leaseId)
    (h : commitAt env slice commit before after s = .ok ((phase, bill), s')) :
    ((phase = before ∧ bill = none) ∨ (phase = after ∧ bill = some (billOf slice.budgetRootRunId commit.slice))) ∧
      Charged leaseId slice aside bill s s' := by
  obtain ⟨moved, s₁, hcommit, h⟩ := bind_ok.mp h
  obtain ⟨hp, rfl⟩ := pure_ok.mp h
  have hexec : exec env (.commitCheckpoint commit) s = .ok (.committed moved, s₁) := by
    rw [exec, bind_of_ok hcommit]
    rfl
  obtain ⟨rfl, rfl⟩ | ⟨rfl, _, _, hrow, hbudget, hbills, hkin⟩ := commitCheckpoint_bills hcommit
  · cases hp
    exact ⟨.inl ⟨rfl, rfl⟩, fun _ => rfl, fun _ => rfl, fun _ => rfl, by rintro b ⟨⟩⟩
  · cases hp
    obtain ⟨_, hheld, hid, _⟩ := LeaseFencing.presents_held hexec rfl (by rintro ⟨⟩)
    obtain ⟨_, hk, hroot⟩ := hspends
    rw [kinOf, ← hrun, hrow] at hk
    cases hk
    refine ⟨.inr ⟨rfl, rfl⟩, exec_leases hexec (by rintro _ _ ⟨⟩), hkin, by rintro ⟨⟩, fun _ hb => ?_⟩
    cases hb
    rw [← hroot]
    refine ⟨rfl, Option.isSome_of_eq_some hbudget, hbills, fun _ => ?_⟩
    rw [Current, ← hrun, hheld, ← hlease, ← hid]
    rfl

theorem billAt_charged {cmd : RecordSummaryUsageCommand} {p : Phase} (hroot : cmd.rootRunId = slice.budgetRootRunId)
    (h : billAt env cmd p s = .ok ((phase, bill), s')) :
    phase = p ∧ (∃ b, bill = some b ∧ b.modelCalls = cmd.modelCalls ∧ b.cost = some cmd.cost) ∧
      Charged leaseId slice true bill s s' := by
  obtain ⟨_, _, hbill, h⟩ := bind_ok.mp h
  obtain ⟨hp, rfl⟩ := pure_ok.mp h
  cases hp
  simp only [recordSummaryUsage, fetch_bind_ok, write_bind] at hbill
  obtain ⟨_, hrow, hevents⟩ := hbill
  have hkept := Housekeeping.of_appendEvents hevents
  have hplain := Plain.of_housekeeping hkept
  refine ⟨rfl, ⟨_, rfl, rfl, rfl⟩, fun id => ?_, fun id => ?_, nofun, fun b hb => ?_⟩
  · rw [hkept.leases]
  · rw [hplain.kin]
    rfl
  · cases hb
    rw [← hroot]
    refine ⟨rfl, Option.isSome_of_eq_some hrow, ?_, nofun⟩
    rw [hkept.budgets]
    rfl

end Charging

section Turns
variable {env : Env} {s s' : Store} {leaseId : Uuid} {slice : Slice} {phase : Phase} {bill : Option Bill} {t : Turn}

def priced (response : ModelResponse) (prices : Option TokenPrices) : Cost :=
  costOf prices response.inputTokens response.outputTokens response.usageQuality response.cachedInputTokens

inductive Took (now : Time) (s : Store) (slice : Slice) :
    Phase → Turn → Phase → Option (Nat × Option Cost) → Prop where
  | read {context : ExecutionContext} {budget : RunBudgetScopeRow}
      (hbudget : s.budgets.lookup slice.budgetRootRunId = some budget) :
      Took now s slice .boundary (.read context) (.planning { context with budget }) none
  | plan {context : ExecutionContext} {estimate : Nat} :
      Took now s slice (.planning context) (.plan estimate) (.planned context estimate 0) none
  | askSummary {context : ExecutionContext} {estimate : Nat} (hroom : callsPrecheck context.budget = true) :
      Took now s slice (.planning context) (.askSummary estimate) (.summarizing context estimate) none
  | summaryLost {context : ExecutionContext} {estimate : Nat} :
      Took now s slice (.summarizing context estimate) .summaryLost (.planned context estimate 0) none
  | summaryAnswered {context : ExecutionContext} {estimate : Nat} {response : ModelResponse}
      {prices : Option TokenPrices} {event : ReservedEvent} (hone : response.modelCalls = 1) :
      Took now s slice (.summarizing context estimate) (.summaryAnswered response prices event)
        (.planned context estimate 1) (some (1, some (priced response prices)))
  | stopped {from_ : Phase} {why : Stop} {round : Round} {closed : Bool} :
      Took now s slice from_ (.stop why round closed) .ended (some (0, none))
  | ask {context : ExecutionContext} {estimate billed : Nat} :
      Took now s slice (.planned context estimate billed) .ask (.asking { context } estimate billed) none
  | again {recovery recovery' : Recovery} {estimate billed : Nat} {routes : Routes} {response : ModelResponse}
      (hone : response.modelCalls = 1) (hagain : recovery.receive routes estimate response = .inl recovery') :
      Took now s slice (.asking recovery estimate billed) (.reply routes response)
        (.asking recovery' estimate billed) none
  | answered {recovery : Recovery} {estimate billed : Nat} {routes : Routes} {response final : ModelResponse}
      (hone : response.modelCalls = 1) (hfinal : recovery.receive routes estimate response = .inr final) :
      Took now s slice (.asking recovery estimate billed) (.reply routes response) (.answered final) none
  | lost {response : ModelResponse} {loss : Loss} {round : Round} {prices : Option TokenPrices} {closed : Bool} :
      Took now s slice (.answered response) (.lose loss round prices closed) .ended
        (some (response.modelCalls, costFrom response prices))
  | judged {response : ModelResponse} {after : ExecutionContext} {outcome : RoundOutcome} {executedMs : Nat}
      {budget : RunBudgetScopeRow} {decision : SliceDecision}
      (hbudget : s.budgets.lookup slice.budgetRootRunId = some budget)
      (hgoes : decision.signal = none → budgetAfter now budget response executedMs = true) :
      Took now s slice (.answered response) (.judge after outcome executedMs)
        (.judged { after with budget } response executedMs decision) none
  | recorded {after : ExecutionContext} {response : ModelResponse} {executedMs : Nat} {decision final : SliceDecision}
      {round : Round} {closed : Bool} (hgoes : final.signal = none → decision.signal = none) :
      Took now s slice (.judged after response executedMs decision) (.record round closed) (next final)
        (some (response.modelCalls, costFrom response after.prices))
  | committed {after : ExecutionContext} {response : ModelResponse} {executedMs : Nat} {decision : SliceDecision}
      {round : Round} {sessionId revision : Uuid} {base : Option Uuid} :
      Took now s slice (.judged after response executedMs decision) (.commit round sessionId base revision)
        (next decision) (some (response.modelCalls, costFrom response after.prices))
  | conflict {after : ExecutionContext} {response : ModelResponse} {executedMs : Nat} {decision : SliceDecision}
      {round : Round} {sessionId revision : Uuid} {base : Option Uuid} :
      Took now s slice (.judged after response executedMs decision) (.commit round sessionId base revision)
        (.judged after response executedMs decision) none
  | unchanged {after : ExecutionContext} {response : ModelResponse} {executedMs : Nat} {decision final : SliceDecision}
      {round : Round} {closed : Bool} (hgoes : final.signal = none → decision.signal = none) :
      Took now s slice (.judged after response executedMs decision) (.unchanged round closed) (next final)
        (some (response.modelCalls, none))
  | undone {after : ExecutionContext} {response : ModelResponse} {executedMs : Nat} {decision : SliceDecision}
      {round : Round} {target : Option WorkspaceCleanupTarget} {sandboxId : Uuid} :
      Took now s slice (.judged after response executedMs decision) (.undo round target sandboxId) .ended
        (some (response.modelCalls, none))
  | gaveUp {from_ last : Phase} (hlast : last = .ended ∨ last = .closed) : Took now s slice from_ .giveUp last none
  | review {context : ExecutionContext} {estimate : Nat} {budget : RunBudgetScopeRow}
      (hbudget : s.budgets.lookup slice.budgetRootRunId = some budget)
      (hroom : sideCallAllowed { context with budget } estimate = true) :
      Took now s slice .ended (.review context estimate) .reviewing none
  | reviewed {response : ModelResponse} {prices : Option TokenPrices} {event : ReservedEvent}
      (hone : response.modelCalls = 1) :
      Took now s slice .reviewing (.reviewAnswered response prices event) .closed
        (some (1, some (priced response prices)))

theorem decideAfterRound_goes {now : Time} {outcome : RoundOutcome} (h : (decideAfterRound now outcome).signal = none) :
    outcome.budgetAllows = true := by
  by_contra hclosed
  rw [Bool.not_eq_true] at hclosed
  unfold decideAfterRound at h
  by_cases hends : endsTheRun outcome = true
  · simp only [endsTheRun, Bool.and_eq_true, Option.isNone_iff_eq_none] at hends
    obtain ⟨⟨happroval, hdelegated⟩, hverdict⟩ := hends
    have hend : (afterVerdict outcome).signal ≠ none := by
      unfold afterVerdict
      rcases Bool.or_eq_true_iff.mp hverdict with hdone | hfailed
      · simp [of_decide_eq_true hdone]
      · simp [of_decide_eq_true hfailed]
    simp only [happroval, hdelegated] at h
    split_ifs at h
    exact hend h
  · simp only [hclosed, Bool.eq_false_iff.mpr hends] at h
    split_ifs at h
    all_goals simp_all

theorem closing_goes {closed : Bool} {decision : SliceDecision} (h : (closing closed decision).signal = none) :
    decision.signal = none := by
  unfold closing at h
  split at h
  · exact h
  · cases h

def Bill.figures (bill : Bill) : Nat × Option Cost := (bill.modelCalls, bill.cost)

/-- A turn does what `Took` says, and bills nobody else. -/
theorem turn_took {p : Phase} {commits : TurnTx} (hspends : Spends s slice)
    (hturn : turn env s leaseId slice p t = some commits) (h : commits s = .ok ((phase, bill), s')) :
    Took env.now s slice p t phase (bill.map Bill.figures) ∧ Charged leaseId slice t.aside bill s s' := by
  unfold turn at hturn
  split at hturn
  -- read
  · obtain ⟨budget, hbudget, rfl⟩ := Option.map_eq_some_iff.mp hturn
    obtain ⟨rfl, rfl, hcharged⟩ := stand_charged h
    exact ⟨.read hbudget, hcharged⟩
  -- plan
  · cases hturn
    obtain ⟨rfl, rfl, hcharged⟩ := stand_charged h
    exact ⟨.plan, hcharged⟩
  -- askSummary
  · split_ifs at hturn with hroom
    cases hturn
    obtain ⟨rfl, rfl, hcharged⟩ := stand_charged h
    exact ⟨.askSummary hroom.2, hcharged⟩
  -- summaryLost
  · cases hturn
    obtain ⟨rfl, rfl, hcharged⟩ := stand_charged h
    exact ⟨.summaryLost, hcharged⟩
  -- summaryAnswered
  · split_ifs at hturn with hone
    cases hturn
    obtain ⟨rfl, ⟨b, rfl, hcalls, hcost⟩, hcharged⟩ := billAt_charged rfl h
    refine ⟨?_, hcharged⟩
    rw [Option.map_some, Bill.figures, hcalls, hcost]
    simp only [billCall, hone]
    exact .summaryAnswered hone
  -- stop, before the context is read
  · cases hturn
    obtain ⟨rfl, rfl, hcharged⟩ := recordAt_charged hspends rfl rfl h
    exact ⟨.stopped, hcharged⟩
  -- stop, after the plan
  · cases hturn
    obtain ⟨rfl, rfl, hcharged⟩ := recordAt_charged hspends rfl rfl h
    exact ⟨.stopped, hcharged⟩
  -- ask
  · split_ifs at hturn
    cases hturn
    obtain ⟨rfl, rfl, hcharged⟩ := stand_charged h
    exact ⟨.ask, hcharged⟩
  -- reply
  · split_ifs at hturn with hone
    split at hturn
    · next hagain =>
      cases hturn
      obtain ⟨rfl, rfl, hcharged⟩ := stand_charged h
      exact ⟨.again hone hagain, hcharged⟩
    · next hfinal =>
      cases hturn
      obtain ⟨rfl, rfl, hcharged⟩ := stand_charged h
      exact ⟨.answered hone hfinal, hcharged⟩
  -- lose
  · cases hturn
    obtain ⟨rfl, rfl, hcharged⟩ := recordAt_charged hspends rfl rfl h
    exact ⟨.lost, hcharged⟩
  -- judge
  · obtain ⟨budget, hbudget, rfl⟩ := Option.map_eq_some_iff.mp hturn
    obtain ⟨rfl, rfl, hcharged⟩ := stand_charged h
    refine ⟨.judged hbudget fun hnone => ?_, hcharged⟩
    exact (Bool.and_eq_true_iff.mp (decideAfterRound_goes hnone)).1
  -- record
  · cases hturn
    obtain ⟨rfl, rfl, hcharged⟩ := recordAt_charged hspends rfl rfl h
    exact ⟨.recorded closing_goes, hcharged⟩
  -- commit
  · cases hturn
    obtain ⟨⟨rfl, rfl⟩ | ⟨rfl, rfl⟩, hcharged⟩ := commitAt_charged hspends rfl rfl h
    · exact ⟨.conflict, hcharged⟩
    · exact ⟨.committed, hcharged⟩
  -- unchanged
  · cases hturn
    obtain ⟨rfl, rfl, hcharged⟩ := recordAt_charged hspends rfl rfl h
    exact ⟨.unchanged closing_goes, hcharged⟩
  -- undo
  · cases hturn
    obtain ⟨rfl, rfl, hcharged⟩ := recordAt_charged hspends rfl rfl h
    exact ⟨.undone, hcharged⟩
  · cases hturn
  · cases hturn
  · cases hturn
    obtain ⟨rfl, rfl, hcharged⟩ := stand_charged h
    exact ⟨.gaveUp (.inr rfl), hcharged⟩
  · cases hturn
    obtain ⟨rfl, rfl, hcharged⟩ := stand_charged h
    exact ⟨.gaveUp (.inl rfl), hcharged⟩
  -- review
  · obtain ⟨_, hbudget, hreview⟩ := Option.bind_eq_some_iff.mp hturn
    split_ifs at hreview with hroom
    cases hreview
    obtain ⟨rfl, rfl, hcharged⟩ := stand_charged h
    exact ⟨.review hbudget hroom.2, hcharged⟩
  -- reviewAnswered
  · split_ifs at hturn with hone
    cases hturn
    obtain ⟨rfl, ⟨_, rfl, hcalls, hcost⟩, hcharged⟩ := billAt_charged rfl h
    refine ⟨?_, hcharged⟩
    rw [Option.map_some, Bill.figures, hcalls, hcost]
    simp only [billCall, hone]
    exact .reviewed hone
  · cases hturn

end Turns

section Runs
variable {env : Env} {w w' : Floor}

def Scoped (w : Floor) : Prop := ∀ leaseId slice, w.slices.lookup leaseId = some slice → Spends w.store slice

theorem Spends.remembered {s s' : Store} {slice : Slice} (h : Spends s slice)
    (hkin : ∀ id k, kinOf s id = some k → kinOf s' id = some k) : Spends s' slice := by
  obtain ⟨k, hk, hroot⟩ := h
  exact ⟨k, hkin _ k hk, hroot⟩

theorem act_remembers {a : Act} {bill : Option Bill} (hscoped : Scoped w) (h : act env a w = .ok (bill, w')) (id : Uuid)
    (k : Kin) (hk : kinOf w.store id = some k) : kinOf w'.store id = some k := by
  cases a with
  | beside =>
    obtain ⟨_, _, _, _, hexec⟩ := beside_ok h
    exact exec_remembers hexec hk
  | claim =>
    obtain ⟨_, ⟨hnone, _⟩ | ⟨_, _, hclaim, _⟩⟩ := claim_ok h
    · exact ((claimHead_plain hnone).kin id).trans hk
    · exact ((claimHead_plain hclaim).kin id).trans hk
  | turn leaseId =>
    obtain ⟨slice, _, _, hslice, hturn, hrun, _⟩ := turn_ok h
    have hcharged := (turn_took (hscoped leaseId slice hslice) hturn hrun).2
    exact (hcharged.kin id).trans hk
  | crash =>
    obtain ⟨_, rfl⟩ := crash_ok h
    exact hk

theorem act_scoped {a : Act} {bill : Option Bill} (hscoped : Scoped w) (h : act env a w = .ok (bill, w')) :
    Scoped w' := by
  have hkin := act_remembers hscoped h
  intro leaseId slice hslice
  cases a with
  | beside =>
    obtain ⟨_, _, hslices, _⟩ := beside_ok h
    rw [hslices] at hslice
    exact (hscoped leaseId slice hslice).remembered hkin
  | claim =>
    obtain ⟨_, ⟨_, hslices⟩ | ⟨_, row, _, hrow, hslices⟩⟩ := claim_ok h
    · rw [hslices] at hslice
      exact (hscoped leaseId slice hslice).remembered hkin
    · rw [hslices, Table.lookup_insert_ite] at hslice
      split at hslice
      · cases hslice
        exact ⟨kin row, by rw [kinOf, hrow]; rfl, rfl⟩
      · exact (hscoped leaseId slice hslice).remembered hkin
  | turn leaseId' =>
    obtain ⟨taken, _, _, htaken, _, _, hslices⟩ := turn_ok h
    rw [hslices, Table.lookup_insert_ite] at hslice
    split at hslice
    · cases hslice
      obtain ⟨k, hk, hroot⟩ := hscoped leaseId' taken htaken
      exact ⟨k, hkin _ k hk, hroot⟩
    · exact (hscoped leaseId slice hslice).remembered hkin
  | crash leaseId' =>
    obtain ⟨_, rfl⟩ := crash_ok h
    by_cases hid : leaseId = leaseId'
    · rw [hid, AList.lookup_erase] at hslice
      cases hslice
    · rw [AList.lookup_erase_ne hid] at hslice
      exact hscoped leaseId slice hslice

theorem executes_scoped {log : FloorHistory} (h : FloorExecutes log w) : Scoped w := by
  induction h with
  | nil => exact fun _ _ hslice => (nomatch hslice)
  | snoc _ hstep ih => exact act_scoped ih hstep

end Runs

section Example

def oneClaimed : List Act :=
  [.beside (openSession 2), .beside (ask 2 3 "a"), .claim { workerId := "worker", leaseSeconds := 60 } 5]

def plainRound : Round := { workspaceId := 1, runId := 3, leaseId := 5, expectedStateVersion := 2, no_limit := no_events }

end Example

end TinyHermes.Runs.Calls
