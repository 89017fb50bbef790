import TinyHermes.Runs.Operations
import TinyHermes.Runs.RunMoves

/-! What each transaction does to the budget scopes, and to which Run a new one is tied. A transaction bills at
most one scope, at most once. -/
namespace TinyHermes.Runs.Billing
open Lib Tx SqlRunStore Interruption

/-- What ties a Run to others: whose scope it spends, who delegated it, and what it retries. -/
structure Kin where
  root : Uuid
  parent : Option Uuid
  retryOf : Option Uuid
  deriving DecidableEq

def kin (row : RunRow) : Kin := { root := row.budgetRootRunId, parent := row.parentRunId, retryOf := row.retryOfRunId }

def kinOf (s : Store) (id : Uuid) : Option Kin := (s.runs.lookup id).map kin

variable {runId sessionId : Uuid}

section Plain
variable {env : Env}

structure Plain (s s' : Store) : Prop where
  budgets : s'.budgets = s.budgets
  kin : ∀ id, kinOf s' id = kinOf s id

instance : Std.Refl Plain := ⟨fun _ => ⟨rfl, fun _ => rfl⟩⟩

instance : IsTrans Store Plain :=
  ⟨fun _ _ _ h₁ h₂ => ⟨h₂.budgets.trans h₁.budgets, fun id => (h₂.kin id).trans (h₁.kin id)⟩⟩

theorem Plain.of_housekeeping {s s' : Store} (h : Housekeeping s s') : Plain s s' where
  budgets := h.budgets
  kin id := by
    have hrow := h.runs id
    unfold kinOf
    cases hr : s.runs.lookup id with
    | none =>
      rw [hr] at hrow
      cases hr' : s'.runs.lookup id with
      | none => rfl
      | some =>
        rw [hr'] at hrow
        cases hrow
    | some =>
      rw [hr] at hrow
      obtain ⟨_, hr', hk⟩ := hrow.of_some
      rw [hr', Option.map_some, hk]
      rfl

theorem write_plain {f : Store → Store} (hruns : ∀ s, (f s).runs = s.runs) (hbudgets : ∀ s, (f s).budgets = s.budgets) :
    Within Plain (Tx.write f : StoreTx Unit) :=
  Within.write fun s => ⟨hbudgets s, fun id => by rw [kinOf, kinOf, hruns]⟩

theorem kinOf_modify {s : Store} {f : RunRow → RunRow} (h : ∀ r, kin (f r) = kin r) (id : Uuid) :
    ((s.runs.modify runId f).lookup id).map kin = kinOf s id := by
  rw [Table.lookup_modify, kinOf]
  split
  · rw [Option.map_map]
    exact congrFun (congrArg Option.map (funext h)) _
  · rfl

theorem modifyRun_plain {f : RunRow → RunRow} (h : ∀ r, kin (f r) = kin r) :
    Within Plain (modifyRun runId f) :=
  Within.write fun _ => ⟨rfl, kinOf_modify h⟩

theorem plain_of_modifyRun {f : RunRow → RunRow} {s s' : Store} {u : Unit}
    (hmod : modifyRun runId f s = .ok (u, s')) (h : ∀ r, kin (f r) = kin r) : Plain s s' :=
  modifyRun_plain h hmod

theorem modifySession_plain {f : SessionRow → SessionRow} :
    Within Plain (modifySession sessionId f) :=
  write_plain (fun _ => rfl) fun _ => rfl

theorem mint_plain {id : Uuid} : Within Plain (mint id) :=
  Within.bind Within.get fun _ => Within.bind (Within.require _ _) fun _ => write_plain (fun _ => rfl) fun _ => rfl

theorem insertSession_plain {row : SessionRow} : Within Plain (insertSession sessionId row) :=
  Within.bind Within.get fun _ => Within.bind (Within.require _ _) fun _ => write_plain (fun _ => rfl) fun _ => rfl

theorem appendEvents_plain {workspaceId : Uuid} {events : List ReservedEvent} :
    Within Plain (appendEvents env workspaceId runId events) :=
  fun _ _ _ h => .of_housekeeping (Housekeeping.of_appendEvents h)

theorem appendMessage_plain {message : CanonicalMessage} :
    Within Plain (appendMessage sessionId runId message) :=
  Within.bind (Within.fetch _ _) fun _ => Within.bind (write_plain (fun _ => rfl) fun _ => rfl) fun _ =>
    modifySession_plain

theorem grantArtifact_plain {artifactId : Uuid} : Within Plain (grantArtifact artifactId runId) := by
  refine write_plain (fun s => ?_) fun s => ?_ <;> split <;> rfl

theorem decideAndWrite_plain {signal : RunSignal} {args : SignalArgs} :
    Within Plain (decideAndWrite env runId signal args) := by
  intro _ _ _ h
  obtain ⟨_, _, d, _, _, _, hkeep⟩ := decideAndWrite_spec h
  have hkept := Plain.of_housekeeping hkeep
  refine ⟨hkept.budgets, fun id => (hkept.kin id).trans ?_⟩
  exact kinOf_modify (f := fun r => decidedRow r d args.waitPolicy env.now) (fun _ => rfl) id

theorem claimHead_plain {cmd : ClaimRunCommand} {leaseId : Uuid} : Within Plain (claimHead env cmd leaseId) := by
  intro _ _ _ h
  rcases claimHead_spec h with ⟨_, rfl⟩ | ⟨_, _, _, d, _, _, _, _, _, _, _, _, _, _, _, _, rfl, rfl, hev⟩
  · exact Std.Refl.refl _
  · have hevents := appendEvents_plain hev
    refine ⟨hevents.budgets, fun id => (hevents.kin id).trans ?_⟩
    exact kinOf_modify (f := claimedRow d env.now) (fun _ => rfl) id

theorem rows_plain : Operations.Rows env Plain where
  mints _ := mint_plain
  opens _ _ _ _ := insertSession_plain
  message _ _ _ := appendMessage_plain
  events _ _ _ := appendEvents_plain
  grants _ _ := grantArtifact_plain
  row _ _ h := modifyRun_plain fun r => by rw [kin, (h r).budgetRootRunId, (h r).parentRunId, (h r).retryOfRunId, kin]
  session _ _ _ := modifySession_plain
  lease _ := write_plain (fun _ => rfl) fun _ => rfl
  decides _ _ _ := decideAndWrite_plain
  claims _ _ := claimHead_plain
  repairs _ := fun _ _ _ h => .of_housekeeping (Housekeeping.of_repairSessionHead h)

theorem files_plain : Operations.Files Plain := fun _ => write_plain (fun _ => rfl) fun _ => rfl

end Plain

section Bills
variable {env : Env} {s s' : Store}

def consumed (cmd : RecordSliceCommand) (row : RunBudgetScopeRow) : RunBudgetScopeRow :=
  accumulateCost { row with
    consumedExecutionMs := row.consumedExecutionMs + cmd.executedMs
    consumedModelCalls := row.consumedModelCalls + cmd.modelCalls
    consumedTokens := row.consumedTokens + cmd.tokens
    version := row.version + 1 } cmd.cost

def charged (row : RunBudgetScopeRow) : RunBudgetScopeRow :=
  { row with consumedToolCalls := row.consumedToolCalls + 1, version := row.version + 1 }

def retried (row : RunBudgetScopeRow) : RunBudgetScopeRow :=
  { row with derivedRetryCount := row.derivedRetryCount + 1, version := row.version + 1 }

def widened (maxModelCalls : Nat) (row : RunBudgetScopeRow) : RunBudgetScopeRow :=
  { row with maxModelCalls, version := row.version + 1 }

def granted : Op → Answer → Option Uuid
  | .reserveToolCall _ runId _, .reserved true => some runId
  | .reserveOutsideCall _ runId _ _ _, .sent (some _) => some runId
  | _, _ => none

def recordedBy : Op → Answer → Option RecordSliceCommand
  | .recordSlice cmd, _ => some cmd
  | .recordRound cmd, _ => some cmd
  | .commitCheckpoint commit, .committed true => some commit.slice
  | _, _ => none

inductive Bills (env : Env) (s : Store) : Op → Answer → Table Uuid RunBudgetScopeRow → Prop where
  | nothing {op : Op} {a : Answer} (hgranted : granted op a = none) (hrecorded : recordedBy op a = none) :
      Bills env s op a s.budgets
  | opened {cmd : AcceptRunCommand} {runId : Uuid} {a : Answer} {limits : Agents.AgentLimits}
      (hnew : s.runs.lookup runId = none) :
      Bills env s (.acceptRun cmd runId) a
        (s.budgets.insert runId (newBudget limits env.now (env.catalog.costCeiling cmd.workspaceId)))
  | retried {cmd : RetryRunCommand} {runId root : Uuid} {a : Answer} {budget : RunBudgetScopeRow}
      (hbudget : s.budgets.lookup root = some budget)
      (hroom : budget.derivedRetryCount < budget.maxDerivedRetries) :
      Bills env s (.deriveRetry cmd runId) a (s.budgets.modify root retried)
  | reserved {op : Op} {a : Answer} {runId : Uuid} {run : RunRow} {budget : RunBudgetScopeRow}
      (hgranted : granted op a = some runId) (hrun : s.runs.lookup runId = some run)
      (hbudget : s.budgets.lookup run.budgetRootRunId = some budget)
      (hroom : budget.consumedToolCalls < budget.maxToolCalls) :
      Bills env s op a (s.budgets.modify run.budgetRootRunId charged)
  | recorded {op : Op} {a : Answer} {cmd : RecordSliceCommand} {run : RunRow} {budget : RunBudgetScopeRow}
      (hcmd : recordedBy op a = some cmd) (hrun : s.runs.lookup cmd.runId = some run)
      (hbudget : s.budgets.lookup run.budgetRootRunId = some budget) :
      Bills env s op a (s.budgets.modify run.budgetRootRunId (consumed cmd))
  | widened {canControl : Bool} {workspaceId runId : Uuid} {version maxModelCalls : Nat} {a : Answer} {run : RunRow}
      {budget : RunBudgetScopeRow} (hrun : s.runs.lookup runId = some run)
      (hbudget : s.budgets.lookup run.budgetRootRunId = some budget) (hmore : budget.maxModelCalls < maxModelCalls) :
      Bills env s (.widenBudget canControl workspaceId runId version maxModelCalls) a
        (s.budgets.modify run.budgetRootRunId (widened maxModelCalls))

theorem chargeToolCall_cases {workspaceId leaseId : Uuid} {charge : Bool}
    (h : chargeToolCall env workspaceId runId leaseId s = .ok (charge, s')) :
    ∃ run, s.runs.lookup runId = some run ∧
      ((charge = false ∧ s' = s) ∨
        (charge = true ∧ ∃ budget, s.budgets.lookup run.budgetRootRunId = some budget ∧
          budget.consumedToolCalls < budget.maxToolCalls ∧
          s' = { s with budgets := s.budgets.modify run.budgetRootRunId charged })) := by
  simp only [chargeToolCall, lockRun, lockLease, fetch_bind_ok, get_bind] at h
  obtain ⟨run, hrun, _, _, h⟩ := h
  refine ⟨run, (Option.filter_eq_some_iff.mp hrun).1, ?_⟩
  cases hfound : (s.budgets.lookup run.budgetRootRunId).filter fun budget =>
      budget.consumedToolCalls < budget.maxToolCalls && budget.elapsedDeadlineAt > env.now with
  | none =>
    simp only [hfound, pure_ok] at h
    exact .inl ⟨h.1.symm, h.2.symm⟩
  | some budget =>
    simp only [hfound, write_bind, pure_ok] at h
    obtain ⟨hbudget, hroom⟩ := Option.filter_eq_some_iff.mp hfound
    rw [Bool.and_eq_true, decide_eq_true_eq] at hroom
    exact .inr ⟨h.1.symm, budget, hbudget, hroom.1, h.2.symm⟩

theorem recordSlice_bills {cmd : RecordSliceCommand} {u : Unit} (h : recordSlice env cmd s = .ok (u, s')) :
    ∃ run budget, s.runs.lookup cmd.runId = some run ∧ s.budgets.lookup run.budgetRootRunId = some budget ∧
      s'.budgets = s.budgets.modify run.budgetRootRunId (consumed cmd) ∧ ∀ id, kinOf s' id = kinOf s id := by
  simp only [recordSlice, lockRun, lockSession, fetch_bind_ok, RunMoves.lockLease_bind_ok, require_bind_ok] at h
  obtain ⟨run, hrun, _, _, _, _, _, h⟩ := h
  obtain ⟨_, _, hmod, h⟩ := bind_ok.mp h
  obtain ⟨_, s₃, happend, h⟩ := bind_ok.mp h
  have hplain : Plain s s₃ :=
    IsTrans.trans _ _ _ (plain_of_modifyRun hmod fun _ => rfl) (Operations.appendMessages_within (fun _ _ _ => appendMessage_plain) happend)
  simp only [consumeBudget, bind_assoc, fetch_bind_ok, write_bind] at h
  obtain ⟨budget, hbudget, h⟩ := h
  rw [hplain.budgets] at hbudget
  have hlast : Plain { s₃ with budgets := s₃.budgets.modify run.budgetRootRunId (consumed cmd) } s' := by
    cases hsignal : cmd.signal with
    | none =>
      rw [hsignal] at h
      exact appendEvents_plain h
    | some =>
      rw [hsignal] at h
      exact Operations.endSlice_within rows_plain h
  refine ⟨run, budget, (Option.filter_eq_some_iff.mp hrun).1, hbudget, ?_, fun id => ?_⟩
  · rw [hlast.budgets, hplain.budgets]
  · exact (hlast.kin id).trans (hplain.kin id)

theorem recordRound_bills {cmd : RecordSliceCommand} {u : Unit} (h : recordRound env cmd s = .ok (u, s')) :
    ∃ run budget, s.runs.lookup cmd.runId = some run ∧ s.budgets.lookup run.budgetRootRunId = some budget ∧
      s'.budgets = s.budgets.modify run.budgetRootRunId (consumed cmd) ∧ ∀ id, kinOf s' id = kinOf s id := by
  obtain ⟨_, s₁, hslice, h⟩ := bind_ok.mp h
  obtain ⟨run, budget, hrun, hbudget, hbill, hkin⟩ := recordSlice_bills hslice
  have hplain : Plain s₁ s' := Within.onlyIf (fun _ => Operations.applySignal_within rows_plain) h
  exact ⟨run, budget, hrun, hbudget, hplain.budgets.trans hbill, fun id => (hplain.kin id).trans (hkin id)⟩

theorem commitCheckpoint_bills {commit : CommitCheckpoint} {moved : Bool}
    (h : commitCheckpoint env commit s = .ok (moved, s')) :
    (moved = false ∧ s' = s) ∨ (moved = true ∧
      ∃ run budget, s.runs.lookup commit.slice.runId = some run ∧ s.budgets.lookup run.budgetRootRunId = some budget ∧
        s'.budgets = s.budgets.modify run.budgetRootRunId (consumed commit.slice) ∧ ∀ id, kinOf s' id = kinOf s id) := by
  simp only [commitCheckpoint, lockSession, fetch_bind_ok] at h
  obtain ⟨_, _, h⟩ := h
  split at h
  · obtain ⟨rfl, rfl⟩ := pure_ok.mp h
    exact .inl ⟨rfl, rfl⟩
  · simp only [mint, bind_assoc, get_bind, require_bind_ok, write_bind, modifySession] at h
    obtain ⟨_, h⟩ := h
    obtain ⟨_, _, hslice, h⟩ := bind_ok.mp h
    obtain ⟨_, _, hmod, h⟩ := bind_ok.mp h
    obtain ⟨rfl, rfl⟩ := pure_ok.mp h
    obtain ⟨run, budget, hrun, hbudget, hbill, hkin⟩ := recordSlice_bills hslice
    have hplain := plain_of_modifyRun hmod fun _ => rfl
    exact .inr ⟨rfl, run, budget, hrun, hbudget, hplain.budgets.trans hbill, fun id => (hplain.kin id).trans (hkin id)⟩

theorem reserveOutsideCall_bills {workspaceId leaseId newKey : Uuid} {sending : InFlightRound}
    {sent : Option InFlightRound} (h : reserveOutsideCall env workspaceId runId leaseId sending newKey s = .ok (sent, s')) :
    ∃ charge s₁, chargeToolCall env workspaceId runId leaseId s = .ok (charge, s₁) ∧ sent.isSome = charge ∧
      Plain s₁ s' := by
  obtain ⟨charge, s₁, hcharge, h⟩ := bind_ok.mp h
  refine ⟨charge, s₁, hcharge, ?_⟩
  cases charge with
  | false =>
    obtain ⟨rfl, rfl⟩ := pure_ok.mp h
    exact ⟨rfl, Std.Refl.refl _⟩
  | true =>
    simp only [if_true, fetch_bind_ok] at h
    obtain ⟨_, _, h⟩ := h
    obtain ⟨_, _, htake, h⟩ := bind_ok.mp h
    obtain ⟨_, _, hmod, h⟩ := bind_ok.mp h
    obtain ⟨rfl, rfl⟩ := pure_ok.mp h
    exact ⟨rfl, IsTrans.trans _ _ _ (Operations.takeKey_within (fun _ => mint_plain) htake) (plain_of_modifyRun hmod fun _ => rfl)⟩

def Joined (runId : Uuid) (k : Kin) (s s' : Store) : Prop :=
  kinOf s runId = none ∧ ∀ id, kinOf s' id = if id = runId then some k else kinOf s id

theorem Joined.kept {k : Kin} {s₁ s₂ s₃ : Store} (h : Joined runId k s₁ s₂)
    (hkin : ∀ id, kinOf s₃ id = kinOf s₂ id) : Joined runId k s₁ s₃ :=
  ⟨h.1, fun id => (hkin id).trans (h.2 id)⟩

theorem Joined.of_kept {k : Kin} {s₁ s₂ s₃ : Store} (hkin : ∀ id, kinOf s₂ id = kinOf s₁ id)
    (h : Joined runId k s₂ s₃) : Joined runId k s₁ s₃ := by
  refine ⟨(hkin runId).symm.trans h.1, fun id => ?_⟩
  rw [h.2 id, hkin id]

theorem Joined.remembers {id : Uuid} {k k' : Kin} (h : Joined runId k s s') (hk : kinOf s id = some k') :
    kinOf s' id = some k' := by
  rw [h.2, if_neg, hk]
  rintro rfl
  rw [h.1] at hk
  cases hk

theorem joinSession_joins {row : RunRow} {u : Unit}
    (h : joinSession sessionId runId row s = .ok (u, s')) :
    Joined runId (kin row) s s' ∧ s.runs.lookup runId = none ∧ s'.budgets = s.budgets := by
  simp only [joinSession, insertRun, modifySession, bind_assoc, fetch_bind_ok, get_bind, require_bind_ok, write_bind,
    write_ok] at h
  obtain ⟨_, _, _, hfree, rfl⟩ := h
  refine ⟨⟨by rw [kinOf, hfree]; rfl, fun id => ?_⟩, hfree, rfl⟩
  simp only [kinOf, Table.lookup_insert_ite]
  split <;> rfl

theorem acceptRun_bills {cmd : AcceptRunCommand} {accepted : AcceptedRun}
    (h : acceptRun env cmd runId s = .ok (accepted, s')) :
    Plain s s' ∨ (Joined runId { root := runId, parent := none, retryOf := none } s s' ∧ s.runs.lookup runId = none ∧
      ∃ limits, s'.budgets =
        s.budgets.insert runId (newBudget limits env.now (env.catalog.costCeiling cmd.workspaceId))) := by
  obtain ⟨replay, _, hclaim, h⟩ := bind_ok.mp h
  have h₁ := Operations.claimIdempotency_within files_plain hclaim
  cases replay with
  | some =>
    obtain ⟨_, rfl⟩ := pure_ok.mp h
    exact .inl h₁
  | none =>
    obtain ⟨_, _, hlock, h⟩ := bind_ok.mp h
    obtain ⟨⟨_, limits⟩, _, hversion, h⟩ := bind_ok.mp h
    obtain ⟨_, s₄, hmint, h⟩ := bind_ok.mp h
    obtain ⟨_, _, hjoin, h⟩ := bind_ok.mp h
    obtain ⟨_, _, hsaid, h⟩ := bind_ok.mp h
    obtain ⟨_, _, hopen, h⟩ := bind_ok.mp h
    obtain ⟨_, _, hevents, h⟩ := bind_ok.mp h
    obtain ⟨_, _, hstored, h⟩ := bind_ok.mp h
    obtain ⟨_, rfl⟩ := pure_ok.mp h
    obtain rfl := write_ok.mp hopen
    have h₄ : Plain s s₄ :=
      IsTrans.trans _ _ _ (IsTrans.trans _ _ _ h₁ (Within.fetch _ _ hlock))
        (IsTrans.trans _ _ _ (Operations.publishedVersion_within hversion) (mint_plain hmint))
    obtain ⟨hjoined, _, hsame⟩ := joinSession_joins hjoin
    have h₆ := Operations.appendMessages_within (fun _ _ _ => appendMessage_plain) hsaid
    have h₉ := IsTrans.trans _ _ _ (appendEvents_plain hevents) (Operations.storeResponse_within files_plain hstored)
    refine .inr ⟨Joined.of_kept h₄.kin (hjoined.kept fun id => (h₉.kin id).trans (h₆.kin id)), ?_, limits, ?_⟩
    · have hnone := (h₄.kin runId).symm.trans hjoined.1
      exact Option.map_eq_none_iff.mp hnone
    · rw [h₉.budgets, h₆.budgets, hsame, h₄.budgets]

theorem deriveRetry_bills {cmd : RetryRunCommand} {accepted : AcceptedRun}
    (h : deriveRetry env cmd runId s = .ok (accepted, s')) :
    Plain s s' ∨ ∃ source budget, kinOf s cmd.sourceRunId = some source ∧
      s.budgets.lookup source.root = some budget ∧ budget.derivedRetryCount < budget.maxDerivedRetries ∧
      s'.budgets = s.budgets.modify source.root retried ∧
      Joined runId { root := source.root, parent := none, retryOf := some cmd.sourceRunId } s s' := by
  simp only [deriveRetry, require_bind_ok] at h
  obtain ⟨_, h⟩ := h
  obtain ⟨replay, s₁, hclaim, h⟩ := bind_ok.mp h
  have h₁ := Operations.claimIdempotency_within files_plain hclaim
  cases replay with
  | some =>
    obtain ⟨_, rfl⟩ := pure_ok.mp h
    exact .inl h₁
  | none =>
    simp only [lockRun, lockSession, fetch_bind_ok, get_bind] at h
    obtain ⟨source, hsource, session, _, budget, hbudget, h⟩ := h
    cases hblocked : retryBlocker env s₁ source session budget with
    | some =>
      rw [hblocked] at h
      exact absurd h throw_ok
    | none =>
      rw [hblocked] at h
      simp only [write_bind] at h
      obtain ⟨_, _, hmint, h⟩ := bind_ok.mp h
      obtain ⟨_, s₃, hjoin, h⟩ := bind_ok.mp h
      obtain ⟨_, s₄, hcopy, h⟩ := bind_ok.mp h
      obtain ⟨_, _, hevents, h⟩ := bind_ok.mp h
      obtain ⟨_, _, hevents', h⟩ := bind_ok.mp h
      obtain ⟨_, s₇, hstored, h⟩ := bind_ok.mp h
      obtain ⟨_, rfl⟩ := pure_ok.mp h
      have h₂ := mint_plain hmint
      obtain ⟨hjoined, _, hsame⟩ := joinSession_joins hjoin
      have h₄ : Plain s₃ s₄ := Within.bind Within.get (fun _ => Operations.appendMessages_within (fun _ _ _ => appendMessage_plain)) hcopy
      have h₇ : Plain s₃ s₇ :=
        IsTrans.trans _ _ _ (IsTrans.trans _ _ _ h₄ (appendEvents_plain hevents))
          (IsTrans.trans _ _ _ (appendEvents_plain hevents') (Operations.storeResponse_within files_plain hstored))
      have hroom : budget.derivedRetryCount < budget.maxDerivedRetries := by
        unfold retryBlocker at hblocked
        by_contra hfull
        simp only [ge_iff_le, Nat.not_lt.mp hfull, if_true] at hblocked
        split at hblocked
        · cases hblocked
        · split at hblocked
          · cases hblocked
          · split at hblocked <;> cases hblocked
      have hkin : kinOf s cmd.sourceRunId = some (kin source) := by
        rw [← h₁.kin, kinOf, (Option.filter_eq_some_iff.mp hsource).1]
        rfl
      rw [h₁.budgets] at hbudget
      refine .inr ⟨kin source, budget, hkin, hbudget, hroom, ?_, ?_⟩
      · rw [h₇.budgets, hsame, h₂.budgets, h₁.budgets]
        rfl
      · exact Joined.of_kept (fun id => (h₂.kin id).trans (h₁.kin id)) (hjoined.kept h₇.kin)

def Sires (parentRunId root : Uuid) (s s' : Store) : Prop :=
  s'.budgets = s.budgets ∧ ∃ runId, Joined runId { root, parent := some parentRunId, retryOf := none } s s'

variable {parentRunId : Uuid}

theorem sires_budgets {root : Uuid} (h : Relation.ReflTransGen (Sires parentRunId root) s s') :
    s'.budgets = s.budgets := by
  induction h with
  | refl => rfl
  | tail _ hlast ih => exact hlast.1.trans ih

theorem sires_remembers {root id : Uuid} {k : Kin}
    (h : Relation.ReflTransGen (Sires parentRunId root) s s') (hk : kinOf s id = some k) : kinOf s' id = some k := by
  induction h with
  | refl => exact hk
  | tail _ hlast ih =>
    obtain ⟨_, _, hjoined⟩ := hlast
    exact hjoined.remembers ih

variable {spec : Agents.AgentSpec} {policy : Agents.DelegationPolicy} {readable : String → Option Uuid}

theorem createChild_joins {parent : RunRow} {owning : SessionRow}
    {item : DelegationRequest}
    {child : DelegatedChild}
    (h : createChild env parentRunId parent owning spec policy readable item sessionId runId s = .ok (child, s')) :
    child.runId = runId ∧ s'.budgets = s.budgets ∧
      Joined runId { root := parent.budgetRootRunId, parent := some parentRunId, retryOf := none } s s' := by
  simp only [createChild, fetch_bind_ok] at h
  obtain ⟨_, _, _, _, _, _, h⟩ := h
  obtain ⟨_, _, hmint, h⟩ := bind_ok.mp h
  obtain ⟨_, _, hsession, h⟩ := bind_ok.mp h
  obtain ⟨_, s₃, hmint', h⟩ := bind_ok.mp h
  obtain ⟨_, s₄, hjoin, h⟩ := bind_ok.mp h
  obtain ⟨_, s₅, hgrant, h⟩ := bind_ok.mp h
  obtain ⟨_, _, hsay, h⟩ := bind_ok.mp h
  obtain ⟨_, s₇, hevents, h⟩ := bind_ok.mp h
  obtain ⟨rfl, rfl⟩ := pure_ok.mp h
  obtain ⟨hjoined, _, hsame⟩ := joinSession_joins hjoin
  have h₃ : Plain s s₃ :=
    IsTrans.trans _ _ _ (IsTrans.trans _ _ _ (mint_plain hmint) (insertSession_plain hsession)) (mint_plain hmint')
  have h₅ : Plain s₄ s₅ := Within.forEach _ (fun _ _ => grantArtifact_plain) hgrant
  have h₇ : Plain s₄ s₇ :=
    IsTrans.trans _ _ _ (IsTrans.trans _ _ _ h₅ (appendMessage_plain hsay)) (appendEvents_plain hevents)
  exact ⟨rfl, h₇.budgets.trans (hsame.trans h₃.budgets), Joined.of_kept h₃.kin (hjoined.kept h₇.kin)⟩

theorem createChild_sires {parent : RunRow} {owning : SessionRow}
    {item : DelegationRequest}
    :
    Within (Sires parentRunId parent.budgetRootRunId)
      (createChild env parentRunId parent owning spec policy readable item sessionId runId) := by
  intro _ _ _ h
  obtain ⟨_, hsame, hjoined⟩ := createChild_joins h
  exact ⟨hsame, runId, hjoined⟩

theorem createChildren_sires {parent : RunRow} {owning : SessionRow}
   
    (requests : List (DelegationRequest × Uuid × Uuid)) :
    Within (Relation.ReflTransGen (Sires parentRunId parent.budgetRootRunId))
      (createChildren env parentRunId parent owning spec policy readable requests) := by
  induction requests with
  | nil => exact Within.pure _
  | cons r rest ih =>
    intro _ _ _ h
    obtain ⟨_, _, hchild, h⟩ := bind_ok.mp h
    obtain ⟨_, _, hothers, h⟩ := bind_ok.mp h
    obtain ⟨_, rfl⟩ := pure_ok.mp h
    exact .head (createChild_sires hchild) (ih hothers)

theorem createChildren_listed {parent : RunRow} {owning : SessionRow}
   
    (requests : List (DelegationRequest × Uuid × Uuid)) {children : List DelegatedChild}
    (h : createChildren env parentRunId parent owning spec policy readable requests s = .ok (children, s')) :
    ∀ child ∈ children, kinOf s' child.runId =
      some { root := parent.budgetRootRunId, parent := some parentRunId, retryOf := none } := by
  induction requests generalizing s children with
  | nil =>
    obtain ⟨rfl, _⟩ := pure_ok.mp h
    exact fun _ hmem => (nomatch hmem)
  | cons r rest ih =>
    obtain ⟨_, _, hchild, h⟩ := bind_ok.mp h
    obtain ⟨_, _, hothers, h⟩ := bind_ok.mp h
    obtain ⟨rfl, rfl⟩ := pure_ok.mp h
    intro c hc
    rcases List.mem_cons.mp hc with rfl | hc
    · obtain ⟨hid, _, hjoined⟩ := createChild_joins hchild
      refine sires_remembers (createChildren_sires rest hothers) ?_
      rw [hjoined.2, if_pos hid]
    · exact ih hothers c hc

theorem delegateChildren_cases {requests : List (DelegationRequest × Uuid × Uuid)}
    {result : DelegationResult} (h : delegateChildren env parentRunId requests s = .ok (result, s')) :
    (s' = s ∧ result.children = []) ∨ ∃ parent owning spec policy readable, s.runs.lookup parentRunId = some parent ∧
      parent.depth < Agents.maxDelegationDepth ∧ createChildren env parentRunId parent owning spec policy readable requests s = .ok (result.children, s') := by
  have hrefused {refusal : String} (hp : (pure { refusal } : StoreTx DelegationResult) s = .ok (result, s')) :
      s' = s ∧ result.children = [] := by
    obtain ⟨rfl, rfl⟩ := pure_ok.mp hp
    exact ⟨rfl, rfl⟩
  rw [delegateChildren, get_bind] at h
  cases hparent : s.runs.lookup parentRunId with
  | none =>
    rw [hparent] at h
    exact .inl (hrefused h)
  | some parent =>
    simp only [hparent] at h
    split at h
    · exact .inl (hrefused h)
    next hdepth =>
      cases hversion : env.catalog.version parent.agentVersionId with
      | none =>
        rw [hversion] at h
        exact .inl (hrefused h)
      | some version =>
        cases howning : s.sessions.lookup parent.sessionId with
        | none =>
          rw [hversion, howning] at h
          exact .inl (hrefused h)
        | some owning =>
          simp only [hversion, howning] at h
          cases hpolicy : version.spec.delegation with
          | none =>
            rw [hpolicy] at h
            exact .inl (hrefused h)
          | some policy =>
            simp only [hpolicy] at h
            cases hrefusal : delegationRefusal env s parentRunId parent policy (requests.map (·.1)) with
            | some =>
              rw [hrefusal] at h
              exact .inl (hrefused h)
            | none =>
              simp only [hrefusal] at h
              obtain ⟨_, _, hchildren, h⟩ := bind_ok.mp h
              obtain ⟨rfl, rfl⟩ := pure_ok.mp h
              exact .inr ⟨parent, owning, version.spec, policy, _, rfl, Nat.lt_of_not_le hdepth, hchildren⟩

theorem delegateChildren_sires {requests : List (DelegationRequest × Uuid × Uuid)}
    {result : DelegationResult} (h : delegateChildren env parentRunId requests s = .ok (result, s')) :
    s' = s ∨ ∃ parent, kinOf s parentRunId = some parent ∧
      Relation.ReflTransGen (Sires parentRunId parent.root) s s' := by
  rcases delegateChildren_cases h with ⟨rfl, _⟩ | ⟨parent, _, _, _, _, hparent, _, hchildren⟩
  · exact .inl rfl
  · refine .inr ⟨kin parent, ?_, createChildren_sires requests hchildren⟩
    rw [kinOf, hparent]
    rfl

/-- The operations that neither make a Run nor bill a scope. -/
def isPlain : Op → Bool
  | .acceptRun .. | .deriveRetry .. | .delegateChildren .. | .widenBudget .. | .reserveToolCall .. => false
  | .reserveOutsideCall .. | .recordSlice .. | .recordRound .. | .commitCheckpoint .. => false
  | _ => true

theorem exec_plain {op : Op} (h : isPlain op = true) : Within Plain (exec env op) := by
  have hneither : isPlain op = (!Operations.admits op && !Operations.bills op) := by cases op <;> rfl
  rw [h, eq_comm, Bool.and_eq_true, Bool.not_eq_true', Bool.not_eq_true'] at hneither
  refine Operations.op_within rows_plain (fun hjoins => ?_) (fun _ => files_plain) (fun hbills => ?_) fun _ _ => modifyRun_plain fun _ => rfl
  · rw [hneither.1] at hjoins
    cases hjoins
  · rw [hneither.2] at hbills
    cases hbills

theorem exec_bills {op : Op} {a : Answer} (h : exec env op s = .ok (a, s')) : Bills env s op a s'.budgets := by
  by_cases hplain : isPlain op = true
  · rw [(exec_plain hplain h).budgets]
    cases op <;> first
      | exact .nothing rfl rfl
      | cases hplain
  cases op with
  | acceptRun =>
    obtain ⟨accepted, _, hrun, h⟩ := bind_ok.mp h
    obtain ⟨rfl, rfl⟩ := pure_ok.mp h
    rcases acceptRun_bills hrun with hkept | ⟨_, hnew, _, hopened⟩
    · rw [hkept.budgets]
      exact .nothing rfl rfl
    · rw [hopened]
      exact .opened hnew
  | deriveRetry =>
    obtain ⟨_, _, hrun, h⟩ := bind_ok.mp h
    obtain ⟨rfl, rfl⟩ := pure_ok.mp h
    rcases deriveRetry_bills hrun with hkept | ⟨_, budget, _, hbudget, hroom, hbilled, _⟩
    · rw [hkept.budgets]
      exact .nothing rfl rfl
    · rw [hbilled]
      exact .retried hbudget hroom
  | delegateChildren =>
    obtain ⟨_, s₁, hrun, h⟩ := bind_ok.mp h
    obtain ⟨rfl, rfl⟩ := pure_ok.mp h
    have hsame : s₁.budgets = s.budgets := by
      rcases delegateChildren_sires hrun with rfl | ⟨_, _, hsired⟩
      · rfl
      · exact sires_budgets hsired
    rw [hsame]
    exact .nothing rfl rfl
  | widenBudget =>
    obtain ⟨_, _, hrun, h⟩ := bind_ok.mp h
    obtain ⟨rfl, rfl⟩ := pure_ok.mp h
    simp only [widenBudget, lockRun, require_bind_ok, fetch_bind_ok, write_ok] at hrun
    obtain ⟨_, run, hrow, _, budget, hbudget, hmore, rfl⟩ := hrun
    exact .widened (Option.filter_eq_some_iff.mp hrow).1 hbudget hmore
  | reserveToolCall =>
    obtain ⟨charge, _, hrun, h⟩ := bind_ok.mp h
    obtain ⟨rfl, rfl⟩ := pure_ok.mp h
    obtain ⟨run, hrow, ⟨rfl, rfl⟩ | ⟨rfl, budget, hbudget, hroom, rfl⟩⟩ := chargeToolCall_cases hrun
    · exact .nothing rfl rfl
    · exact .reserved rfl hrow hbudget hroom
  | reserveOutsideCall =>
    obtain ⟨sent, _, hrun, h⟩ := bind_ok.mp h
    obtain ⟨rfl, rfl⟩ := pure_ok.mp h
    obtain ⟨_, _, hcharge, hsent, hkept⟩ := reserveOutsideCall_bills hrun
    rw [hkept.budgets]
    obtain ⟨run, hrow, ⟨rfl, rfl⟩ | ⟨rfl, budget, hbudget, hroom, rfl⟩⟩ := chargeToolCall_cases hcharge
    · cases sent with
      | none => exact .nothing rfl rfl
      | some => cases hsent
    · cases sent with
      | none => cases hsent
      | some => exact .reserved rfl hrow hbudget hroom
  | recordSlice =>
    obtain ⟨_, _, hrun, h⟩ := bind_ok.mp h
    obtain ⟨rfl, rfl⟩ := pure_ok.mp h
    obtain ⟨run, budget, hrow, hbudget, hbilled, _⟩ := recordSlice_bills hrun
    rw [hbilled]
    exact .recorded rfl hrow hbudget
  | recordRound =>
    obtain ⟨_, _, hrun, h⟩ := bind_ok.mp h
    obtain ⟨rfl, rfl⟩ := pure_ok.mp h
    obtain ⟨run, budget, hrow, hbudget, hbilled, _⟩ := recordRound_bills hrun
    rw [hbilled]
    exact .recorded rfl hrow hbudget
  | commitCheckpoint =>
    obtain ⟨_, _, hrun, h⟩ := bind_ok.mp h
    obtain ⟨rfl, rfl⟩ := pure_ok.mp h
    obtain ⟨rfl, rfl⟩ | ⟨rfl, _, _, hrow, hbudget, hbilled, _⟩ := commitCheckpoint_bills hrun
    · exact .nothing rfl rfl
    · rw [hbilled]
      exact .recorded rfl hrow hbudget
  | _ => exact absurd rfl hplain

def makesRuns : Op → Bool
  | .acceptRun .. | .deriveRetry .. | .delegateChildren .. => true
  | _ => false

theorem exec_kin {op : Op} {a : Answer} (hop : makesRuns op = false) (h : exec env op s = .ok (a, s')) (id : Uuid) :
    kinOf s' id = kinOf s id := by
  by_cases hplain : isPlain op = true
  · exact (exec_plain hplain h).kin id
  cases op with
  | widenBudget =>
    obtain ⟨_, _, hrun, h⟩ := bind_ok.mp h
    obtain ⟨rfl, rfl⟩ := pure_ok.mp h
    simp only [widenBudget, lockRun, require_bind_ok, fetch_bind_ok, write_ok] at hrun
    obtain ⟨_, run, _, _, budget, _, _, rfl⟩ := hrun
    rfl
  | reserveToolCall =>
    obtain ⟨charge, _, hrun, h⟩ := bind_ok.mp h
    obtain ⟨rfl, rfl⟩ := pure_ok.mp h
    obtain ⟨run, _, ⟨_, rfl⟩ | ⟨_, budget, _, _, rfl⟩⟩ := chargeToolCall_cases hrun <;> rfl
  | reserveOutsideCall =>
    obtain ⟨_, _, hrun, h⟩ := bind_ok.mp h
    obtain ⟨rfl, rfl⟩ := pure_ok.mp h
    obtain ⟨_, _, hcharge, _, hkept⟩ := reserveOutsideCall_bills hrun
    rw [hkept.kin]
    obtain ⟨_, _, ⟨_, rfl⟩ | ⟨_, _, _, _, rfl⟩⟩ := chargeToolCall_cases hcharge <;> rfl
  | recordSlice =>
    obtain ⟨_, _, hrun, h⟩ := bind_ok.mp h
    obtain ⟨rfl, rfl⟩ := pure_ok.mp h
    obtain ⟨_, _, _, _, _, hkin⟩ := recordSlice_bills hrun
    exact hkin id
  | recordRound =>
    obtain ⟨_, _, hrun, h⟩ := bind_ok.mp h
    obtain ⟨rfl, rfl⟩ := pure_ok.mp h
    obtain ⟨_, _, _, _, _, hkin⟩ := recordRound_bills hrun
    exact hkin id
  | commitCheckpoint =>
    obtain ⟨_, _, hrun, h⟩ := bind_ok.mp h
    obtain ⟨rfl, rfl⟩ := pure_ok.mp h
    obtain ⟨_, rfl⟩ | ⟨_, _, _, _, _, _, hkin⟩ := commitCheckpoint_bills hrun
    · rfl
    · exact hkin id
  | acceptRun => cases hop
  | deriveRetry => cases hop
  | delegateChildren => cases hop
  | _ => exact absurd rfl hplain

theorem exec_remembers {op : Op} {a : Answer} {id : Uuid} {k : Kin} (h : exec env op s = .ok (a, s'))
    (hk : kinOf s id = some k) : kinOf s' id = some k := by
  by_cases hop : makesRuns op = false
  · rw [exec_kin hop h, hk]
  cases op with
  | acceptRun =>
    obtain ⟨accepted, _, hrun, h⟩ := bind_ok.mp h
    obtain ⟨rfl, rfl⟩ := pure_ok.mp h
    rcases acceptRun_bills hrun with hkept | ⟨hjoined, _⟩
    · rw [hkept.kin, hk]
    · exact hjoined.remembers hk
  | deriveRetry =>
    obtain ⟨_, _, hrun, h⟩ := bind_ok.mp h
    obtain ⟨rfl, rfl⟩ := pure_ok.mp h
    rcases deriveRetry_bills hrun with hkept | ⟨_, _, _, _, _, _, hjoined⟩
    · rw [hkept.kin, hk]
    · exact hjoined.remembers hk
  | delegateChildren =>
    obtain ⟨_, _, hrun, h⟩ := bind_ok.mp h
    obtain ⟨rfl, rfl⟩ := pure_ok.mp h
    rcases delegateChildren_sires hrun with rfl | ⟨_, _, hsired⟩
    · exact hk
    · exact sires_remembers hsired hk
  | _ => exact absurd rfl hop

end Bills

end TinyHermes.Runs.Billing
