import TinyHermes.Runs.RunMoves

/-! What a delegated Run may do, and what becomes of that when somebody retries it. -/
namespace TinyHermes.Runs.DelegationBounds
open Lib Agents SqlRunStore RunMoves Relation

section Narrowing

/-- `ExecutionContext.tools`: an undelegated Run is unnarrowed. -/
def tools (spec : AgentSpec) : Option DelegationScope → List String
  | none => spec.tools
  | some scope => spec.tools.filter fun name => name ∈ scope.tools

/-- `ExecutionContext.granted_skills`. -/
def grantedSkills (spec : AgentSpec) : Option DelegationScope → List String
  | none => spec.skills
  | some scope => spec.skills.filter fun skill => skill ∈ scope.skills

/-- `ExecutionContext.granted_operations`: the call itself, and the credential behind it. -/
def grantedOperations (spec : AgentSpec) : Option DelegationScope → List BoundOperation
  | none => spec.httpOperations
  | some scope => spec.httpOperations.filter fun operation =>
    operation.callName ∈ scope.tools && operation.credentialRef.all fun ref => ref ∈ scope.secrets

def networkLayer (scope : Option DelegationScope) : Option (Finset String) := scope.map (·.network)

def NoWider (mine : Option DelegationScope) : Option DelegationScope → Prop
  | none => True
  | some theirs => ∃ scope, mine = some scope ∧ theirs.covers scope

end Narrowing

/-- The bounds of `run` are those of `child`: as deep, its scope no wider, and offered no tool, skill, operation or host that
`child` was not. -/
structure SameBounds (child run : RunRow) : Prop where
  depth : run.depth = child.depth
  scope : NoWider run.delegationScope child.delegationScope
  offered : ∀ (catalog : Catalog) theirs mine, catalog.version child.agentVersionId = some theirs →
    catalog.version run.agentVersionId = some mine →
      tools mine.spec run.delegationScope ⊆ tools theirs.spec child.delegationScope ∧
        grantedSkills mine.spec run.delegationScope ⊆ grantedSkills theirs.spec child.delegationScope ∧
        grantedOperations mine.spec run.delegationScope ⊆ grantedOperations theirs.spec child.delegationScope
  network : networkLayer child.delegationScope = none ∨
    ∃ theirs mine, networkLayer child.delegationScope = some theirs ∧
      networkLayer run.delegationScope = some mine ∧ mine ⊆ theirs

theorem SameBounds.refl (row : RunRow) : SameBounds row row where
  depth := rfl
  scope := by
    cases row.delegationScope with
    | none => trivial
    | some scope => exact ⟨scope, rfl, fun _ h => h, fun _ h => h, fun _ h => h, fun _ h => h, fun _ h => h, fun _ h => h⟩
  offered catalog theirs mine ht hm := by
    cases ht.symm.trans hm
    exact ⟨fun _ h => h, fun _ h => h, fun _ h => h⟩
  network := by
    cases networkLayer row.delegationScope with
    | none => exact .inl rfl
    | some hosts => exact .inr ⟨hosts, hosts, rfl, rfl, fun _ h => h⟩

/-- `later` was derived from `earlier` by `derive_retry`. -/
def RetryOf (s : Store) (later earlier : Uuid) : Prop :=
  ∃ row, s.runs.lookup later = some row ∧ row.retryOfRunId = some earlier

/-- The Runs that retry `child`, retry such a retry, and so on, with `child` itself. -/
def InRetryChain (s : Store) (child run : Uuid) : Prop := ReflTransGen (RetryOf s) run child

def Lineage (row : RunRow) : Prop :=
  (row.parentRunId = none ∧ row.depth = 0 ∧ row.delegationScope = none) ∨
    (row.parentRunId.isSome ∧ 1 ≤ row.depth ∧ row.delegationScope.isSome ∧ row.retryOfRunId = none)

theorem Lineage.congr {row row' : RunRow} (h : Lineage row) (hid : identity row' = identity row) : Lineage row' := by
  have hparent : row'.parentRunId = row.parentRunId := congrArg Identity.parentRunId hid
  have hdepth : row'.depth = row.depth := congrArg Identity.depth hid
  have hscope : row'.delegationScope = row.delegationScope := congrArg Identity.delegationScope hid
  have hretry : row'.retryOfRunId = row.retryOfRunId := congrArg Identity.retryOfRunId hid
  unfold Lineage
  rw [hparent, hdepth, hscope, hretry]
  exact h

theorem lineage_move {A : Allowed} {v v' : RunView} (hmove : RunMove A v v')
    (h : ∀ row, v.row = some row → Lineage row) (row' : RunRow) (hrow' : v'.row = some row') : Lineage row' := by
  rcases identity_move hmove hrow' with ⟨_, hborn⟩ | ⟨row, hrow, hid⟩
  · exact hborn.lineage
  · exact (h row hrow).congr hid

theorem reachable_lineage {s : Store} (h : ReachableStore s) (runId : Uuid) (row : RunRow)
    (hrow : s.runs.lookup runId = some row) : Lineage row := by
  refine h.invariant (I := fun s => ∀ id r, s.runs.lookup id = some r → Lineage r) ?_ ?_ runId row hrow
  · intro id r hr
    cases hr
  · intro _ i _ _ hstep hs id
    exact keep_moves (I := fun v => ∀ r, v.row = some r → Lineage r) (fun _ _ hm hv => lineage_move hm hv)
      (exec_moves i.2 hstep id) (hs id)

/-- A retry of a delegated child has its bounds exactly when it is that child: whatever was derived
from it sits at depth zero and carries no scope. -/
theorem retry_bounds_iff (s : Store) (h : ReachableStore s) (c r : Uuid) (child run : RunRow)
    (hc : s.runs.lookup c = some child) (hdelegated : child.parentRunId.isSome = true)
    (hr : s.runs.lookup r = some run) (hchain : InRetryChain s c r) : SameBounds child run ↔ r = c := by
  constructor
  · intro hsame
    rcases hchain.cases_head with heq | ⟨_, ⟨_, hrow, hretry⟩, _⟩
    · exact heq
    · cases hr.symm.trans hrow
      have hdeep : 1 ≤ child.depth := by
        rcases reachable_lineage h c child hc with ⟨hnone, _, _⟩ | ⟨_, hdeep, _, _⟩
        · rw [hnone] at hdelegated
          cases hdelegated
        · exact hdeep
      have hflat : run.depth = 0 := by
        rcases reachable_lineage h r run hr with ⟨_, hflat, _⟩ | ⟨_, _, _, hnone⟩
        · exact hflat
        · rw [hnone] at hretry
          cases hretry
      have := hsame.depth
      omega
  · rintro rfl
    cases hc.symm.trans hr
    exact .refl child

section Example

/-- An Agent that may lend `file.read` to a helper whose own Version also binds `shell.exec`. -/
def lender : AgentSpec where
  tools := ["file.read", "agent.delegate"]
  delegation := some
    { children := [{ aliasName := "helper", tools := ["file.read"] }], aliases_nodup := by simp }

def helper : AgentSpec where
  tools := ["file.read", "shell.exec"]

def lending : Catalog := { oneAgent with
  childAgent := fun _ _ => some 200
  version := fun id =>
    if id = 100 then some { agentId := 10, spec := lender }
    else if id = 200 then some { agentId := 20, spec := helper } else none }

def lendingAt (now : Time) : Env := { catalog := lending, now }

def retriedChild : List (Env × Op) :=
  [(lendingAt 0, openSession 2), (lendingAt 1, ask 2 3 "question"), (lendingAt 2, take 5),
    (lendingAt 3, .delegateChildren 3 [({ aliasName := "helper", instruction := "look" }, 6, 7)]),
    (lendingAt 4, take 8), (lendingAt 5, .recordSlice (slice 7 8 2 (some .failed))),
    (lendingAt 6, .deriveRetry
      { workspaceId := 1, sourceRunId := 7, caller := somebody, canRetry := true, endpoint := "retry",
        idempotencyKey := "again", requestFingerprint := "again" } 9)]

private theorem retried_child_rows :
    ∃ child run, (attempt retriedChild).2.runs.lookup 7 = some child ∧
      (attempt retriedChild).2.runs.lookup 9 = some run ∧ child.parentRunId = some 3 ∧ run.retryOfRunId = some 7 ∧
      child.depth = 1 ∧ run.depth = 0 ∧ tools helper child.delegationScope = ["file.read"] ∧
      tools helper run.delegationScope = ["file.read", "shell.exec"] := by
  have h₇ : ((attempt retriedChild).2.runs.lookup 7).map (fun r => (r.parentRunId, r.depth, tools helper r.delegationScope)) =
      some (some 3, 1, ["file.read"]) := by decide +kernel
  have h₉ : ((attempt retriedChild).2.runs.lookup 9).map (fun r => (r.retryOfRunId, r.depth, tools helper r.delegationScope)) =
      some (some 7, 0, ["file.read", "shell.exec"]) := by decide +kernel
  obtain ⟨child, hchild, hc⟩ := Option.map_eq_some_iff.mp h₇
  obtain ⟨run, hrun, hr⟩ := Option.map_eq_some_iff.mp h₉
  simp only [Prod.mk.injEq] at hc hr
  exact ⟨child, run, hchild, hrun, hc.1, hr.1, hc.2.1, hr.2.1, hc.2.2, hr.2.2⟩

theorem retried_child_bounds :
    ∃ child run, (attempt retriedChild).2.runs.lookup 7 = some child ∧
      (attempt retriedChild).2.runs.lookup 9 = some run ∧ (SameBounds child run ↔ (9 : Uuid) = 7) := by
  obtain ⟨child, run, hchild, hrun, hparent, hretry, _⟩ := retried_child_rows
  refine ⟨child, run, hchild, hrun, ?_⟩
  exact retry_bounds_iff _ ⟨_, attempt_executes retriedChild⟩ 7 9 child run hchild (by rw [hparent]; rfl) hrun
    (.single ⟨run, hrun, hretry⟩)

/-- The retry of a delegated child is offered the shell its child was not lent, and may delegate. -/
theorem retried_child_unbounded :
    ReachableStore (attempt retriedChild).2 ∧
      ∃ child run, (attempt retriedChild).2.runs.lookup 7 = some child ∧
        (attempt retriedChild).2.runs.lookup 9 = some run ∧ child.parentRunId = some 3 ∧
        InRetryChain (attempt retriedChild).2 7 9 ∧ run.depth < maxDelegationDepth ∧
        tools helper child.delegationScope = ["file.read"] ∧
        tools helper run.delegationScope = ["file.read", "shell.exec"] ∧ ¬ SameBounds child run := by
  obtain ⟨child, run, hchild, hrun, hparent, hretry, hdeep, hflat, htheirs, hmine⟩ := retried_child_rows
  refine ⟨⟨_, attempt_executes retriedChild⟩, child, run, hchild, hrun, hparent, .single ⟨run, hrun, hretry⟩, ?_, htheirs,
    hmine, fun h => ?_⟩
  · rw [hflat]
    decide
  · have := h.depth
    rw [hdeep, hflat] at this
    cases this

end Example

end TinyHermes.Runs.DelegationBounds
