import TinyHermes.Runs.Writes

/-! What the shared statements leave alone. Every invariant of the store is read off these. -/
namespace TinyHermes.Runs
open Lib StateMachine SqlRunStore

/-- A row whose place in line, event counter or report may have moved, and nothing else. -/
def RunRow.Kept (r r' : RunRow) : Prop :=
  r' = { r with
    blockedByRunId := r'.blockedByRunId, updatedAt := r'.updatedAt
    nextEventSequence := r'.nextEventSequence, delegationResult := r'.delegationResult }

theorem RunRow.Kept.refl (r : RunRow) : r.Kept r := rfl

theorem RunRow.Kept.trans {r₁ r₂ r₃ : RunRow} (h₁ : r₁.Kept r₂) (h₂ : r₂.Kept r₃) : r₁.Kept r₃ := by
  unfold RunRow.Kept at *
  rw [h₂]
  rw [h₁]

theorem RunRow.Kept.symm {r r' : RunRow} (h : r.Kept r') : r'.Kept r := by
  unfold RunRow.Kept at *
  rw [h]

/-- A Session whose line or transcript may have moved, and nothing else. -/
def SessionRow.Kept (r r' : SessionRow) : Prop :=
  r' = { r with
    headRunId := r'.headRunId, nextRunSequence := r'.nextRunSequence, nextMessageSequence := r'.nextMessageSequence }

theorem SessionRow.Kept.refl (r : SessionRow) : r.Kept r := rfl

theorem SessionRow.Kept.trans {r₁ r₂ r₃ : SessionRow} (h₁ : r₁.Kept r₂) (h₂ : r₂.Kept r₃) : r₁.Kept r₃ := by
  unfold SessionRow.Kept at *
  rw [h₂]
  rw [h₁]

def Both {α : Type} (R : α → α → Prop) (a b : Option α) : Prop := Option.Rel R a b

namespace Both
variable {α : Type} {R : α → α → Prop} {a b c : Option α}

theorem refl (h : ∀ x, R x x) (a : Option α) : Both R a a := by
  cases a with
  | none => exact .none
  | some x => exact .some (h x)

theorem symm (hs : ∀ {x y}, R x y → R y x) (h : Both R a b) : Both R b a := by
  cases h with
  | none => exact .none
  | some h => exact .some (hs h)

theorem trans (ht : ∀ {x y z}, R x y → R y z → R x z) (h₁ : Both R a b) (h₂ : Both R b c) : Both R a c := by
  cases h₁ with
  | none => exact h₂
  | some h =>
    cases h₂ with
    | some h' => exact .some (ht h h')

theorem of_some {x : α} (h : Both R (some x) b) : ∃ y, b = some y ∧ R x y := by
  cases h with
  | some h => exact ⟨_, rfl, h⟩

theorem to_some {y : α} (h : Both R a (some y)) : ∃ x, a = some x ∧ R x y := by
  cases h with
  | some h => exact ⟨_, rfl, h⟩

theorem map {f : α → α} (h : ∀ x, R x (f x)) (a : Option α) : Both R a (a.map f) := by
  cases a with
  | none => exact .none
  | some x => exact .some (h x)

end Both

/-- Writes that touch no lease, budget, message, grant or draw, and of a Run's row only its place
in line, its event counter and its report. -/
structure Housekeeping (s s' : Store) : Prop where
  runs : ∀ id, Both RunRow.Kept (s.runs.lookup id) (s'.runs.lookup id)
  sessions : ∀ id, Both SessionRow.Kept (s.sessions.lookup id) (s'.sessions.lookup id)
  leases : s'.leases = s.leases
  budgets : s'.budgets = s.budgets
  messages : s'.messages = s.messages
  grants : s'.grants = s.grants
  drawn : s'.drawn = s.drawn

namespace Housekeeping

instance : Std.Refl Housekeeping where
  refl _ := ⟨fun _ => .refl .refl _, fun _ => .refl .refl _, rfl, rfl, rfl, rfl, rfl⟩

instance : IsTrans Store Housekeeping where
  trans _ _ _ h₁ h₂ :=
    ⟨fun id => (h₁.runs id).trans .trans (h₂.runs id), fun id => (h₁.sessions id).trans .trans (h₂.sessions id),
      h₂.leases.trans h₁.leases, h₂.budgets.trans h₁.budgets, h₂.messages.trans h₁.messages,
      h₂.grants.trans h₁.grants, h₂.drawn.trans h₁.drawn⟩

open Tx Tx.Within

theorem of_runs {s : Store} {f : Uuid → RunRow → RunRow} (h : ∀ id (r : RunRow), r.Kept (f id r)) :
    Housekeeping s { s with runs := s.runs.mapRows f } where
  runs id := by
    rw [Table.lookup_mapRows]
    exact .map (h id) _
  sessions _ := .refl .refl _
  leases := rfl
  budgets := rfl
  messages := rfl
  grants := rfl
  drawn := rfl

theorem of_modifyRun {runId : Uuid} {f : RunRow → RunRow} (h : ∀ r : RunRow, r.Kept (f r)) :
    Within Housekeeping (modifyRun runId f) := by
  refine Within.write fun s => of_runs fun id r => ?_
  split
  · exact h r
  · exact .refl r

theorem of_modifySession {sessionId : Uuid} {f : SessionRow → SessionRow} (h : ∀ r : SessionRow, r.Kept (f r)) :
    Within Housekeeping (modifySession sessionId f) := by
  refine Within.write fun s => ⟨fun _ => .refl .refl _, fun id => ?_, rfl, rfl, rfl, rfl, rfl⟩
  change Both _ _ ((s.sessions.modify sessionId f).lookup id)
  rw [Table.lookup_modify]
  split
  · exact .map h _
  · exact .refl .refl _

theorem of_lockRun {workspaceId runId : Uuid} {e : StoreError} : Within Housekeeping (lockRun workspaceId runId e) :=
  Within.fetch _ _

theorem of_appendEvents {env : Env} {workspaceId runId : Uuid} {events : List ReservedEvent} :
    Within Housekeeping (appendEvents env workspaceId runId events) := by
  refine Within.ite (fun _ => Within.pure _) fun _ => ?_
  refine Within.bind of_lockRun fun run => Within.bind (of_modifyRun fun _ => rfl) fun _ => ?_
  exact Within.write fun s => ⟨fun _ => .refl .refl _, fun _ => .refl .refl _, rfl, rfl, rfl, rfl, rfl⟩

theorem of_passHead {env : Env} {sessionId runId : Uuid} {successor : Option Uuid} :
    Within Housekeeping (passHead env sessionId runId successor) := by
  refine Within.bind (of_modifySession fun _ => rfl) fun _ => ?_
  refine Within.bind (Within.forEach _ fun next _ => of_modifyRun fun _ => rfl) fun _ => ?_
  refine Within.write fun s => of_runs fun id r => ?_
  split
  · rfl
  · exact .refl r

theorem of_terminalize {env : Env} {runId : Uuid} : Within Housekeeping (terminalize env runId) := by
  refine Within.bind (Within.fetch _ _) fun run => Within.bind Within.get fun s => ?_
  refine Within.bind (of_modifyRun fun r => ?_) fun _ => ?_
  · split
    · rfl
    · exact .refl r
  refine Within.bind (Within.write fun s => ⟨fun _ => .refl .refl _, fun _ => .refl .refl _, rfl, rfl, rfl, rfl, rfl⟩)
    fun _ => Within.bind (Within.fetch _ _) fun session => ?_
  exact Within.ite (fun _ => Within.pure _) fun _ => Within.bind Within.get fun _ => of_passHead

end Housekeeping

namespace SqlRunStore
open Tx

variable {env : Env} {runId : Uuid} {signal : RunSignal} {args : SignalArgs} {s s' : Store} {u : Unit}

/-- What `decide_and_write` does: one Run takes the decision of the state machine, and around that
there is only housekeeping. -/
theorem decideAndWrite_spec (h : decideAndWrite env runId signal args s = .ok (u, s')) :
    ∃ run budget d, s.runs.lookup runId = some run ∧ s.budgets.lookup run.budgetRootRunId = some budget ∧
      RunStateMachine.decide (stateView run budget env.now) signal args.pauseReason args.waitKind
        args.waitDeadlineAt = .ok d ∧
      Housekeeping { s with runs := s.runs.modify runId fun r => decidedRow r d args.waitPolicy env.now } s' := by
  unfold decideAndWrite at h
  simp only [bind_ok, fetch_ok, lift_ok] at h
  obtain ⟨run, _, ⟨hrun, rfl⟩, budget, _, ⟨hbudget, rfl⟩, d, _, ⟨hd, rfl⟩, _, _, hmod, _, s₂, hterm, hev⟩ := h
  refine ⟨run, budget, d, hrun, hbudget, ?_, ?_⟩
  · revert hd
    cases RunStateMachine.decide (stateView run budget env.now) signal args.pauseReason args.waitKind
      args.waitDeadlineAt with
    | error => simp [Except.mapError]
    | ok => simp [Except.mapError]
  · obtain rfl := write_ok.mp hmod
    have h₂ : Housekeeping _ s₂ := Within.onlyIf (fun _ => Housekeeping.of_terminalize) hterm
    exact Trans.trans h₂ (Housekeeping.of_appendEvents hev)

end SqlRunStore
end TinyHermes.Runs
