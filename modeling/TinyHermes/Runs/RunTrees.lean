import TinyHermes.Runs.BudgetScopes
import TinyHermes.Runs.SweepIsolation

/-! The Runs as trees: every Run, delegated or a retry, goes back to one that somebody submitted, and that one's scope is
what it spends. -/
namespace TinyHermes.Runs.RunTrees
open Lib Tx SqlRunStore Billing Relation

/-- What a Run was made from: the Run that delegated it, or the one it retries. -/
def Kin.ups (k : Kin) : List Uuid := k.parent.toList ++ k.retryOf.toList

def MadeFrom (s : Store) (id up : Uuid) : Prop := ∃ k, kinOf s id = some k ∧ up ∈ Kin.ups k

def submitted (id : Uuid) : Kin := { root := id, parent := none, retryOf := none }

/-- Every Run goes back to the owner of its scope, which goes back to nothing. -/
def Hangs (s : Store) : Prop :=
  ∀ id k, kinOf s id = some k → ReflTransGen (MadeFrom s) id k.root ∧ kinOf s k.root = some (submitted k.root)

variable {env : Env} {s s' : Store} {id : Uuid}

theorem MadeFrom.remembered (hkept : ∀ id k, kinOf s id = some k → kinOf s' id = some k) {up : Uuid}
    (h : ReflTransGen (MadeFrom s) id up) : ReflTransGen (MadeFrom s') id up :=
  ReflTransGen.mono (fun _ _ ⟨k, hk, hup⟩ => ⟨k, hkept _ _ hk, hup⟩) _ _ h

theorem Hangs.congr (h : Hangs s) (hkin : ∀ id, kinOf s' id = kinOf s id) : Hangs s' := by
  intro id k hk
  rw [hkin] at hk
  obtain ⟨hup, hroot⟩ := h id k hk
  refine ⟨MadeFrom.remembered (fun id k hk => ?_) hup, ?_⟩
  · rw [hkin]
    exact hk
  · rw [hkin]
    exact hroot

theorem Hangs.join {runId : Uuid} {k : Kin} (h : Hangs s) (hjoined : Joined runId k s s')
    (hnew : k = submitted runId ∨ ∃ up ∈ Kin.ups k, ∃ k', kinOf s up = some k' ∧ k'.root = k.root) : Hangs s' := by
  have hkept (id : Uuid) (k' : Kin) (hk : kinOf s id = some k') : kinOf s' id = some k' := hjoined.remembers hk
  have hmine : kinOf s' runId = some k := by rw [hjoined.2, if_pos rfl]
  intro id k' hk
  rw [hjoined.2] at hk
  split at hk
  · next hid =>
    cases hk
    subst hid
    rcases hnew with rfl | ⟨up, hup, k', hk', hroot⟩
    · exact ⟨.refl, hmine⟩
    · obtain ⟨hpath, hsubmitted⟩ := h up k' hk'
      rw [hroot] at hpath hsubmitted
      exact ⟨.head ⟨k, hmine, hup⟩ (MadeFrom.remembered hkept hpath), hkept _ _ hsubmitted⟩
  · obtain ⟨hpath, hsubmitted⟩ := h id k' hk
    exact ⟨MadeFrom.remembered hkept hpath, hkept _ _ hsubmitted⟩

theorem Hangs.sires {parentRunId : Uuid} {parent : Kin} (h : Hangs s) (hparent : kinOf s parentRunId = some parent)
    (hsires : ReflTransGen (Sires parentRunId parent.root) s s') : Hangs s' := by
  induction hsires with
  | refl => exact h
  | tail hbefore hlast ih =>
    obtain ⟨_, _, hjoined⟩ := hlast
    exact ih.join hjoined (.inr ⟨parentRunId, List.mem_cons_self, parent, sires_remembers hbefore hparent, rfl⟩)

theorem exec_hangs {op : Op} {a : Answer} (h : Hangs s) (hexec : exec env op s = .ok (a, s')) : Hangs s' := by
  by_cases hop : makesRuns op = false
  · exact h.congr (exec_kin hop hexec)
  cases op with
  | acceptRun =>
    obtain ⟨_, _, hrun, hpure⟩ := bind_ok.mp hexec
    obtain ⟨rfl, rfl⟩ := pure_ok.mp hpure
    rcases acceptRun_bills hrun with hkept | ⟨hjoined, _⟩
    · exact h.congr hkept.kin
    · exact h.join hjoined (.inl rfl)
  | deriveRetry =>
    obtain ⟨_, _, hrun, hpure⟩ := bind_ok.mp hexec
    obtain ⟨rfl, rfl⟩ := pure_ok.mp hpure
    rcases deriveRetry_bills hrun with hkept | ⟨source, _, hsource, _, _, _, hjoined⟩
    · exact h.congr hkept.kin
    · exact h.join hjoined (.inr ⟨_, List.mem_cons_self, source, hsource, rfl⟩)
  | delegateChildren =>
    obtain ⟨_, _, hrun, hpure⟩ := bind_ok.mp hexec
    obtain ⟨rfl, rfl⟩ := pure_ok.mp hpure
    rcases delegateChildren_sires hrun with rfl | ⟨_, hparent, hsires⟩
    · exact h
    · exact h.sires hparent hsires
  | _ => exact absurd rfl hop

theorem reachable_hangs (h : ReachableStore s) : Hangs s := by
  refine h.invariant ?_ fun _ _ _ _ hstep hs => exec_hangs hs hstep
  intro _ _ hk
  cases hk

theorem kinOf_some {k : Kin} (h : kinOf s id = some k) : ∃ row, s.runs.lookup id = some row ∧ kin row = k :=
  Option.map_eq_some_iff.mp h

/-- In every reachable store a Run goes back, from one it was made from to the next, to the Run whose scope it spends; that one was made
from no other and its scope is there; and who delegated a Run was delegated by nobody. -/
theorem runs_hang_together (h : ReachableStore s) {row : RunRow} (hrow : s.runs.lookup id = some row) :
    ReflTransGen (MadeFrom s) id row.budgetRootRunId ∧ (s.budgets.lookup row.budgetRootRunId).isSome = true ∧
      (∃ root, s.runs.lookup row.budgetRootRunId = some root ∧ root.parentRunId = none ∧ root.retryOfRunId = none ∧
        root.budgetRootRunId = row.budgetRootRunId) ∧
      ∀ p ∈ row.parentRunId, row.retryOfRunId = none ∧ row.delegationScope.isSome = true ∧
        ∃ parent, s.runs.lookup p = some parent ∧ parent.parentRunId = none ∧ parent.depth = 0 ∧
          parent.delegationScope = none ∧ parent.budgetRootRunId = row.budgetRootRunId := by
  have hkin : kinOf s id = some (kin row) := SweepIsolation.kinOf_row hrow
  obtain ⟨hpath, hsubmitted⟩ := reachable_hangs h id _ hkin
  obtain ⟨_, hexec⟩ := h
  have hrooted := (BudgetScopes.executes_balanced hexec).rooted
  refine ⟨hpath, hrooted.scope id _ hkin, ?_, fun p hp => ?_⟩
  · obtain ⟨root, hroot, heq⟩ := kinOf_some hsubmitted
    exact ⟨root, hroot, congrArg Kin.parent heq, congrArg Kin.retryOf heq, congrArg Kin.root heq⟩
  · obtain ⟨k, hk, hsame⟩ := hrooted.parent id _ p hkin hp
    obtain ⟨_, hk', hnone⟩ := SweepIsolation.reachable_flat ⟨_, hexec⟩ id _ p hkin hp
    cases hk.symm.trans hk'
    obtain ⟨parent, hparent, rfl⟩ := kinOf_some hk
    have hmine := DelegationBounds.reachable_lineage ⟨_, hexec⟩ id row hrow
    have htheirs := DelegationBounds.reachable_lineage ⟨_, hexec⟩ p parent hparent
    rcases hmine with ⟨hparentless, _⟩ | ⟨_, _, hscope, hretry⟩
    · rw [hparentless] at hp
      cases hp
    · refine ⟨hretry, hscope, parent, hparent, hnone, ?_⟩
      rcases htheirs with ⟨_, hflat, hwide⟩ | ⟨hsome, _⟩
      · exact ⟨hflat, hwide, hsame⟩
      · rw [show parent.parentRunId = none from hnone] at hsome
        cases hsome

section Example
open DelegationBounds (retriedChild)

theorem retried_child_hangs : ∃ row, (attempt retriedChild).2.runs.lookup 9 = some row ∧
    ReflTransGen (MadeFrom (attempt retriedChild).2) 9 row.budgetRootRunId := by
  have hthere : ((attempt retriedChild).2.runs.lookup 9).isSome = true := by decide +kernel
  obtain ⟨row, hrow⟩ := Option.isSome_iff_exists.mp hthere
  exact ⟨row, hrow, (runs_hang_together ⟨_, attempt_executes retriedChild⟩ hrow).1⟩

end Example
end TinyHermes.Runs.RunTrees
