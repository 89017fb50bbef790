import TinyHermes.Runs.Transactions

/-! The Scheduler's scans: which Runs each picks, in the order it reads them, and the sweeps that settle what one picked inside
one transaction. -/
namespace TinyHermes.Runs
open Lib Tx StateMachine SlicePolicy

namespace SqlRunStore

def selectRuns (s : Store) (p : Uuid → RunRow → Bool) (order : RunRow → Time) : List (Uuid × RunRow) :=
  (s.runs.select p).mergeSort fun a b => order a.2 ≤ order b.2

theorem mem_selectRuns {s : Store} {p : Uuid → RunRow → Bool} {order : RunRow → Time} {id : Uuid} {row : RunRow} :
    (id, row) ∈ selectRuns s p order ↔ s.runs.lookup id = some row ∧ p id row = true := by
  rw [selectRuns, List.mem_mergeSort, Table.mem_select]

theorem nodup_selectRuns (s : Store) (p : Uuid → RunRow → Bool) (order : RunRow → Time) :
    ((selectRuns s p order).map (·.1)).Nodup := by
  have hperm := (List.mergeSort_perm (s.runs.select p) fun a b => order a.2 ≤ order b.2).map (·.1)
  exact hperm.nodup_iff.mpr (Table.nodup_select _ _)

def expiredLeaseRuns (now : Time) (s : Store) : List Uuid :=
  (selectRuns s (fun id run => (run.status = .running || run.status = .cancelling) &&
    (s.leases.lookup id).any fun lease => lease.releasedAt.isNone && lease.expiresAt ≤ now) (·.updatedAt)).map (·.1)

def interruptedRuns (s : Store) : List Uuid :=
  (selectRuns s (fun _ run => run.status = .interrupted) (·.updatedAt)).map (·.1)

def expiredWaitRuns (now : Time) (s : Store) : List (Uuid × Option String) :=
  (selectRuns s (fun _ run => run.status = .waitingExternal && run.waitDeadlineAt.any (· ≤ now))
    fun run => run.waitDeadlineAt.getD 0).map fun e => (e.1, e.2.waitKind)

def agedCompatTimeoutRuns (now : Time) (s : Store) : List Uuid :=
  (selectRuns s (fun _ run => run.status = .paused && run.pauseReason = some .compatTimeout &&
    run.updatedAt ≤ now - seconds (24 * 3600)) (·.updatedAt)).map (·.1)

def parentsAwaitingChildren (s : Store) : List Uuid :=
  (selectRuns s (fun _ run => run.status = .waitingExternal && run.waitKind = some waitChildRuns) (·.updatedAt)).map
    (·.1)

/-- `DISTINCT`, in no particular order. -/
def cancelledParentsWithChildren (s : Store) : List Uuid :=
  (s.runs.select fun id run => run.status.isTerminal &&
    !(s.runs.select fun _ child => child.parentRunId = some id && !child.status.isTerminal).isEmpty).map (·.1)

end SqlRunStore

namespace Scheduler
open SqlRunStore

/-- `_settle_due_waits`: a timer wakes its Run, any other deadline pauses it. -/
def settleDueWait (env : Env) (due : Uuid × Option String) : StoreTx Unit :=
  if due.2 = some waitTimer then wakeExternalWait env due.1 else timeOutExternalWait env due.1

def settleDueWaits (env : Env) (batchSize : Nat) : StoreTx Unit := do
  let s ← get
  forEach ((expiredWaitRuns env.now s).take batchSize) (settleDueWait env)

def settleChildWaits (env : Env) (batchSize : Nat) : StoreTx Unit := do
  let s ← get
  forEach ((parentsAwaitingChildren s).take batchSize) fun runId => do
    let _ ← settleChildWait env runId

def cascadeCancels (env : Env) (batchSize : Nat) : StoreTx Unit := do
  let s ← get
  forEach ((cancelledParentsWithChildren s).take batchSize) (cascadeCancelChildren env)

/-- A scan that picks the Run at `now`, and the signal its step would have the Run decide. -/
inductive Picks (now : Time) (s : Store) (runId : Uuid) : RunSignal → Prop where
  | expiredLease (h : runId ∈ expiredLeaseRuns now s) : Picks now s runId .interrupted
  | recovery (h : runId ∈ interruptedRuns s) : Picks now s runId .recoveryApproved
  | noRecovery (h : runId ∈ interruptedRuns s) : Picks now s runId .recoveryFailed
  | timer (h : (runId, some waitTimer) ∈ expiredWaitRuns now s) : Picks now s runId .externalReady
  | deadline {kind : Option String} (h : (runId, kind) ∈ expiredWaitRuns now s) (hkind : kind ≠ some waitTimer) :
      Picks now s runId .externalPaused
  | children (h : runId ∈ parentsAwaitingChildren s) : Picks now s runId .externalReady
  | sibling {parentRunId : Uuid} (hparent : parentRunId ∈ parentsAwaitingChildren s)
      (h : runId ∈ childrenOf s parentRunId fun run => run.resultDeliveredAt.isNone) : Picks now s runId .cancelRequested
  | cascade {parentRunId : Uuid} (hparent : parentRunId ∈ cancelledParentsWithChildren s)
      (h : runId ∈ childrenOf s parentRunId fun run => !run.status.isTerminal) : Picks now s runId .cancelRequested
  | approval : Picks now s runId .approvalPaused
  | compatTimeout (h : runId ∈ agedCompatTimeoutRuns now s) : Picks now s runId .cancelRequested
  /-- `confirm_cleanup_intent`, after a sandbox was destroyed. -/
  | limitCleanup {row : RunRow} (h : s.runs.lookup runId = some row)
      (htarget : row.workspaceCleanupTarget = some .pausedLimit) : Picks now s runId .limitCleanupConfirmed
  | conflictCleanup {row : RunRow} (h : s.runs.lookup runId = some row)
      (htarget : row.workspaceCleanupTarget = some .failedConflict) : Picks now s runId .recoveryFailed

end Scheduler
end TinyHermes.Runs
