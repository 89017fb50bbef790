import TinyHermes.Lib.Execution
import TinyHermes.Runs.Admission
import TinyHermes.Runs.Claim
import TinyHermes.Runs.Sweeps

/-! Every transaction the API, the Workers and the Scheduler may commit, and the runs they make up. -/
namespace TinyHermes.Runs
open Lib Interruption SqlRunStore

inductive Op where
  | createSession (cmd : CreateSessionCommand) (sessionId : Uuid)
  | acceptRun (cmd : AcceptRunCommand) (runId : Uuid)
  | deriveRetry (cmd : RetryRunCommand) (runId : Uuid)
  | delegateChildren (parentRunId : Uuid) (requests : List (DelegationRequest × Uuid × Uuid))
  | claimHead (cmd : ClaimRunCommand) (leaseId : Uuid)
  | applySignal (cmd : ApplySignalCommand)
  | controlRun (canControl : Bool) (workspaceId runId : Uuid) (signal : RunSignal) (callerId : Uuid)
      (expectedStateVersion : Nat)
  | widenBudget (canControl : Bool) (workspaceId runId : Uuid) (expectedStateVersion maxModelCalls : Nat)
  | renewLease (cmd : RenewLeaseCommand)
  | reserveToolCall (workspaceId runId leaseId : Uuid)
  | reserveOutsideCall (workspaceId runId leaseId : Uuid) (sending : InFlightRound) (newKey : Uuid)
  | recordSlice (cmd : RecordSliceCommand)
  | recordRound (cmd : RecordSliceCommand)
  | commitCheckpoint (commit : CommitCheckpoint)
  | reclaimExpiredLease (runId : Uuid)
  | recoverInterrupted (runId : Uuid) (maxAttempts : Nat)
  | wakeExternalWait (runId : Uuid)
  | timeOutExternalWait (runId : Uuid)
  | expireApproval (approvalId runId : Uuid)
  | cancelAgedCompatTimeout (runId : Uuid)
  | settleChildWait (parentRunId : Uuid)
  | cascadeCancelChildren (parentRunId : Uuid)
  | repairSessionHead (sessionId : Uuid)

inductive Answer where
  | done
  | accepted (run : AcceptedRun)
  | delegated (result : DelegationResult)
  | claimed (run : Option ClaimedRun)
  | renewed (version : Option Nat)
  | reserved (charged : Bool)
  | sent (recorded : Option InFlightRound)
  | committed (moved : Bool)
  | recovered (state : Option RunState)
  | settled (woken : Bool)
  | repaired (result : RepairResult)

def exec (env : Env) : Op → StoreTx Answer
  | .createSession cmd sessionId => do createSession env cmd sessionId; pure .done
  | .acceptRun cmd runId => do pure (.accepted (← acceptRun env cmd runId))
  | .deriveRetry cmd runId => do pure (.accepted (← deriveRetry env cmd runId))
  | .delegateChildren parentRunId requests => do pure (.delegated (← delegateChildren env parentRunId requests))
  | .claimHead cmd leaseId => do pure (.claimed (← claimHead env cmd leaseId))
  | .applySignal cmd => do applySignal env cmd; pure .done
  | .controlRun canControl workspaceId runId signal callerId version => do
    controlRun env canControl workspaceId runId signal callerId version; pure .done
  | .widenBudget canControl workspaceId runId version maxModelCalls => do
    widenBudget canControl workspaceId runId version maxModelCalls; pure .done
  | .renewLease cmd => do pure (.renewed (← renewLease env cmd))
  | .reserveToolCall workspaceId runId leaseId => do
    pure (.reserved (← reserveToolCall env workspaceId runId leaseId))
  | .reserveOutsideCall workspaceId runId leaseId sending newKey => do
    pure (.sent (← reserveOutsideCall env workspaceId runId leaseId sending newKey))
  | .recordSlice cmd => do recordSlice env cmd; pure .done
  | .recordRound cmd => do recordRound env cmd; pure .done
  | .commitCheckpoint commit => do pure (.committed (← commitCheckpoint env commit))
  | .reclaimExpiredLease runId => do reclaimExpiredLease env runId; pure .done
  | .recoverInterrupted runId maxAttempts => do pure (.recovered (← recoverInterrupted env runId maxAttempts))
  | .wakeExternalWait runId => do wakeExternalWait env runId; pure .done
  | .timeOutExternalWait runId => do timeOutExternalWait env runId; pure .done
  | .expireApproval approvalId runId => do expireApproval env approvalId runId; pure .done
  | .cancelAgedCompatTimeout runId => do cancelAgedCompatTimeout env runId; pure .done
  | .settleChildWait parentRunId => do pure (.settled (← settleChildWait env parentRunId))
  | .cascadeCancelChildren parentRunId => do cascadeCancelChildren env parentRunId; pure .done
  | .repairSessionHead sessionId => do pure (.repaired (← repairSessionHead env sessionId))

def Step (s : Store) (i : Env × Op) (a : Answer) (s' : Store) : Prop := exec i.1 i.2 s = .ok (a, s')

abbrev History := List (Commit Store (Env × Op) Answer)

abbrev Executes (log : History) (s : Store) : Prop := Execution Step {} log s

abbrev ReachableStore (s : Store) : Prop := Reachable Step {} s

def perform (s : Store) (i : Env × Op) : Option (Answer × Store) := (exec i.1 i.2 s).toOption

def attempt (inputs : List (Env × Op)) : History × Store := replay perform {} inputs

theorem attempt_executes (inputs : List (Env × Op)) : Executes (attempt inputs).1 (attempt inputs).2 := by
  refine replay_execution perform (fun s i a s' h => ?_) {} inputs
  exact Tx.ok_of_toOption h

theorem attempt_inputs (inputs : List (Env × Op)) : ∀ c ∈ (attempt inputs).1, c.input ∈ inputs :=
  replay_inputs perform {} inputs

section Example
open Agents

def oneAgent : Catalog where
  agentExists _ _ := true
  currentVersion _ _ := some 100
  childAgent _ _ := none
  version id := if id = 100 then some { agentId := 10, spec := {} } else none
  currentPricing _ := none
  costCeiling _ := (none, none)
  workspaceLimits _ := some {}
  artifacts := []

def clock (now : Time) : Env := { catalog := oneAgent, now }

def somebody : CallerIdentity := { callerType := .user, callerId := 7 }

def say (text : String) : CanonicalMessage := { role := .user, blocks := [.text text], blocks_ne := text_alone_ne text }

def openSession (sessionId : Uuid) : Op :=
  .createSession { workspaceId := 1, agentId := 10, caller := somebody, sessionMode := .persistent } sessionId

theorem say_submits (key : String) (purpose : RunPurpose) : (some (say key)).isSome ∨ purpose = .compaction := .inl rfl

def ask (sessionId runId : Uuid) (key : String) : Op :=
  .acceptRun
    { workspaceId := 1, sessionId, caller := somebody, endpoint := "runs", idempotencyKey := key,
      requestFingerprint := key, message := some (say key), message_or_compaction := say_submits key .answer } runId

def take (leaseId : Uuid) : Op := .claimHead { workerId := "worker", leaseSeconds := 60 } leaseId

/-- A slice of Run `runId` recorded under `leaseId`. -/
def slice (runId leaseId : Uuid) (version : Nat) (signal : Option RunSignal) : RecordSliceCommand :=
  { workspaceId := 1, runId, leaseId, expectedStateVersion := version, signal }

end Example

end TinyHermes.Runs
