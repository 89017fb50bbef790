import TinyHermes.Lib.Execution
import TinyHermes.Sandbox.Controller

/-! Every transaction the sandbox hosts, the Scheduler and the operator may attempt on the claims, and the runs they
make up. -/
namespace TinyHermes.Sandbox
open Lib Sandboxes SqlSandboxStore SandboxController
open Runs (Uuid Time)

inductive Act where
  /-- `acquire` up to the commit of its registration. -/
  | acquire (host : String) (cmd : AcquireCommand) (instanceId reservationId : Uuid)
  | built (host : String) (build : Build) (containerId : String)
  | buildFailed (host : String) (build : Build) (fault : Fault)
  | execute (host : String) (caller : Caller) (cwd : String)
  | executeStream (host : String) (caller : Caller) (cwd : String)
  | workspaceScan (host : String) (caller : Caller)
  | workspaceExport (host : String) (caller : Caller)
  /-- The checks of an import, after which its stream is open. -/
  | workspaceImport (host : String) (caller : Caller) (declaredTotal : Int)
  | importReceived (host : String) (caller : Caller)
  | importFailed (host : String) (caller : Caller) (fault : Fault)
  | freeze (host : String) (caller : Caller)
  | thaw (host : String) (caller : Caller)
  | destroy (host : String) (caller : Caller)
  | keep (host : String) (runId sandboxId : Uuid) (idleExpiresAt : Time)
  | cleanup (host : String) (runId sandboxId : Uuid)
  | volumeRemove (host : String) (runId sandboxId : Uuid)
  /-- The Scheduler isolates a claim whose lease ran out, whose Run was interrupted or whose cleanup failed. -/
  | isolate (reservationId : Uuid) (reason : String)
  /-- The Scheduler records a cleanup that was answered. -/
  | confirmCleanup (reservationId : Uuid)
  | retireHost (name : String)

inductive Answer where
  | done
  | acquired (acquired : Acquired)
  | authorized (containerId : String)
  deriving DecidableEq, Repr

/-- The database, and what the controllers are in the middle of: containers being built and imports being received. -/
structure Pool where
  sandboxes : Sandboxes := .empty
  building : List (String × Build) := []
  importing : List (String × Caller) := []

/-- The controller of the host called `name`. -/
def controllerOn (hosts : String → HostSettings) (name : String) : SandboxController := { hosts name with name }

def liveOn (name : String) (s : Sandboxes) : List (Uuid × SandboxReservation) :=
  s.reservations.select fun _ row => row.status.live && (s.instances.lookup row.instanceId).any fun sandbox => sandbox.controller = name

def destroyAndRelease (found : Uuid × SandboxReservation) : SandboxTx Unit := do
  setInstanceStatus found.2.instanceId .destroyed
  release found.1

def retireHost (name : String) : SandboxTx Unit := do
  let s ← get
  Tx.forEach (liveOn name s) destroyAndRelease

def confirmCleanup (reservationId : Uuid) : SandboxTx Unit := do
  let row ← Tx.fetch (fun s => s.reservations.lookup reservationId) .unknownReservation
  destroyAndRelease (reservationId, row)

def transaction (hosts : String → HostSettings) (outside : Outside) : Act → SandboxCall Answer
  | .acquire host cmd instanceId reservationId => do
    pure (.acquired (← acquire (controllerOn hosts host) outside cmd instanceId reservationId))
  | .built _ build containerId => do Call.tx (completeBuild outside build containerId); pure .done
  | .buildFailed host build _ => do Call.tx (abandon (controllerOn hosts host) outside build); pure .done
  | .execute host caller cwd => do pure (.authorized (← execute (controllerOn hosts host) outside caller cwd))
  | .executeStream host caller cwd => do
    pure (.authorized (← executeStream (controllerOn hosts host) outside caller cwd))
  | .workspaceScan host caller => do pure (.authorized (← workspaceScan (controllerOn hosts host) outside caller))
  | .workspaceExport host caller => do pure (.authorized (← workspaceExport (controllerOn hosts host) outside caller))
  | .workspaceImport host caller declaredTotal => do
    pure (.authorized (← workspaceImport (controllerOn hosts host) outside caller declaredTotal))
  | .importReceived _ _ => pure .done
  -- `except BaseException: await workspace_import_failed(…); raise`
  | .importFailed host caller fault => do
    workspaceImportFailed (controllerOn hosts host) caller.runId caller.sandboxId
    Call.tx (throw fault)
  | .freeze host caller => do freeze (controllerOn hosts host) outside caller; pure .done
  | .thaw host caller => do thaw (controllerOn hosts host) outside caller; pure .done
  | .destroy host caller => do destroy (controllerOn hosts host) outside caller; pure .done
  | .keep host runId sandboxId idleExpiresAt => do
    SandboxController.keep (controllerOn hosts host) runId sandboxId idleExpiresAt; pure .done
  | .cleanup host runId sandboxId => do cleanup (controllerOn hosts host) outside runId sandboxId; pure .done
  | .volumeRemove host runId sandboxId => do volumeRemove (controllerOn hosts host) outside runId sandboxId; pure .done
  | .isolate reservationId reason => do Call.tx (SqlSandboxStore.isolate reservationId reason); pure .done
  | .confirmCleanup reservationId => do Call.tx (confirmCleanup reservationId); pure .done
  | .retireHost name => do Call.tx (retireHost name); pure .done

def Act.pending (p : Pool) : Act → Bool
  | .built host build _ | .buildFailed host build _ => (host, build) ∈ p.building
  | .importReceived host caller | .importFailed host caller _ => (host, caller) ∈ p.importing
  | _ => true

abbrev Heard := Reply Fault RefusalReason Answer

def Act.heard : Act → Heard → Heard
  | .buildFailed _ _ fault, _ => .raised fault
  | _, reply => reply

def Act.track (p : Pool) : Act → Heard → Pool
  | .acquire host _ _ _, .answered (.acquired (.registered build)) => { p with building := (host, build) :: p.building }
  | .built host build _, _ | .buildFailed host build _, _ => { p with building := p.building.erase (host, build) }
  | .workspaceImport host caller _, .answered _ => { p with importing := (host, caller) :: p.importing }
  | .importReceived host caller, _ | .importFailed host caller _, _ =>
    { p with importing := p.importing.erase (host, caller) }
  | _, _ => p

/-- One act as `dispatch` and `dispatch_stream` run it: committed when answered or refused, rolled back when it raised. -/
def perform (hosts : String → HostSettings) (p : Pool) (i : Outside × Act) : Option (Heard × Pool) :=
  if i.2.pending p then
    let reply := Call.dispatch (transaction hosts i.1 i.2) p.sandboxes
    some (i.2.heard reply.1, { i.2.track p reply.1 with sandboxes := reply.2 })
  else none

def Step (hosts : String → HostSettings) (p : Pool) (i : Outside × Act) (a : Heard) (p' : Pool) : Prop :=
  perform hosts p i = some (a, p')

abbrev History := List (Commit Pool (Outside × Act) Heard)

abbrev Executes (hosts : String → HostSettings) (log : History) (p : Pool) : Prop := Execution (Step hosts) {} log p

variable {hosts : String → HostSettings} {p p' : Pool} {i : Outside × Act} {a : Heard}

theorem Step.sandboxes (h : Step hosts p i a p') :
    p'.sandboxes = (Call.dispatch (transaction hosts i.1 i.2) p.sandboxes).2 := by
  unfold Step perform at h
  split at h
  · cases h
    rfl
  · cases h

theorem Step.answer (h : Step hosts p i a p') :
    a = i.2.heard (Call.dispatch (transaction hosts i.1 i.2) p.sandboxes).1 := by
  unfold Step perform at h
  split at h
  · cases h
    rfl
  · cases h

theorem Step.building (h : Step hosts p i a p') :
    p'.building = (i.2.track p (Call.dispatch (transaction hosts i.1 i.2) p.sandboxes).1).building := by
  unfold Step perform at h
  split at h
  · cases h
    rfl
  · cases h

theorem Step.importing (h : Step hosts p i a p') :
    p'.importing = (i.2.track p (Call.dispatch (transaction hosts i.1 i.2) p.sandboxes).1).importing := by
  unfold Step perform at h
  split at h
  · cases h
    rfl
  · cases h

theorem Step.pending (h : Step hosts p i a p') : i.2.pending p = true := by
  unfold Step perform at h
  split at h
  · assumption
  · cases h

def attempt (hosts : String → HostSettings) (inputs : List (Outside × Act)) : History × Pool :=
  replay (perform hosts) {} inputs

theorem attempt_executes (hosts : String → HostSettings) (inputs : List (Outside × Act)) :
    Executes hosts (attempt hosts inputs).1 (attempt hosts inputs).2 := by
  apply replay_execution
  intro _ _ _ _ h
  exact h

section Example

def smallHost : HostSettings where
  approvedDigests := ["sha256:0123456789abcdef0123456789abcdef0123456789abcdef0123456789abcdef"]
  ceiling := { memoryMb := 256 }
  memoryBudgetMb := some 512

/-- Every lease holds, the daemon does what it is asked, and the Runs in `leased` have a live lease. -/
def calm (leased : List Uuid) : Outside where
  now := 0
  holds _ _ := true
  anyLive runId := leased.contains runId
  locked _ := false
  engine _ := .ok true

/-- Run `runId` asks for sandbox `100 + runId`. -/
def acquiring (runId : Uuid) : Act := .acquire "one" { runId, leaseId := runId } (100 + runId) (200 + runId)

def building (runId : Uuid) : Act := .built "one" { reservationId := 200 + runId, instanceId := 100 + runId, runId } "container"

def asking (runId : Uuid) : Caller := { runId, leaseId := runId, sandboxId := 100 + runId }

def crowded : List (Outside × Act) :=
  [(calm [1], acquiring 1), (calm [1], building 1), (calm [1], .freeze "one" (asking 1)), (calm [1], .keep "one" 1 101 100),
    (calm [1, 2], acquiring 2), (calm [1, 2], acquiring 3), (calm [2], acquiring 3)]

def brokenImport : List (Outside × Act) :=
  [(calm [1], acquiring 1), (calm [1], building 1), (calm [1], .freeze "one" (asking 1)),
    (calm [1], .workspaceImport "one" (asking 1) 10240), (calm [1], .importFailed "one" (asking 1) .streamAborted)]

def retiredImport : List (Outside × Act) :=
  [(calm [1], acquiring 1), (calm [1], building 1), (calm [1], .freeze "one" (asking 1)),
    (calm [1], .workspaceImport "one" (asking 1) 10240), (calm [1], .retireHost "one"),
    (calm [1], .importFailed "one" (asking 1) .streamAborted)]

end Example

end TinyHermes.Sandbox
