import TinyHermes.Lib.Refusals
import TinyHermes.Sandbox.Store

/-! Who may do what to which container: `SandboxController`. -/
namespace TinyHermes.Sandbox
open Lib Sandboxes
open Runs (Uuid Time)

inductive RefusalReason where
  | noReservation | reservationNotOwned | alreadyReserved | leaseInvalid | leaseStillLive | reservationStillLive
  | notRunning | notFrozen | instanceDirty | imageNotApproved | memoryBudgetExhausted | memoryOutOfRange
  | networkPoolExhausted | reservationElsewhere | workingDirectoryNotAllowed
  deriving DecidableEq, Repr

structure ResourceProfile where
  name : String := "default"
  cpus : ℚ := 1
  memoryMb : Nat := 1024
  pidsLimit : Nat := 128
  cacheMb : Nat := 512
  cacheInodes : Nat := 200000
  tmpMb : Nat := 256

def ResourceProfile.exceeds (p ceiling : ResourceProfile) : Prop :=
  p.cpus > ceiling.cpus ∨ p.memoryMb > ceiling.memoryMb ∨ p.pidsLimit > ceiling.pidsLimit ∨ p.cacheMb > ceiling.cacheMb ∨
    p.cacheInodes > ceiling.cacheInodes ∨ p.tmpMb > ceiling.tmpMb

instance (p ceiling : ResourceProfile) : Decidable (p.exceeds ceiling) :=
  inferInstanceAs (Decidable (p.cpus > ceiling.cpus ∨ p.memoryMb > ceiling.memoryMb ∨ p.pidsLimit > ceiling.pidsLimit ∨
    p.cacheMb > ceiling.cacheMb ∨ p.cacheInodes > ceiling.cacheInodes ∨ p.tmpMb > ceiling.tmpMb))

def minSandboxMemoryMb : Nat := 256

def digestPrefix : List Char := "sha256:".toList

/-- A bare image id, or what follows the last `@` of a pulled one. -/
def isDigest (value : String) : Bool :=
  let digest := (value.toList.splitOn '@').getLastD []
  digestPrefix.isPrefixOf digest && digest.length = digestPrefix.length + 64 &&
    (digest.drop digestPrefix.length).all fun c => "0123456789abcdef".toList.contains c

/-- `ALLOWED_WORKING_DIRECTORIES`. -/
def allowedWorkingDirectories : List (List Char) := ["/workspace/data".toList, "/workspace/cache".toList]

/-- Compared after normalizing, so `..` cannot walk out of an allowed root. -/
def insideWorkspace (cwd : String) : Bool :=
  let parts := (cwd.toList.splitOn '/').foldl (fun parts piece =>
    if piece = [] ∨ piece = ['.'] then parts else if piece = ['.', '.'] then parts.dropLast else parts ++ [piece]) []
  let resolved := '/' :: List.intercalate ['/'] parts
  allowedWorkingDirectories.any fun allowed => resolved = allowed || (allowed ++ ['/']).isPrefixOf resolved

inductive EngineCall where
  | removeIfPresent (containerId : String)
  | removeLabelled (instanceId : Uuid)
  | removeNetworkIfPresent (instanceId : Uuid)
  | removeVolumeIfPresent (runId : Uuid)
  | pause (containerId : String)
  | unpause (containerId : String)
  | unpauseIfPresent (containerId : String)
  | addressOf (containerId : String)
  | execute (containerId : String)
  | scanTree (containerId : String)

/-- What is not the sandbox tables' while a call runs: the clock, the lease authority, the rows other transactions
hold, and the daemon. -/
structure Outside where
  now : Time
  holds : Uuid → Uuid → Bool
  anyLive : Uuid → Bool
  locked : Uuid → Bool
  engine : EngineCall → Except Fault Bool

structure HostSettings where
  approvedDigests : List String
  /-- The default profile, so its memory is the size of an Agent that declares none. -/
  ceiling : ResourceProfile := {}
  /-- None admits without counting. -/
  memoryBudgetMb : Option Nat
  memoryCeilingMb : Nat := 1024
  networking : Bool := false

structure SandboxController extends HostSettings where
  name : String

/-- A registered instance whose container is still to be built. -/
structure Build where
  reservationId : Uuid
  instanceId : Uuid
  runId : Uuid
  deriving DecidableEq, Repr

inductive Acquired where
  | reused (sandboxId : Uuid)
  /-- The registration is committed here, before Docker builds the container. -/
  | registered (build : Build)
  deriving DecidableEq, Repr

structure AcquireCommand where
  runId : Uuid
  leaseId : Uuid
  profile : String := "default"
  memoryMb : Option Int := none

abbrev SandboxCall := Call Sandboxes Fault RefusalReason

namespace SandboxController
open SqlSandboxStore Call
variable (self : SandboxController) (outside : Outside)

def ask (call : EngineCall) : SandboxTx Bool := Tx.lift (outside.engine call)

def removeContainer (instanceId : Uuid) (sandbox : SandboxInstance) : SandboxTx Unit := do
  match sandbox.containerId with
  | some containerId => let _ ← ask outside (.removeIfPresent containerId)
  | none => let _ ← ask outside (.removeLabelled instanceId)

def closeNetwork (instanceId : Uuid) : SandboxTx Unit :=
  Tx.onlyIf self.networking do let _ ← ask outside (.removeNetworkIfPresent instanceId)

def takeDown (instanceId : Uuid) (sandbox : SandboxInstance) : SandboxTx Unit := do
  removeContainer outside instanceId sandbox
  closeNetwork self outside instanceId
  setInstanceStatus instanceId .destroyed

def takeDownIfThere (instanceId : Uuid) : SandboxTx Unit := do
  let s ← get
  match readInstance instanceId s with
  | some sandbox => takeDown self outside instanceId sandbox
  | none => pure ()

def discard (claim : Uuid × SandboxReservation) : SandboxTx Unit := do
  takeDownIfThere self outside claim.2.instanceId
  release claim.1

def evict (claim : Uuid × SandboxReservation) (sandbox : SandboxInstance) : SandboxTx Unit := do
  takeDown self outside claim.2.instanceId sandbox
  release claim.1
  record { action := .evict, runId := claim.2.runId, sandboxId := claim.2.instanceId }

abbrev Candidate := (Uuid × SandboxReservation) × SandboxInstance

/-- The loop over the evictable keeps, with what was chosen so far and what that frees. -/
def choose (s : Sandboxes) (shortfall : Nat) :
    List (Uuid × SandboxReservation) → List Candidate → Nat → List Candidate × Nat
  | [], chosen, freed => (chosen, freed)
  | claim :: rest, chosen, freed =>
    if shortfall ≤ freed then (chosen, freed)
    else if outside.anyLive claim.2.runId then choose s shortfall rest chosen freed
    else
      match readInstance claim.2.instanceId s with
      | none => choose s shortfall rest chosen freed
      | some sandbox => choose s shortfall rest (chosen ++ [(claim, sandbox)]) (freed + sandbox.memoryMb)

/-- Make room for `neededMb` within the budget, or refuse. The admission lock is held until the commit, so this and the
registration are one step. -/
def admitMemory (neededMb : Nat) : SandboxCall Unit := do
  match self.memoryBudgetMb with
  | none => pure ()
  | some budget =>
    demand (neededMb ≤ budget) .memoryOutOfRange
    let s ← read
    let shortfall := committedMemoryMb self.name s + neededMb - budget
    if shortfall = 0 then pure ()
    else
      let found := choose outside s shortfall (evictableKeeps self.name outside.locked s) [] 0
      demand (shortfall ≤ found.2) .memoryBudgetExhausted
      tx (Tx.forEach found.1 fun c => evict self outside c.1 c.2)

def requireLease (runId leaseId : Uuid) : SandboxCall Unit := demand (outside.holds runId leaseId) .leaseInvalid

def here (sandbox : Option SandboxInstance) : Prop := ∀ i ∈ sandbox, i.controller = self.name

instance (sandbox : Option SandboxInstance) : Decidable (self.here sandbox) :=
  inferInstanceAs (Decidable (∀ i ∈ sandbox, i.controller = self.name))

def refuseElsewhere (sandbox : Option SandboxInstance) : SandboxCall Unit := demand (self.here sandbox) .reservationElsewhere

def claim (runId sandboxId : Uuid) : SandboxCall (Uuid × Option SandboxInstance) := do
  let found ← find (liveForRun runId) .noReservation
  demand (found.2.instanceId = sandboxId) .reservationNotOwned
  let s ← read
  refuseElsewhere self (readInstance sandboxId s)
  pure (found.1, readInstance sandboxId s)

def requireOwned (runId sandboxId : Uuid) : SandboxCall SandboxInstance := do
  let (_, sandbox) ← claim self runId sandboxId
  match sandbox with
  | some sandbox => pure sandbox
  | none => refuse .noReservation

def requireRunning (runId sandboxId : Uuid) : SandboxCall SandboxInstance := do
  let sandbox ← requireOwned self runId sandboxId
  demand (sandbox.status = .running) .notRunning
  pure sandbox

def requireFrozen (runId sandboxId : Uuid) : SandboxCall SandboxInstance := do
  let sandbox ← requireOwned self runId sandboxId
  demand (sandbox.status ≠ .isolated) .instanceDirty
  demand (sandbox.status = .frozen) .notFrozen
  pure sandbox

/-- `_container`: only a `creating` instance has none. -/
def container (sandbox : SandboxInstance) : SandboxCall String :=
  match sandbox.containerId with
  | some containerId => pure containerId
  | none => refuse .notRunning

def registerAddress (containerId : String) : SandboxTx Unit := do let _ ← ask outside (.addressOf containerId)

/-- This Run's own frozen instance, if its deadline has not passed and its container is still there. -/
def thawIfWarm (existing : SandboxReservation) : SandboxCall (Option Uuid) := do
  demand (existing.status = .kept) .alreadyReserved
  if ∀ deadline ∈ existing.idleExpiresAt, deadline ≤ outside.now then return none
  let s ← read
  match readInstance existing.instanceId s with
  | none => pure none
  | some sandbox =>
    let containerId ← container sandbox
    let found ← tx (ask outside (.unpauseIfPresent containerId))
    if found then
      tx (setInstanceStatus existing.instanceId .running)
      tx (registerAddress outside containerId)
      pure (some existing.instanceId)
    else pure none

/-- `_digest`. -/
def digest : String := self.approvedDigests.headD ""

def chosenProfile (cmd : AcquireCommand) : SandboxCall ResourceProfile := do
  demand (cmd.profile = "default") .imageNotApproved
  match cmd.memoryMb with
  | none => pure { self.ceiling with name := "default" }
  | some memoryMb =>
    demand (minSandboxMemoryMb ≤ memoryMb ∧ memoryMb ≤ self.memoryCeilingMb) .memoryOutOfRange
    pure { self.ceiling with name := "default", memoryMb := memoryMb.toNat }

/-- `acquire` from where the Run has no claim on: count, make room and register a new instance. -/
def register (cmd : AcquireCommand) (instanceId reservationId : Uuid) : SandboxCall Acquired := do
  let chosen ← chosenProfile self cmd
  demand (isDigest self.digest ∧ self.digest ∈ self.approvedDigests) .imageNotApproved
  demand (¬ chosen.exceeds { self.ceiling with memoryMb := self.memoryCeilingMb }) .imageNotApproved
  admitMemory self outside chosen.memoryMb
  tx (reserve reservationId cmd.runId instanceId
    { status := .creating, memoryMb := chosen.memoryMb, controller := self.name })
  pure (.registered { reservationId, instanceId, runId := cmd.runId })

/-- `acquire` up to its first commit. -/
def acquire (cmd : AcquireCommand) (instanceId reservationId : Uuid) : SandboxCall Acquired := do
  requireLease outside cmd.runId cmd.leaseId
  let s ← read
  match liveForRun cmd.runId s with
  | none => register self outside cmd instanceId reservationId
  | some existing =>
    refuseElsewhere self (readInstance existing.2.instanceId s)
    match ← thawIfWarm outside existing.2 with
    | some sandboxId => pure (.reused sandboxId)
    | none =>
      tx (discard self outside existing)
      register self outside cmd instanceId reservationId

/-- `acquire` after a container was built. -/
def completeBuild (build : Build) (containerId : String) : SandboxTx Unit := do
  completeInstance build.instanceId containerId
  registerAddress outside containerId

/-- Undo a build that failed: whatever got made, and the registration. -/
def abandon (build : Build) : SandboxTx Unit := do
  takeDownIfThere self outside build.instanceId
  let _ ← ask outside (.removeVolumeIfPresent build.runId)
  release build.reservationId

structure Caller where
  runId : Uuid
  leaseId : Uuid
  sandboxId : Uuid
  deriving DecidableEq, Repr

variable (caller : Caller)

def executeStream (cwd : String) : SandboxCall String := do
  requireLease outside caller.runId caller.leaseId
  let sandbox ← requireRunning self caller.runId caller.sandboxId
  demand (insideWorkspace cwd) .workingDirectoryNotAllowed
  container sandbox

/-- The same checks as `executeStream`, and the command run. -/
def execute (cwd : String) : SandboxCall String := do
  let containerId ← executeStream self outside caller cwd
  let _ ← tx (ask outside (.execute containerId))
  pure containerId

def workspaceExport : SandboxCall String := do
  requireLease outside caller.runId caller.leaseId
  let sandbox ← requireFrozen self caller.runId caller.sandboxId
  container sandbox

def workspaceScan : SandboxCall String := do
  let containerId ← workspaceExport self outside caller
  let _ ← tx (ask outside (.scanTree containerId))
  pure containerId

def workspaceImport (declaredTotal : Int) : SandboxCall String := do
  requireLease outside caller.runId caller.leaseId
  let sandbox ← requireFrozen self caller.runId caller.sandboxId
  demand (0 ≤ declaredTotal) .workingDirectoryNotAllowed
  container sandbox

/-- An interrupted import leaves a tree nobody can vouch for. -/
def workspaceImportFailed (runId sandboxId : Uuid) : SandboxCall Unit := do
  let (reservationId, _) ← claim self runId sandboxId
  tx (setInstanceStatus sandboxId .isolated)
  tx (isolate reservationId "import_interrupted")
  tx (record { action := .importFailed, runId, sandboxId })

def volumeRemove (runId sandboxId : Uuid) : SandboxCall Unit := do
  demand (¬ outside.anyLive runId) .leaseStillLive
  let s ← read
  match liveForRun runId s with
  | none => pure ()
  | some found =>
    demand (found.2.instanceId = sandboxId) .reservationNotOwned
    refuseElsewhere self (readInstance found.2.instanceId s)
    demand (found.2.status = .isolated) .reservationStillLive
  let _ ← tx (ask outside (.removeVolumeIfPresent runId))
  tx (record { action := .volumeRemove, runId, sandboxId })

def freeze : SandboxCall Unit := do
  requireLease outside caller.runId caller.leaseId
  let sandbox ← requireRunning self caller.runId caller.sandboxId
  let containerId ← container sandbox
  let _ ← tx (ask outside (.pause containerId))
  tx (setInstanceStatus caller.sandboxId .frozen)

def thaw : SandboxCall Unit := do
  requireLease outside caller.runId caller.leaseId
  let sandbox ← requireOwned self caller.runId caller.sandboxId
  let containerId ← container sandbox
  let _ ← tx (ask outside (.unpause containerId))
  tx (setInstanceStatus caller.sandboxId .running)
  tx (registerAddress outside containerId)

def remove (runId sandboxId : Uuid) : SandboxCall Unit := do
  let (reservationId, _) ← claim self runId sandboxId
  tx (takeDownIfThere self outside sandboxId)
  tx (release reservationId)
  let _ ← tx (ask outside (.removeVolumeIfPresent runId))
  tx (record { action := .volumeRemove, runId, sandboxId })

def destroy : SandboxCall Unit := do
  requireLease outside caller.runId caller.leaseId
  remove self outside caller.runId caller.sandboxId

/-- Hold a frozen instance warm for this Run's next slice. -/
def keep (runId sandboxId : Uuid) (idleExpiresAt : Time) : SandboxCall Unit := do
  let (reservationId, _) ← claim self runId sandboxId
  tx (SqlSandboxStore.keep reservationId idleExpiresAt)

def cleanup (runId sandboxId : Uuid) : SandboxCall Unit := do
  demand (¬ outside.anyLive runId) .leaseStillLive
  remove self outside runId sandboxId
  tx (record { action := .cleanup, runId, sandboxId })

end SandboxController
end TinyHermes.Sandbox
