import TinyHermes.Lib.Execution
import TinyHermes.Sandbox.HostPool

/-! One sandbox host, statement by statement: the calls on it, its operator, the Scheduler, the leases and the Docker daemon in
any order. A transaction's writes are seen from its commit on; until then others wait for its rows. -/
namespace TinyHermes.Sandbox.HostSteps
open Lib Sandboxes SandboxReservation
open Runs (Uuid Time)

/-- A Run has one row, which each of its leases reuses. -/
structure WorkerLease where
  id : Uuid
  expiresAt : Time
  released : Bool
  deriving DecidableEq, Repr

structure Container where
  id : String
  instanceId : Uuid
  runId : Uuid
  deriving DecidableEq, Repr

structure Network where
  instanceId : Uuid
  runId : Uuid
  deriving DecidableEq, Repr

/-- What is on the host. A volume is named after its Run. -/
structure Docker where
  containers : List Container := []
  networks : List Network := []
  volumes : List Uuid := []
  /-- Every container there ever was. Docker gives no id twice. -/
  made : List Container := []

inductive DockerCall where
  | removeContainer (containerId : String)
  | removeNetwork (instanceId : Uuid)
  | removeVolume (runId : Uuid)
  | createVolume (runId : Uuid)
  | createNetwork (network : Network)
  | createContainer (container : Container)
  deriving DecidableEq, Repr

def Docker.run (d : Docker) : DockerCall → Docker
  | .removeContainer containerId => { d with containers := d.containers.filter fun c => c.id ≠ containerId }
  | .removeNetwork instanceId => { d with networks := d.networks.filter fun n => n.instanceId ≠ instanceId }
  | .removeVolume runId => { d with volumes := d.volumes.filter fun r => r ≠ runId }
  | .createVolume runId => { d with volumes := runId :: d.volumes }
  | .createNetwork network => { d with networks := network :: d.networks }
  | .createContainer container => { d with containers := container :: d.containers, made := container :: d.made }

/-! Statements. A row is loaded first, and of its columns only those that changed from what was loaded are written. -/

def column {α : Type} [DecidableEq α] (loaded new current : α) : α := if new = loaded then current else new

inductive Edit where
  | keep (idleExpiresAt : Time)
  | release
  deriving DecidableEq, Repr

def Edit.status : Edit → ReservationStatus
  | keep _ => .kept
  | release => .released

def Edit.idleExpiresAt : Edit → Option Time
  | keep idleExpiresAt => some idleExpiresAt
  | release => none

def Edit.isolationReason (loaded current : SandboxReservation) : Edit → Option String
  | keep _ => current.isolationReason
  | release => column loaded.isolationReason none current.isolationReason

/-- The row as it is after the statement, unless a check constraint refuses it. -/
def Edit.written (loaded current : SandboxReservation) (e : Edit) : Option SandboxReservation :=
  let status := column loaded.status e.status current.status
  let idleExpiresAt := column loaded.idleExpiresAt e.idleExpiresAt current.idleExpiresAt
  let isolationReason := e.isolationReason loaded current
  if h : (status = .kept ↔ idleExpiresAt.isSome = true) ∧ (status = .isolated ∨ isolationReason = none) then
    some { runId := current.runId, instanceId := current.instanceId, status, idleExpiresAt, isolationReason,
           keepDeadline := h.1, reasonIsolated := h.2 }
  else none

inductive InstanceEdit where
  | status (status : InstanceStatus)
  | complete (containerId : String)
  deriving DecidableEq, Repr

def InstanceEdit.written (loaded current : SandboxInstance) : InstanceEdit → SandboxInstance
  | .status marked => { current with status := column loaded.status marked current.status }
  | .complete containerId => { current with
      containerId := column loaded.containerId (some containerId) current.containerId
      status := column loaded.status .running current.status }

inductive Write where
  | reserve (reservationId runId instanceId : Uuid) (created : SandboxInstance)
  | claim (reservationId : Uuid) (loaded : SandboxReservation) (edit : Edit)
  | sandbox (instanceId : Uuid) (loaded : SandboxInstance) (edit : InstanceEdit)

/-- The rows a statement waits for, and keeps from others until its transaction ends. -/
inductive Row where
  | claim (reservationId : Uuid)
  | sandbox (instanceId : Uuid)
  | host
  deriving DecidableEq, Repr

def Write.row : Write → Row
  | .reserve reservationId _ _ _ => .claim reservationId
  | .claim reservationId _ _ => .claim reservationId
  | .sandbox instanceId _ _ => .sandbox instanceId

section Apply
variable (s : Sandboxes)

theorem exclusive_edit {s : Sandboxes} {k : Uuid} {row row' : SandboxReservation} (hrow : s.reservations.lookup k = some row)
    (hrun : row'.runId = row.runId) (hslot : row'.status.live = true → row.status.live = true ∨ liveForRun row.runId s = none) :
    Table.Exclusive Takes (s.reservations.modify k fun _ => row') := by
  apply s.liveRun.modify hrow
  rintro _ ⟨hlive, rfl⟩
  rcases hslot hlive with hold | hfree
  · exact .inl ⟨hold, hrun.symm⟩
  · refine .inr fun k' row'' _ hrow'' => ?_
    rw [hrun]
    exact liveForRun_none hfree hrow''

/-- Refused where it would give a Run a second live claim. -/
def editClaim (k : Uuid) (loaded : SandboxReservation) (edit : Edit) : Option Sandboxes :=
  match hrow : s.reservations.lookup k with
  | none => none
  | some row =>
    match edit.written loaded row with
    | none => none
    | some row' =>
      if h : row'.runId = row.runId ∧ (row'.status.live = true → row.status.live = true ∨ liveForRun row.runId s = none) then
        some { s with
          reservations := s.reservations.modify k fun _ => row'
          liveRun := exclusive_edit hrow h.1 h.2 }
      else none

def Write.apply : Write → Option Sandboxes
  | .reserve reservationId runId instanceId created =>
    match SqlSandboxStore.reserve reservationId runId instanceId created s with
    | .ok (_, s') => some s'
    | .error _ => none
  | .claim reservationId loaded edit => editClaim s reservationId loaded edit
  | .sandbox instanceId loaded edit =>
    some (SqlSandboxStore.updateInstance instanceId (fun current => edit.written loaded current) s)

def applyAll (s : Sandboxes) : List Write → Option Sandboxes
  | [] => some s
  | statement :: rest =>
    match statement.apply s with
    | some s' => applyAll s' rest
    | none => none

end Apply

/-- What an `acquire` asks for, and the ids that are drawn for it. -/
structure Acquiring where
  runId : Uuid
  leaseId : Uuid
  reservationId : Uuid
  instanceId : Uuid
  memoryMb : Nat
  containerId : String
  deriving DecidableEq, Repr

def Acquiring.container (a : Acquiring) : Container where
  id := a.containerId
  instanceId := a.instanceId
  runId := a.runId

def Acquiring.network (a : Acquiring) : Network where
  instanceId := a.instanceId
  runId := a.runId

abbrev Claim := Uuid × SandboxReservation

/-- A kept claim that is to be evicted, with its instance as it was read. -/
abbrev Candidate := Claim × SandboxInstance

/-- One statement or one call of the daemon, and what it leads to. -/
inductive Instr where
  /-- `_require_lease` -/
  | requireLease (runId leaseId : Uuid)
  /-- `any_live` refuses the Scheduler. -/
  | refuseLive (runId : Uuid)
  /-- `live_for_run` in front of `_remove`, `keep`, `freeze` and `thaw`. -/
  | claimToRemove (runId sandboxId : Uuid)
  | claimToKeep (runId sandboxId : Uuid) (idleExpiresAt : Time)
  | claimToPark (runId sandboxId : Uuid) (status : InstanceStatus)
  /-- `live_for_run_locked` -/
  | lockClaim (a : Acquiring)
  | deadline (a : Acquiring) (claim : Claim)
  | readWarm (a : Acquiring) (claim : Claim)
  | unpause (a : Acquiring) (claim : Claim) (containerId : String)
  | readToRemove (instanceId : Uuid)
  | readToPark (instanceId : Uuid) (status : InstanceStatus)
  | lockAdmission
  | judge (a : Acquiring)
  /-- The loop over the evictable keeps: what is left of them, and what was chosen. -/
  | consider (a : Acquiring) (left : List Claim) (chosen : List Candidate)
  | readCandidate (a : Acquiring) (claim : Claim) (left : List Claim) (chosen : List Candidate)
  | register (a : Acquiring)
  | commitBuild (a : Acquiring)
  | listInstance (instanceId : Uuid)
  | listRun (runId : Uuid)
  | listRunNetworks (runId : Uuid)
  | removeContainer (containerId : String)
  | removeNetwork (instanceId : Uuid)
  | removeVolume (runId : Uuid)
  | createVolume (runId : Uuid)
  | createNetwork (a : Acquiring)
  | createContainer (a : Acquiring)
  | load (reservationId : Uuid) (edit : Edit)
  | update (reservationId : Uuid) (loaded : SandboxReservation) (edit : Edit)
  | loadInstance (instanceId : Uuid) (edit : InstanceEdit)
  | updateInstance (instanceId : Uuid) (loaded : SandboxInstance) (edit : InstanceEdit)
  | commit
  | answer (a : Acquiring) (sandboxId : Uuid) (containerId : String)
  /-- `sweep` -/
  | listContainers
  | inspectContainer (found : Container)
  | listNetworks
  | inspectNetwork (found : Network)
  | listVolumes
  | inspectClaim (runId : Uuid)
  | inspectLease (runId : Uuid)
  /-- With the lease row the sweep saw. -/
  | reclaimVolume (runId : Uuid) (seen : Option WorkerLease)
  /-- `_set_state` -/
  | setState (state : HostState)
  /-- `_live_on`: the rows that are live, and then, row after row as they can be locked, those that still are. -/
  | selectLive (frees : Bool)
  | lockLive (frees : Bool) (left : List Uuid) (found : List Claim)

inductive Kind where
  | acquire (a : Acquiring)
  | keep (runId sandboxId : Uuid) (idleExpiresAt : Time)
  | freeze (runId leaseId sandboxId : Uuid)
  | thaw (runId leaseId sandboxId : Uuid)
  | destroy (runId leaseId sandboxId : Uuid)
  | cleanup (runId sandboxId : Uuid)
  | sweep
  | drain
  | activate
  | retire
  deriving DecidableEq, Repr

def Kind.code : Kind → List Instr
  | acquire a => [.requireLease a.runId a.leaseId, .lockClaim a]
  | keep runId sandboxId idleExpiresAt => [.claimToKeep runId sandboxId idleExpiresAt]
  | freeze runId leaseId sandboxId => [.requireLease runId leaseId, .claimToPark runId sandboxId .frozen]
  | thaw runId leaseId sandboxId => [.requireLease runId leaseId, .claimToPark runId sandboxId .running]
  | destroy runId leaseId sandboxId => [.requireLease runId leaseId, .claimToRemove runId sandboxId]
  | cleanup runId sandboxId => [.refuseLive runId, .claimToRemove runId sandboxId]
  | sweep => [.lockAdmission, .listContainers, .listNetworks, .listVolumes, .commit]
  | drain => [.setState .draining, .selectLive false, .commit]
  | activate => [.setState .active, .commit]
  | retire => [.setState .retired, .selectLive true, .commit]

section Code

/-- `_remove_container`, `_close_network` and the mark that both are gone. -/
def takeDown (instanceId : Uuid) (sandbox : SandboxInstance) : List Instr :=
  (match sandbox.containerId with
    | some containerId => .removeContainer containerId
    | none => .listInstance instanceId) :: [.removeNetwork instanceId, .loadInstance instanceId (.status .destroyed)]

def discard (claim : Claim) : List Instr := [.readToRemove claim.2.instanceId, .load claim.1 .release]

def evict (c : Candidate) : List Instr := takeDown c.1.2.instanceId c.2 ++ [.load c.1.1 .release]

/-- What a retirement does about a claim it holds the row of: nobody wrote that row since it was read. -/
def free (claim : Claim) : List Instr :=
  [.loadInstance claim.2.instanceId (.status .destroyed), .update claim.1 claim.2 .release]

def fresh (a : Acquiring) : List Instr := [.lockAdmission, .judge a]

/-- From the commit of the registration to the container, all inside the `try`. -/
def build (a : Acquiring) : List Instr :=
  [.listRun a.runId, .listRunNetworks a.runId, .removeVolume a.runId, .createVolume a.runId, .createNetwork a, .createContainer a]

/-- After the `try`. -/
def complete (a : Acquiring) : List Instr :=
  [.loadInstance a.instanceId (.complete a.containerId), .commit, .answer a a.instanceId a.containerId]

def abandon (a : Acquiring) : List Instr :=
  [.readToRemove a.instanceId, .removeVolume a.runId, .load a.reservationId .release, .commit]

end Code

/-- A call in flight: what it still has to do, what it wrote and the rows it keeps. -/
structure Call where
  kind : Kind
  /-- `now()` is the time its transaction began. -/
  began : Time
  code : List Instr
  writes : List Write := []
  locks : List Row := []
  /-- What it wrote to the row of the host. -/
  state : Option HostState := none

/-- An `acquire` returned this container to the slice that holds this lease. -/
structure Given where
  leaseId : Uuid
  runId : Uuid
  instanceId : Uuid
  containerId : String
  deriving DecidableEq, Repr

structure World where
  host : String
  networking : Bool := true
  state : HostState := .active
  /-- A retirement has committed, and no activation since. -/
  gone : Bool := false
  now : Time := 0
  leases : Table Uuid WorkerLease := ∅
  sandboxes : Sandboxes := .empty
  docker : Docker := {}
  admission : Option Nat := none
  calls : Table Nat Call := ∅
  /-- The Run and the sandbox of the claims the Scheduler found expired or isolated. -/
  doomed : List (Uuid × Uuid) := []
  given : List Given := []
  /-- The instance ids drawn so far, and the lease ids drawn or presented. -/
  drawn : List Uuid := []
  leased : List Uuid := []

def WorkerLease.liveAt (lease : WorkerLease) (t : Time) : Bool := !lease.released && decide (t < lease.expiresAt)

namespace World
variable (w : World)

/-- `SqlLeaseAuthority.any_live` and `holds`, in a transaction that began at `began`. -/
def anyLive (began : Time) (runId : Uuid) : Bool := (w.leases.lookup runId).any (·.liveAt began)

def holds (began : Time) (runId leaseId : Uuid) : Bool :=
  (w.leases.lookup runId).any fun lease => lease.id = leaseId && lease.liveAt began

def leaseLive (runId leaseId : Uuid) : Bool := w.holds w.now runId leaseId

/-- The rows as a call sees them: what was committed, and its own statements. -/
def view (c : Call) : Sandboxes := (applyAll w.sandboxes c.writes).getD w.sandboxes

def lockedBeside (n : Nat) (row : Row) : Bool := w.calls.entries.any fun e => e.1 ≠ n && e.2.locks.contains row

/-- `_recorded` -/
def recorded (s : Sandboxes) (found : Container) : Bool :=
  (s.instances.lookup found.instanceId).any fun sandbox =>
    sandbox.status ≠ .destroyed && (sandbox.status = .creating || sandbox.containerId = some found.id)

/-- `_network_recorded` -/
def networkRecorded (s : Sandboxes) (found : Network) : Bool :=
  (s.instances.lookup found.instanceId).any fun sandbox => sandbox.status ≠ .destroyed

def put (n : Nat) (c : Call) : World :=
  { w with calls := if c.code = [] then w.calls.erase n else w.calls.insert n c }

/-- The admission lock once `n`'s transaction ended. -/
def unlock (n : Nat) : Option Nat := if w.admission = some n then none else w.admission

end World

/-- What is left open of a statement's outcome: admission's arithmetic, and whether the daemon succeeds. -/
inductive Verdict where
  | on | enough | refused
  deriving DecidableEq, Repr

/-- What a statement does to the host, and what its call does next. -/
inductive Move where
  | go (next : List Instr)
  | lock (rows : List Row) (next : List Instr)
  | lockAdmission
  | docker (call : DockerCall) (next : List Instr)
  | dockerFails (call : DockerCall)
  | write (statement : Write) (next : List Instr)
  | state (state : HostState) (next : List Instr)
  | commit (next : List Instr)
  | give (given : Given)
  /-- A refusal: committed, and the call is over. -/
  | stop
  /-- An exception. -/
  | raise

def liveOn (host : String) (s : Sandboxes) : List Claim :=
  s.reservations.select fun _ row =>
    row.status.live && (s.instances.lookup row.instanceId).any fun sandbox => sandbox.controller = host

namespace Instr
variable (w : World) (n : Nat) (c : Call) (v : Verdict)

def claimed (runId sandboxId : Uuid) (next : Uuid → List Instr) : Move :=
  match liveForRun runId w.sandboxes with
  | some found => if found.2.instanceId = sandboxId then .go (next found.1) else .stop
  | none => .stop

def move : Instr → Option Move
  | requireLease runId leaseId => some (if w.holds c.began runId leaseId then .go [] else .stop)
  | refuseLive runId => some (if w.anyLive c.began runId then .stop else .go [])
  | claimToRemove runId sandboxId => some (claimed w runId sandboxId fun k =>
      [.readToRemove sandboxId, .load k .release, .removeVolume runId, .commit])
  | claimToKeep runId sandboxId idleExpiresAt => some (claimed w runId sandboxId fun k => [.load k (.keep idleExpiresAt), .commit])
  | claimToPark runId sandboxId status => some (claimed w runId sandboxId fun _ => [.readToPark sandboxId status])
  | lockClaim a =>
    match liveForRun a.runId w.sandboxes with
    | none => some (.go (fresh a))
    | some claim => if w.lockedBeside n (.claim claim.1) then none else some (.lock [.claim claim.1] [.deadline a claim])
  | deadline a claim => some (
      if claim.2.status ≠ .kept then .stop
      else if ∀ t ∈ claim.2.idleExpiresAt, t ≤ w.now then .go (discard claim ++ fresh a)
      else .go [.readWarm a claim])
  | readWarm a claim => some (
      match (w.view c).instances.lookup claim.2.instanceId with
      | none => .go (discard claim ++ fresh a)
      | some sandbox =>
        match sandbox.containerId with
        | none => .stop
        | some containerId => .go [.unpause a claim containerId])
  | unpause a claim containerId => some (
      if w.docker.containers.any (·.id = containerId) then
        .go [.loadInstance claim.2.instanceId (.status .running), .commit, .answer a claim.2.instanceId containerId]
      else .go (discard claim ++ fresh a))
  | readToRemove instanceId => some (
      match (w.view c).instances.lookup instanceId with
      | none => .go []
      | some sandbox => .go (takeDown instanceId sandbox))
  | readToPark instanceId status => some (
      match (w.view c).instances.lookup instanceId with
      | none => .stop
      | some sandbox =>
        if (status = .frozen → sandbox.status = .running) ∧ sandbox.containerId.isSome = true then
          .go [.loadInstance instanceId (.status status), .commit]
        else .stop)
  | lockAdmission => if w.admission.all (· = n) then some .lockAdmission else none
  | judge a => some (
      match v with
      | .enough => .go [.register a]
      | .refused => .stop
      | .on =>
        let found := evictableKeeps w.host (fun k => w.lockedBeside n (.claim k)) (w.view c)
        .lock (found.map fun claim => .claim claim.1) [.consider a found []])
  | consider a left chosen => some (
      match v, left with
      | .enough, _ => .go (chosen.flatMap evict ++ [.register a])
      | .on, claim :: rest =>
        if w.anyLive c.began claim.2.runId then .go [.consider a rest chosen] else .go [.readCandidate a claim rest chosen]
      | _, _ => .stop)
  | readCandidate a claim left chosen => some (
      match (w.view c).instances.lookup claim.2.instanceId with
      | none => .go [.consider a left chosen]
      | some sandbox => .go [.consider a left (chosen ++ [(claim, sandbox)])])
  | register a =>
    if w.lockedBeside n (.claim a.reservationId) then none
    else some (.write (.reserve a.reservationId a.runId a.instanceId
      { status := .creating, memoryMb := a.memoryMb, controller := w.host }) [.commitBuild a])
  | commitBuild a => some (.commit (build a))
  | listInstance instanceId => some (.go ((w.docker.containers.filter fun d => d.instanceId = instanceId).map fun d => .removeContainer d.id))
  | listRun runId => some (.go ((w.docker.containers.filter fun d => d.runId = runId).map fun d => .removeContainer d.id))
  | listRunNetworks runId =>
    some (.go ((w.docker.networks.filter fun d => d.runId = runId).map fun d => .removeNetwork d.instanceId))
  | removeContainer containerId => some (.docker (.removeContainer containerId) [])
  | removeNetwork instanceId => some (if w.networking then .docker (.removeNetwork instanceId) [] else .go [])
  | removeVolume runId => some (.docker (.removeVolume runId) [])
  | createVolume runId => some (.docker (.createVolume runId) [])
  | createNetwork a => some (if w.networking then .docker (.createNetwork a.network) [] else .go [])
  | createContainer a =>
    if w.docker.made.any (·.id = a.containerId) then none
    else
      match v with
      | .refused => some (.dockerFails (.createContainer a.container))
      | _ => some (.docker (.createContainer a.container) (complete a))
  | load reservationId edit => some (
      match (w.view c).reservations.lookup reservationId with
      | none => .raise
      | some row => .go [.update reservationId row edit])
  | update reservationId loaded edit =>
    if w.lockedBeside n (.claim reservationId) then none else some (.write (.claim reservationId loaded edit) [])
  | loadInstance instanceId edit => some (
      match (w.view c).instances.lookup instanceId with
      | none => .raise
      | some sandbox => .go [.updateInstance instanceId sandbox edit])
  | updateInstance instanceId loaded edit =>
    if w.lockedBeside n (.sandbox instanceId) then none else some (.write (.sandbox instanceId loaded edit) [])
  | commit => some (.commit [])
  | answer a sandboxId containerId =>
    some (.give { leaseId := a.leaseId, runId := a.runId, instanceId := sandboxId, containerId })
  | listContainers => some (.go (w.docker.containers.map .inspectContainer))
  | inspectContainer found => some (.go (if World.recorded (w.view c) found then [] else [.removeContainer found.id]))
  | listNetworks => some (.go (if w.networking then w.docker.networks.map .inspectNetwork else []))
  | inspectNetwork found => some (.go (if World.networkRecorded (w.view c) found then [] else [.removeNetwork found.instanceId]))
  | listVolumes => some (.go (w.docker.volumes.map .inspectClaim))
  | inspectClaim runId => some (.go (if (liveForRun runId w.sandboxes).isSome then [] else [.inspectLease runId]))
  | inspectLease runId =>
    some (.go (if w.anyLive c.began runId then [] else [.reclaimVolume runId (w.leases.lookup runId)]))
  | reclaimVolume runId _ =>
    match v with
    | .refused => some (.go [])
    | _ => some (.docker (.removeVolume runId) [])
  | setState state => if w.lockedBeside n .host then none else some (.state state [])
  | selectLive frees => some (.go [.lockLive frees ((liveOn w.host w.sandboxes).map (·.1)) []])
  | lockLive frees left found =>
    match left with
    | [] => some (.go (if frees then found.flatMap free else []))
    | k :: rest =>
      if w.lockedBeside n (.claim k) then none
      else
        match w.sandboxes.reservations.lookup k with
        | none => some (.go [.lockLive frees rest found])
        | some row =>
          if row.status.live then some (.lock [.claim k] [.lockLive frees rest (found ++ [(k, row)])])
          else some (.go [.lockLive frees rest found])

end Instr

/-- The build inside whose `try` a call is. -/
def Call.building (c : Call) : Option Acquiring :=
  c.code.findSome? fun | .createContainer a => some a | _ => none

namespace World
variable (w : World)

def drop (n : Nat) : World := { w with calls := w.calls.erase n, admission := w.unlock n }

/-- Rolled back. A build that failed is abandoned before its failure is raised. -/
def raised (n : Nat) (c : Call) : World :=
  match c.building with
  | some a =>
    { w with admission := w.unlock n }.put n { c with code := abandon a, writes := [], locks := [], state := none }
  | none => w.drop n

def committed (n : Nat) (c : Call) (code : List Instr) : World :=
  match applyAll w.sandboxes c.writes with
  | some s =>
    { w with
      sandboxes := s
      admission := w.unlock n
      state := c.state.getD w.state
      gone := c.kind = Kind.retire || (w.gone && c.kind ≠ Kind.activate)
    }.put n { c with code, writes := [], locks := [], state := none }
  | none => w.raised n c

/-- What is left of a call's code after its first statement. -/
def moved (n : Nat) (c : Call) (rest : List Instr) : Move → World
  | .go next => w.put n { c with code := next ++ rest }
  | .lock rows next => w.put n { c with code := next ++ rest, locks := rows ++ c.locks }
  | .lockAdmission => { w with admission := some n }.put n { c with code := rest }
  | .docker call next => { w with docker := w.docker.run call }.put n { c with code := next ++ rest }
  | .dockerFails call => { w with docker := w.docker.run call }.raised n c
  | .write statement next =>
    match applyAll w.sandboxes (c.writes ++ [statement]) with
    | some _ => w.put n { c with code := next ++ rest, writes := c.writes ++ [statement], locks := statement.row :: c.locks }
    | none => w.raised n c
  | .state state next => w.put n { c with code := next ++ rest, locks := .host :: c.locks, state := some state }
  | .commit next => w.committed n c (next ++ rest)
  | .give given => { w with given := given :: w.given }.put n { c with code := rest }
  | .stop => w.committed n c []
  | .raise => w.raised n c

end World

inductive Input where
  | tick (now : Time)
  /-- The commit of a Worker's claim of the Run, of a heartbeat, and of whatever ends the lease. -/
  | claimLease (runId leaseId : Uuid) (expiresAt : Time)
  | renewLease (runId leaseId : Uuid) (expiresAt : Time)
  | releaseLease (runId leaseId : Uuid)
  /-- The Scheduler finds a keep past its deadline or an isolated claim. -/
  | doom (reservationId : Uuid)
  | isolate (reservationId : Uuid) (reason : String)
  | call (n : Nat) (kind : Kind)
  /-- Call `n` makes its next statement. -/
  | run (n : Nat) (verdict : Verdict)
  | fail (n : Nat)
  | crash (n : Nat)

/-- What the Scheduler cleans up it has found before, and no instance id is drawn twice. -/
def Kind.callable (w : World) : Kind → Bool
  | cleanup runId sandboxId => w.doomed.contains (runId, sandboxId)
  | acquire a => !w.drawn.contains a.instanceId
  | _ => true

def Kind.draws : Kind → List Uuid
  | acquire a => [a.instanceId]
  | _ => []

def Kind.leases : Kind → List Uuid
  | acquire a => [a.leaseId]
  | freeze _ leaseId _ | thaw _ leaseId _ | destroy _ leaseId _ => [leaseId]
  | keep _ _ _ | cleanup _ _ | sweep | drain | activate | retire => []

def expired (now : Time) (row : SandboxReservation) : Bool :=
  row.status = .isolated || (row.status = .kept && row.idleExpiresAt.all fun t => t ≤ now)

def perform (w : World) : Input → Option World
  | .tick now => if w.now ≤ now then some { w with now } else none
  | .claimLease runId leaseId expiresAt =>
    if w.anyLive w.now runId || w.leased.contains leaseId then none
    else some { w with
      leases := w.leases.insert runId { id := leaseId, expiresAt, released := false }, leased := leaseId :: w.leased }
  | .renewLease runId leaseId expiresAt =>
    match w.leases.lookup runId with
    | some lease =>
      if lease.id = leaseId && !lease.released then some { w with leases := w.leases.insert runId { lease with expiresAt } }
      else none
    | none => none
  | .releaseLease runId leaseId =>
    match w.leases.lookup runId with
    | some lease =>
      if lease.id = leaseId then some { w with leases := w.leases.insert runId { lease with released := true } } else none
    | none => none
  | .doom reservationId =>
    match w.sandboxes.reservations.lookup reservationId with
    | some row => if expired w.now row then some { w with doomed := (row.runId, row.instanceId) :: w.doomed } else none
    | none => none
  | .isolate reservationId reason =>
    if w.calls.entries.any fun e => e.2.locks.contains (.claim reservationId) then none
    else
      match SqlSandboxStore.isolate reservationId reason w.sandboxes with
      | .ok (_, s) => some { w with sandboxes := s }
      | .error _ => none
  | .call n kind =>
    if w.calls.lookup n = none ∧ kind.callable w then
      some { w with
        calls := w.calls.insert n { kind, began := w.now, code := kind.code }
        drawn := kind.draws ++ w.drawn
        leased := kind.leases ++ w.leased }
    else none
  | .run n v =>
    match w.calls.lookup n with
    | some c =>
      match c.code with
      | [] => none
      | instr :: rest => (instr.move w n c v).map (w.moved n c rest)
    | none => none
  | .fail n =>
    match w.calls.lookup n with
    | some c => some (w.raised n c)
    | none => none
  | .crash n =>
    match w.calls.lookup n with
    | some _ => some (w.drop n)
    | none => none

def Step (w : World) (i : Input) (_ : Unit) (w' : World) : Prop := perform w i = some w'

abbrev History := List (Commit World Input Unit)

/-- The runs of a host, from an empty database and an empty daemon. -/
abbrev Executes (host : String) (networking : Bool) (log : History) (w : World) : Prop :=
  Execution Step { host, networking } log w

def attempt (host : String) (inputs : List Input) : History × World :=
  replay (fun w i => (perform w i).map fun w' => ((), w')) { host } inputs

theorem attempt_executes (host : String) (inputs : List Input) :
    Executes host true (attempt host inputs).1 (attempt host inputs).2 := by
  apply replay_execution
  intro _ _ _ _ h
  obtain ⟨_, hw₁, heq⟩ := Option.map_eq_some_iff.mp h
  cases heq
  exact hw₁

end TinyHermes.Sandbox.HostSteps
