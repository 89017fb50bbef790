import TinyHermes.Lib.Text
import TinyHermes.Runs.ApprovalDecisions
import TinyHermes.Skills.Effects

/-! The memories, the commands on one of them, and a session on them as the ORM keeps it. -/
namespace TinyHermes.Memory
open Lib Runs Runs.ApprovalDecisions
open Skills (getRow keepRow)

inductive MemoryKind where
  /-- one subject's own -/
  | ofSubject
  | shared
  deriving DecidableEq, Repr

inductive MemoryStatus where
  | pending | active | rejected
  deriving DecidableEq, Repr

structure MemoryRow where
  workspaceId : Uuid
  agentId : Uuid
  kind : MemoryKind
  subject : Option CallerIdentity
  body : String
  status : MemoryStatus
  origin : String
  originRunId : Option Uuid
  /-- the `corrects` of its context -/
  corrects : Option Uuid
  createdAt : Time
  updatedAt : Time
  deriving DecidableEq, Repr

inductive MemoryAction where
  /-- `memory.active` or `memory.rejected` -/
  | decided (status : MemoryStatus)
  | corrected
  | forgotten
  /-- `subject.acted_on_behalf` -/
  | actedOnBehalf
  deriving DecidableEq, Repr

structure AuditEventRow where
  workspaceId : Uuid
  actorType : CallerType
  actorId : Uuid
  action : MemoryAction
  resourceId : Uuid
  deriving DecidableEq, Repr

structure Database where
  memories : Table Uuid MemoryRow
  audit : List AuditEventRow

section Writing

inductive Write where
  | insert (id : Uuid) (row : MemoryRow)
  /-- `updated_at` and, where it changes, the status -/
  | update (id : Uuid) (moved : Option MemoryStatus) (updatedAt : Time)
  | append (event : AuditEventRow)
  deriving DecidableEq, Repr

def MemoryRow.move (row : MemoryRow) (moved : Option MemoryStatus) (updatedAt : Time) : MemoryRow :=
  { row with status := moved.getD row.status, updatedAt }

def Database.apply (db : Database) : Write → Database
  | .insert id row => { db with memories := db.memories.insert id row }
  | .update id moved updatedAt => { db with memories := db.memories.modify id fun row => row.move moved updatedAt }
  | .append event => { db with audit := db.audit ++ [event] }

def Database.applyAll (db : Database) (writes : List Write) : Database := writes.foldl Database.apply db

def Write.locks : Write → List Uuid
  | .insert id _ => [id]
  | .update id _ _ => [id]
  | .append _ => []

end Writing

section Sessions

/-- An ORM session: the objects it has loaded, as it has them, and what it has written. -/
structure Session where
  memories : Table Uuid MemoryRow
  writes : List Write

def Session.empty : Session where
  memories := ∅
  writes := []

def Session.locks (session : Session) : List Uuid := session.writes.flatMap Write.locks

def Session.view (session : Session) (db : Database) : Database := db.applyAll session.writes

inductive Statement where
  | get (id : Uuid)
  | insert (id : Uuid) (row : MemoryRow)
  | update (id : Uuid) (status : MemoryStatus) (updatedAt : Time)
  | append (event : AuditEventRow)

@[reducible] def Answer : Statement → Type
  | .get _ => Option MemoryRow
  | .insert _ _ => Bool
  | .update _ _ _ => Unit
  | .append _ => Unit

def locking (others : List Session) (write : Write) {α : Type} (result : α) : Option α :=
  if write.locks.all fun lock => others.all fun other => lock ∉ other.locks then some result else none

def Session.wrote (session : Session) (write : Write) : Session := { session with writes := session.writes ++ [write] }

def statement (others : List Session) (db : Database) (session : Session) : (s : Statement) → Option (Answer s × Session)
  | .get id =>
    let rows := (session.view db).memories
    some (getRow session.memories rows id, { session with memories := keepRow session.memories rows id })
  | .insert id row =>
    locking others (.insert id row) <|
      if ((session.view db).memories.lookup id).isSome then (false, session)
      else (true, { session.wrote (.insert id row) with memories := session.memories.insert id row })
  | .update id status updatedAt =>
    -- a column that keeps its value is not written
    let moved := if (session.memories.lookup id).any fun row => row.status = status then none else some status
    locking others (.update id moved updatedAt)
      ((), { session.wrote (.update id moved updatedAt) with
        memories := session.memories.modify id fun row => row.move (some status) updatedAt })
  | .append event => some ((), session.wrote (.append event))

end Sessions

section Commands

inductive MemoryError where
  | forbiddenMemoryAction
  | unknownMemory
  | memoryAlreadyDecided (status : MemoryStatus)
  | invalidMemoryBody (reason : String)
  | unknownSubjectMemory
  | forbiddenSubjectAction
  /-- raised by the database, and not caught -/
  | integrityError
  deriving DecidableEq

abbrev Reviews := Prog Statement Answer MemoryError

/-- Who asks, from which workspace; `role` is what `user_role` finds. -/
structure Request where
  actor : Actor
  workspaceId : Uuid
  role : Option Identity.Role

def ask (s : Statement) : Reviews (Answer s) := Prog.perform s

def get (memoryId : Uuid) : Reviews (Option MemoryRow) := ask (.get memoryId)

/-- `set_status`; `missing` is what the services raise when there is no such row. -/
def setStatus (missing : MemoryError) (memoryId : Uuid) (status : MemoryStatus) (now : Time) : Reviews Unit := do
  match ← get memoryId with
  | none => .refuse missing
  | some _ => ask (.update memoryId status now)

def appendAudit (request : Request) (actorType : CallerType) (action : MemoryAction) (resourceId : Uuid) : Reviews Unit :=
  ask (.append { workspaceId := request.workspaceId, actorType, actorId := request.actor.id, action, resourceId })

def isSteward (role : Option Identity.Role) : Bool := role = some .workspaceAdmin

/-- `_require_steward`. -/
def requireSteward (request : Request) : Reviews Unit :=
  if request.actor.isServiceAccount then .refuse .forbiddenMemoryAction
  else if isSteward request.role then pure ()
  else if !request.actor.isPlatformAdmin then .refuse .forbiddenMemoryAction
  else pure ()

/-- `_decide`. -/
def decideMemory (request : Request) (memoryId : Uuid) (status : MemoryStatus) (now : Time) : Reviews Unit := do
  requireSteward request
  match ← get memoryId with
  | none => .refuse .unknownMemory
  | some record =>
    if record.workspaceId ≠ request.workspaceId then .refuse .unknownMemory
    else if record.status ≠ .pending then .refuse (.memoryAlreadyDecided record.status)
    else do
      setStatus .unknownMemory memoryId status now
      appendAudit request .user (.decided status) memoryId

def maxBodyLength : Nat := 500

def cleanedBody (body : String) : Reviews String :=
  let text := Text.strip body
  if text = "" then .refuse (.invalidMemoryBody "a memory has a body")
  else if text.length > maxBodyLength then .refuse (.invalidMemoryBody s!"a memory is at most {maxBodyLength} characters")
  else pure text

def Request.callerType (request : Request) : CallerType := if request.actor.isEndUser then .endUser else .user

/-- `_require_self_or_steward`. -/
def requireSelfOrSteward (request : Request) (subject : CallerIdentity) : Reviews CallerType :=
  if request.actor.isServiceAccount then .refuse .forbiddenSubjectAction
  else if request.callerType = subject.callerType && request.actor.id = subject.callerId then pure request.callerType
  else if isSteward request.role || request.actor.isPlatformAdmin then do
    appendAudit request request.callerType .actedOnBehalf subject.callerId
    pure request.callerType
  else .refuse .forbiddenSubjectAction

/-- `subject_of`. -/
def subjectOf (memoryId : Uuid) : Reviews (Option CallerIdentity) := do
  match ← get memoryId with
  | none => pure none
  | some row => if row.kind = .shared then pure none else pure row.subject

/-- `_owned`. -/
def owned (request : Request) (memoryId : Uuid) : Reviews CallerType := do
  match ← get memoryId with
  | none => .refuse .unknownSubjectMemory
  | some record =>
    if record.workspaceId ≠ request.workspaceId then .refuse .unknownSubjectMemory
    else do
      match ← subjectOf memoryId with
      | none => .refuse .forbiddenSubjectAction
      | some owner => requireSelfOrSteward request owner

/-- What a correction draws, and its clocks: the service's, and the one of the database. -/
structure Drawn where
  memoryId : Uuid
  now : Time
  createdAt : Time

/-- The row that takes the place of `old`. -/
def MemoryRow.corrected (old : MemoryRow) (memoryId : Uuid) (body : String) (drawn : Drawn) : MemoryRow where
  workspaceId := old.workspaceId
  agentId := old.agentId
  kind := old.kind
  subject := old.subject
  body := body
  status := .active
  origin := "subject"
  originRunId := none
  corrects := some memoryId
  createdAt := drawn.createdAt
  updatedAt := drawn.now

def insertMemory (id : Uuid) (row : MemoryRow) : Reviews Unit := do
  if ← ask (.insert id row) then pure () else .refuse .integrityError

def replace (memoryId : Uuid) (body : String) (drawn : Drawn) : Reviews Unit := do
  match ← get memoryId with
  | none => .refuse .unknownSubjectMemory
  | some old => do
    ask (.update memoryId .rejected drawn.now)
    insertMemory drawn.memoryId (old.corrected memoryId body drawn)

def correct (request : Request) (memoryId : Uuid) (body : String) (drawn : Drawn) : Reviews Unit := do
  let actorType ← owned request memoryId
  let cleaned ← cleanedBody body
  replace memoryId cleaned drawn
  appendAudit request actorType .corrected memoryId

def forget (request : Request) (memoryId : Uuid) (now : Time) : Reviews Unit := do
  let actorType ← owned request memoryId
  setStatus .unknownSubjectMemory memoryId .rejected now
  appendAudit request actorType .forgotten memoryId

inductive Command where
  | approve (request : Request) (memoryId : Uuid) (now : Time)
  | reject (request : Request) (memoryId : Uuid) (now : Time)
  | correct (request : Request) (memoryId : Uuid) (body : String) (drawn : Drawn)
  | forget (request : Request) (memoryId : Uuid) (now : Time)

def Command.program : Command → Reviews Unit
  | .approve request memoryId now => decideMemory request memoryId .active now
  | .reject request memoryId now => decideMemory request memoryId .rejected now
  | .correct request memoryId body drawn => Memory.correct request memoryId body drawn
  | .forget request memoryId now => Memory.forget request memoryId now

end Commands

section Reading

structure MemoryScope where
  workspaceId : Uuid
  agentId : Uuid
  kind : MemoryKind
  subject : Option CallerIdentity
  subjectMatches : kind = .ofSubject ↔ subject.isSome = true

/-- `_scoped`, `_not_written_by` and the status that a Run may read. -/
def readable (scope : MemoryScope) (excludingRun : Option Uuid) (row : MemoryRow) : Bool :=
  row.workspaceId = scope.workspaceId && row.agentId = scope.agentId && row.kind = scope.kind && row.subject = scope.subject &&
    (excludingRun.isNone || row.originRunId.isNone || row.originRunId ≠ excludingRun) && row.status = .active

def newer (found other : Uuid × MemoryRow) : Bool :=
  other.2.createdAt < found.2.createdAt || (found.2.createdAt = other.2.createdAt && found.1 ≤ other.1)

end Reading
end TinyHermes.Memory
