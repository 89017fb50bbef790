import TinyHermes.Lib.Statements
import TinyHermes.Runs.Models

/-! The tables of the skill catalog, and a session on them as the ORM keeps it. -/
namespace TinyHermes.Skills
open Lib Runs

inductive SkillScope where
  | platform | workspace
  deriving DecidableEq, Repr

inductive SkillVersionStatus where
  | active | withdrawn
  deriving DecidableEq, Repr

inductive SkillSource where
  | upload | git | proposal
  deriving DecidableEq, Repr

inductive ProposalStatus where
  | pending | approved | rejected
  deriving DecidableEq, Repr

inductive Severity where
  | advisory | blocking
  deriving DecidableEq, Repr

structure Finding where
  code : String
  severity : Severity
  path : String
  detail : String
  deriving DecidableEq, Repr

def blocking (findings : List Finding) : List Finding := findings.filter fun finding => finding.severity = .blocking

/-- What `source_ref` says: a git reference, or `str` of a proposal's id. -/
inductive SourceRef where
  | git (ref : String)
  | proposal (id : Uuid)
  deriving DecidableEq, Repr

structure SkillRow where
  scope : SkillScope
  workspaceId : Option Uuid
  name : String
  currentVersionId : Option Uuid
  deriving DecidableEq, Repr

structure SkillVersionRow where
  skillId : Uuid
  versionNumber : Nat
  contentHash : String
  scanFindings : List Finding
  source : SkillSource
  sourceRef : Option SourceRef
  status : SkillVersionStatus
  deriving DecidableEq, Repr

def SkillVersionRow.bindable (row : SkillVersionRow) : Bool := row.status = .active && (blocking row.scanFindings).isEmpty

/-- `name` and `contentHash` are those of the package that the files are parsed to. -/
structure SkillProposalRow where
  workspaceId : Option Uuid
  skillId : Option Uuid
  name : String
  contentHash : String
  scanFindings : List Finding
  status : ProposalStatus
  decidedBy : Option Uuid
  decidedAt : Option Time
  deriving DecidableEq, Repr

structure Database where
  skills : Table Uuid SkillRow
  versions : Table Uuid SkillVersionRow
  proposals : Table Uuid SkillProposalRow

section Writing

inductive Write where
  | insertSkill (id : Uuid) (row : SkillRow)
  | insertVersion (id : Uuid) (row : SkillVersionRow)
  /-- `updated_at` and, where it changes, the pointer -/
  | updateSkill (id : Uuid) (moved : Option (Option Uuid))
  | updateVersion (id : Uuid) (status : SkillVersionStatus)
  | decide (id : Uuid) (status : ProposalStatus) (decidedBy : Uuid) (decidedAt : Time)
  deriving DecidableEq, Repr

def SkillRow.move (row : SkillRow) (moved : Option (Option Uuid)) : SkillRow :=
  { row with currentVersionId := moved.getD row.currentVersionId }

def SkillProposalRow.decided (row : SkillProposalRow) (status : ProposalStatus) (decidedBy : Uuid) (decidedAt : Time) : SkillProposalRow :=
  { row with status, decidedBy := some decidedBy, decidedAt := some decidedAt }

def Database.apply (db : Database) : Write → Database
  | .insertSkill id row => { db with skills := db.skills.insert id row }
  | .insertVersion id row => { db with versions := db.versions.insert id row }
  | .updateSkill id moved => { db with skills := db.skills.modify id fun row => row.move moved }
  | .updateVersion id status => { db with versions := db.versions.modify id fun row => { row with status } }
  | .decide id status decidedBy decidedAt =>
    { db with proposals := db.proposals.modify id fun row => row.decided status decidedBy decidedAt }

def Database.applyAll (db : Database) (writes : List Write) : Database := writes.foldl Database.apply db

/-- What a write locks: its row, and what must be unique of a new one. -/
inductive Lock where
  | skill (id : Uuid)
  | skillName (scope : SkillScope) (workspaceId : Option Uuid) (name : String)
  | version (id : Uuid)
  | versionNumber (skillId : Uuid) (number : Nat)
  | versionContent (skillId : Uuid) (contentHash : String)
  | proposal (id : Uuid)
  deriving DecidableEq, Repr

def Write.locks : Write → List Lock
  | .insertSkill id row => [.skill id, .skillName row.scope row.workspaceId row.name]
  | .insertVersion id row =>
    [.version id, .versionNumber row.skillId row.versionNumber, .versionContent row.skillId row.contentHash]
  | .updateSkill id _ => [.skill id]
  | .updateVersion id _ => [.version id]
  | .decide id _ _ _ => [.proposal id]

end Writing

section Sessions

/-- An ORM session: the objects it has loaded, as it has them, and what it has written. -/
structure Session where
  skills : Table Uuid SkillRow
  versions : Table Uuid SkillVersionRow
  proposals : Table Uuid SkillProposalRow
  writes : List Write

def Session.empty : Session where
  skills := ∅
  versions := ∅
  proposals := ∅
  writes := []

def Session.locks (session : Session) : List Lock := session.writes.flatMap Write.locks

def Session.view (session : Session) (db : Database) : Database := db.applyAll session.writes

/-- `session.get`: the object it has, else the row. -/
def getRow {α : Type} (loaded rows : Table Uuid α) (id : Uuid) : Option α := (loaded.lookup id).or (rows.lookup id)

def keepRow {α : Type} (loaded rows : Table Uuid α) (id : Uuid) : Table Uuid α :=
  match loaded.lookup id with
  | some _ => loaded
  | none =>
    match rows.lookup id with
    | some row => loaded.insert id row
    | none => loaded

inductive Statement where
  | getSkill (id : Uuid)
  | getVersion (id : Uuid)
  | getProposal (id : Uuid)
  /-- `_by_content` -/
  | byContent (skillId : Uuid) (contentHash : String)
  | highest (skillId : Uuid)
  | insertSkill (id : Uuid) (row : SkillRow)
  | insertVersion (id : Uuid) (row : SkillVersionRow)
  | updateSkill (id : Uuid) (pointer : Option Uuid)
  | updateVersion (id : Uuid) (status : SkillVersionStatus)
  | decide (id : Uuid) (status : ProposalStatus) (decidedBy : Uuid) (decidedAt : Time)

/-- What a statement answers; an insert, whether it is taken. -/
@[reducible] def Answer : Statement → Type
  | .getSkill _ => Option SkillRow
  | .getVersion _ => Option SkillVersionRow
  | .getProposal _ => Option SkillProposalRow
  | .byContent _ _ => Option (Uuid × SkillVersionRow)
  | .highest _ => Nat
  | .insertSkill _ _ => Bool
  | .insertVersion _ _ => Bool
  | .updateSkill _ _ => Unit
  | .updateVersion _ _ => Unit
  | .decide _ _ _ _ => Unit

/-- An insert breaks a unique constraint or a foreign key. -/
def Database.conflicts (db : Database) : Write → Bool
  | .insertSkill id row => (db.skills.lookup id).isSome ||
      !(db.skills.select fun _ other => other.scope = row.scope && other.workspaceId = row.workspaceId && other.name = row.name).isEmpty
  | .insertVersion id row => (db.versions.lookup id).isSome || (db.skills.lookup row.skillId).isNone ||
      !(db.versions.select fun _ other => other.skillId = row.skillId &&
        (other.versionNumber = row.versionNumber || other.contentHash = row.contentHash)).isEmpty
  | _ => false

def free (others : List Session) (write : Write) : Bool := write.locks.all fun lock => others.all fun other => lock ∉ other.locks

def locking (others : List Session) (write : Write) {α : Type} (result : α) : Option α := if free others write then some result else none

def Session.wrote (session : Session) (write : Write) : Session := { session with writes := session.writes ++ [write] }

def statement (others : List Session) (db : Database) (session : Session) : (s : Statement) → Option (Answer s × Session)
  | .getSkill id =>
    let rows := (session.view db).skills
    some (getRow session.skills rows id, { session with skills := keepRow session.skills rows id })
  | .getVersion id =>
    let rows := (session.view db).versions
    some (getRow session.versions rows id, { session with versions := keepRow session.versions rows id })
  | .getProposal id =>
    let rows := (session.view db).proposals
    some (getRow session.proposals rows id, { session with proposals := keepRow session.proposals rows id })
  | .byContent skillId contentHash =>
    let rows := (session.view db).versions
    match (rows.select fun _ row => row.skillId = skillId && row.contentHash = contentHash).head? with
    | none => some (none, session)
    | some (id, row) =>
      some (some (id, (session.versions.lookup id).getD row), { session with versions := keepRow session.versions rows id })
  | .highest skillId =>
    let rows := (session.view db).versions.select fun _ row => row.skillId = skillId
    some ((rows.map fun found => found.2.versionNumber).foldl max 0, session)
  | .insertSkill id row =>
    locking others (.insertSkill id row) <|
      if (session.view db).conflicts (.insertSkill id row) then (false, session)
      else (true, { session.wrote (.insertSkill id row) with skills := session.skills.insert id row })
  | .insertVersion id row =>
    locking others (.insertVersion id row) <|
      if (session.view db).conflicts (.insertVersion id row) then (false, session)
      else (true, { session.wrote (.insertVersion id row) with versions := session.versions.insert id row })
  | .updateSkill id pointer =>
    let moved := if (session.skills.lookup id).any fun row => row.currentVersionId = pointer then none else some pointer
    locking others (.updateSkill id moved)
      ((), { session.wrote (.updateSkill id moved) with skills := session.skills.modify id fun row => row.move (some pointer) })
  | .updateVersion id status =>
    -- a column that keeps its value is not written
    if (session.versions.lookup id).any fun row => row.status = status then some ((), session)
    else locking others (.updateVersion id status)
      ((), { session.wrote (.updateVersion id status) with versions := session.versions.modify id fun row => { row with status } })
  | .decide id status decidedBy decidedAt =>
    locking others (.decide id status decidedBy decidedAt)
      ((), { session.wrote (.decide id status decidedBy decidedAt) with
        proposals := session.proposals.modify id fun row => row.decided status decidedBy decidedAt })

end Sessions

end TinyHermes.Skills
