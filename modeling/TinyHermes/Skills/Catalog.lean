import TinyHermes.Skills.Store

/-! The commands of the skill catalog, each a transaction of its own. -/
namespace TinyHermes.Skills
open Lib Runs

inductive CatalogError where
  | forbidden
  | unknownSkill
  | unknownSkillVersion
  | skillNameTaken
  | invalidSkillPackage
  | skillNameMismatch (expected found : String)
  | skillScanRefused (findings : List Finding)
  | versionNotBindable
  | unknownProposal
  | proposalNotApprovable (reason : String) (findings : List Finding)
  | skillImportFailed
  /-- raised by the database, and not caught -/
  | integrityError
  deriving DecidableEq

abbrev Catalog := Prog Statement Answer CatalogError

/-- What of a package the catalog's tables hold; `name` is its manifest's. -/
structure SkillPackage where
  name : String
  contentHash : String
  deriving DecidableEq

/-- Files as they are handed in: what `parse_package` makes of them, and what the scan finds. -/
structure Upload where
  package : Option SkillPackage
  findings : List Finding

/-- Who asks, from which workspace; `mayWrite` is what `_require_writer` answers for a scope. -/
structure Request where
  workspaceId : Uuid
  actorId : Uuid
  mayWrite : SkillScope → Bool

structure Drawn where
  skillId : Uuid
  versionId : Uuid
  now : Time

section Store

def ask (s : Statement) : Catalog (Answer s) := Prog.perform s

def getSkill (id : Uuid) : Catalog (Option SkillRow) := ask (.getSkill id)

def getVersion (id : Uuid) : Catalog (Option SkillVersionRow) := ask (.getVersion id)

def getProposal (id : Uuid) : Catalog (Option SkillProposalRow) := ask (.getProposal id)

/-- `create_skill` of the store, which raises `DuplicateSkillName`. -/
def insertSkill (id : Uuid) (row : SkillRow) : Catalog Unit := do
  let taken ← ask (.insertSkill id row)
  if taken then pure () else .refuse .skillNameTaken

/-- A version as `add_version` answers it. -/
structure VersionResult where
  id : Uuid
  row : SkillVersionRow
  created : Bool

def addVersion (id skillId : Uuid) (package : SkillPackage) (scanFindings : List Finding) (source : SkillSource)
    (sourceRef : Option SourceRef) : Catalog VersionResult := do
  let existing ← ask (.byContent skillId package.contentHash)
  match existing with
  | some (found, row) => pure { id := found, row, created := false }
  | none =>
    let highest ← ask (.highest skillId)
    let row := { skillId, versionNumber := highest + 1, contentHash := package.contentHash, scanFindings, source, sourceRef,
                 status := .active : SkillVersionRow }
    let taken ← ask (.insertVersion id row)
    if taken then pure { id, row, created := true }
    else do
      let raced ← ask (.byContent skillId package.contentHash)
      match raced with
      | some (found, row) => pure { id := found, row, created := false }
      | none => .refuse .integrityError

def setVersionStatus (id : Uuid) (status : SkillVersionStatus) : Catalog Bool := do
  match ← getVersion id with
  | none => pure false
  | some _ =>
    ask (.updateVersion id status)
    pure true

/-- `set_current_version` of the store. -/
def movePointer (id : Uuid) (pointer : Option Uuid) : Catalog Bool := do
  match ← getSkill id with
  | none => pure false
  | some _ =>
    ask (.updateSkill id pointer)
    pure true

def decideProposal (id : Uuid) (status : ProposalStatus) (decidedBy : Uuid) (decidedAt : Time) : Catalog Bool := do
  match ← getProposal id with
  | none => pure false
  | some row =>
    if row.status ≠ .pending then pure false
    else do
      ask (.decide id status decidedBy decidedAt)
      pure true

end Store

section Service

def ProposalStatus.value : ProposalStatus → String
  | .pending => "pending"
  | .approved => "approved"
  | .rejected => "rejected"

/-- `_accept`. -/
def accept (upload : Upload) : Catalog SkillPackage :=
  match upload.package with
  | none => .refuse .invalidSkillPackage
  | some package =>
    if blocking upload.findings ≠ [] then .refuse (.skillScanRefused (blocking upload.findings)) else pure package

/-- `_require_writer`. -/
def requireWriter (request : Request) (scope : SkillScope) : Catalog Unit :=
  if request.mayWrite scope then pure () else .refuse .forbidden

/-- `_visible`. -/
def visible (request : Request) (skillId : Uuid) : Catalog SkillRow := do
  match ← getSkill skillId with
  | none => .refuse .unknownSkill
  | some skill =>
    if skill.scope = .platform then pure skill
    else if skill.workspaceId ≠ some request.workspaceId then .refuse .unknownSkill
    else pure skill

/-- `_writable`. -/
def writable (request : Request) (skillId : Uuid) : Catalog SkillRow := do
  let skill ← visible request skillId
  requireWriter request skill.scope
  pure skill

def freshRow (request : Request) (scope : SkillScope) (name : String) : SkillRow where
  scope := scope
  workspaceId := if scope = .platform then none else some request.workspaceId
  name := name
  currentVersionId := none

/-- What `create_skill` and `import_skill` have in common. -/
def publishFirst (request : Request) (scope : SkillScope) (upload : Upload) (source : SkillSource) (sourceRef : Option SourceRef)
    (drawn : Drawn) : Catalog Unit := do
  let package ← accept upload
  insertSkill drawn.skillId (freshRow request scope package.name)
  let result ← addVersion drawn.versionId drawn.skillId package upload.findings source sourceRef
  if ← movePointer drawn.skillId (some result.id) then pure () else .refuse .unknownSkill

def createSkill (request : Request) (scope : SkillScope) (upload : Upload) (drawn : Drawn) : Catalog Unit := do
  requireWriter request scope
  publishFirst request scope upload .upload none drawn

/-- `fetched` is what `_fetch` answers of the URL: the reference it found, and the files. -/
def importSkill (request : Request) (scope : SkillScope) (fetched : Option (String × Upload)) (drawn : Drawn) : Catalog Unit := do
  requireWriter request scope
  match fetched with
  | none => .refuse .skillImportFailed
  | some (ref, upload) => publishFirst request scope upload .git (some (.git ref)) drawn

/-- What `upload_version` and `import_version` have in common. -/
def publishNext (skillId : Uuid) (skill : SkillRow) (upload : Upload) (source : SkillSource) (sourceRef : Option SourceRef)
    (drawn : Drawn) : Catalog Unit := do
  let package ← accept upload
  if package.name ≠ skill.name then .refuse (.skillNameMismatch skill.name package.name)
  else do
    let _ ← addVersion drawn.versionId skillId package upload.findings source sourceRef
    pure ()

def uploadVersion (request : Request) (skillId : Uuid) (upload : Upload) (drawn : Drawn) : Catalog Unit := do
  let skill ← writable request skillId
  publishNext skillId skill upload .upload none drawn

def importVersion (request : Request) (skillId : Uuid) (fetched : Option (String × Upload)) (drawn : Drawn) : Catalog Unit := do
  let skill ← writable request skillId
  match fetched with
  | none => .refuse .skillImportFailed
  | some (ref, upload) => publishNext skillId skill upload .git (some (.git ref)) drawn

def withdrawVersion (request : Request) (skillId versionId : Uuid) : Catalog Unit := do
  let skill ← writable request skillId
  match ← getVersion versionId with
  | none => .refuse .unknownSkillVersion
  | some version =>
    if version.skillId ≠ skillId then .refuse .unknownSkillVersion
    else do
      if ← setVersionStatus versionId .withdrawn then
        if skill.currentVersionId = some versionId then do
          let _ ← movePointer skillId none
          pure ()
        else pure ()
      else .refuse .unknownSkillVersion

def setCurrentVersion (request : Request) (skillId versionId : Uuid) : Catalog Unit := do
  let _ ← writable request skillId
  match ← getVersion versionId with
  | none => .refuse .unknownSkillVersion
  | some version =>
    if version.skillId ≠ skillId then .refuse .unknownSkillVersion
    else if !version.bindable then .refuse .versionNotBindable
    else do
      if ← movePointer skillId (some versionId) then pure () else .refuse .unknownSkill

/-- `_proposal`. -/
def proposalIn (request : Request) (proposalId : Uuid) : Catalog SkillProposalRow := do
  match ← getProposal proposalId with
  | none => .refuse .unknownProposal
  | some proposal => if proposal.workspaceId ≠ some request.workspaceId then .refuse .unknownProposal else pure proposal

/-- The right to decide a proposal: to write its skill, or a new one in the workspace. -/
def decidable (request : Request) (proposal : SkillProposalRow) : Catalog Unit := do
  match proposal.skillId with
  | some skillId =>
    let _ ← writable request skillId
    pure ()
  | none => requireWriter request .workspace

def approveProposal (request : Request) (proposalId : Uuid) (drawn : Drawn) : Catalog Unit := do
  let proposal ← proposalIn request proposalId
  decidable request proposal
  if proposal.status ≠ .pending then .refuse (.proposalNotApprovable ("this proposal is already " ++ proposal.status.value) [])
  else if blocking proposal.scanFindings ≠ [] then
    .refuse (.proposalNotApprovable "the static scan blocked this content" (blocking proposal.scanFindings))
  else do
    let package := { name := proposal.name, contentHash := proposal.contentHash : SkillPackage }
    if ← decideProposal proposalId .approved request.actorId drawn.now then
      match proposal.skillId with
      | some skillId => do
        let _ ← addVersion drawn.versionId skillId package proposal.scanFindings .proposal (some (.proposal proposalId))
        pure ()
      | none => do
        insertSkill drawn.skillId (freshRow request .workspace package.name)
        let result ← addVersion drawn.versionId drawn.skillId package proposal.scanFindings .proposal (some (.proposal proposalId))
        if ← movePointer drawn.skillId (some result.id) then pure () else .refuse .unknownSkill
    else .refuse (.proposalNotApprovable "this proposal is already decided" [])

def rejectProposal (request : Request) (proposalId : Uuid) (now : Time) : Catalog Unit := do
  let proposal ← proposalIn request proposalId
  decidable request proposal
  if ← decideProposal proposalId .rejected request.actorId now then pure ()
  else .refuse (.proposalNotApprovable ("this proposal is already " ++ proposal.status.value) [])

inductive Command where
  | createSkill (request : Request) (scope : SkillScope) (upload : Upload) (drawn : Drawn)
  | importSkill (request : Request) (scope : SkillScope) (fetched : Option (String × Upload)) (drawn : Drawn)
  | uploadVersion (request : Request) (skillId : Uuid) (upload : Upload) (drawn : Drawn)
  | importVersion (request : Request) (skillId : Uuid) (fetched : Option (String × Upload)) (drawn : Drawn)
  | withdrawVersion (request : Request) (skillId versionId : Uuid)
  | setCurrentVersion (request : Request) (skillId versionId : Uuid)
  | approveProposal (request : Request) (proposalId : Uuid) (drawn : Drawn)
  | rejectProposal (request : Request) (proposalId : Uuid) (now : Time)

def Command.program : Command → Catalog Unit
  | .createSkill request scope upload drawn => Skills.createSkill request scope upload drawn
  | .importSkill request scope fetched drawn => Skills.importSkill request scope fetched drawn
  | .uploadVersion request skillId upload drawn => Skills.uploadVersion request skillId upload drawn
  | .importVersion request skillId fetched drawn => Skills.importVersion request skillId fetched drawn
  | .withdrawVersion request skillId versionId => Skills.withdrawVersion request skillId versionId
  | .setCurrentVersion request skillId versionId => Skills.setCurrentVersion request skillId versionId
  | .approveProposal request proposalId drawn => Skills.approveProposal request proposalId drawn
  | .rejectProposal request proposalId now => Skills.rejectProposal request proposalId now

end Service

end TinyHermes.Skills
