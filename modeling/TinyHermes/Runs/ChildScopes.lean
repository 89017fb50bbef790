import TinyHermes.Agents.Drafts
import TinyHermes.Lib.Documents
import TinyHermes.Runs.Admission

/-! The scope a child is given, and how it is stored and read back. -/
namespace TinyHermes.Agents
open Lib

namespace MemoryPermission

/-- `MemoryPermission(name)`, where it does not raise `ValueError`. -/
def ofValue (name : String) : Option MemoryPermission :=
  if name = "memory.read_private" then some .readPrivate
  else if name = "memory.propose_private" then some .proposePrivate
  else none

theorem ofValue_value (permission : MemoryPermission) : ofValue permission.value = some permission := by
  cases permission <;> decide

end MemoryPermission

section Narrowing
variable {a b : DelegationScope}

theorem DelegationScope.covers_refl (scope : DelegationScope) : scope.covers scope :=
  ⟨subset_rfl, subset_rfl, subset_rfl, subset_rfl, subset_rfl, subset_rfl⟩

theorem DelegationScope.covers_trans {c : DelegationScope} (hab : a.covers b) (hbc : b.covers c) : a.covers c := by
  obtain ⟨htools, hfiles, hnetwork, hsecrets, hskills, hmemory⟩ := hab
  obtain ⟨htools', hfiles', hnetwork', hsecrets', hskills', hmemory'⟩ := hbc
  exact ⟨htools'.trans htools, hfiles'.trans hfiles, hnetwork'.trans hnetwork, hsecrets'.trans hsecrets,
    hskills'.trans hskills, hmemory'.trans hmemory⟩

theorem DelegationScope.covers_meet_left (a b : DelegationScope) : a.covers (a.meet b) :=
  ⟨Finset.inter_subset_left, Finset.inter_subset_left, Finset.inter_subset_left, Finset.inter_subset_left,
    Finset.inter_subset_left, Finset.inter_subset_left⟩

theorem DelegationScope.covers_meet_right (a b : DelegationScope) : b.covers (a.meet b) :=
  ⟨Finset.inter_subset_right, Finset.inter_subset_right, Finset.inter_subset_right, Finset.inter_subset_right,
    Finset.inter_subset_right, Finset.inter_subset_right⟩

theorem covers_intersect {scopes : List DelegationScope} {scope : DelegationScope} (h : scope ∈ scopes) :
    scope.covers (intersect scopes) := by
  cases scopes with
  | nil => cases h
  | cons first rest =>
    have hfold : ∀ (later : List DelegationScope) (start : DelegationScope),
        start.covers (later.foldl DelegationScope.meet start) ∧
          ∀ other ∈ later, other.covers (later.foldl DelegationScope.meet start) := by
      intro later
      induction later with
      | nil => exact fun start => ⟨start.covers_refl, fun other hother => nomatch hother⟩
      | cons next later ih =>
        intro start
        obtain ⟨hstart, hlater⟩ := ih (start.meet next)
        refine ⟨DelegationScope.covers_trans (start.covers_meet_left next) hstart, fun other hother => ?_⟩
        obtain rfl | hother := List.mem_cons.mp hother
        · exact DelegationScope.covers_trans (start.covers_meet_right other) hstart
        · exact hlater other hother
    obtain ⟨hfirst, hrest⟩ := hfold rest first
    obtain rfl | h := List.mem_cons.mp h
    · exact hfirst
    · exact hrest scope h

theorem covers_granted (parent : AgentSpec) (binding : ChildBinding) :
    (scopeOfSpec parent).covers (granted parent binding) ∧ (askedBy binding).covers (granted parent binding) :=
  ⟨covers_intersect List.mem_cons_self, covers_intersect (List.mem_cons_of_mem _ List.mem_cons_self)⟩

end Narrowing

section Stored

def namesDocument (names : Finset String) : Json := .array ((names.sort (· ≤ ·)).map .string)

def DelegationScope.document (scope : DelegationScope) : Document :=
  [("tools", namesDocument scope.tools), ("files", namesDocument scope.files), ("network", namesDocument scope.network),
    ("secrets", namesDocument scope.secrets), ("skills", namesDocument scope.skills),
    ("memory", namesDocument (scope.memory.image (·.value)))]

/-- `frozenset` of a stored face. What is no list raises, but for a text and an object, whose characters and keys are taken; a set
of other than texts is no face. -/
def namesOf : Json → Option (List String)
  | .array items => items.mapM fun
    | .string name => some name
    | _ => none
  | .string text => some (text.toList.map fun c => String.ofList [c])
  | .object fields => some (fields.map (·.1))
  | _ => none

def faceOf (document : Document) (key : String) : Option (List String) := namesOf (Documents.getOr document key (.array []))

/-- `DelegationScope.from_document`: a permission that is not known is dropped. -/
def DelegationScope.fromDocument (document : Document) : Option DelegationScope := do
  let memory ← faceOf document "memory"
  let tools ← faceOf document "tools"
  let files ← faceOf document "files"
  let network ← faceOf document "network"
  let secrets ← faceOf document "secrets"
  let skills ← faceOf document "skills"
  return {
    tools := tools.toFinset, files := files.toFinset, network := network.toFinset, secrets := secrets.toFinset
    skills := skills.toFinset, memory := (memory.filterMap MemoryPermission.ofValue).toFinset }

theorem namesOf_document (names : Finset String) : namesOf (namesDocument names) = some (names.sort (· ≤ ·)) := by
  unfold namesOf namesDocument
  dsimp only
  induction names.sort (· ≤ ·) with
  | nil => rfl
  | cons name rest ih =>
    rw [List.map_cons, List.mapM_cons, ih]
    rfl

theorem read_permissions (memory : Finset MemoryPermission) :
    (((memory.image (·.value)).sort (· ≤ ·)).filterMap MemoryPermission.ofValue).toFinset = memory := by
  ext permission
  simp only [List.mem_toFinset, List.mem_filterMap, Finset.mem_sort, Finset.mem_image]
  constructor
  · rintro ⟨_, ⟨_, hother, rfl⟩, hread⟩
    rw [MemoryPermission.ofValue_value] at hread
    exact Option.some.inj hread ▸ hother
  · intro hpermission
    exact ⟨permission.value, ⟨permission, hpermission, rfl⟩, permission.ofValue_value⟩

theorem fromDocument_document (scope : DelegationScope) : DelegationScope.fromDocument scope.document = some scope := by
  have hmemory : faceOf scope.document "memory" = some ((scope.memory.image (·.value)).sort (· ≤ ·)) := namesOf_document _
  have htools : faceOf scope.document "tools" = some (scope.tools.sort (· ≤ ·)) := namesOf_document _
  have hfiles : faceOf scope.document "files" = some (scope.files.sort (· ≤ ·)) := namesOf_document _
  have hnetwork : faceOf scope.document "network" = some (scope.network.sort (· ≤ ·)) := namesOf_document _
  have hsecrets : faceOf scope.document "secrets" = some (scope.secrets.sort (· ≤ ·)) := namesOf_document _
  have hskills : faceOf scope.document "skills" = some (scope.skills.sort (· ≤ ·)) := namesOf_document _
  rw [DelegationScope.fromDocument, hmemory, htools, hfiles, hnetwork, hsecrets, hskills]
  simp only [Option.bind_eq_bind, Option.bind_some, read_permissions, Finset.sort_toFinset]
  rfl

end Stored

end TinyHermes.Agents

namespace TinyHermes.Runs.SqlRunStore
open Agents

def withoutFiles (scope : DelegationScope) : DelegationScope := { scope with files := ∅ }

/-- What a child is given is inside what its parent holds and inside what the binding allows, on every face but the files. The
files are artifacts that the request names and that the parent can read, and the binding is not asked about them. What was given
is read back as it was stored. -/
theorem child_narrowed (env : Env) (s : Store) (parentRunId : Uuid) (parent : RunRow) (spec : AgentSpec) (binding : ChildBinding)
    (item : DelegationRequest) (scope : DelegationScope) :
    (scopeOfSpec spec).covers (granted spec binding) ∧ (askedBy binding).covers (granted spec binding) ∧
      (let given := childScope (readableArtifact env s parentRunId parent) spec binding item
       (scopeOfSpec spec).covers (withoutFiles given) ∧ (askedBy binding).covers (withoutFiles given) ∧
        (∀ file ∈ given.files, ∃ name ∈ item.artifacts, ∃ id, readableArtifact env s parentRunId parent name = some id ∧
          file = uuidText id)) ∧
      DelegationScope.fromDocument scope.document = some scope := by
  obtain ⟨hparent, hbinding⟩ := covers_granted spec binding
  refine ⟨hparent, hbinding, ⟨?_, ?_, ?_⟩, fromDocument_document scope⟩
  · obtain ⟨htools, _, hnetwork, hsecrets, hskills, hmemory⟩ := hparent
    exact ⟨htools, Finset.empty_subset _, hnetwork, hsecrets, hskills, hmemory⟩
  · obtain ⟨htools, _, hnetwork, hsecrets, hskills, hmemory⟩ := hbinding
    exact ⟨htools, Finset.empty_subset _, hnetwork, hsecrets, hskills, hmemory⟩
  · intro _ hfile
    obtain ⟨id, hid, rfl⟩ := List.mem_map.mp (List.mem_toFinset.mp hfile)
    obtain ⟨name, hname, hread⟩ := List.mem_filterMap.mp hid
    exact ⟨name, hname, id, hread, rfl⟩

def lentNoFiles : ChildBinding where
  aliasName := "helper"
  tools := ["file.read"]

def lendingPolicy : DelegationPolicy where
  children := [lentNoFiles]
  aliases_nodup := List.nodup_singleton _

def oneArtifact : Env where
  now := 0
  catalog := {
    agentExists := fun _ _ => true, currentVersion := fun _ _ => none, childAgent := fun _ _ => some 200
    version := fun _ => none, currentPricing := fun _ => none, costCeiling := fun _ => (none, none)
    workspaceLimits := fun _ => none, artifacts := [{ id := 4, workspaceId := 1, runId := 3 }] }

def passingOn : DelegationRequest where
  aliasName := "helper"
  instruction := "read it"
  artifacts := ["4"]

def lendingRun : RunRow where
  workspaceId := 1
  sessionId := 2
  agentVersionId := 100
  sessionSequence := 1
  budgetRootRunId := 3
  queuedAt := 0
  updatedAt := 0
  createdAt := 0

theorem parseUuid_uuidText (id : Uuid) : parseUuid (uuidText id) = some id := by
  have hread : (uuidText id).toNat? = some id := Nat.toNat?_repr id
  rw [parseUuid, hread]
  exact if_pos (decide_eq_true rfl)

theorem readable_artifact : readableArtifact oneArtifact {} 3 lendingRun "4" = some 4 := by
  have hparse : parseUuid "4" = some 4 := parseUuid_uuidText 4
  rw [readableArtifact, hparse]
  rfl

/-- The binding names no file, and the child is given the one that the request names. -/
theorem file_beyond_binding :
    delegationRefusal oneArtifact {} 3 lendingRun lendingPolicy [passingOn] = none ∧ lentNoFiles ∈ lendingPolicy.children ∧
      lentNoFiles.files = [] ∧
      ¬ (askedBy lentNoFiles).covers (childScope (readableArtifact oneArtifact {} 3 lendingRun) {} lentNoFiles passingOn) := by
  have hfiles : passingOn.artifacts.filterMap (readableArtifact oneArtifact {} 3 lendingRun) = [4] := by
    rw [show passingOn.artifacts = ["4"] from rfl, List.filterMap_cons_some readable_artifact]
    rfl
  refine ⟨?_, List.mem_cons_self, rfl, fun hcovers => ?_⟩
  · have hreadable : (["4"].filter fun name => (readableArtifact oneArtifact {} 3 lendingRun name).isNone) = [] := by
      rw [List.filter_cons_of_neg (by rw [readable_artifact]; decide)]
      rfl
    unfold delegationRefusal
    rw [show [passingOn].flatMap (·.artifacts) = ["4"] from rfl, hreadable]
    rfl
  · have hgiven : "4" ∈ (childScope (readableArtifact oneArtifact {} 3 lendingRun) {} lentNoFiles passingOn).files := by
      dsimp only [childScope]
      rw [hfiles]
      decide
    exact Finset.notMem_empty _ (hcovers.2.1 hgiven)

end TinyHermes.Runs.SqlRunStore
