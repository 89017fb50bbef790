import TinyHermes.Agents.PublishChecks
import TinyHermes.Lib.Keys

/-! The HTTP tools and MCP servers that are registered, and what a workspace may bind of them. -/
namespace TinyHermes.Tools
open Lib
open Runs (Uuid)
open Agents (BindingView)
open Outbound (isLabelChar)

section Names

/-- `[a-z0-9]+(-[a-z0-9]+)*`, behind a dash or at the start. -/
def nameBehind : Bool → List Char → Bool
  | dash, [] => !dash
  | dash, c :: rest => if c == '-' then !dash && nameBehind true rest else isLabelChar c && nameBehind false rest

/-- `NAME_PATTERN`, whose `$` also stands before a line break at the end. -/
def isName (name : List Char) : Bool :=
  nameBehind true name || (name.getLast? == some '\n' && nameBehind true name.dropLast)

def nameMaxLength : Nat := 48

theorem nameBehind_plain {dash : Bool} {name : List Char} (h : nameBehind dash name = true) : '.' ∉ name := by
  induction name generalizing dash with
  | nil => exact List.not_mem_nil
  | cons c rest ih =>
    rw [nameBehind] at h
    rw [List.mem_cons, not_or]
    split_ifs at h with hdash
    · refine ⟨?_, ih (Bool.and_eq_true_iff.mp h).2⟩
      rintro rfl
      exact absurd hdash (by decide)
    · refine ⟨?_, ih (Bool.and_eq_true_iff.mp h).2⟩
      rintro rfl
      exact absurd (Bool.and_eq_true_iff.mp h).1 (by decide)

theorem isName_plain {name : List Char} (h : isName name = true) : '.' ∉ name := by
  obtain h | h := Bool.or_eq_true_iff.mp h
  · exact nameBehind_plain h
  · obtain ⟨hlast, hfront⟩ := Bool.and_eq_true_iff.mp h
    have hwhole := List.dropLast_append_getLast? '\n' (beq_iff_eq.mp hlast)
    rw [← hwhole, List.mem_append, not_or]
    exact ⟨nameBehind_plain hfront, by decide⟩

end Names

/-- An `HttpTool` or an `McpServer`: a name and a place in a workspace. -/
structure Provider where
  id : Uuid
  workspaceId : Uuid
  name : List Char
  host : List Char
  credentialRef : Option String := none
  deriving DecidableEq

structure ProviderVersion (ι : Type) where
  id : Uuid
  providerId : Uuid
  contentHash : Nat := 0
  items : List ι
  active : Bool := true

/-- `Operation`, by the name a binding is written against. -/
structure Operation where
  operationId : List Char
  method : String
  deriving DecidableEq

/-- `READ_ONLY_METHODS`. -/
def Operation.readOnly (o : Operation) : Bool := o.method == "GET" || o.method == "HEAD" || o.method == "OPTIONS"

structure McpTool where
  name : List Char
  deriving DecidableEq

/-- What a version is made of: things with names, some of which write. -/
class Item (ι : Type) where
  name : ι → List Char
  writes : ι → Bool

instance : Item Operation := ⟨Operation.operationId, fun o => !o.readOnly⟩

/-- A server does not say which of its tools change something. -/
instance : Item McpTool := ⟨McpTool.name, fun _ => true⟩

/-- What is registered: each id once, each name once in its workspace, and no name twice in a version. -/
structure Catalog (ι : Type) [Item ι] where
  providers : List Provider := []
  versions : List (ProviderVersion ι) := []
  providerIds_nodup : (providers.map (·.id)).Nodup := by simp
  versionIds_nodup : (versions.map (·.id)).Nodup := by simp
  provider_names : (providers.map fun q => (q.workspaceId, q.name)).Nodup := by simp
  names_plain : ∀ q ∈ providers, '.' ∉ q.name := by simp
  items_nodup : ∀ v ∈ versions, (v.items.map Item.name).Nodup := by simp

inductive RegisterRefusal where
  | invalidName | nameTaken
  /-- Two operations share an id, or a tool is advertised twice. -/
  | invalidDocument
  /-- The keys of the tables. -/
  | idTaken
  | unknownProvider | unknownVersion
  deriving DecidableEq, Repr

namespace Catalog
variable {ι : Type} [Item ι]

def provider (c : Catalog ι) (id : Uuid) : Option Provider := c.providers.find? (·.id == id)

def version (c : Catalog ι) (id : Uuid) : Option (ProviderVersion ι) := c.versions.find? (·.id == id)

def providerOf (c : Catalog ι) (versionId : Uuid) : Option Provider :=
  (c.version versionId).bind fun v => c.provider v.providerId

/-- `visible_versions`: the versions of this workspace among these, each once. -/
def visibleVersions (c : Catalog ι) (workspace : Uuid) (ids : List Uuid) : List BindingView :=
  ids.eraseDups.filterMap fun id => do
    let v ← c.version id
    let q ← c.provider v.providerId
    if q.workspaceId = workspace then
      some { providerId := q.id, versionId := v.id, name := q.name, host := q.host, names := v.items.map Item.name
             writes := (v.items.filter Item.writes).map Item.name, active := v.active }
    else none

/-- `add_version` of the store: a document that is registered already is the version it is. -/
def addVersion (c : Catalog ι) (v : ProviderVersion ι) : Except RegisterRefusal (Catalog ι) :=
  if c.versions.any fun w => w.providerId == v.providerId && w.contentHash == v.contentHash then .ok c
  else if hdocument : (v.items.map Item.name).Nodup then
    if hid : v.id ∈ c.versions.map (·.id) then .error .idTaken
    else .ok { c with
      versions := c.versions ++ [v]
      versionIds_nodup := Keys.nodup_snoc c.versionIds_nodup hid
      items_nodup := Keys.forall_snoc c.items_nodup hdocument }
  else .error .invalidDocument

/-- `create_tool` and `create_server`. -/
def createProvider (c : Catalog ι) (q : Provider) (hname : isName q.name = true) : Except RegisterRefusal (Catalog ι) :=
  if htaken : (q.workspaceId, q.name) ∈ c.providers.map (fun q => (q.workspaceId, q.name)) then .error .nameTaken
  else if hid : q.id ∈ c.providers.map (·.id) then .error .idTaken
  else .ok { c with
    providers := c.providers ++ [q]
    providerIds_nodup := Keys.nodup_snoc c.providerIds_nodup hid
    provider_names := Keys.nodup_snoc c.provider_names htaken
    names_plain := Keys.forall_snoc c.names_plain (isName_plain hname) }

/-- `register`: a new provider and its first version. -/
def register (c : Catalog ι) (q : Provider) (v : ProviderVersion ι) : Except RegisterRefusal (Catalog ι) :=
  if hname : isName q.name = true ∧ q.name.length ≤ nameMaxLength then do
    let created ← c.createProvider q hname.1
    created.addVersion { v with providerId := q.id }
  else .error .invalidName

def withdrawn (versionId : Uuid) (v : ProviderVersion ι) : ProviderVersion ι :=
  if v.id = versionId then { v with active := false } else v

omit [Item ι] in
theorem withdrawn_same (versionId : Uuid) (v : ProviderVersion ι) : (withdrawn versionId v).id = v.id ∧
    (withdrawn versionId v).providerId = v.providerId ∧ (withdrawn versionId v).items = v.items := by
  unfold withdrawn
  split_ifs <;> exact ⟨rfl, rfl, rfl⟩

theorem withdrawn_ids (c : Catalog ι) (versionId : Uuid) : ((c.versions.map (withdrawn versionId)).map (·.id)).Nodup := by
  rw [List.map_map]
  have hids : (fun v : ProviderVersion ι => v.id) ∘ withdrawn versionId = fun v => v.id := by
    funext v
    exact (withdrawn_same versionId v).1
  rw [hids]
  exact c.versionIds_nodup

theorem withdrawn_items (c : Catalog ι) (versionId : Uuid) :
    ∀ v ∈ c.versions.map (withdrawn versionId), (v.items.map Item.name).Nodup := by
  intro _ hw
  obtain ⟨v, hv, rfl⟩ := List.mem_map.mp hw
  rw [(withdrawn_same versionId v).2.2]
  exact c.items_nodup v hv

/-- `withdraw_version`. -/
def withdrawVersion (c : Catalog ι) (versionId : Uuid) : Catalog ι :=
  { c with
    versions := c.versions.map (withdrawn versionId)
    versionIds_nodup := withdrawn_ids c versionId
    items_nodup := withdrawn_items c versionId }

/-- What is registered stays, as it is: a version is never another one, and a provider keeps its name. -/
structure Grows (c c' : Catalog ι) : Prop where
  providers : ∀ q ∈ c.providers, q ∈ c'.providers
  versions : ∀ v ∈ c.versions, ∃ v' ∈ c'.versions, v'.id = v.id ∧ v'.providerId = v.providerId ∧ v'.items = v.items

variable {c c' c'' : Catalog ι}

theorem Grows.refl (c : Catalog ι) : Grows c c := ⟨fun _ hq => hq, fun v hv => ⟨v, hv, rfl, rfl, rfl⟩⟩

theorem Grows.trans (h : Grows c c') (h' : Grows c' c'') : Grows c c'' where
  providers q hq := h'.providers q (h.providers q hq)
  versions v hv := by
    obtain ⟨v', hv', hid, hprovider, hitems⟩ := h.versions v hv
    obtain ⟨v'', hv'', hid', hprovider', hitems'⟩ := h'.versions v' hv'
    exact ⟨v'', hv'', hid'.trans hid, hprovider'.trans hprovider, hitems'.trans hitems⟩

theorem addVersion_grows {v : ProviderVersion ι} (h : c.addVersion v = .ok c') : Grows c c' := by
  unfold addVersion at h
  split_ifs at h
  · cases h
    exact .refl _
  all_goals cases h
  exact ⟨fun _ hq => hq, fun v hv => ⟨v, List.mem_append_left _ hv, rfl, rfl, rfl⟩⟩

theorem register_grows {q : Provider} {v : ProviderVersion ι} (h : c.register q v = .ok c') : Grows c c' := by
  unfold register at h
  split_ifs at h
  obtain ⟨_, hcreated, h⟩ := Fallible.bind_ok.mp h
  refine Grows.trans ?_ (addVersion_grows h)
  unfold createProvider at hcreated
  split_ifs at hcreated
  all_goals cases hcreated
  exact ⟨fun _ hq => List.mem_append_left _ hq, fun v hv => ⟨v, hv, rfl, rfl, rfl⟩⟩

theorem withdrawVersion_grows (c : Catalog ι) (versionId : Uuid) : Grows c (c.withdrawVersion versionId) where
  providers _ hq := hq
  versions v hv := ⟨_, List.mem_map_of_mem hv, withdrawn_same versionId v⟩

theorem provider_mem {id : Uuid} {q : Provider} (h : c.provider id = some q) : q ∈ c.providers ∧ q.id = id := Keys.found h

theorem provider_of_mem {q : Provider} (h : q ∈ c.providers) : c.provider q.id = some q := Keys.find_own c.providerIds_nodup h

theorem version_mem {id : Uuid} {v : ProviderVersion ι} (h : c.version id = some v) : v ∈ c.versions ∧ v.id = id := Keys.found h

theorem Grows.version (h : Grows c c') {id : Uuid} {v : ProviderVersion ι} (hv : c.version id = some v) :
    ∃ v', c'.version id = some v' ∧ v'.providerId = v.providerId ∧ v'.items = v.items := by
  obtain ⟨hmem, rfl⟩ := version_mem hv
  obtain ⟨v', hv', hid, hprovider, hitems⟩ := h.versions v hmem
  rw [← hid]
  exact ⟨v', Keys.find_own c'.versionIds_nodup hv', hprovider, hitems⟩

theorem Grows.providerOf (h : Grows c c') {id : Uuid} {q : Provider} (hq : c.providerOf id = some q) :
    c'.providerOf id = some q := by
  obtain ⟨_, hv, hq⟩ := Option.bind_eq_some_iff.mp hq
  obtain ⟨_, hv', hprovider, _⟩ := h.version hv
  obtain ⟨hmem, hid⟩ := provider_mem hq
  rw [Catalog.providerOf, hv', Option.bind_some, hprovider, ← hid]
  exact provider_of_mem (h.providers q hmem)

theorem visible_mem {workspace : Uuid} {ids : List Uuid} {view : BindingView} (h : view ∈ c.visibleVersions workspace ids) :
    ∃ v q, c.version view.versionId = some v ∧ c.provider v.providerId = some q ∧ q.workspaceId = workspace ∧
      view.names = v.items.map Item.name := by
  obtain ⟨_, _, hview⟩ := List.mem_filterMap.mp h
  obtain ⟨v, hv, hview⟩ := Option.bind_eq_some_iff.mp hview
  obtain ⟨q, hq, hview⟩ := Option.bind_eq_some_iff.mp hview
  split_ifs at hview with hworkspace
  cases hview
  refine ⟨v, q, ?_, hq, hworkspace, rfl⟩
  rw [(version_mem hv).2]
  exact hv

end Catalog

end TinyHermes.Tools
