import TinyHermes.Outbound.EffectiveScope
import TinyHermes.Tools.Catalog

/-! The names that bound operations are called by, and what a name is answered with. -/
namespace TinyHermes.Tools
open Lib Agents Outbound
open Runs (Uuid)

/-- `HTTP_PREFIX`. -/
def httpKind : List Char := "http".toList

/-- `MCP_PREFIX`. -/
def mcpKind : List Char := "mcp".toList

/-- `http.{tool}.{operation}` and `mcp.{server}.{tool}`. -/
def callName (kind name item : List Char) : List Char := kind ++ '.' :: (name ++ '.' :: item)

/-- A `BoundOperation` or a `BoundMcpTool`: one of them, with everything the call needs. -/
structure BoundEntry (ι : Type) where
  toolName : List Char
  versionId : Uuid
  credentialRef : Option String
  item : ι
  deriving DecidableEq

section Entries
variable {ι : Type} [Item ι]

def BoundEntry.callName (kind : List Char) (e : BoundEntry ι) : List Char := Tools.callName kind e.toolName (Item.name e.item)

/-- What one binding comes to: those of its names that there is something under. -/
def entriesOf (c : Catalog ι) (items : ProviderVersion ι → List ι) (b : ToolBinding) : List (BoundEntry ι) :=
  match c.version b.versionId with
  | none => []
  | some v =>
    match c.provider v.providerId with
    | none => []
    | some q => b.names.filterMap fun name =>
      ((items v).find? (Item.name · == name)).map fun item =>
        { toolName := q.name, versionId := b.versionId, credentialRef := q.credentialRef, item }

/-- `_bound_operations`. -/
def boundOperations (c : Catalog Operation) (bindings : List ToolBinding) : List (BoundEntry Operation) :=
  bindings.flatMap (entriesOf c (·.items))

/-- `revalidate`: what the servers still offer, each being asked for what it advertises now. -/
def revalidate (m : Catalog McpTool) (offers : Uuid → List McpTool) (bindings : List ToolBinding) : List (BoundEntry McpTool) :=
  bindings.flatMap (entriesOf m fun v => offers v.id)

/-- Whether a delegated Run may call an operation, and lend it its credential. -/
def mayCall (scope : Option DelegationScope) (e : BoundEntry Operation) : Bool :=
  match scope with
  | none => true
  | some scope => decide (String.ofList (e.callName httpKind) ∈ scope.tools) &&
      e.credentialRef.all fun credential => decide (credential ∈ scope.secrets)

/-- `granted_operations`. -/
def grantedOperations (scope : Option DelegationScope) (operations : List (BoundEntry Operation)) : List (BoundEntry Operation) :=
  operations.filter (mayCall scope)

structure Resolved (ι : Type) where
  entry : BoundEntry ι
  writePolicy : Option WritePolicy
  deriving DecidableEq

/-- The first entry of a name, and `_write_policy` or `_mcp_policy` for it. -/
def resolve (kind : List Char) (bindings : List ToolBinding) (entries : List (BoundEntry ι)) (name : List Char) :
    Option (Resolved ι) :=
  (entries.find? (·.callName kind == name)).map fun e =>
    { entry := e, writePolicy := (bindings.find? (·.versionId == e.versionId)).bind (·.writePolicy) }

end Entries

inductive Answering where
  | http (found : Resolved Operation)
  | mcp (found : Resolved McpTool)
  deriving DecidableEq

/-- The routing of a call, and the start of `answer_mcp_call` or `answer_http_call`. -/
def answering (spec : DraftSpec) (granted : List (BoundEntry Operation)) (revalidated : List (BoundEntry McpTool))
    (name : List Char) : Option Answering :=
  if "mcp.".toList.isPrefixOf name then (resolve mcpKind spec.mcpTools.bindings revalidated name).map .mcp
  else if "http.".toList.isPrefixOf name then (resolve httpKind spec.httpTools.bindings granted name).map .http
  else none

section Names
variable {ι : Type} [Item ι]

def namesOf (kind : List Char) (c : Catalog ι) (b : ToolBinding) : List (List Char) :=
  match c.providerOf b.versionId with
  | none => []
  | some q => b.names.map (callName kind q.name)

def boundNames (kind : List Char) (c : Catalog ι) (bindings : List ToolBinding) : List (List Char) :=
  bindings.flatMap (namesOf kind c)

/-- No two bindings have an operation of the same tool in common. -/
def BoundOnce (c : Catalog ι) (bindings : List ToolBinding) : Prop :=
  bindings.Pairwise fun b b' => ∀ q, c.providerOf b.versionId = some q → c.providerOf b'.versionId = some q →
    b.names.Disjoint b'.names

/-- What publication found of the bindings: each is of a provider of the workspace, and declared by its version. -/
def Found (c : Catalog ι) (workspace : Uuid) (bindings : List ToolBinding) : Prop :=
  ∀ b ∈ bindings, ∃ v q, c.version b.versionId = some v ∧ c.provider v.providerId = some q ∧ q.workspaceId = workspace ∧
    ∀ name ∈ b.names, name ∈ v.items.map Item.name

variable {kind : List Char} {c c' : Catalog ι} {workspace : Uuid} {bindings : List ToolBinding}

theorem callName_inj {name name' item item' : List Char} (hname : '.' ∉ name) (hname' : '.' ∉ name')
    (h : callName kind name item = callName kind name' item') : name = name' ∧ item = item' := by
  have hbehind := (List.cons.inj (List.append_cancel_left h)).2
  exact Keys.parts_of_joined hname hname' hbehind

theorem Found.of_check {p : Reading} {a : Answers} {actor : Actor} {spec : DraftSpec}
    {unavailable : List (Uuid × Unbindable) → PublishRefusal}
    (h : checkTools p a workspace actor spec (some c.visibleVersions) unavailable bindings = .ok ()) :
    Found c workspace bindings := by
  intro _ hb
  obtain ⟨_, _, hreader, hbindable, _⟩ := checkTools_ok h hb
  cases hreader
  obtain ⟨hmem, hid⟩ := viewOf_mem hbindable.found
  obtain ⟨v, q, hv, hq, hworkspace, hnames⟩ := Catalog.visible_mem hmem
  rw [hid] at hv
  exact ⟨v, q, hv, hq, hworkspace, hnames ▸ hbindable.declared⟩

variable {b : ToolBinding}

theorem Found.here {q : Provider} (h : Found c workspace bindings) (hb : b ∈ bindings)
    (hq : c.providerOf b.versionId = some q) : q.workspaceId = workspace := by
  obtain ⟨_, _, hv, hq', hworkspace, _⟩ := h b hb
  rw [Catalog.providerOf, hv, Option.bind_some, hq'] at hq
  cases hq
  exact hworkspace

theorem namesOf_eq {q : Provider} (hq : c.providerOf b.versionId = some q) :
    namesOf kind c b = b.names.map (callName kind q.name) := by
  rw [namesOf, hq]

theorem mem_namesOf {name : List Char} (h : name ∈ namesOf kind c b) :
    ∃ q ∈ c.providers, c.providerOf b.versionId = some q ∧ ∃ item ∈ b.names, callName kind q.name item = name := by
  unfold namesOf at h
  split at h
  · cases h
  · next q hq =>
    obtain ⟨_, _, hprovider⟩ := Option.bind_eq_some_iff.mp hq
    exact ⟨q, (Catalog.provider_mem hprovider).1, hq, List.mem_map.mp h⟩

theorem namesOf_nodup (b : ToolBinding) : (namesOf kind c b).Nodup := by
  unfold namesOf
  split
  · exact List.nodup_nil
  · next q hq =>
    obtain ⟨_, _, hprovider⟩ := Option.bind_eq_some_iff.mp hq
    have hplain := c.names_plain q (Catalog.provider_mem hprovider).1
    exact b.names_nodup.map fun _ _ h => (callName_inj hplain hplain h).2

theorem namesOf_disjoint_iff (kind : List Char) {b' : ToolBinding} (hfound : Found c workspace bindings) (hb : b ∈ bindings) (hb' : b' ∈ bindings) :
    (namesOf kind c b).Disjoint (namesOf kind c b') ↔
      ∀ q, c.providerOf b.versionId = some q → c.providerOf b'.versionId = some q → b.names.Disjoint b'.names := by
  constructor
  · intro hapart q hq hq' name hname hname'
    rw [namesOf_eq hq, namesOf_eq hq'] at hapart
    exact hapart (List.mem_map_of_mem hname) (List.mem_map_of_mem hname')
  · intro hapart _ hname hname'
    obtain ⟨q, hmem, hq, _, hitem, hsame⟩ := mem_namesOf hname
    obtain ⟨q', hmem', hq', _, hitem', hsame'⟩ := mem_namesOf hname'
    obtain ⟨hnames, rfl⟩ := callName_inj (c.names_plain q hmem) (c.names_plain q' hmem') (hsame.trans hsame'.symm)
    have hworkspace : q.workspaceId = q'.workspaceId := (hfound.here hb hq).trans (hfound.here hb' hq').symm
    have hone : q = q' := List.inj_on_of_nodup_map c.provider_names hmem hmem' (by rw [hworkspace, hnames])
    subst hone
    exact hapart q hq hq' hitem hitem'

theorem boundNames_nodup_iff (hfound : Found c workspace bindings) :
    (boundNames kind c bindings).Nodup ↔ BoundOnce c bindings := by
  rw [boundNames, List.nodup_flatMap, BoundOnce]
  have hpairs := List.Pairwise.iff_of_mem (l := bindings) fun {b b'} hb hb' =>
    namesOf_disjoint_iff kind hfound hb hb'
  constructor
  · intro h
    exact hpairs.mp h.2
  · intro h
    exact ⟨fun b _ => namesOf_nodup b, hpairs.mpr h⟩

variable {items : ProviderVersion ι → List ι}

theorem mem_entriesOf {e : BoundEntry ι} (h : e ∈ entriesOf c items b) :
    ∃ v q, c.version b.versionId = some v ∧ c.provider v.providerId = some q ∧ e.toolName = q.name ∧
      e.versionId = b.versionId ∧ e.credentialRef = q.credentialRef ∧ Item.name e.item ∈ b.names := by
  unfold entriesOf at h
  split at h
  · cases h
  · next v hv =>
    split at h
    · cases h
    · next q hq =>
      obtain ⟨_, hname, hentry⟩ := List.mem_filterMap.mp h
      obtain ⟨_, hitem, rfl⟩ := Option.map_eq_some_iff.mp hentry
      refine ⟨v, q, hv, hq, rfl, rfl, rfl, ?_⟩
      rw [(Keys.found hitem).2]
      exact hname

theorem entriesOf_names (b : ToolBinding) :
    ((entriesOf c items b).map (·.callName kind)).Sublist (namesOf kind c b) := by
  unfold entriesOf
  split
  · exact List.nil_sublist _
  · next v hv =>
    split
    · exact List.nil_sublist _
    · next q hq =>
      have hprovider : c.providerOf b.versionId = some q := by
        rw [Catalog.providerOf, hv, Option.bind_some, hq]
      rw [namesOf_eq hprovider]
      induction b.names with
      | nil => exact List.Sublist.refl _
      | cons name rest ih =>
        rw [List.filterMap_cons, List.map_cons]
        cases hitem : (items v).find? (Item.name · == name) with
        | none => exact ih.cons _
        | some item =>
          have hsame : Item.name item = name := (Keys.found hitem).2
          rw [← hsame]
          exact ih.cons_cons _

theorem entries_names (bindings : List ToolBinding) :
    ((bindings.flatMap (entriesOf c items)).map (·.callName kind)).Sublist (boundNames kind c bindings) := by
  rw [List.map_flatMap, boundNames]
  induction bindings with
  | nil => exact List.Sublist.refl _
  | cons b rest ih => exact (entriesOf_names b).append ih

theorem boundNames_grows (hfound : Found c workspace bindings) (hgrows : c.Grows c') :
    boundNames kind c' bindings = boundNames kind c bindings := by
  apply List.flatMap_congr
  intro b hb
  obtain ⟨_, q, hv, hq, _⟩ := hfound b hb
  have hprovider : c.providerOf b.versionId = some q := by
    rw [Catalog.providerOf, hv, Option.bind_some, hq]
  rw [namesOf_eq hprovider, namesOf_eq (hgrows.providerOf hprovider)]

theorem resolve_own {entries : List (BoundEntry ι)} {e : BoundEntry ι}
    (hentries : entries.Sublist (bindings.flatMap (entriesOf c items))) (hnames : (boundNames kind c bindings).Nodup)
    (hversions : (bindings.map (·.versionId)).Nodup) (hb : b ∈ bindings) (he : e ∈ entries) (hof : e ∈ entriesOf c items b) :
    resolve kind bindings entries (e.callName kind) = some ⟨e, b.writePolicy⟩ := by
  have hdistinct := hnames.sublist ((hentries.map (·.callName kind)).trans (entries_names bindings))
  have hown := Keys.find_own hdistinct he
  obtain ⟨_, _, _, _, _, hversion, _⟩ := mem_entriesOf hof
  have hbinding := Keys.find_own hversions hb
  rw [resolve, hown, Option.map_some, hversion, hbinding, Option.bind_some]

theorem entriesOf_found (hfound : Found c workspace bindings) (hgrows : c.Grows c') (hb : b ∈ bindings)
    {name : List Char} (hname : name ∈ b.names) : ∃ e ∈ entriesOf c' (·.items) b, Item.name e.item = name := by
  obtain ⟨_, q, hv, hq, _, hdeclared⟩ := hfound b hb
  obtain ⟨v', hv', hprovider, hitems⟩ := hgrows.version hv
  have hq' : c'.provider v'.providerId = some q := by
    obtain ⟨hmem, hid⟩ := Catalog.provider_mem hq
    rw [hprovider, ← hid]
    exact Catalog.provider_of_mem (hgrows.providers q hmem)
  obtain ⟨item, hitem, rfl⟩ := List.mem_map.mp (hdeclared name hname)
  have hown := Keys.find_own (c'.items_nodup v' (Catalog.version_mem hv').1) (hitems ▸ hitem)
  refine ⟨⟨q.name, b.versionId, q.credentialRef, item⟩, ?_, rfl⟩
  unfold entriesOf
  rw [hv']
  dsimp only
  rw [hq']
  refine List.mem_filterMap.mpr ⟨_, hname, ?_⟩
  rw [hown]
  rfl

end Names

section Calls
variable {p : Reading} {a : Answers} {workspace : Uuid} {actor : Actor} {spec : DraftSpec} {c c' : Catalog Operation}
  {m m' : Catalog McpTool}

def NamedApart (c : Catalog Operation) (m : Catalog McpTool) (spec : DraftSpec) : Prop :=
  (boundNames httpKind c spec.httpTools.bindings ++ boundNames mcpKind m spec.mcpTools.bindings).Nodup

/-- Whatever a Run is lent and the servers still offer, each bound operation is there under its own name, which it answers under
the policy of its binding and with the credential of its tool. -/
structure Reached (c : Catalog Operation) (m : Catalog McpTool) (spec : DraftSpec) : Prop where
  bound : ∀ b ∈ spec.httpTools.bindings, ∀ name ∈ b.names, ∃ e ∈ entriesOf c (·.items) b, Item.name e.item = name
  http : ∀ scope offers, ∀ b ∈ spec.httpTools.bindings, ∀ e ∈ entriesOf c (·.items) b, mayCall scope e = true →
    answering spec (grantedOperations scope (boundOperations c spec.httpTools.bindings))
      (revalidate m offers spec.mcpTools.bindings) (e.callName httpKind) = some (.http ⟨e, b.writePolicy⟩)
  mcp : ∀ scope offers, ∀ b ∈ spec.mcpTools.bindings, ∀ e ∈ entriesOf m (fun v => offers v.id) b,
    answering spec (grantedOperations scope (boundOperations c spec.httpTools.bindings))
      (revalidate m offers spec.mcpTools.bindings) (e.callName mcpKind) = some (.mcp ⟨e, b.writePolicy⟩)

theorem callName_kind {ι : Type} [Item ι] {bindings : List ToolBinding} {c : Catalog ι} {kind name : List Char}
    (h : name ∈ boundNames kind c bindings) : ∃ rest, name = kind ++ '.' :: rest := by
  obtain ⟨_, _, hname⟩ := List.mem_flatMap.mp h
  obtain ⟨_, _, _, _, _, rfl⟩ := mem_namesOf hname
  exact ⟨_, rfl⟩

theorem kinds_disjoint {https mcps : List ToolBinding} : (boundNames httpKind c https).Disjoint (boundNames mcpKind m mcps) := by
  intro _ hhttp hmcp
  obtain ⟨_, rfl⟩ := callName_kind hhttp
  obtain ⟨_, hsame⟩ := callName_kind hmcp
  have hfirst := (List.cons.inj hsame).1
  exact absurd hfirst (by decide)

theorem namedApart_iff (hhttp : Found c workspace spec.httpTools.bindings) (hmcp : Found m workspace spec.mcpTools.bindings) :
    NamedApart c m spec ↔ BoundOnce c spec.httpTools.bindings ∧ BoundOnce m spec.mcpTools.bindings := by
  rw [NamedApart, List.nodup_append', boundNames_nodup_iff hhttp, boundNames_nodup_iff hmcp]
  constructor
  · rintro ⟨h, h', _⟩
    exact ⟨h, h'⟩
  · rintro ⟨h, h'⟩
    exact ⟨h, h', kinds_disjoint⟩

theorem reached_of_apart (hhttp : Found c workspace spec.httpTools.bindings) (hmcp : Found m workspace spec.mcpTools.bindings)
    (hc : c.Grows c') (hm : m.Grows m') (hnames : NamedApart c m spec) : Reached c' m' spec := by
  obtain ⟨hhttps, hmcps, _⟩ := List.nodup_append'.mp hnames
  rw [← boundNames_grows hhttp hc] at hhttps
  rw [← boundNames_grows hmcp hm] at hmcps
  refine ⟨fun b hb name hname => entriesOf_found hhttp hc hb hname, ?_, ?_⟩
  · intro scope offers b hb e he hmay
    have hmem : e ∈ grantedOperations scope (boundOperations c' spec.httpTools.bindings) :=
      List.mem_filter.mpr ⟨List.mem_flatMap.mpr ⟨b, hb, he⟩, hmay⟩
    have hown := resolve_own List.filter_sublist hhttps spec.httpTools.versions_nodup hb hmem he
    have hmcpName : "mcp.".toList.isPrefixOf (e.callName httpKind) = false := rfl
    have hhttpName : "http.".toList.isPrefixOf (e.callName httpKind) = true := rfl
    rw [answering, if_neg (by rw [hmcpName]; exact Bool.false_ne_true), if_pos hhttpName]
    exact congrArg (Option.map Answering.http) hown
  · intro _ offers b hb e he
    have hmem : e ∈ revalidate m' offers spec.mcpTools.bindings := List.mem_flatMap.mpr ⟨b, hb, he⟩
    have hown := resolve_own (List.Sublist.refl _) hmcps spec.mcpTools.versions_nodup hb hmem he
    have hmcpName : "mcp.".toList.isPrefixOf (e.callName mcpKind) = true := rfl
    rw [answering, if_pos hmcpName]
    exact congrArg (Option.map Answering.mcp) hown

/-- The names of what a published spec binds are distinct, and each then reaches its own operation under its own policy, if and
only if no operation is bound from two versions of one tool or server. -/
theorem call_names_iff (hreaders : a.httpTools = some c.visibleVersions ∧ a.mcp = some m.visibleVersions)
    (hhttp : checkHttpTools p a workspace actor spec = .ok ()) (hmcp : checkMcpTools p a workspace actor spec = .ok ()) :
    (NamedApart c m spec ∧ ∀ c' m', c.Grows c' → m.Grows m' → Reached c' m' spec) ↔
      BoundOnce c spec.httpTools.bindings ∧ BoundOnce m spec.mcpTools.bindings := by
  rw [checkHttpTools, hreaders.1] at hhttp
  rw [checkMcpTools, hreaders.2] at hmcp
  have hfound := Found.of_check hhttp
  have hfound' := Found.of_check hmcp
  rw [← namedApart_iff hfound hfound']
  constructor
  · exact And.left
  · intro hnames
    exact ⟨hnames, fun c' m' hc hm => reached_of_apart hfound hfound' hc hm hnames⟩

def oneTool : Catalog Operation where
  providers := [{ id := 3, workspaceId := 1, name := "orders".toList, host := "a.b".toList }]
  versions := [{ id := 10, providerId := 3, items := [⟨"pay".toList, "POST"⟩] },
    { id := 11, providerId := 3, items := [⟨"pay".toList, "POST"⟩] }]
  names_plain := by decide
  items_nodup := by decide

def pays (versionId : Uuid) (writePolicy : WritePolicy) : ToolBinding where
  versionId := versionId
  names := ["pay".toList]
  writePolicy := some writePolicy
  names_ne_nil := List.cons_ne_nil _ _
  names_nodup := List.nodup_singleton _

def administered : Answers where
  roleFor _ _ := some .workspaceAdmin
  endpoints := none
  skills := none
  scopes := none
  httpTools := some oneTool.visibleVersions
  mcp := some (Catalog.visibleVersions ({} : Catalog McpTool))
  publishedAliases _ _ := []
  workspaceCeilings := none

def bound {most mostNames : Nat} (bindings : List ToolBinding) (h : bindings.length ≤ most ∧
    (bindings.map (·.names.length)).sum ≤ mostNames ∧ (bindings.map (·.versionId)).Nodup) : ToolBindings most mostNames where
  bindings
  few := h.1
  fewNames := h.2.1
  versions_nodup := h.2.2

theorem paysOnce_bound : [pays 10 .governance].length ≤ maxHttpToolBindings ∧
    ([pays 10 .governance].map (·.names.length)).sum ≤ maxBoundOperations ∧
    ([pays 10 .governance].map (·.versionId)).Nodup := by decide

theorem paysTwice_bound : [pays 10 .preauthorized, pays 11 .governance].length ≤ maxHttpToolBindings ∧
    ([pays 10 .preauthorized, pays 11 .governance].map (·.names.length)).sum ≤ maxBoundOperations ∧
    ([pays 10 .preauthorized, pays 11 .governance].map (·.versionId)).Nodup := by decide

theorem nothing_bound : ([] : List ToolBinding).length ≤ maxMcpBindings ∧
    (([] : List ToolBinding).map (·.names.length)).sum ≤ maxBoundMcpTools ∧
    (([] : List ToolBinding).map (·.versionId)).Nodup := by decide

def paysOnce : DraftSpec where
  networkAllow := ["a.b"]
  httpTools := bound [pays 10 .governance] paysOnce_bound
  mcpTools := bound [] nothing_bound

def paysTwice : DraftSpec where
  networkAllow := ["a.b"]
  httpTools := bound [pays 10 .preauthorized, pays 11 .governance] paysTwice_bound
  mcpTools := bound [] nothing_bound

/-- An operation that is bound once is reached by its name. -/
theorem paysOnce_reached : Reached oneTool {} paysOnce := by
  have hhttp : checkHttpTools hostsOnly administered 1 { id := 7 } paysOnce = .ok () := by decide +kernel
  have hmcp : checkMcpTools hostsOnly administered 1 { id := 7 } paysOnce = .ok () := rfl
  exact ((call_names_iff ⟨rfl, rfl⟩ hhttp hmcp).mpr ⟨List.pairwise_singleton _ _, List.Pairwise.nil⟩).2 _ _ (.refl _) (.refl _)

/-- Two versions of one tool are published with one operation, under different policies, and the second is never asked for: its
name is answered by the first, which was approved in advance. -/
theorem paysTwice_ambiguous : checkHttpTools hostsOnly administered 1 { id := 7 } paysTwice = .ok () ∧
    checkMcpTools hostsOnly administered 1 { id := 7 } paysTwice = .ok () ∧ ¬ NamedApart oneTool {} paysTwice ∧
    ∃ e ∈ entriesOf oneTool (·.items) (pays 11 .governance), ∃ found,
      answering paysTwice (boundOperations oneTool paysTwice.httpTools.bindings) [] (e.callName httpKind) = some (.http found) ∧
        found.entry.versionId = 10 ∧ found.writePolicy = some .preauthorized := by
  refine ⟨by decide +kernel, rfl, ?_, ?_⟩
  · unfold NamedApart
    decide +kernel
  · exact ⟨_, List.mem_cons_self, _, rfl, rfl, rfl⟩

end Calls

end TinyHermes.Tools
