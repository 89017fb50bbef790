import TinyHermes.Egress.Proxy
import TinyHermes.Lib.Documents

/-! What each layer approved, read from the platform's rows, and what is approved when a part of a claim is lost. -/
namespace TinyHermes.Egress
open Lib Outbound

/-- The rows that layers are read from, in the order a query answers them. -/
structure DirectoryRows where
  /-- `outbound_scopes`: its level, workspace and entry. -/
  scopes : List (String × Option Nat × List Char) := []
  /-- The `spec` of each agent version. -/
  specs : List (Nat × Json) := []
  /-- The `delegation_scope` of each Run. -/
  delegations : List (Nat × Json) := []
  /-- `model_discovery_grants`: its id, its host and when it ends. -/
  grants : List (Nat × List Char × Int) := []
  now : Int := 0

section Lookup
variable (p : Reading) (shown : Json → List Char) (d : DirectoryRows)

/-- `str(entry)`; `shown` is that of what is no text. -/
def strOf : Json → List Char
  | .string text => text.toList
  | other => shown other

/-- `_level`. -/
def level (name : String) (workspaceId : Option Nat) : Except ScopeEntryInvalid OutboundScope :=
  OutboundScope.ofTexts p ((d.scopes.filter fun row => row.1 == name && row.2.1 == workspaceId).map (·.2.2))

/-- `_agent`: what a version declared, or nothing. -/
def agentScope (versionId : Nat) : Except ScopeEntryInvalid OutboundScope :=
  match d.specs.lookup versionId with
  | some (.object document) =>
    match document.lookup "network" with
    | some (.object network) =>
      match network.lookup "allow" with
      | some (.array entries) => OutboundScope.ofTexts p (entries.map (strOf shown))
      | _ => .ok .nothing
    | _ => .ok .nothing
  | _ => .ok .nothing

/-- `_run`: what a delegation granted, or no layer at all. -/
def runScope (runId : Nat) : Except ScopeEntryInvalid (Option OutboundScope) :=
  match d.delegations.lookup runId with
  | some (.object document) =>
    match document.lookup "network" with
    | some (.array entries) => (OutboundScope.ofTexts p (entries.map (strOf shown))).map some
    | _ => .ok (some .nothing)
  | _ => .ok none

def grantedHost (claim : CallerClaim) (discoveryId : Nat) : Option (List Char) :=
  if claim.kind = .platform ∧ claim.workspaceId = none ∧ claim.agentVersionId = none ∧ claim.runId = none then
    (d.grants.find? fun grant => grant.1 == discoveryId && Decidable.decide (d.now < grant.2.2)).map (·.2.1)
  else none

/-- `layers_for`. -/
def layersFor (claim : CallerClaim) : Except ScopeEntryInvalid ScopeLayers :=
  match claim.discoveryId with
  | some discoveryId =>
    match grantedHost d claim discoveryId with
    | some (c :: host) => do return { platform := ← OutboundScope.ofTexts p [c :: host] }
    | _ => .ok { platform := .nothing }
  | none => do
    let platform ← level p d "platform" none
    let workspace ← claim.workspaceId.mapM fun id => level p d "workspace" (some id)
    let agent ← claim.agentVersionId.mapM (agentScope p shown d)
    let run ← claim.runId.mapM (runScope p shown d)
    return { platform, workspace, agent, run := run.join }

end Lookup

section Claims
variable (w : HeadReading)

/-- The name and id that one part of a claim gives, if it can be read. -/
def namedId (part : List Char) : Option (List Char × Nat) :=
  let (key, _, value) := partition '=' part
  (w.uuid (Text.stripChars value)).map fun id => (w.lower (Text.stripChars key), id)

def idsOf (parts : List (List Char)) : List (List Char × Nat) := parts.filterMap (namedId w)

end Claims

def scopeNames : List (List Char) := ["workspace", "agent", "run", "discovery"].map String.toList

def lastId (ids : List (List Char × Nat)) (name : List Char) : Option Nat := ids.reverse.lookup name

def claimOf (ids : List (List Char × Nat)) : CallerClaim where
  kind := .platform
  workspaceId := lastId ids "workspace".toList
  agentVersionId := lastId ids "agent".toList
  runId := lastId ids "run".toList
  discoveryId := lastId ids "discovery".toList

/-- One part of a header is missing from the other, or stands there as what cannot be read. -/
structure Loses (w : HeadReading) (header variant : List Char) (before : List (List Char)) (part : List Char)
    (after : List (List Char)) : Prop where
  header : header.splitOn ';' = before ++ part :: after
  variant : (∃ bad, namedId w bad = none ∧ variant.splitOn ';' = before ++ bad :: after) ∨
    variant.splitOn ';' = before ++ after ∨ (variant = [] ∧ before = [] ∧ after = [])

/-- A part that gives the claim no id of its own: unreadable, of another name, before another part of its name, or with the id of
the part of its name before it. -/
def Redundant (before : List (List Char × Nat)) (named : Option (List Char × Nat)) (after : List (List Char × Nat)) : Prop :=
  ∀ name id, named = some (name, id) → name ∈ scopeNames →
    (lastId after name).isSome = true ∨ lastId before name = some id

/-- Ids with which nothing is approved: a lookup of models, together with a workspace, an agent version or a Run. -/
def Contradictory (ids : List (List Char × Nat)) : Prop :=
  (lastId ids "discovery".toList).isSome = true ∧
    ((lastId ids "workspace".toList).isSome = true ∨ (lastId ids "agent".toList).isSome = true ∨
      (lastId ids "run".toList).isSome = true)

/-- The proxy connects to a target that is measured against these layers. -/
def Reaches (p : Reading) (k : Classification) (target : Target) (addresses : List Address) (approved : List Network)
    (ports : List Nat) (layers : Except ScopeEntryInvalid ScopeLayers) : Prop :=
  ∃ l, layers = .ok l ∧ (decide p k target (l.effective p) addresses approved ports).allowed = true

section Ids
variable {w : HeadReading} {before after ids ids' : List (List Char × Nat)} {named : Option (List Char × Nat)}
  {name : List Char}

theorem lastId_append : lastId (before ++ after) name = (lastId after name).or (lastId before name) := by
  rw [lastId, List.reverse_append, List.lookup_append]
  rfl

theorem claimedLayers_eq (header : List Char) :
    claimedLayers w (some header) = claimOf (idsOf w (header.splitOn ';')) := rfl

theorem claimOf_eq_iff : claimOf ids = claimOf ids' ↔ ∀ name ∈ scopeNames, lastId ids name = lastId ids' name := by
  rw [claimOf, claimOf, CallerClaim.mk.injEq]
  simp [scopeNames]

theorem claimOf_lost_iff : claimOf (before ++ after) = claimOf (before ++ named.toList ++ after) ↔
    Redundant before named after := by
  rw [claimOf_eq_iff, Redundant]
  cases named with
  | none =>
    constructor
    · intro _ name id h
      cases h
    · intro _ name _
      rw [Option.toList_none, List.append_nil]
  | some given =>
    obtain ⟨key, id⟩ := given
    constructor
    · rintro h name _ ⟨⟩ hname
      have hsame := h key hname
      rw [lastId_append, lastId_append, lastId_append] at hsame
      cases hafter : lastId after key with
      | some => exact .inl rfl
      | none =>
        right
        rw [hafter, Option.none_or, Option.none_or] at hsame
        rw [hsame]
        simp [lastId]
    · intro h name hname
      rw [lastId_append, lastId_append, lastId_append]
      cases hafter : lastId after name with
      | some => rfl
      | none =>
        rw [Option.none_or, Option.none_or]
        by_cases hkey : name = key
        · obtain hlater | hearlier := h key id rfl (hkey ▸ hname)
          · rw [← hkey, hafter] at hlater
            cases hlater
          · rw [hkey, hearlier]
            simp [lastId]
        · have hother : lastId (Option.toList (some (key, id))) name = none := by
            simp [lastId, List.lookup, beq_false_of_ne hkey]
          rw [hother, Option.none_or]

theorem lastId_lost (h : (lastId (before ++ after) name).isSome = true) :
    (lastId (before ++ named.toList ++ after) name).isSome = true := by
  rw [lastId_append] at h
  rw [lastId_append, lastId_append]
  cases hafter : lastId after name with
  | some => rfl
  | none =>
    rw [hafter, Option.none_or] at h
    rw [Option.none_or]
    cases hnamed : lastId named.toList name with
    | some => rfl
    | none => exact h

end Ids

section Lost
variable {w : HeadReading} {header variant part : List Char} {before after : List (List Char)}

theorem Loses.header_claim (h : Loses w header variant before part after) :
    claimedLayers w (some header) = claimOf (idsOf w before ++ (namedId w part).toList ++ idsOf w after) := by
  rw [claimedLayers_eq, h.header, idsOf, List.filterMap_append, List.filterMap_cons]
  cases namedId w part with
  | none => rw [Option.toList_none, List.append_nil]; rfl
  | some =>
    rw [Option.toList_some, List.append_assoc]
    rfl

theorem Loses.variant_claim (h : Loses w header variant before part after) :
    claimedLayers w (some variant) = claimOf (idsOf w before ++ idsOf w after) := by
  rw [claimedLayers_eq]
  obtain ⟨_, hbad, hparts⟩ | hparts | ⟨rfl, rfl, rfl⟩ := h.variant
  · rw [hparts, idsOf, List.filterMap_append, List.filterMap_cons, hbad]
    rfl
  · rw [hparts, idsOf, List.filterMap_append]
    rfl
  · -- a header without a part still has an empty one, which names none of the scopes
    have hkey : w.lower [] = [] := w.lower_latin [] (fun _ hc => (nomatch hc))
    have hempty : namedId w [] = (w.uuid []).map fun id => (w.lower [], id) := rfl
    rw [hkey] at hempty
    rw [claimOf_eq_iff]
    intro name hname
    have hne : name ≠ [] := by
      rintro rfl
      revert hname
      decide
    rw [List.splitOn_nil, idsOf, List.filterMap_cons, hempty]
    cases w.uuid [] with
    | none => rfl
    | some => simp [lastId, List.lookup, beq_false_of_ne hne, idsOf]

end Lost

section Emptied
variable {p : Reading} {scopes : List OutboundScope} {surviving : List ScopeEntry} {k : Classification} {target : Target}
  {addresses : List Address} {approved : List Network} {ports : List Nat}

theorem narrow_nil (current : List ScopeEntry) : narrow p current [] = [] :=
  List.filterMap_eq_nil_iff.mpr fun _ _ => rfl

theorem survivors_nothing (h : OutboundScope.nothing ∈ scopes) : survivors p surviving scopes = .nothing := by
  induction scopes generalizing surviving with
  | nil => cases h
  | cons layer rest ih =>
    rw [survivors]
    by_cases hempty : (narrow p surviving layer.entries).isEmpty = true
    · rw [if_pos hempty]
    · rw [if_neg hempty]
      obtain hfirst | hlater := List.mem_cons.mp h
      · rw [← hfirst] at hempty
        exact absurd (by rw [OutboundScope.nothing, narrow_nil]; rfl) hempty
      · exact ih hlater

theorem intersect_nothing (h : OutboundScope.nothing ∈ scopes) : intersect p scopes = .nothing := by
  cases scopes with
  | nil => rfl
  | cons first rest =>
    obtain hfirst | hlater := List.mem_cons.mp h
    · rw [intersect, ← hfirst]
      cases rest with
      | nil => rfl
      | cons => rfl
    · exact survivors_nothing hlater

theorem not_reaches_nothing {l : ScopeLayers} (h : OutboundScope.nothing ∈ l.present) :
    ¬ Reaches p k target addresses approved ports (.ok l) := by
  rintro ⟨_, ⟨⟩, hallowed⟩
  rw [ScopeLayers.effective, intersect_nothing h] at hallowed
  have hempty := (decide_allowed.mp hallowed).2.checked.named.1
  cases hempty

end Emptied

section Opening
variable {p : Reading} {shown : Json → List Char} {claim full : CallerClaim}

def openHost : String := "a.b"

/-- What the rows of `opening` approve: one host. -/
def openLayer : OutboundScope := hostLayer [openHost]

/-- The `spec` of a version that declared it. -/
def openSpec : Json := .object [("network", .object [("allow", .array [.string openHost])])]

def openDelegation : Json := .object [("network", .array [.string openHost])]

def emptyDelegation : Json := .object [("network", .array [])]

/-- Rows with which every layer of one claim approves one host, and all that only the other claim names approves nothing. -/
def opening (claim full : CallerClaim) : DirectoryRows where
  scopes := ("platform", none, openHost.toList) :: claim.workspaceId.toList.map fun id => ("workspace", some id, openHost.toList)
  specs := claim.agentVersionId.toList.map fun id => (id, openSpec)
  delegations := (claim.runId.toList.map fun id => (id, openDelegation)) ++ full.runId.toList.map fun id => (id, emptyDelegation)
  grants := claim.discoveryId.toList.map fun id => (id, openHost.toList, 1)

theorem openHost_stripped : Text.stripChars openHost.toList = openHost.toList := by decide

theorem openHost_lower : p.lower openHost.toList = openHost.toList := by
  have hlatin : ∀ c ∈ openHost.toList, c.toNat < 256 := by
    rw [show openHost.toList = ['a', '.', 'b'] from rfl]
    simp
  rw [p.lower_latin _ hlatin]
  rfl

theorem openHost_clean : cleanHost p openHost.toList = openHost.toList := by
  rw [cleanHost, openHost_stripped, openHost_lower]
  rfl

theorem openHost_parsed : OutboundScope.ofTexts p [openHost.toList] = .ok openLayer := by
  have hentry : parseEntry p openHost.toList = .ok { text := openHost.toList } := by
    rw [parseEntry, openHost_stripped, openHost_lower, openHost_clean]
    rfl
  rw [OutboundScope.ofTexts, List.mapM_cons, hentry]
  rfl

theorem intersect_open {scopes : List OutboundScope} (hne : scopes ≠ []) (h : ∀ s ∈ scopes, s = openLayer) :
    intersect p scopes = openLayer := by
  have hsurvivors : ∀ rest : List OutboundScope, (∀ s ∈ rest, s = openLayer) →
      survivors p openLayer.entries rest = openLayer := by
    intro rest hrest
    induction rest with
    | nil => rfl
    | cons layer rest ih =>
      have hnarrow : narrow p openLayer.entries layer.entries = openLayer.entries := by
        rw [hrest layer List.mem_cons_self]
        rfl
      rw [survivors, hnarrow, if_neg (by decide)]
      exact ih fun s hs => hrest s (List.mem_cons_of_mem _ hs)
  cases scopes with
  | nil => exact absurd rfl hne
  | cons first rest =>
    rw [intersect, h first List.mem_cons_self]
    exact hsurvivors rest fun s hs => h s (List.mem_cons_of_mem _ hs)

theorem opening_platform : level p (opening claim full) "platform" none = .ok openLayer := by
  have hrows : (opening claim full).scopes.filter (fun row => row.1 == "platform" && row.2.1 == none) =
      [("platform", none, openHost.toList)] := by
    rw [opening]
    cases claim.workspaceId <;> rfl
  rw [level, hrows]
  exact openHost_parsed

theorem opening_workspace (id : Nat) : level p (opening claim full) "workspace" (some id) =
    .ok (if claim.workspaceId = some id then openLayer else .nothing) := by
  rw [level, opening]
  cases hworkspace : claim.workspaceId with
  | none => rfl
  | some other =>
    by_cases hsame : other = id
    · rw [hsame, if_pos rfl]
      have hrows : (("platform", none, openHost.toList) :: (some id).toList.map fun id => ("workspace", some id, openHost.toList)).filter
          (fun row : String × Option Nat × List Char => row.1 == "workspace" && row.2.1 == some id) =
            [("workspace", some id, openHost.toList)] := by
        simp
      rw [hrows]
      exact openHost_parsed
    · rw [if_neg (by simpa using hsame)]
      have hrows : (("platform", none, openHost.toList) :: (some other).toList.map fun id => ("workspace", some id, openHost.toList)).filter
          (fun row : String × Option Nat × List Char => row.1 == "workspace" && row.2.1 == some id) = [] := by
        simp [hsame]
      rw [hrows]
      rfl

theorem opening_agent (id : Nat) : agentScope p shown (opening claim full) id =
    .ok (if claim.agentVersionId = some id then openLayer else .nothing) := by
  rw [agentScope, opening]
  cases hagent : claim.agentVersionId with
  | none => rfl
  | some other =>
    by_cases hsame : other = id
    · rw [hsame, if_pos rfl]
      have hrow : ((some id).toList.map fun id => (id, openSpec)).lookup id = some openSpec := by
        simp
      rw [hrow]
      exact openHost_parsed
    · rw [if_neg (by simpa using hsame)]
      have hrow : ((some other).toList.map fun id => (id, openSpec)).lookup id = none := by
        have hne : (id == other) = false := beq_false_of_ne (Ne.symm hsame)
        simp [List.lookup, hne]
      rw [hrow]

theorem opening_run {id : Nat} (h : claim.runId = some id ∨ full.runId = some id) : runScope p shown (opening claim full) id =
    .ok (some (if claim.runId = some id then openLayer else .nothing)) := by
  rw [runScope, opening]
  by_cases hclaim : claim.runId = some id
  · rw [if_pos hclaim, hclaim]
    have hrow : (((some id).toList.map fun id => (id, openDelegation)) ++
        full.runId.toList.map fun id => (id, emptyDelegation)).lookup id = some openDelegation := by
      simp
    rw [hrow]
    have hparsed : (OutboundScope.ofTexts p ([Json.string openHost].map (strOf shown))).map some = .ok (some openLayer) := by
      rw [show [Json.string openHost].map (strOf shown) = [openHost.toList] from rfl, openHost_parsed]
      rfl
    exact hparsed
  · rw [if_neg hclaim, h.resolve_left hclaim]
    have hrow : ((claim.runId.toList.map fun id => (id, openDelegation)) ++
        (some id).toList.map fun id => (id, emptyDelegation)).lookup id = some emptyDelegation := by
      cases hother : claim.runId with
      | none => simp
      | some other =>
        have hne : (id == other) = false := by
          rw [beq_eq_false_iff_ne]
          rintro rfl
          exact hclaim hother
        simp [List.lookup, hne]
    rw [hrow]
    rfl

theorem mapM_ok {α β ε : Type} {f : α → Except ε β} {g : α → β} {o : Option α} (h : ∀ a, o = some a → f a = .ok (g a)) :
    o.mapM f = .ok (o.map g) := by
  cases o with
  | none => rfl
  | some a => rw [Option.mapM_some, h a rfl]; rfl

/-- What `opening` approves for a claim without a lookup of models: everything the one claim names. -/
theorem opening_layers {asked : CallerClaim} (hasked : asked = claim ∨ asked = full) (h : asked.discoveryId = none) :
    layersFor p shown (opening claim full) asked = .ok {
      platform := openLayer
      workspace := asked.workspaceId.map fun id => if claim.workspaceId = some id then openLayer else .nothing
      agent := asked.agentVersionId.map fun id => if claim.agentVersionId = some id then openLayer else .nothing
      run := asked.runId.map fun id => if claim.runId = some id then openLayer else .nothing } := by
  have hrun : asked.runId.mapM (runScope p shown (opening claim full)) =
      .ok (asked.runId.map fun id => some (if claim.runId = some id then openLayer else .nothing)) := by
    apply mapM_ok
    intro id hid
    obtain rfl | rfl := hasked
    · exact opening_run (.inl hid)
    · exact opening_run (.inr hid)
  rw [layersFor, h]
  dsimp only
  rw [opening_platform, mapM_ok fun id _ => opening_workspace id, mapM_ok fun id _ => opening_agent id, hrun]
  cases asked.runId <;> rfl

theorem named_apart {o o' : Option Nat} (h : o.isSome = true → o'.isSome = true) (hne : o' ≠ o) : ∃ id, o' = some id ∧ o ≠ some id := by
  cases o' with
  | none =>
    cases o with
    | none => exact absurd rfl hne
    | some => cases h rfl
  | some id => exact ⟨id, rfl, hne.symm⟩

theorem opening_reaches {l : ScopeLayers} (h : ∀ s ∈ l.present, s = openLayer) : Reaches p allPublic
    { scheme := "https".toList, host := openHost.toList, port := 443 } [publicAddress] [] [443] (.ok l) := by
  refine ⟨l, rfl, ?_⟩
  have hscope : l.effective p = openLayer := intersect_open (by rw [ScopeLayers.present]; simp) h
  have hclean : cleanHost p openHost.toList = openHost.toList := openHost_clean
  have hnamed : openLayer.allowsHost p openHost.toList = true := by
    rw [OutboundScope.allowsHost, List.any_eq_true]
    refine ⟨{ text := openHost.toList }, List.mem_singleton_self _, ?_⟩
    rw [ScopeEntry.matchesHost, hclean]
    rfl
  rw [hscope]
  apply decide_allowed.mpr
  refine ⟨List.cons_ne_nil _ _, ⟨.inr rfl, List.mem_singleton_self _, rfl, .inl hnamed⟩, .inl hnamed, ?_, ?_⟩
  · intro _ ha
    rw [List.mem_singleton.mp ha]
    exact .inl rfl
  · intro hplain
    exact absurd hplain (by decide)

theorem opening_widens (hkind : claim.kind = .platform) (hne : claim ≠ full) (hsame : claim.kind = full.kind)
    (hworkspace : claim.workspaceId.isSome = true → full.workspaceId.isSome = true)
    (hagent : claim.agentVersionId.isSome = true → full.agentVersionId.isSome = true)
    (hrun : claim.runId.isSome = true → full.runId.isSome = true)
    (hdiscovery : claim.discoveryId.isSome = true → full.discoveryId.isSome = true)
    (halone : claim.discoveryId.isSome = true →
      claim.workspaceId = none ∧ claim.agentVersionId = none ∧ claim.runId = none) :
    (∃ l, layersFor p shown (opening claim full) claim = .ok l ∧ ∀ s ∈ l.present, s = openLayer) ∧
      ∃ l, layersFor p shown (opening claim full) full = .ok l ∧ OutboundScope.nothing ∈ l.present := by
  cases hclaim : claim.discoveryId with
  | none =>
    constructor
    · refine ⟨_, opening_layers (.inl rfl) hclaim, ?_⟩
      intro s hs
      simp only [ScopeLayers.present, List.mem_filterMap, List.mem_cons, List.not_mem_nil, or_false, id] at hs
      obtain ⟨_, rfl | rfl | rfl | rfl, hs⟩ := hs
      · exact (Option.some.inj hs).symm
      · obtain ⟨id, hid, rfl⟩ := Option.map_eq_some_iff.mp hs
        exact if_pos hid
      · obtain ⟨id, hid, rfl⟩ := Option.map_eq_some_iff.mp hs
        exact if_pos hid
      · obtain ⟨id, hid, rfl⟩ := Option.map_eq_some_iff.mp hs
        exact if_pos hid
    · cases hfull : full.discoveryId with
      | some discoveryId =>
        refine ⟨{ platform := .nothing }, ?_, List.mem_cons_self⟩
        have hgrant : grantedHost (opening claim full) full discoveryId = none := by
          rw [grantedHost, opening, hclaim]
          split_ifs <;> rfl
        rw [layersFor, hfull]
        dsimp only
        rw [hgrant]
      | none =>
        refine ⟨_, opening_layers (.inr rfl) hfull, ?_⟩
        simp only [ScopeLayers.present, List.mem_filterMap, List.mem_cons, List.not_mem_nil, or_false, id]
        by_cases hw : full.workspaceId = claim.workspaceId
        · by_cases ha : full.agentVersionId = claim.agentVersionId
          · have hr : full.runId ≠ claim.runId := by
              intro hr
              apply hne
              rw [CallerClaim.mk.injEq]
              exact ⟨hsame, hw.symm, ha.symm, hr.symm, hclaim.trans hfull.symm⟩
            obtain ⟨id, hid, hnot⟩ := named_apart hrun hr
            exact ⟨_, .inr (.inr (.inr rfl)), by rw [hid, Option.map_some, if_neg hnot]⟩
          · obtain ⟨id, hid, hnot⟩ := named_apart hagent ha
            exact ⟨_, .inr (.inr (.inl rfl)), by rw [hid, Option.map_some, if_neg hnot]⟩
        · obtain ⟨_, hid, hnot⟩ := named_apart hworkspace hw
          exact ⟨_, .inr (.inl rfl), by rw [hid, Option.map_some, if_neg hnot]⟩
  | some discoveryId =>
    obtain ⟨hw, ha, hr⟩ := halone (hclaim ▸ rfl)
    obtain ⟨fullDiscovery, hfull⟩ := Option.isSome_iff_exists.mp (hdiscovery (hclaim ▸ rfl))
    constructor
    · have hgrant : grantedHost (opening claim full) claim discoveryId = some openHost.toList := by
        rw [grantedHost, if_pos ⟨hkind, hw, ha, hr⟩, opening, hclaim]
        simp
      refine ⟨{ platform := openLayer }, ?_, fun s hs => List.mem_singleton.mp hs⟩
      rw [layersFor, hclaim]
      dsimp only
      rw [hgrant]
      have hopen : (do return ({ platform := ← OutboundScope.ofTexts p [openHost.toList] } : ScopeLayers)) = .ok { platform := openLayer } := by
        rw [openHost_parsed]
        rfl
      exact hopen
    · have hgrant : grantedHost (opening claim full) full fullDiscovery = none := by
        rw [grantedHost]
        split_ifs with halone'
        · have hother : fullDiscovery ≠ discoveryId := by
            rintro rfl
            apply hne
            rw [CallerClaim.mk.injEq]
            exact ⟨hsame, hw.trans halone'.2.1.symm, ha.trans halone'.2.2.1.symm, hr.trans halone'.2.2.2.symm,
              hclaim.trans hfull.symm⟩
          rw [opening, hclaim]
          simp [hother.symm]
        · rfl
      refine ⟨{ platform := .nothing }, ?_, List.mem_cons_self⟩
      rw [layersFor, hfull]
      dsimp only
      rw [hgrant]

end Opening

section Narrowing
variable {w : HeadReading} {header variant part : List Char} {before after : List (List Char)}

theorem contradictory_nothing {shown : Json → List Char} {d : DirectoryRows} {ids : List (List Char × Nat)}
    (h : Contradictory ids) : layersFor w.toReading shown d (claimOf ids) = .ok { platform := .nothing } := by
  obtain ⟨hdiscovery, hother⟩ := h
  obtain ⟨discoveryId, hid⟩ := Option.isSome_iff_exists.mp hdiscovery
  have hgrant : grantedHost d (claimOf ids) discoveryId = none := by
    rw [grantedHost, if_neg]
    rintro ⟨_, hw, ha, hr⟩
    dsimp only [claimOf] at hw ha hr
    rw [hw, ha, hr] at hother
    simp at hother
  have hclaim : (claimOf ids).discoveryId = some discoveryId := hid
  rw [layersFor, hclaim]
  dsimp only
  rw [hgrant]

/-- Whatever the rows are, all that is reached without a part of a claim is reached with it, if and only if the part is redundant
or what is left of the claim approves nothing. -/
theorem lost_part_narrows_iff (shown : Json → List Char) (h : Loses w header variant before part after) :
    (∀ d k target addresses approved ports,
      Reaches w.toReading k target addresses approved ports (layersFor w.toReading shown d (claimedLayers w (some variant))) →
      Reaches w.toReading k target addresses approved ports (layersFor w.toReading shown d (claimedLayers w (some header)))) ↔
    Redundant (idsOf w before) (namedId w part) (idsOf w after) ∨ Contradictory (idsOf w before ++ idsOf w after) := by
  rw [h.header_claim, h.variant_claim]
  constructor
  · intro hnarrows
    by_contra hnot
    obtain ⟨hnew, hcontradictory⟩ := not_or.mp hnot
    have hne : claimOf (idsOf w before ++ idsOf w after) ≠ claimOf (idsOf w before ++ (namedId w part).toList ++ idsOf w after) :=
      fun heq => hnew (claimOf_lost_iff.mp heq)
    have halone : (lastId (idsOf w before ++ idsOf w after) "discovery".toList).isSome = true →
        lastId (idsOf w before ++ idsOf w after) "workspace".toList = none ∧
          lastId (idsOf w before ++ idsOf w after) "agent".toList = none ∧
          lastId (idsOf w before ++ idsOf w after) "run".toList = none := by
      intro hdiscovery
      have hothers := not_and.mp hcontradictory hdiscovery
      simpa only [not_or, Bool.not_eq_true, Option.isSome_eq_false_iff, Option.isNone_iff_eq_none] using hothers
    obtain ⟨⟨l, (hl : layersFor w.toReading shown _ _ = _), hopen⟩, ⟨l', hl', hclosed⟩⟩ :=
      opening_widens (p := w.toReading) rfl hne rfl lastId_lost lastId_lost lastId_lost lastId_lost halone
    have hreached := hnarrows _ _ _ _ _ _ (hl ▸ opening_reaches hopen)
    rw [hl'] at hreached
    exact not_reaches_nothing hclosed hreached
  · rintro (hredundant | hcontradictory) d k target addresses approved ports hreaches
    · rw [← claimOf_lost_iff.mpr hredundant]
      exact hreaches
    · rw [contradictory_nothing hcontradictory] at hreaches
      exact absurd hreaches (not_reaches_nothing List.mem_cons_self)

end Narrowing

def firstId : String := "00000000-0000-4000-8000-000000000001"

def secondId : String := "00000000-0000-4000-8000-000000000002"

def knownIds : HeadReading where
  toReading := hostsOnly
  uuid text := if text = firstId.toList then some 1 else if text = secondId.toList then some 2 else none
  refusesNetloc _ := false

def twoWorkspaces : List Char := ("workspace=" ++ firstId ++ ";workspace=" ++ secondId).toList

theorem earlier_part_narrows : twoWorkspaces.splitOn ';' = [("workspace=" ++ firstId).toList, ("workspace=" ++ secondId).toList] ∧
    ∀ d k target addresses approved ports,
      Reaches hostsOnly k target addresses approved ports
        (layersFor hostsOnly (fun _ => []) d (claimedLayers knownIds (some ("workspace=" ++ secondId).toList))) →
      Reaches hostsOnly k target addresses approved ports
        (layersFor hostsOnly (fun _ => []) d (claimedLayers knownIds (some twoWorkspaces))) := by
  have hparts : twoWorkspaces.splitOn ';' = [("workspace=" ++ firstId).toList, ("workspace=" ++ secondId).toList] := by
    decide
  have hloses : Loses knownIds twoWorkspaces ("workspace=" ++ secondId).toList [] ("workspace=" ++ firstId).toList
      [("workspace=" ++ secondId).toList] := ⟨hparts, .inr (.inl (by decide))⟩
  refine ⟨hparts, ?_⟩
  apply (lost_part_narrows_iff (fun _ => []) hloses).mpr
  left
  intro _ _ hnamed _
  have hgiven : namedId knownIds ("workspace=" ++ firstId).toList = some ("workspace".toList, 1) := by decide
  rw [hgiven] at hnamed
  cases hnamed
  left
  decide

def platformOnly : DirectoryRows := { scopes := [("platform", none, openHost.toList)] }

theorem lost_workspace_widens :
    Loses knownIds ("workspace=" ++ firstId).toList [] [] ("workspace=" ++ firstId).toList [] ∧
    ¬ ∀ d k target addresses approved ports,
      Reaches hostsOnly k target addresses approved ports
        (layersFor hostsOnly (fun _ => []) d (claimedLayers knownIds (some []))) →
      Reaches hostsOnly k target addresses approved ports
        (layersFor hostsOnly (fun _ => []) d (claimedLayers knownIds (some ("workspace=" ++ firstId).toList))) := by
  refine ⟨⟨by decide, .inr (.inr ⟨rfl, rfl, rfl⟩)⟩, ?_⟩
  intro hnarrows
  have hplatform : layersFor hostsOnly (fun _ => []) platformOnly (claimedLayers knownIds (some [])) = .ok { platform := openLayer } := by
    decide
  have hworkspace : layersFor hostsOnly (fun _ => []) platformOnly (claimedLayers knownIds (some ("workspace=" ++ firstId).toList)) =
      .ok { platform := openLayer, workspace := some .nothing } := by
    decide
  have hopen : ∀ s ∈ ({ platform := openLayer } : ScopeLayers).present, s = openLayer := fun s hs => List.mem_singleton.mp hs
  have hreached := hnarrows platformOnly _ _ _ _ _ (hplatform ▸ opening_reaches hopen)
  rw [hworkspace] at hreached
  exact not_reaches_nothing (List.mem_cons_of_mem _ List.mem_cons_self) hreached

end TinyHermes.Egress
