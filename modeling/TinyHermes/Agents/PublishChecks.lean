import TinyHermes.Agents.Drafts
import TinyHermes.Lib.Fallible

/-! What `publish` checks of a draft before a version is written. -/
namespace TinyHermes.Agents
open Lib Outbound
open Identity (Role)
open Runs (Uuid)
open Runs.ContextBudget (SegmentName Accounting ContextWindow)

structure Actor where
  id : Uuid
  isServiceAccount : Bool := false
  role : Option Role := none
  isPlatformAdmin : Bool := false
  deriving DecidableEq

section Views

structure ModelEndpoint where
  id : Uuid
  isSelectable : Bool
  contextWindow : Nat
  maxOutputTokens : Nat
  contextAccounting : Accounting := .shared

structure SkillBindingView where
  skillId : Uuid
  versionId : String
  name : String
  description : String
  active : Bool
  blockedByScan : Bool

/-- `HttpToolBindingView` and `McpBindingView`: one version, as the check needs to see it. -/
structure BindingView where
  providerId : Uuid
  versionId : Uuid
  name : List Char
  host : List Char
  names : List (List Char)
  /-- Those that change something at the far end; an MCP server does not say, so there each may. -/
  writes : List (List Char)
  active : Bool

structure Answers where
  roleFor : Uuid → Uuid → Option Role
  /-- The first read of a check, the second one and so on. -/
  endpoints : Option (Nat → Uuid → Option ModelEndpoint)
  skills : Option (Uuid → List String → List SkillBindingView)
  scopes : Option (Uuid → OutboundScope)
  httpTools : Option (Uuid → List Uuid → List BindingView)
  mcp : Option (Uuid → List Uuid → List BindingView)
  publishedAliases : Uuid → List String → List String
  workspaceCeilings : Option (Uuid → Option Nat × Option Nat)
  ceilings : PlatformCeilings := {}

end Views

structure SegmentAdvice where
  segment : SegmentName
  asked : Nat
  suggested : Int
  deriving DecidableEq, Repr

structure BudgetFit where
  allowance : Int
  floor : Int
  asked : Int
  advice : List SegmentAdvice := []
  deriving DecidableEq, Repr

def BudgetFit.floorFits (f : BudgetFit) : Bool := f.floor ≤ f.allowance

def BudgetFit.targetsFit (f : BudgetFit) : Bool := f.asked ≤ f.allowance

inductive Unbindable where
  | notConfigured | notVisible
  | withdrawn (name : List Char)
  | blockedByScan (name : List Char)
  | undeclared (name : List Char) (missing : List (List Char))
  | outsideNetwork (name host : List Char)
  deriving DecidableEq

inductive PublishRefusal where
  | modelEndpointUnavailable | modelOutputLimitTooHigh
  | contextWindowTooSmall (floor allowance : Int)
  | contextBudgetUnsatisfied (fit : BudgetFit)
  | summaryWindowTooSmall (summary : Uuid) (summaryWindow mainWindow : Nat) (fallback : Option Uuid)
  | thresholdOutsideBounds (value : Rat)
  | skillBindingUnavailable (reasons : List (String × Unbindable))
  | skillBoundTwice (name : String)
  | skillSummaryBudgetExceeded (estimates : List (String × Int)) (allowance : Nat)
  | agentNetworkUnavailable (entries : List String)
  /-- Which is recorded in the audit before it is raised. -/
  | agentNetworkRefusalRecorded (entries : List String)
  | scopeEntryInvalid (fault : ScopeEntryInvalid)
  | httpToolBindingUnavailable (reasons : List (Uuid × Unbindable))
  | mcpBindingUnavailable (reasons : List (Uuid × Unbindable))
  | writePolicyNotChosen (missing : List (List Char × List (List Char)))
  | preauthorizationNotPermitted (names : List (List Char))
  | unknownChildAgent (aliases : List String)
  | delegationTooWide (offending : List (String × List (Face × List String)))
  | roundCeilingExceeded (asked ceiling : Nat)
  | toolCallCeilingExceeded (asked ceiling : Nat)
  | executionCeilingExceeded (asked ceiling : Nat)
  | sandboxMemoryCeilingExceeded (asked ceiling : Nat)
  deriving DecidableEq

section Checks
variable (p : Reading) (est : Runs.ContextBudget.Estimator) (a : Answers) (workspace : Uuid) (actor : Actor) (spec : DraftSpec)

def raiseIf {α : Type} (fault : Option α) (refusal : α → PublishRefusal) : Except PublishRefusal Unit :=
  match fault with
  | none => .ok ()
  | some found => .error (refusal found)

/-- `fit_budget`. -/
def fitBudget (window : ContextWindow) (segments : SegmentName → SegmentBudget) : BudgetFit :=
  let allowance := window.inputAllowance
  let floor : Int := (segmentNames.map fun name => ((segments name).minTokens : Int)).sum
  let asked : Int := (segmentNames.filterMap fun name => (segments name).targetTokens.map Int.ofNat).sum
  if floor > allowance ∨ asked ≤ allowance then { allowance, floor, asked }
  else
    let room := allowance - floor
    let span : Int := asked - (segmentNames.filterMap fun name =>
      (segments name).targetTokens.map fun _ => ((segments name).minTokens : Int)).sum
    let advice := segmentNames.filterMap fun name => do
      let budget := segments name
      let target ← budget.targetTokens
      let suggested : Int := budget.minTokens + Int.fdiv ((target - budget.minTokens) * room) span
      if suggested < target then some { segment := name, asked := target, suggested } else none
    { allowance, floor, asked, advice }

/-- `_check_context_budget`. -/
def checkContextBudget (endpoint : ModelEndpoint) (wanted : Option Nat) : Except PublishRefusal Unit :=
  let reserved := match wanted with
    | some n => if n = 0 then endpoint.maxOutputTokens else n
    | none => endpoint.maxOutputTokens
  let window : ContextWindow := ⟨endpoint.contextWindow, reserved, endpoint.contextAccounting⟩
  let fit := fitBudget window (spec.contextBudget.getD {}).resolve
  if !fit.floorFits then .error (.contextWindowTooSmall fit.floor fit.allowance)
  else if !fit.targetsFit then .error (.contextBudgetUnsatisfied fit)
  else .ok ()

/-- `_check_summary_endpoint`. -/
def checkSummaryEndpoint (read : Uuid → Option ModelEndpoint) (policy : EndpointModelPolicy) (endpoint : ModelEndpoint) :
    Except PublishRefusal Unit :=
  match policy.summaryEndpointId with
  | none => .ok ()
  | some id =>
    match read id with
    | none => .error .modelEndpointUnavailable
    | some summary =>
      if !summary.isSelectable then .error .modelEndpointUnavailable
      else if summary.contextWindow < endpoint.contextWindow then
        .error (.summaryWindowTooSmall summary.id summary.contextWindow endpoint.contextWindow none)
      else .ok ()

/-- The loop of `_check_fallback_endpoints`, each fallback being one read further. -/
def checkFallbacks (read : Nat → Uuid → Option ModelEndpoint) (summary : Option ModelEndpoint) :
    Nat → List Uuid → Except PublishRefusal Unit
  | _, [] => .ok ()
  | n, id :: rest =>
    match read n id with
    | none => .error .modelEndpointUnavailable
    | some fallback =>
      if !fallback.isSelectable then .error .modelEndpointUnavailable
      else
        match summary with
        | none => checkFallbacks read summary (n + 1) rest
        | some s =>
          if s.contextWindow < fallback.contextWindow then
            .error (.summaryWindowTooSmall s.id s.contextWindow fallback.contextWindow (some fallback.id))
          else checkFallbacks read summary (n + 1) rest

/-- `_check_endpoint`. -/
def checkEndpoint : Except PublishRefusal Unit :=
  match spec.modelPolicy, a.endpoints with
  | .deterministic, _ => .ok ()
  | .endpoint _, none => .error .modelEndpointUnavailable
  | .endpoint policy, some read =>
    match read 0 policy.endpointId with
    | none => .error .modelEndpointUnavailable
    | some endpoint =>
      if !endpoint.isSelectable then .error .modelEndpointUnavailable
      else if policy.maxOutputTokens.any (endpoint.maxOutputTokens < ·) then .error .modelOutputLimitTooHigh
      else do
        checkContextBudget spec endpoint policy.maxOutputTokens
        checkSummaryEndpoint (read 1) policy endpoint
        checkFallbacks read (policy.summaryEndpointId.bind (read 2)) 3 policy.fallbackEndpointIds

def viewOf (views : List BindingView) (id : Uuid) : Option BindingView := views.reverse.find? (·.versionId == id)

def skillViewOf (views : List SkillBindingView) (id : String) : Option SkillBindingView :=
  views.reverse.find? (·.versionId == id)

def skillReason : Option SkillBindingView → Option Unbindable
  | none => some .notVisible
  | some view =>
    if !view.active then some (.withdrawn view.name.toList)
    else if view.blockedByScan then some (.blockedByScan view.name.toList)
    else none

def boundTwice : List SkillBindingView → List (Uuid × String) → Option String
  | [], _ => none
  | view :: rest, bySkill =>
    match bySkill.lookup view.skillId with
    | some name => some name
    | none => boundTwice rest ((view.skillId, view.name) :: bySkill)

/-- `_check_summary_budget`. -/
def checkSummaryBudget (views : List SkillBindingView) : Except PublishRefusal Unit :=
  match ((spec.contextBudget.getD {}).resolve .skillSummaries).maxTokens with
  | none => .ok ()
  | some allowance =>
    let estimates := views.map fun view => (view.name, (est.tokens view.description : Int))
    if allowance < (estimates.map (·.2)).sum then .error (.skillSummaryBudgetExceeded estimates allowance) else .ok ()

/-- `_check_skills`. -/
def checkSkills : Except PublishRefusal Unit :=
  if spec.skills.isEmpty then .ok ()
  else
    match a.skills with
    | none => .error (.skillBindingUnavailable (spec.skills.map fun id => (id, .notConfigured)))
    | some visibleVersions =>
      let views := visibleVersions workspace spec.skills
      let reasons := spec.skills.filterMap fun id => (skillReason (skillViewOf views id)).map fun reason => (id, reason)
      if !reasons.isEmpty then .error (.skillBindingUnavailable reasons)
      else do
        let bound := spec.skills.filterMap (skillViewOf views)
        raiseIf (boundTwice bound []) .skillBoundTwice
        checkSummaryBudget est spec bound

def parsedEntry (text : List Char) : Except PublishRefusal ScopeEntry := (parseEntry p text).mapError .scopeEntryInvalid

/-- The entries of `network.allow`. -/
def parsedAllow : Except PublishRefusal (List ScopeEntry) := spec.networkAllow.mapM fun text => parsedEntry p text.toList

def outsideApproved (approved : List ScopeEntry) (text : String) : Except PublishRefusal Bool :=
  if approved.isEmpty then .ok true
  else do
    let entry ← parsedEntry p text.toList
    return !approved.any (·.contains p entry)

/-- `_check_network`. -/
def checkNetwork : Except PublishRefusal Unit :=
  if spec.networkAllow.isEmpty then .ok ()
  else
    match a.scopes with
    | none => .error (.agentNetworkUnavailable spec.networkAllow)
    | some readScope => do
      let outside ← spec.networkAllow.filterM (outsideApproved p (readScope workspace).entries)
      if outside.isEmpty then .ok () else .error (.agentNetworkRefusalRecorded outside)

section Bindings

def bindingReason (allowed : List ScopeEntry) (b : ToolBinding) : Option BindingView → Except PublishRefusal (Option Unbindable)
  | none => .ok (some .notVisible)
  | some view =>
    let missing := (b.names.filter (!view.names.contains ·)).insertionSort (· ≤ ·)
    if !view.active then .ok (some (.withdrawn view.name))
    else if !missing.isEmpty then .ok (some (.undeclared view.name missing))
    else do
      let host ← parsedEntry p view.host
      return if allowed.any (·.contains p host) then none else some (.outsideNetwork view.name view.host)

def bindingReasons (allowed : List ScopeEntry) (views : List BindingView) :
    List ToolBinding → Except PublishRefusal (List (Uuid × Unbindable))
  | [] => .ok []
  | b :: rest => do
    let reason ← bindingReason p allowed b (viewOf views b.versionId)
    let reasons ← bindingReasons allowed views rest
    return (reason.map fun r => (b.versionId, r)).toList ++ reasons

def boundWrites (view : BindingView) (b : ToolBinding) : List (List Char) := b.names.filter view.writes.contains

/-- Who publishes with the authority to approve a write in advance: a workspace administrator, or the platform's. -/
def mayPreauthorize (role : Option Role) : Bool := role == none || role == some .workspaceAdmin

def notChosen (views : List BindingView) (b : ToolBinding) : Option (List Char × List (List Char)) := do
  let view ← viewOf views b.versionId
  let writes := boundWrites view b
  if !writes.isEmpty && b.writePolicy == none then some (view.name, writes) else none

/-- Writes that are approved in advance without the authority. -/
def presumed (role : Option Role) (views : List BindingView) (b : ToolBinding) : Option (List Char) := do
  let view ← viewOf views b.versionId
  if !(boundWrites view b).isEmpty && b.writePolicy == some .preauthorized && !mayPreauthorize role then some view.name
  else none

/-- `_check_write_policies`. -/
def checkWritePolicies (role : Option Role) (views : List BindingView) (bindings : List ToolBinding) : Except PublishRefusal Unit :=
  let missing := bindings.filterMap (notChosen views)
  let names := bindings.filterMap (presumed role views)
  if !missing.isEmpty then .error (.writePolicyNotChosen missing)
  else if !names.isEmpty then .error (.preauthorizationNotPermitted names)
  else .ok ()

/-- `_publisher_role`. -/
def publisherRole : Option Role := if actor.isServiceAccount then actor.role else a.roleFor workspace actor.id

/-- What `_check_http_tools` and `_check_mcp_tools` share. -/
def checkTools (reader : Option (Uuid → List Uuid → List BindingView))
    (unavailable : List (Uuid × Unbindable) → PublishRefusal) (bindings : List ToolBinding) : Except PublishRefusal Unit :=
  if bindings.isEmpty then .ok ()
  else
    match reader with
    | none => .error (unavailable (bindings.map fun b => (b.versionId, .notConfigured)))
    | some visibleVersions => do
      let views := visibleVersions workspace (bindings.map (·.versionId))
      let allowed ← parsedAllow p spec
      let reasons ← bindingReasons p allowed views bindings
      if reasons.isEmpty then checkWritePolicies (publisherRole a workspace actor) views bindings
      else .error (unavailable reasons)

/-- `_check_http_tools`. -/
def checkHttpTools : Except PublishRefusal Unit :=
  checkTools p a workspace actor spec a.httpTools .httpToolBindingUnavailable spec.httpTools.bindings

/-- `_check_mcp_tools`. -/
def checkMcpTools : Except PublishRefusal Unit :=
  checkTools p a workspace actor spec a.mcp .mcpBindingUnavailable spec.mcpTools.bindings

end Bindings

/-- `_check_delegation`. -/
def checkDelegation : Except PublishRefusal Unit :=
  match spec.delegation with
  | none => .ok ()
  | some policy =>
    let aliases := policy.children.map (·.aliasName)
    let unknown := aliases.filter fun name => !(a.publishedAliases workspace aliases).contains name
    let offending := policy.children.filterMap fun child =>
      let missing := (scopeOfSpec spec.toAgentSpec).missingFrom { askedBy child with files := ∅, secrets := ∅ }
      if missing.isEmpty then none else some (child.aliasName, missing)
    if !unknown.isEmpty then .error (.unknownChildAgent unknown)
    else if !offending.isEmpty then .error (.delegationTooWide offending)
    else .ok ()

/-- `MIN_COMPACTION_THRESHOLD`. -/
def minCompactionThreshold : Rat := 1 / 2

/-- `MAX_COMPACTION_THRESHOLD`, the double nearest to 0.95. -/
def maxCompactionThreshold : Rat := 4278419646001971 / 4503599627370496

/-- `_check_compaction_threshold`. -/
def checkCompactionThreshold : Except PublishRefusal Unit :=
  match (spec.contextBudget.getD {}).compactionThreshold with
  | none => .ok ()
  | some threshold =>
    if minCompactionThreshold ≤ threshold ∧ threshold ≤ maxCompactionThreshold then .ok ()
    else .error (.thresholdOutsideBounds threshold)

def ceilingsFor : PlatformCeilings :=
  match a.workspaceCeilings with
  | none => a.ceilings
  | some read =>
    let own (asked : Option Nat) (platform : Nat) : Nat := match asked with
      | some n => if n = 0 then platform else n
      | none => platform
    { a.ceilings with
      maxExecutionSeconds := own (read workspace).1 a.ceilings.maxExecutionSeconds
      maxModelCalls := own (read workspace).2 a.ceilings.maxModelCalls }

/-- `_check_ceilings`. -/
def checkCeilings : Except PublishRefusal Unit := do
  let ceilings := ceilingsFor a workspace
  raiseIf (roundsAboveCeiling spec ceilings) (.roundCeilingExceeded · ceilings.maxModelCalls)
  raiseIf (toolCallsAboveCeiling spec ceilings) (.toolCallCeilingExceeded · ceilings.maxToolCalls)
  raiseIf (executionAboveCeiling spec ceilings) (.executionCeilingExceeded · ceilings.maxExecutionSeconds)
  raiseIf (sandboxMemoryAboveCeiling spec ceilings) (.sandboxMemoryCeilingExceeded · ceilings.sandboxMemoryMb)

/-- The checks of `publish`. -/
inductive Check where
  | endpoint | skills | network | httpTools | mcpTools | delegation | compactionThreshold | ceilings
  deriving DecidableEq, Repr

def Check.all : List Check :=
  [.endpoint, .skills, .network, .httpTools, .mcpTools, .delegation, .compactionThreshold, .ceilings]

/-- One check of a draft, with what the catalogs answer meanwhile. -/
def Check.run : Check → Except PublishRefusal Unit
  | .endpoint => checkEndpoint a spec
  | .skills => checkSkills est a workspace spec
  | .network => checkNetwork p a workspace spec
  | .httpTools => checkHttpTools p a workspace actor spec
  | .mcpTools => checkMcpTools p a workspace actor spec
  | .delegation => checkDelegation a workspace spec
  | .compactionThreshold => checkCompactionThreshold spec
  | .ceilings => checkCeilings a workspace spec

end Checks

section Bindable
variable {p : Reading} {a : Answers} {workspace : Uuid} {actor : Actor} {spec : DraftSpec} {allowed : List ScopeEntry}
  {views : List BindingView} {bindings : List ToolBinding} {role : Option Role}

theorem viewOf_mem {id : Uuid} {view : BindingView} (h : viewOf views id = some view) : view ∈ views ∧ view.versionId = id := by
  have hmem := List.mem_of_find?_eq_some h
  have hid := List.find?_some (p := fun v : BindingView => v.versionId == id) h
  exact ⟨List.mem_reverse.mp hmem, beq_iff_eq.mp hid⟩

structure Bindable (views : List BindingView) (b : ToolBinding) (view : BindingView) : Prop where
  found : viewOf views b.versionId = some view
  active : view.active = true
  declared : ∀ name ∈ b.names, name ∈ view.names

theorem bindingReason_none {b : ToolBinding} (h : bindingReason p allowed b (viewOf views b.versionId) = .ok none) :
    ∃ view, Bindable views b view := by
  cases hview : viewOf views b.versionId with
  | none =>
    rw [hview] at h
    cases h
  | some view =>
    rw [hview, bindingReason] at h
    split_ifs at h with hinactive hmissing
    · cases h
    · cases h
    · refine ⟨view, hview, by simpa using hinactive, fun name hname => ?_⟩
      by_contra hnot
      apply hmissing
      have hmem : name ∈ (b.names.filter (!view.names.contains ·)).insertionSort (· ≤ ·) := by
        rw [List.mem_insertionSort, List.mem_filter]
        simpa using ⟨hname, hnot⟩
      rw [Bool.not_eq_true', List.isEmpty_eq_false_iff]
      exact List.ne_nil_of_mem hmem

theorem bindingReasons_nil (h : bindingReasons p allowed views bindings = .ok []) :
    ∀ b ∈ bindings, ∃ view, Bindable views b view := by
  induction bindings with
  | nil => exact fun b hb => absurd hb List.not_mem_nil
  | cons b rest ih =>
    obtain ⟨reason, hreason, h⟩ := Fallible.bind_ok.mp h
    obtain ⟨_, hreasons, h⟩ := Fallible.bind_ok.mp h
    have hnone := List.append_eq_nil_iff.mp (Except.ok.inj h)
    cases reason with
    | some => cases hnone.1
    | none =>
      intro b' hb'
      obtain rfl | hb' := List.mem_cons.mp hb'
      · exact bindingReason_none hreason
      · exact ih (hnone.2 ▸ hreasons) b' hb'

theorem checkWritePolicies_ok (h : checkWritePolicies role views bindings = .ok ()) {b : ToolBinding} (hb : b ∈ bindings)
    {view : BindingView} (hview : viewOf views b.versionId = some view) (hwrites : boundWrites view b ≠ []) :
    ∃ policy, b.writePolicy = some policy ∧ (policy = .preauthorized → mayPreauthorize role = true) := by
  rw [checkWritePolicies] at h
  split_ifs at h with hmissing hpresumed
  rw [Bool.not_eq_true', Bool.not_eq_false, List.isEmpty_iff, List.filterMap_eq_nil_iff] at hmissing hpresumed
  have hnot := hmissing b hb
  have hmay := hpresumed b hb
  cases hpolicy : b.writePolicy with
  | none =>
    simp [notChosen, hview, hpolicy, hwrites] at hnot
  | some policy =>
    refine ⟨policy, rfl, ?_⟩
    rintro rfl
    simpa [presumed, hview, hpolicy, hwrites] using hmay

theorem checkTools_ok {reader : Option (Uuid → List Uuid → List BindingView)}
    {unavailable : List (Uuid × Unbindable) → PublishRefusal}
    (h : checkTools p a workspace actor spec reader unavailable bindings = .ok ()) {b : ToolBinding} (hb : b ∈ bindings) :
    ∃ visibleVersions view, reader = some visibleVersions ∧
      Bindable (visibleVersions workspace (bindings.map (·.versionId))) b view ∧
      (boundWrites view b ≠ [] → ∃ policy, b.writePolicy = some policy ∧
        (policy = .preauthorized → mayPreauthorize (publisherRole a workspace actor) = true)) := by
  unfold checkTools at h
  rw [if_neg] at h
  · cases reader with
    | none => cases h
    | some visibleVersions =>
      obtain ⟨_, _, h⟩ := Fallible.bind_ok.mp h
      obtain ⟨_, hreasons, h⟩ := Fallible.bind_ok.mp h
      split_ifs at h with hnone
      rw [List.isEmpty_iff.mp hnone] at hreasons
      obtain ⟨view, hview⟩ := bindingReasons_nil hreasons b hb
      exact ⟨visibleVersions, view, rfl, hview, checkWritePolicies_ok h hb hview.found⟩
  · rw [List.isEmpty_iff]
    exact List.ne_nil_of_mem hb

end Bindable

end TinyHermes.Agents
