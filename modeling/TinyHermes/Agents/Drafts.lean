import TinyHermes.Agents.Delegation
import TinyHermes.Identity.Machines
import TinyHermes.Lib.Keys
import TinyHermes.Outbound.Scope
import TinyHermes.Runs.ContextBudget

/-! What an author writes down of an Agent, as it is validated. -/
namespace TinyHermes.Agents
open Runs (Uuid)
open Runs.ContextBudget (SegmentName)

/-- What happens when a bound operation would change something out there. -/
inductive WritePolicy where
  | disabled | preauthorized | governance
  deriving DecidableEq, Repr

/-- One version, and which of its operations or tools may be called: a subset that is written down, each name once. -/
structure ToolBinding where
  versionId : Uuid
  names : List (List Char)
  writePolicy : Option WritePolicy := none
  names_ne_nil : names ≠ []
  names_nodup : names.Nodup

/-- Names are the `operations` of an HTTP tool version. -/
abbrev HttpToolBinding := ToolBinding

/-- Names are the `tools` of an MCP server version. -/
abbrev McpToolBinding := ToolBinding

/-- `reject_repeated_http_versions` and `reject_repeated_mcp_versions`: few bindings, few names, and a version once. -/
structure ToolBindings (most mostNames : Nat) where
  bindings : List ToolBinding := []
  few : bindings.length ≤ most := by simp
  fewNames : (bindings.map (·.names.length)).sum ≤ mostNames := by simp
  versions_nodup : (bindings.map (·.versionId)).Nodup := by simp

def maxHttpToolBindings : Nat := 8
def maxBoundOperations : Nat := 32
def maxMcpBindings : Nat := 8
def maxBoundMcpTools : Nat := 32

def maxFallbackEndpoints : Nat := 2

structure EndpointModelPolicy where
  endpointId : Uuid
  maxOutputTokens : Option Nat := none
  summaryEndpointId : Option Uuid := none
  fallbackEndpointIds : List Uuid := []
  few : fallbackEndpointIds.length ≤ maxFallbackEndpoints := by simp
  distinct : (endpointId :: fallbackEndpointIds).Nodup := by simp

inductive ModelPolicy where
  | deterministic
  | endpoint (policy : EndpointModelPolicy)

section Budget

structure SegmentBudget where
  minTokens : Nat
  targetTokens : Option Nat
  maxTokens : Option Nat
  deriving DecidableEq, Repr

/-- `DEFAULT_SEGMENTS`. -/
def defaultSegments : SegmentName → SegmentBudget
  | .safetyRules => ⟨512, some 1024, some 2048⟩
  | .personality => ⟨256, some 1024, some 2048⟩
  | .skillSummaries => ⟨0, some 768, some 1536⟩
  | .memory => ⟨0, some 1536, some 3072⟩
  | .toolSchemas => ⟨0, some 4096, some 12288⟩
  | .oldToolResults => ⟨0, some 1024, some 2048⟩
  | .recentHistory => ⟨0, none, none⟩

def segmentNames : List SegmentName :=
  [.safetyRules, .personality, .skillSummaries, .memory, .toolSchemas, .oldToolResults, .recentHistory]

/-- One segment's budget as an author changed it, inside the platform's caps. -/
structure SegmentOverride where
  segment : SegmentName
  targetTokens : Option Nat := none
  maxTokens : Option Nat := none
  inside : ∃ cap ∈ (defaultSegments segment).maxTokens, (∀ most ∈ maxTokens, most ≤ cap) ∧
    ∀ target ∈ targetTokens, (defaultSegments segment).minTokens ≤ target ∧ target ≤ maxTokens.getD cap

structure ContextBudget where
  segments : List SegmentOverride := []
  compactionThreshold : Option Rat := none
  once : (segments.map (·.segment)).Nodup := by simp
  ratio : ∀ r ∈ compactionThreshold, 0 < r ∧ r ≤ 1 := by simp

/-- `resolve`: the platform's table, with the author's changes on top. -/
def ContextBudget.resolve (b : ContextBudget) (name : SegmentName) : SegmentBudget :=
  let budget := defaultSegments name
  match b.segments.find? (·.segment = name) with
  | none => budget
  | some o => { budget with
      targetTokens := o.targetTokens <|> budget.targetTokens, maxTokens := o.maxTokens <|> budget.maxTokens }

/-- A table whose numbers are in order and within the platform's caps, and that differs from the platform's only where
it is `named`. -/
structure Consistent (named : List SegmentName) (table : SegmentName → SegmentBudget) : Prop where
  ordered : ∀ name, ∀ target ∈ (table name).targetTokens, ∀ most ∈ (table name).maxTokens,
    (table name).minTokens ≤ target ∧ target ≤ most
  capped : ∀ name, ∀ most ∈ (table name).maxTokens, ∀ cap ∈ (defaultSegments name).maxTokens, most ≤ cap
  unnamed : ∀ name ∉ named, table name = defaultSegments name

theorem defaultSegments_ordered (name : SegmentName) : ∀ target ∈ (defaultSegments name).targetTokens,
    ∀ most ∈ (defaultSegments name).maxTokens, (defaultSegments name).minTokens ≤ target ∧ target ≤ most := by
  cases name <;> decide

theorem ContextBudget.resolve_override {b : ContextBudget} {o : SegmentOverride} (ho : o ∈ b.segments) :
    b.resolve o.segment = { defaultSegments o.segment with
      targetTokens := o.targetTokens <|> (defaultSegments o.segment).targetTokens
      maxTokens := o.maxTokens <|> (defaultSegments o.segment).maxTokens } := by
  have hfind : b.segments.find? (·.segment = o.segment) = some o := Lib.Keys.find_own b.once ho
  rw [ContextBudget.resolve, hfind]

theorem ContextBudget.resolve_unnamed {b : ContextBudget} {name : SegmentName} (h : name ∉ b.segments.map (·.segment)) :
    b.resolve name = defaultSegments name := by
  have hfind : b.segments.find? (·.segment = name) = none := by
    rw [List.find?_eq_none]
    intro o ho hsegment
    exact h (List.mem_map.mpr ⟨o, ho, by simpa using hsegment⟩)
  rw [ContextBudget.resolve, hfind]

/-- An author who lowers a maximum and names no target has to lower it no further than the platform's target. -/
theorem ContextBudget.resolve_consistent_iff (b : ContextBudget) : Consistent (b.segments.map (·.segment)) b.resolve ↔
    ∀ o ∈ b.segments, o.targetTokens = none → ∀ most ∈ o.maxTokens,
      ∀ target ∈ (defaultSegments o.segment).targetTokens, target ≤ most := by
  constructor
  · intro h o ho hnone most hmost target htarget
    have hordered := h.ordered o.segment
    rw [resolve_override ho, hnone, Option.mem_def.mp hmost] at hordered
    exact (hordered target htarget most rfl).2
  · intro h
    have hnamed : ∀ name, b.resolve name = defaultSegments name ∨ ∃ o ∈ b.segments, o.segment = name := by
      intro name
      by_cases hname : name ∈ b.segments.map (·.segment)
      · exact .inr (List.mem_map.mp hname)
      · exact .inl (resolve_unnamed hname)
    refine ⟨fun name target htarget most hmost => ?_, fun name most hmost cap hcap => ?_, fun name => resolve_unnamed⟩
    · rcases hnamed name with hdefault | ⟨o, ho, rfl⟩
      · rw [hdefault] at htarget hmost ⊢
        exact defaultSegments_ordered name target htarget most hmost
      · obtain ⟨cap, hcap, _, hinside⟩ := o.inside
        rw [resolve_override ho] at htarget hmost ⊢
        cases hwritten : o.targetTokens with
        | none =>
          rw [hwritten] at htarget
          have hordered := defaultSegments_ordered o.segment target htarget
          refine ⟨(hordered cap hcap).1, ?_⟩
          cases hlimit : o.maxTokens with
          | none =>
            rw [hlimit] at hmost
            exact (hordered most hmost).2
          | some =>
            rw [hlimit] at hmost
            exact h o ho hwritten most (hlimit.trans hmost) target htarget
        | some written =>
          rw [hwritten] at htarget hinside
          obtain rfl := Option.some.inj htarget
          obtain ⟨hmin, hle⟩ := hinside written rfl
          refine ⟨hmin, ?_⟩
          cases hlimit : o.maxTokens with
          | none =>
            rw [hlimit] at hmost hle
            exact hle.trans (Option.some.inj (hcap.symm.trans hmost)).le
          | some =>
            rw [hlimit] at hmost hle
            exact hle.trans (Option.some.inj hmost).le
    · rcases hnamed name with hdefault | ⟨o, ho, rfl⟩
      · rw [hdefault] at hmost
        exact (Option.some.inj (hmost.symm.trans hcap)).le
      · obtain ⟨_, hplatform, hmax, _⟩ := o.inside
        cases hplatform.symm.trans hcap
        rw [resolve_override ho] at hmost
        cases hlimit : o.maxTokens with
        | none =>
          rw [hlimit] at hmost
          exact (Option.some.inj (hmost.symm.trans hcap)).le
        | some =>
          rw [hlimit] at hmost
          exact hmax most (hlimit.trans hmost)

theorem no_threshold : ∀ r ∈ (none : Option Rat), 0 < r ∧ r ≤ 1 := by simp

/-- The memory's maximum lowered below the target that it keeps. -/
def lowered : ContextBudget where
  segments := [{ segment := .memory, maxTokens := some 1000, inside := ⟨3072, rfl, by simp, by simp⟩ }]
  ratio := no_threshold

theorem lowered_inconsistent : ¬ Consistent (lowered.segments.map (·.segment)) lowered.resolve := by
  intro h
  exact absurd (h.ordered .memory 1536 rfl 1000 rfl).2 (by decide)

end Budget

/-- The rest of an `AgentSpec`, as publication reads it. -/
structure DraftSpec extends AgentSpec where
  modelPolicy : ModelPolicy := .deterministic
  contextBudget : Option ContextBudget := none
  httpTools : ToolBindings maxHttpToolBindings maxBoundOperations := {}
  mcpTools : ToolBindings maxMcpBindings maxBoundMcpTools := {}
  sandboxMemoryMb : Option Nat := none

structure PlatformCeilings where
  maxModelCalls : Nat := 20
  maxToolCalls : Nat := 200
  maxExecutionSeconds : Nat := 900
  sandboxMemoryMb : Nat := 4096

def above (asked ceiling : Nat) : Option Nat := if ceiling < asked then some asked else none

section Ceilings
variable (spec : DraftSpec) (ceilings : PlatformCeilings)

def roundsAboveCeiling : Option Nat := above spec.limits.maxModelCalls ceilings.maxModelCalls

def executionAboveCeiling : Option Nat := above spec.limits.maxExecutionSeconds ceilings.maxExecutionSeconds

def toolCallsAboveCeiling : Option Nat := above spec.limits.maxToolCalls ceilings.maxToolCalls

def sandboxMemoryAboveCeiling : Option Nat := spec.sandboxMemoryMb.bind (above · ceilings.sandboxMemoryMb)

end Ceilings

inductive Face where
  | tools | files | network | secrets | skills | memory
  deriving DecidableEq, Repr

def MemoryPermission.value : MemoryPermission → String
  | .readPrivate => "memory.read_private"
  | .proposePrivate => "memory.propose_private"

theorem names_trans : IsTrans String fun a b => a ≤ b := inferInstance

theorem names_antisymm : Std.Antisymm fun a b : String => a ≤ b := inferInstance

theorem names_total : Std.Total fun a b : String => a ≤ b := inferInstance

/-- `sorted`. -/
def inOrder (names : Finset String) : List String := @Finset.sort String names (· ≤ ·) _ names_trans names_antisymm names_total

/-- `missing_from`: what a scope asked for that this one does not hold, by face. -/
def DelegationScope.missingFrom (mine theirs : DelegationScope) : List (Face × List String) :=
  [(.tools, inOrder (theirs.tools \ mine.tools)), (.files, inOrder (theirs.files \ mine.files)),
    (.network, inOrder (theirs.network \ mine.network)), (.secrets, inOrder (theirs.secrets \ mine.secrets)),
    (.skills, inOrder (theirs.skills \ mine.skills)),
    (.memory, inOrder ((theirs.memory \ mine.memory).image MemoryPermission.value))].filter fun found => !found.2.isEmpty

end TinyHermes.Agents
