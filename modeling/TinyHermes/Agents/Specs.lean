import TinyHermes.Agents.Drafts
import TinyHermes.Lib.Records
import TinyHermes.SessionWorkspace.Paths

/-! A published Agent's whole configuration: how it is validated, and the document that it is normalized to and read from. -/
namespace TinyHermes.Agents.Specs
open Lib Lib.Codec Lib.Records
open Runs.ContextBudget (SegmentName)
open Outbound (Reading parseEntry)
open SessionWorkspace (normalizeWorkspacePath)

inductive Scenario where
  | complete | failReplaySafe | continueOnce | shellOnce | shellFromInput | waitOnce | skillOnce | proposeOnce | httpOnce | mcpOnce
  | rememberOnce | searchOnce | delegateOnce | longTask
  deriving DecidableEq, Repr

def Scenario.value : Scenario → String
  | .complete => "complete"
  | .failReplaySafe => "fail_replay_safe"
  | .continueOnce => "continue_once"
  | .shellOnce => "shell_once"
  | .shellFromInput => "shell_from_input"
  | .waitOnce => "wait_once"
  | .skillOnce => "skill_once"
  | .proposeOnce => "propose_once"
  | .httpOnce => "http_once"
  | .mcpOnce => "mcp_once"
  | .rememberOnce => "remember_once"
  | .searchOnce => "search_once"
  | .delegateOnce => "delegate_once"
  | .longTask => "long_task"

structure SkillReview where
  enabled : Bool := true
  minToolCalls : Nat := 10

structure EndpointModelPolicy where
  endpointId : UUID
  temperature : Option ℚ := none
  maxOutputTokens : Option Nat := none
  summaryEndpointId : Option UUID := none
  fallbackEndpointIds : List UUID := []

/-- `DeterministicModelPolicy | EndpointModelPolicy`. -/
inductive ModelPolicy where
  | deterministic (scenario : Scenario)
  | endpoint (policy : EndpointModelPolicy)

structure ChatCompletionsDelivery where
  enabled : Bool := false
  syncTimeoutSeconds : Nat := 60

structure StopConditions where
  maxRounds : Option Nat := none

structure CompletionCondition where
  expectedArtifacts : List String := []
  verificationCommand : Option String := none
  constraints : Option String := none
  stopConditions : StopConditions := {}

structure SegmentOverride where
  segment : SegmentName
  targetTokens : Option Nat := none
  maxTokens : Option Nat := none

structure ContextBudget where
  segments : List SegmentOverride := []
  compactionThreshold : Option ℚ := none
  compactionTriggerCapTokens : Option Nat := none

/-- An `HttpToolBinding` or an `McpToolBinding`. -/
structure ToolBinding where
  versionId : UUID
  names : List String
  writePolicy : Option WritePolicy := none

structure DelegationPolicy where
  children : List ChildBinding
  maxParallel : Nat := 2

structure AgentSandbox where
  memoryMb : Option Nat := none

structure AgentNetwork where
  allow : List String := []

structure EndUserAccess where
  enabled : Bool := false

structure AgentSpec where
  personality : String
  modelPolicy : ModelPolicy
  tools : List String := []
  limits : AgentLimits := {}
  delivery : ChatCompletionsDelivery := {}
  completion : Option CompletionCondition := none
  contextBudget : Option ContextBudget := none
  skills : List UUID := []
  network : Option AgentNetwork := none
  httpTools : List ToolBinding := []
  mcpTools : List ToolBinding := []
  delegation : Option DelegationPolicy := none
  endUserAccess : Option EndUserAccess := none
  skillReview : Option SkillReview := none
  sandbox : Option AgentSandbox := none

section Fields

def texts : Codec (List String) := list text

def optionalNat : Codec (Option Nat) := optional nat fun _ => rfl

def optionalText : Codec (Option String) := optional text fun _ => rfl

def optionalNumber : Codec (Option ℚ) := optional number fun _ => rfl

def literal (value : String) : Codec Unit where
  write _ := .string value
  read v := if v.isText value then some () else none
  read_write _ := if_pos (decide_eq_true rfl)

def scenario : Codec Scenario := named [.complete, .failReplaySafe, .continueOnce, .shellOnce, .shellFromInput, .waitOnce, .skillOnce,
  .proposeOnce, .httpOnce, .mcpOnce, .rememberOnce, .searchOnce, .delegateOnce, .longTask] Scenario.value fun s => by cases s <;> rfl

def writePolicyValue : WritePolicy → String
  | .disabled => "disabled"
  | .preauthorized => "preauthorized"
  | .governance => "governance"

def writePolicy : Codec WritePolicy := named [.disabled, .preauthorized, .governance] writePolicyValue fun w => by cases w <;> rfl

def segmentValue : SegmentName → String
  | .safetyRules => "safety_rules"
  | .personality => "personality"
  | .skillSummaries => "skill_summaries"
  | .memory => "memory"
  | .toolSchemas => "tool_schemas"
  | .oldToolResults => "old_tool_results"
  | .recentHistory => "recent_history"

def segment : Codec SegmentName := named segmentNames segmentValue fun s => by cases s <;> rfl

def permission : Codec MemoryPermission := named [.readPrivate, .proposePrivate] MemoryPermission.value fun m => by cases m <;> rfl

open Records.Fields (one)

def limits : Fields AgentLimits :=
  ((((one "max_execution_seconds" nat (some 900)).both (one "max_elapsed_seconds" nat (some 86400))).both
    (one "max_model_calls" nat (some 20))).both (one "max_tool_calls" nat (some 50))).both (one "max_derived_retries" nat (some 3))
  |>.as (fun ((((a, b), c), d), e) => ⟨a, b, c, d, e⟩) fun l =>
    ((((l.maxExecutionSeconds, l.maxElapsedSeconds), l.maxModelCalls), l.maxToolCalls), l.maxDerivedRetries)

def delivery : Fields ChatCompletionsDelivery :=
  ((one "enabled" bool (some false)).both (one "sync_timeout_seconds" nat (some 60))).as (fun (a, b) => ⟨a, b⟩)
    fun d => (d.enabled, d.syncTimeoutSeconds)

def stopConditions : Fields StopConditions := (one "max_rounds" optionalNat (some none)).as StopConditions.mk StopConditions.maxRounds

def completion : Fields CompletionCondition :=
  (((one "expected_artifacts" texts (some [])).both (one "verification_command" optionalText (some none))).both
    (one "constraints" optionalText (some none))).both (one "stop_conditions" stopConditions.codec (some {}))
  |>.as (fun (((a, b), c), d) => ⟨a, b, c, d⟩) fun c => (((c.expectedArtifacts, c.verificationCommand), c.constraints), c.stopConditions)

def segmentOverride : Fields SegmentOverride :=
  ((one "segment" segment none).both (one "target_tokens" optionalNat (some none))).both (one "max_tokens" optionalNat (some none))
  |>.as (fun ((a, b), c) => ⟨a, b, c⟩) fun o => ((o.segment, o.targetTokens), o.maxTokens)

def contextBudget : Fields ContextBudget :=
  ((one "segments" (list segmentOverride.codec) (some [])).both (one "compaction_threshold" optionalNumber (some none))).both
    (one "compaction_trigger_cap_tokens" optionalNat (some none))
  |>.as (fun ((a, b), c) => ⟨a, b, c⟩) fun b => ((b.segments, b.compactionThreshold), b.compactionTriggerCapTokens)

def skill : Fields UUID := one "skill_version_id" uuid none

def optionalWritePolicy : Codec (Option WritePolicy) := optional writePolicy fun _ => rfl

def httpTool : Fields ToolBinding :=
  ((one "http_tool_version_id" uuid none).both (one "operations" texts none)).both (one "write_policy" optionalWritePolicy (some none))
  |>.as (fun ((a, b), c) => ⟨a, b, c⟩) fun t => ((t.versionId, t.names), t.writePolicy)

def mcpTool : Fields ToolBinding :=
  ((one "mcp_server_version_id" uuid none).both (one "tools" texts none)).both (one "write_policy" optionalWritePolicy (some none))
  |>.as (fun ((a, b), c) => ⟨a, b, c⟩) fun t => ((t.versionId, t.names), t.writePolicy)

def child : Fields ChildBinding :=
  ((((((one "alias" text none).both (one "tools" texts (some []))).both (one "files" texts (some []))).both
    (one "network" texts (some []))).both (one "secrets" texts (some []))).both (one "skills" texts (some []))).both
      (one "memory" (list permission) (some []))
  |>.as (fun ((((((a, b), c), d), e), f), g) => ⟨a, b, c, d, e, f, g⟩) fun c =>
    ((((((c.aliasName, c.tools), c.files), c.network), c.secrets), c.skills), c.memory)

def delegation : Fields DelegationPolicy :=
  ((one "children" (list child.codec) none).both (one "max_parallel" nat (some 2))).as (fun (a, b) => ⟨a, b⟩)
    fun d => (d.children, d.maxParallel)

def sandbox : Fields AgentSandbox := (one "memory_mb" optionalNat (some none)).as AgentSandbox.mk AgentSandbox.memoryMb

def network : Fields AgentNetwork := (one "allow" texts (some [])).as AgentNetwork.mk AgentNetwork.allow

def endUserAccess : Fields EndUserAccess := (one "enabled" bool (some false)).as EndUserAccess.mk EndUserAccess.enabled

def skillReview : Fields SkillReview :=
  ((one "enabled" bool (some true)).both (one "min_tool_calls" nat (some 10))).as (fun (a, b) => ⟨a, b⟩)
    fun r => (r.enabled, r.minToolCalls)

def deterministic : Fields Scenario :=
  ((one "provider" (literal "deterministic") (some ())).both (one "scenario" scenario (some .complete))).as Prod.snd fun s => ((), s)

def optionalUuid : Codec (Option UUID) := optional uuid fun _ => rfl

def endpoint : Fields EndpointModelPolicy :=
  (((((one "provider" (literal "openai_compatible") none).both (one "endpoint_id" uuid none)).both
    (one "temperature" optionalNumber (some none))).both (one "max_output_tokens" optionalNat (some none))).both
      (one "summary_endpoint_id" optionalUuid (some none))).both (one "fallback_endpoint_ids" (list uuid) (some []))
  |>.as (fun (((((_, a), b), c), d), e) => ⟨a, b, c, d, e⟩) fun e =>
    ((((((), e.endpointId), e.temperature), e.maxOutputTokens), e.summaryEndpointId), e.fallbackEndpointIds)

/-- What is written at `provider`. -/
def providerOf : Json → Option String
  | .object fields => (fields.lookup "provider").bind text.read
  | _ => none

def modelPolicy : Codec ModelPolicy where
  write
    | .deterministic scenario => .object (deterministic.write scenario)
    | .endpoint policy => .object (endpoint.write policy)
  read v :=
    if providerOf v = some "deterministic" then (deterministic.readObject v).map .deterministic
    else if providerOf v = some "openai_compatible" then (endpoint.readObject v).map .endpoint
    else none
  read_write m := by
    cases m with
    | deterministic scenario =>
      have hprovider : providerOf (.object (deterministic.write scenario)) = some "deterministic" := rfl
      dsimp only
      rw [hprovider, if_pos rfl, deterministic.readObject_write, Option.map_some]
    | endpoint policy =>
      have hprovider : providerOf (.object (endpoint.write policy)) = some "openai_compatible" := rfl
      dsimp only
      rw [hprovider, if_neg (by decide), if_pos rfl, endpoint.readObject_write, Option.map_some]

/-- `schema_version: Literal[1]`. -/
def schemaVersion : Codec Unit where
  write _ := .int 1
  read v := match v with
    | .int value => if value = 1 then some () else none
    | _ => none
  read_write _ := rfl

def described : Fields (((Unit × String) × ModelPolicy) × List String) :=
  (((one "schema_version" schemaVersion (some ())).both (one "personality" text none)).both (one "model_policy" modelPolicy none)).both
    (one "tools" texts (some []))

def bounded : Fields (((AgentLimits × ChatCompletionsDelivery) × Option CompletionCondition) × Option ContextBudget) :=
  (((one "limits" limits.codec (some {})).both (one "delivery" delivery.codec (some {}))).both
    (one "completion" (optional completion.codec fun _ => rfl) (some none))).both
      (one "context_budget" (optional contextBudget.codec fun _ => rfl) (some none))

def bound : Fields (((List UUID × Option AgentNetwork) × List ToolBinding) × List ToolBinding) :=
  (((one "skills" (list skill.codec) (some [])).both (one "network" (optional network.codec fun _ => rfl) (some none))).both
    (one "http_tools" (list httpTool.codec) (some []))).both (one "mcp_tools" (list mcpTool.codec) (some []))

def allowed : Fields (((Option DelegationPolicy × Option EndUserAccess) × Option SkillReview) × Option AgentSandbox) :=
  (((one "delegation" (optional delegation.codec fun _ => rfl) (some none)).both
    (one "end_user_access" (optional endUserAccess.codec fun _ => rfl) (some none))).both
      (one "skill_review" (optional skillReview.codec fun _ => rfl) (some none))).both
        (one "sandbox" (optional sandbox.codec fun _ => rfl) (some none))

def spec : Fields AgentSpec := (described.both bounded).both (bound.both allowed) |>.as
  (fun (((((_, a), b), c), (((d, e), f), g)), (((h, i), j), k), (((l, m), n), o)) => ⟨a, b, c, d, e, f, g, h, i, j, k, l, m, n, o⟩)
  fun s => ((((((), s.personality), s.modelPolicy), s.tools), (((s.limits, s.delivery), s.completion), s.contextBudget)),
    (((s.skills, s.network), s.httpTools), s.mcpTools), (((s.delegation, s.endUserAccess), s.skillReview), s.sandbox))

end Fields

section Normalizing

/-- `normalized.get("delivery") == default_delivery`. -/
def isDefaultDelivery : Json → Bool
  | .object [(_, .bool enabled), (_, .int timeout)] => !enabled && timeout = 60
  | _ => false

/-- `sandbox is None or sandbox.get("memory_mb") is None`. -/
def isSizeless : Json → Bool
  | .null => true
  | .object fields => (fields.lookup "memory_mb").all isNull
  | _ => false

def specRules : List (String × (Json → Bool)) :=
  [("delivery", isDefaultDelivery), ("completion", isNull), ("context_budget", isNull), ("network", isNull), ("delegation", isNull),
    ("sandbox", isSizeless), ("skill_review", isNull), ("end_user_access", isNull), ("mcp_tools", (!·.truthy)),
    ("http_tools", (!·.truthy)), ("skills", (!·.truthy))]

def budgetRules : List (String × (Json → Bool)) := [("compaction_threshold", isNull), ("compaction_trigger_cap_tokens", isNull)]

def policyRules : List (String × (Json → Bool)) := [("summary_endpoint_id", isNull), ("fallback_endpoint_ids", (!·.truthy))]

def normalized (s : AgentSpec) : Document :=
  poppedAt "model_policy" policyRules (poppedAt "context_budget" budgetRules (popped specRules (spec.write s)))

/-- A temperature of zero, of which there are two that are equal. -/
def coldest (s : AgentSpec) : Bool := match s.modelPolicy with
  | .deterministic _ => false
  | .endpoint e => e.temperature = some 0

/-- `normalize_agent_spec`, with the hash of the sorted text, in which a zero is spelled with its sign. -/
def normalizeAgentSpec (hash : Bool → Document → String) (negative : Bool) (s : AgentSpec) : Document × String :=
  (normalized s, hash (coldest s && negative) (normalized s))

end Normalizing

section Validating

/-- The first of several checks that fails, by the place it is about. -/
def requireAll (checks : List (String × Bool)) : Except String Unit :=
  match checks.find? (!·.2) with
  | none => .ok ()
  | some check => .error check.1

/-- One more value in its one spelling, if it is not there. -/
def collect (place : String) (clean : String → Option String) (seen : List String) (value : String) : Except String (List String) :=
  match clean value with
  | none => .error place
  | some cleaned => if cleaned ∈ seen then .error place else .ok (seen ++ [cleaned])

def collected (place : String) (clean : String → Option String) (values : List String) : Except String (List String) :=
  values.foldlM (collect place clean) []

def stripped (place : String) (most : Nat) (value : String) : Except String String :=
  if most < value.length || Text.isBlank value then .error place else .ok (Text.strip value)

/-- `IMPLEMENTED_TOOLS`. -/
def implementedTools : List String :=
  ["shell.exec", "file.list", "file.read", "file.write", "platform.wait", "skill.load", "skill.propose", "memory.remember",
    "session.search", "agent.delegate", "artifact.read", "todo.write", "site.publish", "file.send"]

def maxSkillBindings : Nat := 16
def maxNetworkEntries : Nat := 32
def minSandboxMemoryMb : Nat := 256

def policyChecks : ModelPolicy → List (String × Bool)
  | .deterministic _ => []
  | .endpoint e =>
    [("temperature", e.temperature.all fun t => 0 ≤ t && t ≤ 2), ("max_output_tokens", e.maxOutputTokens.all (1 ≤ ·)),
      ("fallback_endpoint_ids", decide (e.fallbackEndpointIds.length ≤ maxFallbackEndpoints)),
      ("model_policy", decide (e.endpointId :: e.fallbackEndpointIds).Nodup)]

/-- `stay_inside_the_platform_caps`. -/
def overrideChecks (o : SegmentOverride) : List (String × Bool) :=
  let default := defaultSegments o.segment
  let cap := o.maxTokens.or default.maxTokens
  [("segments", default.maxTokens.isSome), ("max_tokens", o.maxTokens.all fun most => default.maxTokens.all (most ≤ ·)),
    ("target_tokens", o.targetTokens.all fun target => default.minTokens ≤ target && cap.all (target ≤ ·))]

def budgetChecks (b : ContextBudget) : List (String × Bool) :=
  b.segments.flatMap overrideChecks ++ [("segments", decide (b.segments.map (·.segment)).Nodup),
    ("compaction_threshold", b.compactionThreshold.all fun r => 0 < r && r ≤ 1),
    ("compaction_trigger_cap_tokens", b.compactionTriggerCapTokens.all (0 < ·))]

def bindingChecks (place : String) (most mostNames : Nat) (bindings : List ToolBinding) : List (String × Bool) :=
  bindings.map (fun b => (place, !b.names.isEmpty && b.names.Nodup)) ++ [(place, decide (bindings.length ≤ most)),
    (place, decide (bindings.map (·.versionId)).Nodup), (place, decide ((bindings.map (·.names.length)).sum ≤ mostNames))]

def delegationChecks (d : DelegationPolicy) : List (String × Bool) :=
  d.children.map (fun c => ("alias", 1 ≤ c.aliasName.length && c.aliasName.length ≤ 64)) ++ [("children", !d.children.isEmpty),
    ("children", decide (d.children.map (·.aliasName)).Nodup), ("max_parallel", 1 ≤ d.maxParallel && d.maxParallel ≤ 8)]

def fieldChecks (s : AgentSpec) : List (String × Bool) :=
  policyChecks s.modelPolicy ++ s.contextBudget.elim [] budgetChecks ++
  bindingChecks "http_tools" maxHttpToolBindings maxBoundOperations s.httpTools ++
  bindingChecks "mcp_tools" maxMcpBindings maxBoundMcpTools s.mcpTools ++ s.delegation.elim [] delegationChecks ++
  [("tools", decide s.tools.Nodup), ("tools", s.tools.all (implementedTools.contains ·)),
    ("max_execution_seconds", decide (1 ≤ s.limits.maxExecutionSeconds)),
    ("max_elapsed_seconds", 60 ≤ s.limits.maxElapsedSeconds && s.limits.maxElapsedSeconds ≤ 86400),
    ("max_model_calls", decide (1 ≤ s.limits.maxModelCalls)), ("max_derived_retries", decide (s.limits.maxDerivedRetries ≤ 3)),
    ("sync_timeout_seconds", 1 ≤ s.delivery.syncTimeoutSeconds && s.delivery.syncTimeoutSeconds ≤ 60),
    ("skills", decide (s.skills.length ≤ maxSkillBindings)), ("skills", decide s.skills.Nodup),
    ("min_tool_calls", s.skillReview.all fun r => 1 ≤ r.minToolCalls && r.minToolCalls ≤ 200),
    ("memory_mb", s.sandbox.all (·.memoryMb.all (minSandboxMemoryMb ≤ ·)))]

/-- `require_the_means_to_check_completion`. -/
def meansChecks (s : AgentSpec) : List (String × Bool) :=
  s.completion.elim [] fun c =>
    [("verification_command", c.verificationCommand.isNone || s.tools.contains "shell.exec"),
      ("expected_artifacts", c.expectedArtifacts.isEmpty || !s.tools.isEmpty),
      ("max_rounds", c.stopConditions.maxRounds.all (· ≤ s.limits.maxModelCalls))]

def completionChecks (c : CompletionCondition) : List (String × Bool) :=
  [("constraints", c.constraints.all (·.length ≤ 4096)), ("max_rounds", c.stopConditions.maxRounds.all (1 ≤ ·)),
    ("completion", !c.expectedArtifacts.isEmpty || c.verificationCommand.isSome)]

def checkedCompletion (nfc : String → String) (c : CompletionCondition) : Except String CompletionCondition := do
  let expectedArtifacts ← collected "expected_artifacts" (fun path => (normalizeWorkspacePath nfc path).toOption) c.expectedArtifacts
  let verificationCommand ← c.verificationCommand.mapM (stripped "verification_command" 4096)
  requireAll (completionChecks c)
  return { c with expectedArtifacts, verificationCommand }

def cleanEntry (p : Reading) (entry : String) : Option String := (parseEntry p entry.toList).toOption.map (String.ofList ·.text)

def checkedNetwork (p : Reading) (n : AgentNetwork) : Except String AgentNetwork := do
  requireAll [("allow", decide (n.allow.length ≤ maxNetworkEntries))]
  let allow ← collected "allow" (cleanEntry p) n.allow
  return { allow }

def validated (p : Reading) (nfc : String → String) (s : AgentSpec) : Except String AgentSpec := do
  let personality ← stripped "personality" 8192 s.personality
  let completion ← s.completion.mapM (checkedCompletion nfc)
  let network ← s.network.mapM (checkedNetwork p)
  requireAll (fieldChecks s)
  requireAll (meansChecks { s with completion })
  return { s with personality, completion, network }

/-- `AgentSpec.model_validate`. -/
def modelValidate (p : Reading) (nfc : String → String) (document : Document) : Except String AgentSpec :=
  match spec.readObject (.object document) with
  | none => .error "spec"
  | some s => validated p nfc s

end Validating

end TinyHermes.Agents.Specs
