import TinyHermes.Runs.ApprovalDecisions
import TinyHermes.Tools.HttpCalls

/-! What the platform does with one call of a bound operation, and the look ahead at whether the round has to wait for
a person. -/
namespace TinyHermes.Tools
open Lib Agents
open Runs (Uuid CallerType Time)
open Runs.ApprovalDecisions (ApprovalType)
open Runs.SlicePolicy (ApprovalVerdict)

structure ExecutionContext where
  runId : Uuid
  callerType : CallerType
  spec : DraftSpec
  delegationScope : Option DelegationScope
  httpOperations : List BoundOperation

/-- `granted_operations`: those that a delegation lets through. -/
def ExecutionContext.grantedOperations (c : ExecutionContext) : List BoundOperation :=
  c.httpOperations.filter fun b => mayCall c.delegationScope b.entry

/-- A call in the shape an approval is written against. -/
structure NormalizedCall where
  document : Document
  contentHash : String

/-- What `ApprovalGate.check` is asked. -/
structure Question where
  runId : Uuid
  approvalType : ApprovalType
  tool : List Char
  callId : String
  call : NormalizedCall
  requiredPermission : List Char

structure ApprovalCheck where
  verdict : ApprovalVerdict
  approvalId : Option Uuid := none
  expiresAt : Option Time := none
  detail : String := ""

def ApprovalCheck.proceeds (c : ApprovalCheck) : Bool := c.verdict == .approved

inductive Raised where
  | compose (fault : Egress.HeadFault)
  /-- A text that has no encoding. -/
  | notEncodable
  | outside

/-- The world a call is answered in: the questions that were asked, and everything behind the gate and the senders. -/
structure RoundWorld (σ : Type) where
  asked : List Question := []
  outside : σ

abbrev Round (σ : Type) := StateT (RoundWorld σ) (Except Raised)

abbrev Outside (σ α : Type) := σ → Except Raised (α × σ)

def Outside.run {σ α : Type} (x : Outside σ α) : Round σ α := fun w =>
  match x w.outside with
  | .error raised => .error raised
  | .ok (a, outside) => .ok (a, { w with outside })

/-- `ApprovalGate`: whether a call may proceed, asking if nobody has been asked. -/
abbrev ApprovalGate (σ : Type) := Question → Outside σ ApprovalCheck

structure ToolResultBlock where
  callId : String
  output : String
  exitCode : Nat
  failed : Bool

/-- `HTTP_CALL_REFUSED` as it is put down. -/
structure RefusedEvent where
  tool : List Char
  operation : List Char
  method : String
  reason : String

structure HttpCallOutcome where
  result : Option ToolResultBlock
  event : Option RefusedEvent := none
  approval : Option ApprovalCheck := none

structure Cleared where
  idempotencyKey : Option String := none

structure HttpToolAnswer where
  statusCode : Option Nat
  body : String
  refusal : Option String := none

def HttpToolAnswer.failed (a : HttpToolAnswer) : Bool := a.refusal.isSome || a.statusCode.any (400 ≤ ·)

structure McpAnswer where
  content : String
  refusal : Option String := none

section Refusals
variable (callId : String)

def textRefusal (why : String) : ToolResultBlock where
  callId := callId
  output := "refused: " ++ why
  exitCode := 126
  failed := true

/-- `refusal`: a reason, and a detail if there is one. -/
def refusal (reason : String) (detail : String) : ToolResultBlock :=
  textRefusal callId (reason ++ if detail = "" then "" else " (" ++ detail ++ ")")

def notAuthorized : String := "tool_not_authorized"

def invalidArguments : String := "invalid_arguments"

end Refusals

def refusedEvent (b : BoundOperation) (plan : HttpRequestPlan) (reason : String) : RefusedEvent where
  tool := b.toolName
  operation := b.operation.operationId
  method := plan.method
  reason := reason

def mcpEvent (e : BoundEntry McpTool) (reason : String) : RefusedEvent where
  tool := e.toolName
  operation := e.item.name
  method := "mcp"
  reason := reason

def policyOf (bindings : List ToolBinding) (versionId : Uuid) : Option WritePolicy :=
  (bindings.find? (·.versionId == versionId)).bind (·.writePolicy)

/-- `_write_policy`. -/
def writePolicy (b : BoundOperation) (c : ExecutionContext) : Option WritePolicy :=
  policyOf c.spec.httpTools.bindings b.versionId

/-- `_mcp_policy`. -/
def mcpPolicy (e : BoundEntry McpTool) (c : ExecutionContext) : Option WritePolicy :=
  policyOf c.spec.mcpTools.bindings e.versionId

/-- `_write_approval_type`: an end user is asked about their own writes. -/
def writeApprovalType (c : ExecutionContext) : ApprovalType :=
  if c.callerType = .endUser then .userConfirmation else .governanceApproval

section Answering
variable (p : Spelling) {σ : Type}

/-- `normalize_call`. What was decoded from JSON is made of plain values, so that `_value` leaves it as it is. -/
def normalizeCall (tool : List Char) (arguments : Document) (target permission : List Char) : Round σ NormalizedCall :=
  let document : Document :=
    [("tool", .string (String.ofList tool)), ("arguments", .object arguments), ("working_directory", .null),
      ("target", .string (String.ofList target)), ("required_permission", .string (String.ofList permission))]
  match p.digest document with
  | none => throw .notEncodable
  | some contentHash => pure { document, contentHash }

/-- `gate.check`. -/
def ask (gate : ApprovalGate σ) (question : Question) : Round σ ApprovalCheck := do
  modify fun w => { w with asked := w.asked ++ [question] }
  (gate question).run

def askAbout (gate : ApprovalGate σ) (c : ExecutionContext) (call : ToolCallBlock) (target permission : List Char) :
    Round σ ApprovalCheck := do
  let normalized ← normalizeCall p call.name call.arguments target permission
  ask gate
    { runId := c.runId, approvalType := writeApprovalType c, tool := call.name, callId := call.callId,
      call := normalized, requiredPermission := permission }

/-- `_cleared_to_write`: nothing when the write may proceed, an outcome when it may not. -/
def clearedToWrite (b : BoundOperation) (plan : HttpRequestPlan) (call : ToolCallBlock) (gate : Option (ApprovalGate σ))
    (c : ExecutionContext) : Round σ (Option HttpCallOutcome) :=
  match writePolicy b c with
  | some .preauthorized => pure none
  | some .governance =>
    match gate with
    | none => pure (some
      { result := some (textRefusal call.callId "no approval gate is configured here")
        event := some (refusedEvent b plan "approval_unavailable") })
    | some gate => do
      let checked ← askAbout p gate c call plan.url ("http.".toList ++ b.toolName ++ ".write".toList)
      if checked.proceeds then pure none else pure (some { result := none, approval := some checked })
  | _ => pure (some
    { result := some (textRefusal call.callId ("write_disabled: this Agent was published with writes to this " ++
        "tool turned off. Do not retry it; report what you were unable to do."))
      event := some (refusedEvent b plan "write_disabled") })

structure HttpFace (σ : Type) where
  sender : Option (HttpRequestPlan → Option String → Outside σ HttpToolAnswer)
  beforeCall : Option (HttpRequestPlan → Outside σ (Option Cleared))

structure McpFace (σ : Type) where
  gateway : Option (BoundEntry McpTool → Document → Outside σ McpAnswer)
  beforeCall : Option (Outside σ Bool)

/-- What `answer_http_call` makes of an answer. -/
def httpOutcome (b : BoundOperation) (plan : HttpRequestPlan) (callId : String) (answer : HttpToolAnswer) : HttpCallOutcome :=
  match answer.refusal with
  | some reason => { result := some (textRefusal callId reason), event := some (refusedEvent b plan reason) }
  | none =>
    let status := match answer.statusCode with
      | none => "None"
      | some code => toString code
    { result := some
        { callId, output := "HTTP " ++ status ++ "\n" ++ answer.body, exitCode := if answer.failed then 1 else 0,
          failed := answer.failed } }

/-- `before_call`: the call is charged and written down, if anything asks for that. -/
def clearedToSend (face : HttpFace σ) (plan : HttpRequestPlan) : Round σ (Option Cleared) :=
  match face.beforeCall with
  | none => pure (some {})
  | some beforeCall => (beforeCall plan).run

def withKey (plan : HttpRequestPlan) (cleared : Cleared) : HttpRequestPlan :=
  match cleared.idempotencyKey with
  | none => plan
  | some key => { plan with headers := plan.headers ++ [("Idempotency-Key", key)] }

/-- The end of `answer_http_call`: the call is charged and sent. -/
def sendHttp (face : HttpFace σ) (b : BoundOperation) (plan : HttpRequestPlan) (call : ToolCallBlock) :
    Round σ HttpCallOutcome :=
  match face.sender with
  | none => pure { result := some (textRefusal call.callId "no outbound face is configured here") }
  | some send => do
    match ← clearedToSend face plan with
    | none => pure { result := some (textRefusal call.callId "tool_budget_exceeded") }
    | some cleared => do
      let answer ← (send (withKey plan cleared) b.credentialRef).run
      return httpOutcome b (withKey plan cleared) call.callId answer

def heldBack (b : BoundOperation) (plan : HttpRequestPlan) (call : ToolCallBlock) (gate : Option (ApprovalGate σ))
    (c : ExecutionContext) : Round σ (Option HttpCallOutcome) :=
  if plan.readOnly then pure none else clearedToWrite p b plan call gate c

/-- `answer_http_call`. -/
def answerHttpCall (face : HttpFace σ) (c : ExecutionContext) (call : ToolCallBlock) (gate : Option (ApprovalGate σ)) :
    Round σ HttpCallOutcome :=
  let bound := c.grantedOperations
  match bound.find? (·.callName == call.name) with
  | none => pure { result := some (refusal call.callId notAuthorized (String.ofList call.name)) }
  | some b =>
    match httpCallOf p call bound with
    | .error (.raised fault) => throw (.compose fault)
    | .error (.refused reason detail) =>
      let reason := if reason = notAuthorized then notAuthorized else invalidArguments
      pure { result := some (refusal call.callId reason detail) }
    | .ok plan => do
      match ← heldBack p b plan call gate c with
      | some stopped => pure stopped
      | none => sendHttp face b plan call

/-- What `answer_mcp_call` makes of an answer. -/
def mcpOutcome (e : BoundEntry McpTool) (callId : String) (answer : McpAnswer) : HttpCallOutcome :=
  match answer.refusal with
  | none => { result := some { callId, output := answer.content, exitCode := 0, failed := false } }
  | some reason =>
    let isPadding := fun c : Char => c == ':' || c == ' '
    let why := (((reason ++ ": " ++ answer.content).toList.dropWhile isPadding).rdropWhile isPadding)
    { result := some (textRefusal callId (String.ofList why))
      event := some (mcpEvent e (if reason = "" then "refused" else reason)) }

def clearedToCall (face : McpFace σ) : Round σ Bool :=
  match face.beforeCall with
  | none => pure true
  | some beforeCall => beforeCall.run

/-- The end of `answer_mcp_call`: the call is charged and made. -/
def callMcp (face : McpFace σ) (e : BoundEntry McpTool) (call : ToolCallBlock) : Round σ HttpCallOutcome :=
  match face.gateway with
  | none => pure { result := some (textRefusal call.callId "no MCP gateway is configured here") }
  | some gateway => do
    if ← clearedToCall face then do
      let answer ← (gateway e call.arguments).run
      return mcpOutcome e call.callId answer
    else pure { result := some (textRefusal call.callId "tool_budget_exceeded") }

/-- `_ask_about_mcp`. -/
def askAboutMcp (e : BoundEntry McpTool) (call : ToolCallBlock) (gate : ApprovalGate σ) (c : ExecutionContext) :
    Round σ ApprovalCheck :=
  askAbout p gate c call ("mcp://".toList ++ e.toolName ++ '/' :: e.item.name) ("mcp.".toList ++ e.toolName ++ ".call".toList)

/-- `answer_mcp_call`. -/
def answerMcpCall (face : McpFace σ) (c : ExecutionContext) (call : ToolCallBlock) (revalidated : List (BoundEntry McpTool))
    (gate : Option (ApprovalGate σ)) : Round σ HttpCallOutcome :=
  match revalidated.find? (·.callName mcpKind == call.name) with
  | none => pure { result := some (refusal call.callId notAuthorized (String.ofList call.name)) }
  | some e =>
    match mcpPolicy e c with
    | some .preauthorized => callMcp face e call
    | some .governance =>
      match gate with
      | none => pure
        { result := some (textRefusal call.callId "no approval gate is configured here")
          event := some (mcpEvent e "approval_unavailable") }
      | some gate => do
        let checked ← askAboutMcp p e call gate c
        if checked.proceeds then callMcp face e call else pure { result := none, approval := some checked }
    | _ => pure
      { result := some (textRefusal call.callId ("write_disabled: this Agent was published with calls to this " ++
          "server turned off. Do not retry it; report what you were unable to do."))
        event := some (mcpEvent e "write_disabled") }

/-- Whether the platform answers a call by `answer_mcp_call` or `answer_http_call`, and with what. -/
def answerCall (http : HttpFace σ) (mcp : McpFace σ) (c : ExecutionContext) (call : ToolCallBlock)
    (revalidated : List (BoundEntry McpTool)) (gate : Option (ApprovalGate σ)) : Option (Round σ HttpCallOutcome) :=
  if "mcp.".toList.isPrefixOf call.name then some (answerMcpCall p mcp c call revalidated gate)
  else if "http.".toList.isPrefixOf call.name then some (answerHttpCall p http c call gate)
  else none

/-- What there is to wait for in what held a write back: nothing where the call has its result. -/
def waitingOf : Option HttpCallOutcome → Option ApprovalCheck
  | none => none
  | some stopped => if stopped.result.isSome then none else stopped.approval

/-- `waits_for_approval`. -/
def waitsForApproval (c : ExecutionContext) (call : ToolCallBlock) (revalidated : List (BoundEntry McpTool))
    (gate : Option (ApprovalGate σ)) : Round σ (Option ApprovalCheck) :=
  match gate with
  | none => pure none
  | some gate =>
    if "http.".toList.isPrefixOf call.name then
      let bound := c.grantedOperations
      match bound.find? (·.callName == call.name) with
      | none => pure none
      | some b =>
        match httpCallOf p call bound with
        | .error (.raised fault) => throw (.compose fault)
        | .error (.refused _ _) => pure none
        | .ok plan => if plan.readOnly then pure none else waitingOf <$> clearedToWrite p b plan call (some gate) c
    else if "mcp.".toList.isPrefixOf call.name then
      match revalidated.find? (·.callName mcpKind == call.name) with
      | none => pure none
      | some e =>
        if mcpPolicy e c = some .governance then do
          let checked ← askAboutMcp p e call gate c
          return if checked.proceeds then none else some checked
        else pure none
    else pure none

end Answering

namespace Round
variable {σ α β : Type} {w w' w'' : RoundWorld σ}

theorem bind_ok {x : Round σ α} {f : α → Round σ β} {b : β} :
    (x >>= f) w = .ok (b, w'') ↔ ∃ a w', x w = .ok (a, w') ∧ f a w' = .ok (b, w'') := by
  constructor
  · intro h
    obtain ⟨⟨a, w'⟩, hx, hf⟩ := Fallible.bind_ok.mp h
    exact ⟨a, w', hx, hf⟩
  · rintro ⟨a, w', hx, hf⟩
    exact Fallible.bind_ok.mpr ⟨(a, w'), hx, hf⟩

theorem pure_ok {a b : α} : (pure a : Round σ α) w = .ok (b, w') ↔ a = b ∧ w = w' := by
  constructor
  · intro h
    cases h
    exact ⟨rfl, rfl⟩
  · rintro ⟨rfl, rfl⟩
    rfl

theorem map_ok {x : Round σ α} {f : α → β} {b : β} :
    (f <$> x) w = .ok (b, w') ↔ ∃ a, x w = .ok (a, w') ∧ f a = b := by
  constructor
  · intro h
    obtain ⟨⟨a, _⟩, hx, hf⟩ := Fallible.bind_ok.mp h
    cases hf
    exact ⟨a, hx, rfl⟩
  · rintro ⟨a, hx, rfl⟩
    exact Fallible.bind_ok.mpr ⟨(a, w'), hx, rfl⟩

end Round

section Asking
variable {p : Spelling} {σ : Type} {gate : ApprovalGate σ} {c : ExecutionContext} {call : ToolCallBlock}
  {b : BoundOperation} {plan : HttpRequestPlan} {e : BoundEntry McpTool} {check : ApprovalCheck} {w w' : RoundWorld σ}

structure Asked (p : Spelling) (gate : ApprovalGate σ) (c : ExecutionContext) (call : ToolCallBlock) (check : ApprovalCheck)
    (w w' : RoundWorld σ) (q : Question) : Prop where
  run : q.runId = c.runId
  approvalType : q.approvalType = writeApprovalType c
  tool : q.tool = call.name
  callId : q.callId = call.callId
  normalized : ∃ target permission, normalizeCall p call.name call.arguments target permission w = .ok (q.call, w)
  asked : w'.asked = w.asked ++ [q]
  answered : gate q w.outside = .ok (check, w'.outside)

theorem normalizeCall_world {tool target permission : List Char} {arguments : Document} {normalized : NormalizedCall}
    (h : normalizeCall p tool arguments target permission w = .ok (normalized, w')) : w = w' := by
  unfold normalizeCall at h
  generalize p.digest _ = contentHash at h
  cases contentHash with
  | none => cases h
  | some => exact (Round.pure_ok.mp h).2

theorem Outside.run_ok {α : Type} {x : Outside σ α} {a : α} (h : x.run w = .ok (a, w')) :
    x w.outside = .ok (a, w'.outside) ∧ w'.asked = w.asked := by
  unfold Outside.run at h
  split at h
  · cases h
  · next heq =>
    cases h
    exact ⟨heq, rfl⟩

theorem askAbout_asked {target permission : List Char} (h : askAbout p gate c call target permission w = .ok (check, w')) :
    ∃ q, Asked p gate c call check w w' q := by
  obtain ⟨_, _, hnormalized, hask⟩ := Round.bind_ok.mp h
  obtain rfl := normalizeCall_world hnormalized
  obtain ⟨_, _, hlogged, hgate⟩ := Round.bind_ok.mp hask
  cases hlogged
  obtain ⟨hanswered, hasked⟩ := Outside.run_ok hgate
  exact ⟨_, rfl, rfl, rfl, rfl, ⟨target, permission, hnormalized⟩, hasked, hanswered⟩

theorem clearedToWrite_stops {gate : Option (ApprovalGate σ)} {o : HttpCallOutcome}
    (h : clearedToWrite p b plan call gate c w = .ok (some o, w')) (hstops : o.result = none) :
    ∃ g check q, gate = some g ∧ check.proceeds = false ∧ o = { result := none, approval := some check } ∧
      Asked p g c call check w w' q := by
  unfold clearedToWrite at h
  generalize writePolicy b c = policy at h
  rcases policy with _ | _ | _ | _
  · cases h
    cases hstops
  · cases h
    cases hstops
  · cases h
  · cases gate with
    | none =>
      cases h
      cases hstops
    | some g =>
      obtain ⟨check, _, hask, h⟩ := Round.bind_ok.mp h
      obtain ⟨q, hq⟩ := askAbout_asked hask
      cases hproceeds : check.proceeds
      · rw [hproceeds, if_neg Bool.false_ne_true] at h
        cases h
        exact ⟨g, check, q, rfl, hproceeds, rfl, hq⟩
      · rw [hproceeds, if_pos rfl] at h
        cases h

variable {http : HttpFace σ} {mcp : McpFace σ} {o : HttpCallOutcome} {gate' : Option (ApprovalGate σ)}

theorem httpOutcome_result (b : BoundOperation) (plan : HttpRequestPlan) (callId : String) (answer : HttpToolAnswer) :
    (httpOutcome b plan callId answer).result ≠ none := by
  unfold httpOutcome
  split <;> exact Option.some_ne_none _

theorem mcpOutcome_result (e : BoundEntry McpTool) (callId : String) (answer : McpAnswer) :
    (mcpOutcome e callId answer).result ≠ none := by
  unfold mcpOutcome
  split <;> exact Option.some_ne_none _

theorem sendHttp_result (h : sendHttp http b plan call w = .ok (o, w')) : o.result ≠ none := by
  unfold sendHttp at h
  generalize http.sender = face at h
  cases face with
  | none =>
    cases h
    exact Option.some_ne_none _
  | some =>
    obtain ⟨cleared, _, _, h⟩ := Round.bind_ok.mp h
    cases cleared with
    | none =>
      cases h
      exact Option.some_ne_none _
    | some =>
      obtain ⟨_, _, _, h⟩ := Round.bind_ok.mp h
      cases h
      exact httpOutcome_result _ _ _ _

theorem callMcp_result (h : callMcp mcp e call w = .ok (o, w')) : o.result ≠ none := by
  unfold callMcp at h
  generalize mcp.gateway = face at h
  cases face with
  | none =>
    cases h
    exact Option.some_ne_none _
  | some =>
    obtain ⟨charged, _, _, h⟩ := Round.bind_ok.mp h
    cases charged with
    | false =>
      cases h
      exact Option.some_ne_none _
    | true =>
      obtain ⟨_, _, _, h⟩ := Round.bind_ok.mp h
      cases h
      exact mcpOutcome_result _ _ _

theorem clearedToWrite_waits {found : Option HttpCallOutcome} (h : clearedToWrite p b plan call (some gate) c w = .ok (found, w')) :
    waitingOf found = some check ↔ found = some { result := none, approval := some check } := by
  cases found with
  | none => simp [waitingOf]
  | some o =>
    cases hresult : o.result with
    | some =>
      simp only [waitingOf, hresult, Option.isSome_some, if_true, reduceCtorEq, false_iff, Option.some.injEq]
      rintro rfl
      cases hresult
    | none =>
      obtain ⟨_, _, _, _, _, rfl, _⟩ := clearedToWrite_stops h hresult
      simp [waitingOf]

theorem heldBack_some : heldBack p b plan call gate' c w = .ok (some o, w') ↔
    plan.readOnly = false ∧ clearedToWrite p b plan call gate' c w = .ok (some o, w') := by
  unfold heldBack
  cases plan.readOnly with
  | true =>
    rw [if_pos rfl]
    constructor
    · intro h
      cases h
    · rintro ⟨h, _⟩
      cases h
  | false => rw [if_neg Bool.false_ne_true, eq_self_iff_true, true_and]

theorem answerHttpCall_stops {gate : Option (ApprovalGate σ)} :
    answerHttpCall p http c call gate w = .ok (o, w') ∧ o.result = none ↔
      ∃ b plan, c.grantedOperations.find? (·.callName == call.name) = some b ∧
        httpCallOf p call c.grantedOperations = .ok plan ∧ plan.readOnly = false ∧
        clearedToWrite p b plan call gate c w = .ok (some o, w') ∧ o.result = none := by
  unfold answerHttpCall
  cases hfind : c.grantedOperations.find? (·.callName == call.name) with
  | none =>
    constructor
    · rintro ⟨h, hstops⟩
      cases h
      cases hstops
    · rintro ⟨b, plan, h, _⟩
      cases h
  | some b =>
    cases hplan : httpCallOf p call c.grantedOperations with
    | error fault =>
      constructor
      · rintro ⟨h, hstops⟩
        cases fault with
        | refused =>
          cases h
          cases hstops
        | raised => cases h
      · rintro ⟨b, plan, _, h, _⟩
        cases h
    | ok plan =>
      constructor
      · rintro ⟨h, hstops⟩
        obtain ⟨stopped, _, hheld, h⟩ := Round.bind_ok.mp h
        cases stopped with
        | none => exact absurd hstops (sendHttp_result h)
        | some =>
          cases h
          obtain ⟨hread, hclear⟩ := heldBack_some.mp hheld
          exact ⟨b, plan, rfl, rfl, hread, hclear, hstops⟩
      · rintro ⟨_, _, hb, hplan', hread, hclear, hstops⟩
        cases hb
        cases hplan'
        exact ⟨Round.bind_ok.mpr ⟨some o, w', heldBack_some.mpr ⟨hread, hclear⟩, rfl⟩, hstops⟩

variable {revalidated : List (BoundEntry McpTool)}

theorem waitsForApproval_http (hname : "http.".toList.isPrefixOf call.name = true) :
    waitsForApproval p c call revalidated (some gate) w = .ok (some check, w') ↔
      ∃ b plan, c.grantedOperations.find? (·.callName == call.name) = some b ∧
        httpCallOf p call c.grantedOperations = .ok plan ∧ plan.readOnly = false ∧
        clearedToWrite p b plan call (some gate) c w = .ok (some { result := none, approval := some check }, w') := by
  unfold waitsForApproval
  simp only [hname, if_true]
  cases hfind : c.grantedOperations.find? (·.callName == call.name) with
  | none =>
    constructor
    · intro h
      cases h
    · rintro ⟨b, plan, h, _⟩
      cases h
  | some b =>
    cases hplan : httpCallOf p call c.grantedOperations with
    | error fault =>
      constructor
      · intro h
        cases fault <;> cases h
      · rintro ⟨b, plan, _, h, _⟩
        cases h
    | ok plan =>
      cases hread : plan.readOnly with
      | true =>
        simp only [hread, if_true]
        constructor
        · intro h
          cases h
        · rintro ⟨b', plan', _, hplan', hread', _⟩
          cases hplan'
          rw [hread] at hread'
          cases hread'
      | false =>
        simp only [hread, Bool.false_eq_true, if_false]
        constructor
        · intro h
          obtain ⟨_, hclear, hwaits⟩ := Round.map_ok.mp h
          rw [(clearedToWrite_waits hclear).mp hwaits] at hclear
          exact ⟨b, plan, rfl, rfl, hread, hclear⟩
        · rintro ⟨_, _, hb, hplan', _, hclear⟩
          cases hb
          cases hplan'
          exact Round.map_ok.mpr ⟨_, hclear, rfl⟩

theorem answerMcpCall_stops {gate : Option (ApprovalGate σ)} :
    answerMcpCall p mcp c call revalidated gate w = .ok (o, w') ∧ o.result = none ↔
      ∃ e g check, revalidated.find? (·.callName mcpKind == call.name) = some e ∧
        mcpPolicy e c = some .governance ∧ gate = some g ∧ askAboutMcp p e call g c w = .ok (check, w') ∧
        check.proceeds = false ∧ o = { result := none, approval := some check } := by
  unfold answerMcpCall
  cases hfind : revalidated.find? (·.callName mcpKind == call.name) with
  | none =>
    constructor
    · rintro ⟨h, hstops⟩
      cases h
      cases hstops
    · rintro ⟨e, _, _, h, _⟩
      cases h
  | some e =>
    constructor
    · rintro ⟨h, hstops⟩
      cases hpolicy : mcpPolicy e c with
      | none =>
        simp only [hpolicy] at h
        cases h
        cases hstops
      | some policy =>
        simp only [hpolicy] at h
        cases policy with
        | disabled =>
          cases h
          cases hstops
        | preauthorized => exact absurd hstops (callMcp_result h)
        | governance =>
          cases gate with
          | none =>
            cases h
            cases hstops
          | some g =>
            obtain ⟨check, _, hask, h⟩ := Round.bind_ok.mp h
            cases hproceeds : check.proceeds with
            | true =>
              rw [hproceeds, if_pos rfl] at h
              exact absurd hstops (callMcp_result h)
            | false =>
              rw [hproceeds, if_neg Bool.false_ne_true] at h
              cases h
              exact ⟨e, g, check, rfl, hpolicy, rfl, hask, hproceeds, rfl⟩
    · rintro ⟨_, _, check, he, hpolicy, rfl, hask, hproceeds, rfl⟩
      cases he
      simp only [hpolicy]
      refine ⟨Round.bind_ok.mpr ⟨check, w', hask, ?_⟩, trivial⟩
      rw [hproceeds, if_neg Bool.false_ne_true]
      rfl

theorem waitsForApproval_mcp (hname : "mcp.".toList.isPrefixOf call.name = true)
    (hother : "http.".toList.isPrefixOf call.name = false) :
    waitsForApproval p c call revalidated (some gate) w = .ok (some check, w') ↔
      ∃ e, revalidated.find? (·.callName mcpKind == call.name) = some e ∧ mcpPolicy e c = some .governance ∧
        askAboutMcp p e call gate c w = .ok (check, w') ∧ check.proceeds = false := by
  unfold waitsForApproval
  simp only [hname, hother, if_true, Bool.false_eq_true, if_false]
  cases hfind : revalidated.find? (·.callName mcpKind == call.name) with
  | none =>
    constructor
    · intro h
      cases h
    · rintro ⟨e, h, _⟩
      cases h
  | some e =>
    by_cases hpolicy : mcpPolicy e c = some .governance
    · simp only [hpolicy, if_true]
      constructor
      · intro h
        obtain ⟨check', _, hask, h⟩ := Round.bind_ok.mp h
        obtain ⟨hcheck, rfl⟩ := Round.pure_ok.mp h
        cases hproceeds : check'.proceeds with
        | true =>
          rw [hproceeds, if_pos rfl] at hcheck
          cases hcheck
        | false =>
          rw [hproceeds, if_neg Bool.false_ne_true] at hcheck
          cases hcheck
          exact ⟨e, rfl, hpolicy, hask, hproceeds⟩
      · rintro ⟨e', he, _, hask, hproceeds⟩
        cases he
        refine Round.bind_ok.mpr ⟨check, w', hask, ?_⟩
        rw [hproceeds, if_neg Bool.false_ne_true]
        rfl
    · simp only [hpolicy, if_false]
      constructor
      · intro h
        cases h
      · rintro ⟨_, he, hpolicy', _⟩
        cases he
        exact absurd hpolicy' hpolicy

theorem isPrefixOf_kinds {name : List Char} (h : "mcp.".toList.isPrefixOf name = true) : "http.".toList.isPrefixOf name = false := by
  cases name with
  | nil => rfl
  | cons first =>
    have hfirst : first = 'm' := by
      have := List.isPrefixOf_iff_prefix.mp h
      exact (List.cons_prefix_cons.mp this).1.symm
    subst hfirst
    rfl

theorem waitsForApproval_asked {gate : Option (ApprovalGate σ)}
    (h : waitsForApproval p c call revalidated gate w = .ok (some check, w')) :
    ∃ g q, gate = some g ∧ check.proceeds = false ∧ Asked p g c call check w w' q := by
  cases gate with
  | none => cases h
  | some g =>
    cases hhttp : "http.".toList.isPrefixOf call.name with
    | true =>
      obtain ⟨_, _, _, _, _, hclear⟩ := (waitsForApproval_http hhttp).mp h
      obtain ⟨_, _, q, hg, hproceeds, ho, hq⟩ := clearedToWrite_stops hclear rfl
      cases hg
      cases ho
      exact ⟨g, q, rfl, hproceeds, hq⟩
    | false =>
      cases hmcp : "mcp.".toList.isPrefixOf call.name with
      | true =>
        obtain ⟨_, _, _, hask, hproceeds⟩ := (waitsForApproval_mcp hmcp hhttp).mp h
        obtain ⟨q, hq⟩ := askAbout_asked hask
        exact ⟨g, q, rfl, hproceeds, hq⟩
      | false =>
        unfold waitsForApproval at h
        simp only [hhttp, hmcp, Bool.false_eq_true, if_false] at h
        cases h

/-- The look ahead finds exactly the calls that stop the round when they are answered in the same world, with the same
outcome and after the same question. -/
theorem waits_iff_stops (p : Spelling) (http : HttpFace σ) (mcp : McpFace σ) (c : ExecutionContext) (call : ToolCallBlock)
    (revalidated : List (BoundEntry McpTool)) (gate : Option (ApprovalGate σ)) (w w' : RoundWorld σ) :
    (∀ o, (∃ answer, answerCall p http mcp c call revalidated gate = some answer ∧ answer w = .ok (o, w') ∧ o.result = none) ↔
      ∃ check, waitsForApproval p c call revalidated gate w = .ok (some check, w') ∧
        o = { result := none, approval := some check }) ∧
    ∀ check, waitsForApproval p c call revalidated gate w = .ok (some check, w') →
      ∃ g q, gate = some g ∧ check.proceeds = false ∧ Asked p g c call check w w' q := by
  refine ⟨fun o => ?_, fun check h => waitsForApproval_asked h⟩
  unfold answerCall
  cases hmcp : "mcp.".toList.isPrefixOf call.name with
  | true =>
    have hhttp := isPrefixOf_kinds hmcp
    simp only [if_true, Option.some.injEq, exists_eq_left']
    rw [answerMcpCall_stops]
    constructor
    · rintro ⟨e, g, check, hfind, hpolicy, rfl, hask, hproceeds, rfl⟩
      exact ⟨check, (waitsForApproval_mcp hmcp hhttp).mpr ⟨e, hfind, hpolicy, hask, hproceeds⟩, rfl⟩
    · rintro ⟨check, h, rfl⟩
      cases gate with
      | none => cases h
      | some g =>
        obtain ⟨e, hfind, hpolicy, hask, hproceeds⟩ := (waitsForApproval_mcp hmcp hhttp).mp h
        exact ⟨e, g, check, hfind, hpolicy, rfl, hask, hproceeds, rfl⟩
  | false =>
    cases hhttp : "http.".toList.isPrefixOf call.name with
    | true =>
      simp only [if_true, Bool.false_eq_true, if_false, Option.some.injEq, exists_eq_left']
      rw [answerHttpCall_stops]
      constructor
      · rintro ⟨b, plan, hfind, hplan, hread, hclear, hstops⟩
        obtain ⟨_, check, _, rfl, _, rfl, _⟩ := clearedToWrite_stops hclear hstops
        exact ⟨check, (waitsForApproval_http hhttp).mpr ⟨b, plan, hfind, hplan, hread, hclear⟩, rfl⟩
      · rintro ⟨check, h, rfl⟩
        cases gate with
        | none => cases h
        | some =>
          obtain ⟨b, plan, hfind, hplan, hread, hclear⟩ := (waitsForApproval_http hhttp).mp h
          exact ⟨b, plan, hfind, hplan, hread, hclear, rfl⟩
    | false =>
      simp only [Bool.false_eq_true, if_false, reduceCtorEq, false_and, exists_false, false_iff, not_exists, not_and]
      intro _ h
      cases gate with
      | none => cases h
      | some =>
        unfold waitsForApproval at h
        simp only [hhttp, hmcp, Bool.false_eq_true, if_false] at h
        cases h

end Asking

end TinyHermes.Tools
