import TinyHermes.ModelCatalog.Pricing
import TinyHermes.Runs.Billing

/-! The calls one round makes: the summary it may ask for first, and `_complete_recovering`, which asks again, continues, and
moves to another endpoint. -/
namespace TinyHermes.Runs.Worker
open Lib ModelCatalog SqlRunStore

inductive StopReason where
  | completed | continue_ | toolCall | failed
  deriving DecidableEq, Repr

structure ModelResponse where
  stopReason : StopReason
  text : String := ""
  modelCalls : Nat := 1
  inputTokens : Option Nat := none
  outputTokens : Option Nat := none
  usageQuality : UsageQuality := .provider
  cachedInputTokens : Option Nat := none
  toolCalls : List ToolCallBlock := []
  replaySafe : Bool := true
  externalEffectUnknown : Bool := false
  failure : Option String := none
  continuable : Bool := false
  transient : Bool := false
  deriving DecidableEq

/-- What may be added to the shared budget, which is nothing when unknown. -/
def ModelResponse.billableTokens (response : ModelResponse) : Nat :=
  if response.usageQuality = .unavailable then 0
  else response.inputTokens.getD 0 + response.outputTokens.getD 0

inductive Accounting where
  | shared | separate
  deriving DecidableEq, Repr

structure ContextWindow where
  contextWindow : Nat
  reservedOutputTokens : Nat
  accounting : Accounting := .shared
  deriving DecidableEq, Repr

def ContextWindow.inputAllowance (window : ContextWindow) : Nat :=
  if window.accounting = .separate then window.contextWindow
  else window.contextWindow - window.reservedOutputTokens

/-- What a round reads of its Run: the budget scope as it stood then, and the endpoint that answers. -/
structure ExecutionContext where
  budget : RunBudgetScopeRow
  window : Option ContextWindow := none
  prices : Option TokenPrices := none
  maxOutputTokens : Option Nat := none
  fallbackEndpointIds : List Uuid := []
  answeringEndpointId : Option Uuid := none
  deriving DecidableEq

def ExecutionContext.fallbacksLeft (context : ExecutionContext) : List Uuid :=
  match context.answeringEndpointId with
  | none => context.fallbackEndpointIds
  | some endpoint => (context.fallbackEndpointIds.dropWhile (· ≠ endpoint)).tail

section Prechecks

/-- `_calls_precheck`: room for a summary call and for the round's own. -/
def callsPrecheck (budget : RunBudgetScopeRow) : Bool := budget.consumedModelCalls + 1 < budget.maxModelCalls

/-- `_max_output`. -/
def maxOutput (context : ExecutionContext) : Nat :=
  context.maxOutputTokens.getD ((context.window.map (·.reservedOutputTokens)).getD 0)

/-- `_cost_precheck`. -/
def costPrecheck (context : ExecutionContext) (inputEstimate : Nat) : CeilingVerdict :=
  let budget := context.budget
  match budget.maxCost with
  | none => .allowed
  | some limit =>
    let consumed : Cost :=
      match budget.consumedCost with
      | none => Cost.unknown
      | some amount => { amount := some amount, currency := budget.costCurrency, quality := budget.costQuality }
    withinCeiling { maxAmount := some limit, currency := budget.costCurrency } consumed
      (projectedCost context.prices inputEstimate (maxOutput context))

/-- `_cost_from`: nothing when no price is known. -/
def costFrom (response : ModelResponse) (prices : Option TokenPrices) : Option Cost :=
  prices.map fun prices =>
    costOf (some prices) response.inputTokens response.outputTokens response.usageQuality response.cachedInputTokens

def costWith (prices : Option TokenPrices) (consumed : Option Int) (attempts : List ModelResponse) : Option Int :=
  attempts.foldl (fun total item => total.bind fun spent => ((costFrom item prices).bind (·.amount)).map (spent + ·))
    consumed

def callsOf (attempts : List ModelResponse) : Nat := (attempts.map (·.modelCalls)).sum

/-- `_retry_allowed`: whether one more call may be made this round. -/
def retryAllowed (context : ExecutionContext) (inputEstimate : Nat) (attempts : List ModelResponse) : Bool :=
  let budget := context.budget
  if budget.consumedModelCalls + callsOf attempts ≥ budget.maxModelCalls then false
  else if budget.maxTokens.any fun cap => budget.consumedTokens + (attempts.map (·.billableTokens)).sum ≥ cap then false
  else if budget.maxCost = none then true
  else match costWith context.prices budget.consumedCost attempts with
    | none => false
    | some consumed =>
      costPrecheck { context with budget := { budget with consumedCost := some consumed } } inputEstimate = .allowed

/-- `_side_call_allowed`. -/
def sideCallAllowed (context : ExecutionContext) (inputEstimate : Nat) : Bool :=
  let budget := context.budget
  if budget.consumedModelCalls + 1 > budget.maxModelCalls then false
  else if budget.maxTokens.any fun cap => budget.consumedTokens ≥ cap then false
  else costPrecheck context inputEstimate = .allowed

/-- `_budget_after`. -/
def budgetAfter (now : Time) (budget : RunBudgetScopeRow) (response : ModelResponse) (executedMs : Nat) : Bool :=
  { budget.summary with
    consumedExecutionMs := budget.consumedExecutionMs + executedMs
    consumedModelCalls := budget.consumedModelCalls + response.modelCalls
    consumedTokens := budget.consumedTokens + response.billableTokens : BudgetSummary }.allowsExecution now

theorem sideCallAllowed_room {context : ExecutionContext} {inputEstimate : Nat}
    (h : sideCallAllowed context inputEstimate = true) :
    context.budget.consumedModelCalls + 1 ≤ context.budget.maxModelCalls := by
  by_contra hfull
  simp only [sideCallAllowed, gt_iff_lt, Nat.not_le.mp hfull, if_true] at h
  cases h

theorem allowsExecution_room {b : BudgetSummary} {now : Time} (h : b.allowsExecution now = true) :
    b.consumedModelCalls < b.maxModelCalls := by
  by_contra hfull
  simp only [BudgetSummary.allowsExecution, ge_iff_le, Nat.not_lt.mp hfull, if_true] at h
  split at h <;> cases h

theorem budgetAfter_room {now : Time} {budget : RunBudgetScopeRow} {response : ModelResponse} {executedMs : Nat}
    (h : budgetAfter now budget response executedMs = true) :
    budget.consumedModelCalls + response.modelCalls < budget.maxModelCalls :=
  allowsExecution_room h

end Prechecks

section Recovering

def maxRetries : Nat := 2
def maxContinuations : Nat := 3

/-- The failures `_RETRY_NOTES` has a note for. -/
def retryNotes : List String :=
  ["malformed_tool_arguments", "malformed_tool_call", "empty_response", "max_output_reached"]

/-- What `fallback_route` answers: the window and the price of an endpoint that can still be selected. -/
abbrev Routes := Uuid → Option (ContextWindow × Option TokenPrices)

/-- `_fall_back`: the first fallback left that can take this round. -/
def fallBack (routes : Routes) (context : ExecutionContext) (inputEstimate : Nat) : Option ExecutionContext :=
  context.fallbacksLeft.findSome? fun candidate =>
    (routes candidate).bind fun (window, prices) =>
      let moved := { context with answeringEndpointId := some candidate, window := some window, prices }
      if inputEstimate > window.inputAllowance then none
      else if costPrecheck moved inputEstimate = .allowed then some moved
      else none

/-- The variables of `_complete_recovering` while a call is on its way. -/
structure Recovery where
  context : ExecutionContext
  attempts : List ModelResponse := []
  written : List String := []
  retried : Nat := 0
  continued : Nat := 0
  unanswered : Nat := 0

/-- `_merged`: the last attempt, with every attempt's usage added in. -/
def merged (earlier : List ModelResponse) (final : ModelResponse) (written : String) : ModelResponse :=
  if earlier = [] then final
  else
    let attempts := earlier ++ [final]
    let counted := attempts.all fun item =>
      item.inputTokens.isSome && item.outputTokens.isSome && item.usageQuality ≠ .unavailable
    { final with
      text := if final.stopReason ≠ .failed then written ++ final.text else final.text
      modelCalls := callsOf attempts
      inputTokens := if counted then some (attempts.map (·.inputTokens.getD 0)).sum else none
      outputTokens := if counted then some (attempts.map (·.outputTokens.getD 0)).sum else none
      usageQuality := if counted then final.usageQuality else .unavailable
      cachedInputTokens :=
        if counted && attempts.all (·.cachedInputTokens.isSome) then
          some (attempts.map (·.cachedInputTokens.getD 0)).sum
        else none
      replaySafe := attempts.all (·.replaySafe)
      externalEffectUnknown := attempts.any (·.externalEffectUnknown) }

/-- The calls that reached nobody still count against the call ceiling. -/
def Recovery.settled (r : Recovery) (final : ModelResponse) : ModelResponse :=
  let response := merged r.attempts final (String.join r.written)
  { response with modelCalls := response.modelCalls + r.unanswered }

/-- Whether §7.4.3 would have this reply asked for again, or continued. -/
def Recovery.recovers (r : Recovery) (response : ModelResponse) : Bool :=
  response.stopReason = .failed &&
    if response.continuable then r.continued < maxContinuations
    else response.failure.getD "" ∈ retryNotes && r.retried < maxRetries

/-- One turn of the loop of `_complete_recovering`: another call, or the round's one reply. -/
def Recovery.receive (routes : Routes) (inputEstimate : Nat) (r : Recovery) (response : ModelResponse) :
    Recovery ⊕ ModelResponse :=
  match if response.transient ∧ r.attempts = [] then fallBack routes r.context inputEstimate else none with
  | some switched => .inl { r with context := switched, unanswered := r.unanswered + response.modelCalls }
  | none =>
    if r.recovers response && retryAllowed r.context inputEstimate (r.attempts ++ [response]) then
      if response.continuable then
        .inl { r with
          attempts := r.attempts ++ [response], continued := r.continued + 1, written := r.written ++ [response.text] }
      else .inl { r with attempts := r.attempts ++ [response], retried := r.retried + 1 }
    else .inr (r.settled response)

def Recovery.made (r : Recovery) : Nat := callsOf r.attempts + r.unanswered

variable {routes : Routes} {inputEstimate : Nat} {r r' : Recovery} {response final : ModelResponse}

theorem callsOf_snoc (attempts : List ModelResponse) (response : ModelResponse) :
    callsOf (attempts ++ [response]) = callsOf attempts + response.modelCalls := by simp [callsOf]

theorem merged_modelCalls (earlier : List ModelResponse) (final : ModelResponse) (written : String) :
    (merged earlier final written).modelCalls = callsOf earlier + final.modelCalls := by
  by_cases h : earlier = []
  · rw [merged, if_pos h, h]
    simp [callsOf]
  · rw [merged, if_neg h]
    exact callsOf_snoc earlier final

theorem fallBack_budget {context moved : ExecutionContext} (h : fallBack routes context inputEstimate = some moved) :
    moved.budget = context.budget := by
  obtain ⟨_, _, hmoved⟩ := List.exists_of_findSome?_eq_some h
  obtain ⟨⟨_, _⟩, _, htaken⟩ := Option.bind_eq_some_iff.mp hmoved
  dsimp only at htaken
  split_ifs at htaken
  cases htaken
  rfl

theorem receive_again (h : r.receive routes inputEstimate response = .inl r') :
    r'.made = r.made + response.modelCalls ∧ r'.context.budget = r.context.budget := by
  unfold Recovery.receive at h
  split at h
  · next switched hswitch =>
    split_ifs at hswitch
    obtain rfl := Sum.inl.inj h
    refine ⟨?_, fallBack_budget hswitch⟩
    simp only [Recovery.made]
    omega
  · split_ifs at h
    · obtain rfl := Sum.inl.inj h
      refine ⟨?_, rfl⟩
      simp only [Recovery.made, callsOf_snoc]
      omega
    · obtain rfl := Sum.inl.inj h
      refine ⟨?_, rfl⟩
      simp only [Recovery.made, callsOf_snoc]
      omega

theorem receive_settles (h : r.receive routes inputEstimate response = .inr final) :
    final.modelCalls = r.made + response.modelCalls := by
  unfold Recovery.receive at h
  split at h
  · cases h
  · split_ifs at h
    obtain rfl := Sum.inr.inj h
    simp only [Recovery.settled, merged_modelCalls, Recovery.made]
    omega

end Recovering

end TinyHermes.Runs.Worker
