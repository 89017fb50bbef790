import TinyHermes.Runs.Tables

/-! What a round cost, and what the platform is willing to say about it. Unknown is not zero. -/
namespace TinyHermes.ModelCatalog
open Runs

inductive UsageQuality where
  | provider | unavailable
  deriving DecidableEq, Repr

structure TokenPrices where
  currency : String
  inputPerMillion : Nat
  outputPerMillion : Nat
  cachedInputPerMillion : Option Nat := none
  deriving DecidableEq, Repr

/-- An amount over `TOKENS_PER_UNIT`, rounded half up. -/
def rounded (amount : Nat) : Nat := (amount + 500000) / 1000000

def costOf (prices : Option TokenPrices) (inputTokens outputTokens : Option Nat)
    (usageQuality : UsageQuality := .provider) (cachedInputTokens : Option Nat := none) : Cost :=
  match prices with
  | none => Cost.unknown
  | some prices =>
    if usageQuality = .unavailable then Cost.unknown
    else if inputTokens = none ∧ outputTokens = none then Cost.unknown
    else
      let cached := cachedInputTokens.getD 0
      let plain := inputTokens.getD 0 - cached
      let cachedRate := prices.cachedInputPerMillion.getD prices.inputPerMillion
      { amount := some
          (rounded (plain * prices.inputPerMillion + cached * cachedRate +
            outputTokens.getD 0 * prices.outputPerMillion))
        currency := some prices.currency
        quality := .provider }

def projectedCost (prices : Option TokenPrices) (inputEstimate maxOutputTokens : Nat) : Cost :=
  costOf prices (some inputEstimate) (some maxOutputTokens)

structure CostCeiling where
  maxAmount : Option Int
  currency : Option String := none
  deriving DecidableEq, Repr

inductive CeilingVerdict where
  | allowed
  | uncounted
  | otherCurrency (limit : String) (charged : Option String)
  | passes (spent more limit : Int)
  deriving DecidableEq, Repr

/-- Whether one more round fits under the ceiling. A ceiling that meets an unknown cost refuses. -/
def withinCeiling (ceiling : CostCeiling) (consumed projected : Cost) : CeilingVerdict :=
  match ceiling.maxAmount, consumed.amount, projected.amount with
  | none, _, _ => .allowed
  | some limit, some spent, some more =>
    match ceiling.currency.filter fun currency => some currency ≠ projected.currency with
    | some currency => .otherCurrency currency projected.currency
    | none => if spent + more > limit then .passes spent more limit else .allowed
  | some _, _, _ => .uncounted

end TinyHermes.ModelCatalog
