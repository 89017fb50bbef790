import TinyHermes.ModelCatalog.Pricing

/-! When the cost a round is admitted with bounds what the round is charged. -/
namespace TinyHermes.ModelCatalog
open Runs

structure Usage where
  inputTokens : Option Nat
  outputTokens : Option Nat
  cachedInputTokens : Option Nat
  quality : UsageQuality

/-- A round stayed within what it was planned with, and what it read from the cache is input. -/
structure Usage.Within (usage : Usage) (inputEstimate maxOutputTokens : Nat) : Prop where
  input : usage.inputTokens.getD 0 ≤ inputEstimate
  output : usage.outputTokens.getD 0 ≤ maxOutputTokens
  cached : usage.cachedInputTokens.getD 0 ≤ usage.inputTokens.getD 0

def charged (prices : TokenPrices) (usage : Usage) : Cost :=
  costOf (some prices) usage.inputTokens usage.outputTokens usage.quality usage.cachedInputTokens

/-- Every round that stays within its plan is charged at most what was projected, and one that was admitted under a ceiling
stays under it. -/
structure Projects (prices : TokenPrices) : Prop where
  bounds : ∀ inputEstimate maxOutputTokens usage amount, usage.Within inputEstimate maxOutputTokens →
    (charged prices usage).amount = some amount →
    ∃ projected, (projectedCost (some prices) inputEstimate maxOutputTokens).amount = some projected ∧ amount ≤ projected
  admits : ∀ inputEstimate maxOutputTokens usage amount ceiling limit consumed spent, usage.Within inputEstimate maxOutputTokens →
    (charged prices usage).amount = some amount → ceiling.maxAmount = some limit → consumed.amount = some spent →
    withinCeiling ceiling consumed (projectedCost (some prices) inputEstimate maxOutputTokens) = .allowed → spent + amount ≤ limit

theorem rounded_mono {a b : Nat} (h : a ≤ b) : rounded a ≤ rounded b := Nat.div_le_div_right (Nat.add_le_add_right h _)

theorem rounded_units (units : Nat) : rounded (1000000 * units) = units := by
  rw [rounded]
  omega

theorem charged_amount {prices : TokenPrices} {usage : Usage} {amount : Int} (h : (charged prices usage).amount = some amount) :
    amount = rounded ((usage.inputTokens.getD 0 - usage.cachedInputTokens.getD 0) * prices.inputPerMillion +
      usage.cachedInputTokens.getD 0 * prices.cachedInputPerMillion.getD prices.inputPerMillion +
      usage.outputTokens.getD 0 * prices.outputPerMillion) := by
  rw [charged, costOf] at h
  dsimp only at h
  split_ifs at h
  · cases h
  · cases h
  · exact (Option.some.inj h).symm

theorem projected_amount (prices : TokenPrices) (inputEstimate maxOutputTokens : Nat) :
    (projectedCost (some prices) inputEstimate maxOutputTokens).amount =
      some (rounded (inputEstimate * prices.inputPerMillion + maxOutputTokens * prices.outputPerMillion) : Int) := by
  simp [projectedCost, costOf]

theorem input_cost_le {plain cached estimate rate cachedRate : Nat} (hrate : cachedRate ≤ rate) (hinput : plain + cached ≤ estimate) :
    plain * rate + cached * cachedRate ≤ estimate * rate := by
  calc plain * rate + cached * cachedRate ≤ plain * rate + cached * rate := by gcongr
    _ = (plain + cached) * rate := (Nat.add_mul _ _ _).symm
    _ ≤ estimate * rate := by gcongr

theorem charged_le {prices : TokenPrices} (hrate : prices.cachedInputPerMillion.getD prices.inputPerMillion ≤ prices.inputPerMillion)
    {inputEstimate maxOutputTokens : Nat} {usage : Usage} {amount : Int} (hwithin : usage.Within inputEstimate maxOutputTokens)
    (h : (charged prices usage).amount = some amount) :
    ∃ projected, (projectedCost (some prices) inputEstimate maxOutputTokens).amount = some projected ∧ amount ≤ projected := by
  refine ⟨_, projected_amount prices inputEstimate maxOutputTokens, ?_⟩
  rw [charged_amount h]
  have hsplit : usage.inputTokens.getD 0 - usage.cachedInputTokens.getD 0 + usage.cachedInputTokens.getD 0 ≤ inputEstimate := by
    rw [Nat.sub_add_cancel hwithin.cached]
    exact hwithin.input
  have hinput := input_cost_le hrate hsplit
  have houtput := Nat.mul_le_mul_right prices.outputPerMillion hwithin.output
  exact Int.ofNat_le.mpr (rounded_mono (Nat.add_le_add hinput houtput))

theorem admitted_room {ceiling : CostCeiling} {consumed projected : Cost} {limit spent more : Int} (hlimit : ceiling.maxAmount = some limit)
    (hspent : consumed.amount = some spent) (hmore : projected.amount = some more)
    (h : withinCeiling ceiling consumed projected = .allowed) : spent + more ≤ limit := by
  rw [withinCeiling, hlimit, hspent, hmore] at h
  dsimp only at h
  split at h
  · cases h
  · split_ifs at h with hover
    exact not_lt.mp hover

/-- What is projected bounds what is charged exactly for the prices whose cached rate, if they have one, is not above the rate
of other input. -/
theorem projects_iff (prices : TokenPrices) :
    Projects prices ↔ ∀ rate, prices.cachedInputPerMillion = some rate → rate ≤ prices.inputPerMillion := by
  constructor
  · intro h rate hrate
    -- a million tokens, all of them from the cache
    let usage : Usage := { inputTokens := some 1000000, outputTokens := some 0, cachedInputTokens := some 1000000, quality := .provider }
    have hwithin : usage.Within 1000000 0 := ⟨le_rfl, le_rfl, le_rfl⟩
    have hcharged : (charged prices usage).amount = some (rate : Int) := by
      simp [charged, costOf, usage, hrate, rounded_units]
    obtain ⟨projected, hprojected, hle⟩ := h.bounds 1000000 0 usage rate hwithin hcharged
    rw [projected_amount, Nat.zero_mul, Nat.add_zero, rounded_units] at hprojected
    rw [← Option.some.inj hprojected] at hle
    exact Int.ofNat_le.mp hle
  · intro h
    have hrate : prices.cachedInputPerMillion.getD prices.inputPerMillion ≤ prices.inputPerMillion := by
      cases hcached : prices.cachedInputPerMillion with
      | none => exact le_rfl
      | some rate => exact h rate hcached
    refine ⟨fun _ _ _ _ hwithin hcharged => charged_le hrate hwithin hcharged, ?_⟩
    intro _ _ _ _ _ _ _ _ hwithin hcharged hlimit hspent hallowed
    obtain ⟨_, hprojected, _⟩ := charged_le hrate hwithin hcharged
    have hroom := admitted_room hlimit hspent hprojected hallowed
    omega

def dearCache : TokenPrices where
  currency := "USD"
  inputPerMillion := 3000000
  outputPerMillion := 15000000
  cachedInputPerMillion := some 4000000

theorem cached_dearer : ¬ Projects dearCache := by
  intro h
  let usage : Usage := { inputTokens := some 1000000, outputTokens := some 0, cachedInputTokens := some 1000000, quality := .provider }
  have hwithin : usage.Within 1000000 0 := ⟨le_rfl, le_rfl, le_rfl⟩
  obtain ⟨projected, hprojected, _⟩ := h.bounds 1000000 0 usage 4000000 hwithin (by decide)
  have hthree : (3000000 : Int) = projected := Option.some.inj hprojected
  omega

end TinyHermes.ModelCatalog
