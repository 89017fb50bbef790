import Mathlib

/-! Loops that ask, look at the answer, and ask again or return: when something gets less with every answer asked again for, the
loop returns. -/
namespace TinyHermes.Lib.AnsweredLoop
variable {σ α β : Type} (step : Nat → σ → α → σ ⊕ β) (answers : Nat → α)

/-- What the loop returns from `s` when `asked` answers have been used, and how many have been in the end; nothing when
the fuel does not last. -/
def run : Nat → Nat → σ → Option (β × Nat)
  | 0, _, _ => none
  | fuel + 1, asked, s =>
    match step asked s (answers asked) with
    | .inl s' => run fuel (asked + 1) s'
    | .inr b => some (b, asked + 1)

/-- The first answers, in order. -/
def received (asked : Nat) : List α := (List.range asked).map answers

theorem received_succ (asked : Nat) : received answers (asked + 1) = received answers asked ++ [answers asked] := by
  rw [received, List.range_succ, List.map_append]
  rfl

variable {step answers} {I : List α → σ → Prop} {measure : σ → Nat}

/-- How a loop returns: in `last`, on the answer after those in `earlier`. -/
structure Returns (step : Nat → σ → α → σ ⊕ β) (answers : Nat → α) (I : List α → σ → Prop) (calls : Nat) (last : σ) (b : β) : Prop where
  kept : I (received answers calls) last
  returned : step calls last (answers calls) = .inr b

/-- A loop with an invariant and a measure that every answer asked again for makes less returns within that many answers
and one, and returns the same on any more fuel. -/
theorem run_returns (hkeeps : ∀ asked s s', I (received answers asked) s → step asked s (answers asked) = .inl s' →
      I (received answers (asked + 1)) s' ∧ measure s' < measure s)
    (s : σ) (asked : Nat) (hs : I (received answers asked) s) :
    ∃ calls last b, asked ≤ calls ∧ calls ≤ asked + measure s ∧ Returns step answers I calls last b ∧
      ∀ fuel, calls < asked + fuel → run step answers fuel asked s = some (b, calls + 1) := by
  induction hmeasure : measure s using Nat.strong_induction_on generalizing s asked with
  | h n ih =>
    subst hmeasure
    cases hstep : step asked s (answers asked) with
    | inr b =>
      refine ⟨asked, s, b, Nat.le_refl _, Nat.le_add_right _ _, ⟨hs, hstep⟩, fun fuel hfuel => ?_⟩
      obtain ⟨fuel, rfl⟩ : ∃ k, fuel = k + 1 := ⟨fuel - 1, by omega⟩
      rw [run, hstep]
    | inl s' =>
      obtain ⟨hs', hless⟩ := hkeeps asked s s' hs hstep
      obtain ⟨calls, last, b, _, _, hreturns, hrun⟩ := ih _ hless s' (asked + 1) hs' rfl
      refine ⟨calls, last, b, by omega, by omega, hreturns, fun fuel hfuel => ?_⟩
      obtain ⟨fuel, rfl⟩ : ∃ k, fuel = k + 1 := ⟨fuel - 1, by omega⟩
      rw [run, hstep]
      exact hrun fuel (by omega)

end TinyHermes.Lib.AnsweredLoop
