import Mathlib

/-! A limit on how many are inside, kept by counting before each entry: whoever has counted and found
room is alone with that until it has entered. -/
namespace TinyHermes.Lib.LimitedEntry
variable {σ ι : Type} {counted : σ → Nat} {cleared : σ → ι → Prop} {cap : Nat} {s s' : σ}

/-- No more than `cap` are inside, and there is room for whoever has been cleared to enter. -/
structure Room (counted : σ → Nat) (cleared : σ → ι → Prop) (cap : Nat) (s : σ) : Prop where
  bound : counted s ≤ cap
  room : ∀ i, cleared s i → counted s < cap

theorem Room.quiet (h : Room counted cleared cap s) (hle : counted s' ≤ counted s)
    (hnew : ∀ i, cleared s' i → cleared s i ∨ counted s' < cap) : Room counted cleared cap s' where
  bound := Nat.le_trans hle h.bound
  room i hi := by
    rcases hnew i hi with hold | hroom
    · exact Nat.lt_of_le_of_lt hle (h.room i hold)
    · exact hroom

theorem Room.enter (h : Room counted cleared cap s) {i : ι} (hi : cleared s i) (hle : counted s' ≤ counted s + 1)
    (halone : ∀ j, ¬ cleared s' j) : Room counted cleared cap s' where
  bound := Nat.le_trans hle (h.room i hi)
  room j hj := absurd hj (halone j)

end TinyHermes.Lib.LimitedEntry
