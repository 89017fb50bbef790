import Mathlib

/-! Cutting a list in two without leaving something open on one side that is closed on the other. -/
namespace TinyHermes.Lib.Cuts
variable {α κ : Type} [DecidableEq κ] (opens closes : α → List κ)

/-- Nothing before the cut is closed after it. -/
def Uncut (xs : List α) (start : Nat) : Prop :=
  ∀ a ∈ xs.take start, ∀ b ∈ xs.drop start, ∀ k ∈ opens a, k ∉ closes b

def crosses (after : List α) (a : α) : Bool := (opens a).any fun k => after.any fun b => k ∈ closes b

/-- The first item before the cut that opens what is closed after it, or the cut. -/
def firstCrossing (xs : List α) (start : Nat) : Nat :=
  (xs.take start).findIdx (crosses opens closes (xs.drop start))

/-- Move the cut back to the first item that crosses it, as often as there is one. -/
def settle (xs : List α) : Nat → Nat → Nat
  | 0, start => start
  | fuel + 1, start =>
    if firstCrossing opens closes xs start < start then settle xs fuel (firstCrossing opens closes xs start) else start

variable {opens closes} {xs : List α} {start n fuel : Nat}

theorem settle_succ (fuel start : Nat) : settle opens closes xs (fuel + 1) start =
    if firstCrossing opens closes xs start < start then settle opens closes xs fuel (firstCrossing opens closes xs start) else start :=
  rfl

theorem crosses_eq_false {after : List α} {a : α} :
    crosses opens closes after a = false ↔ ∀ b ∈ after, ∀ k ∈ opens a, k ∉ closes b := by
  simp only [crosses, List.any_eq_false, decide_eq_true_eq, Bool.not_eq_true]
  constructor
  · intro h b hb k hk
    exact h k hk b hb
  · intro h k hk b hb
    exact h b hb k hk

theorem firstCrossing_le (xs : List α) (start : Nat) : firstCrossing opens closes xs start ≤ start :=
  List.findIdx_le_length.trans (List.length_take_le _ _)

theorem uncut_iff (hstart : start ≤ xs.length) : Uncut opens closes xs start ↔ firstCrossing opens closes xs start = start := by
  have hlength : (xs.take start).length = start := List.length_take_of_le hstart
  have hnone : firstCrossing opens closes xs start = start ↔
      ∀ a ∈ xs.take start, crosses opens closes (xs.drop start) a = false := by
    rw [← List.findIdx_eq_length, hlength, firstCrossing]
  rw [hnone]
  constructor
  · intro h a ha
    exact crosses_eq_false.mpr (h a ha)
  · intro h a ha
    exact crosses_eq_false.mp (h a ha)

theorem settle_le (xs : List α) (fuel start : Nat) : settle opens closes xs fuel start ≤ start := by
  induction fuel generalizing start with
  | zero => exact le_rfl
  | succ fuel ih =>
    rw [settle_succ]
    split_ifs with h
    · exact (ih _).trans h.le
    · exact le_rfl

theorem settle_uncut (hstart : start ≤ xs.length) (hfuel : start ≤ fuel) :
    Uncut opens closes xs (settle opens closes xs fuel start) := by
  induction fuel generalizing start with
  | zero =>
    obtain rfl := Nat.le_zero.mp hfuel
    intro _ ha
    cases ha
  | succ fuel ih =>
    rw [settle_succ]
    split_ifs with h
    · exact ih (h.le.trans hstart) (by omega)
    · have hle := @firstCrossing_le _ _ _ opens closes xs start
      exact (uncut_iff hstart).mpr (by omega)

theorem settle_fuel {fuel' : Nat} (hfuel : start ≤ fuel) (hfuel' : start ≤ fuel') :
    settle opens closes xs fuel start = settle opens closes xs fuel' start := by
  induction fuel generalizing start fuel' with
  | zero =>
    obtain rfl := Nat.le_zero.mp hfuel
    exact (Nat.le_zero.mp (settle_le xs fuel' 0)).symm
  | succ fuel ih =>
    cases fuel' with
    | zero =>
      obtain rfl := Nat.le_zero.mp hfuel'
      exact Nat.le_zero.mp (settle_le xs (fuel + 1) 0)
    | succ =>
      rw [settle_succ, settle_succ]
      split_ifs with h
      · exact ih (by omega) (by omega)
      · rfl

theorem le_settle (hn : n ≤ start) (hstart : start ≤ xs.length) (huncut : Uncut opens closes xs n) :
    n ≤ settle opens closes xs fuel start := by
  induction fuel generalizing start with
  | zero => exact hn
  | succ fuel ih =>
    rw [settle_succ]
    split_ifs with h
    · have hlength : (xs.take start).length = start := List.length_take_of_le hstart
      have hfirst : n ≤ firstCrossing opens closes xs start := by
        rcases hn.lt_or_eq with hlt | rfl
        · apply List.le_findIdx_of_not (hlength.symm ▸ hlt)
          intro j _
          rw [crosses_eq_false]
          intro b hb k hk
          have hbefore : (xs.take start)[j] ∈ xs.take n := by
            rw [List.getElem_take]
            exact List.mem_take_iff_getElem.mpr ⟨j, by omega, rfl⟩
          have hafter : b ∈ xs.drop n := by
            obtain ⟨m, _, rfl⟩ := List.mem_drop_iff_getElem.mp hb
            exact List.mem_drop_iff_getElem.mpr ⟨start - n + m, by omega, by congr 1; omega⟩
          exact huncut _ hbefore b hafter k hk
        · exact ((uncut_iff hstart).mp huncut).ge
      exact ih hfirst (h.le.trans hstart)
    · exact hn

theorem findIdx_drop {p : α → Bool} {xs : List α} {n : Nat} (h : n ≤ xs.findIdx p) :
    (xs.drop n).findIdx p = xs.findIdx p - n := by
  induction n generalizing xs with
  | zero => rfl
  | succ n ih =>
    cases xs with
    | nil => cases h
    | cons a =>
      rw [List.findIdx_cons] at h ⊢
      cases ha : p a with
      | true =>
        rw [ha] at h
        cases h
      | false =>
        rw [ha, cond_false] at h
        rw [cond_false, List.drop_succ_cons, ih (by omega)]
        omega

theorem firstCrossing_drop (hn : n ≤ firstCrossing opens closes xs start) :
    firstCrossing opens closes (xs.drop n) (start - n) = firstCrossing opens closes xs start - n := by
  have hle : n ≤ start := hn.trans (firstCrossing_le xs start)
  have hbefore : (xs.drop n).take (start - n) = (xs.take start).drop n := List.drop_take.symm
  have hafter : (xs.drop n).drop (start - n) = xs.drop start := by
    rw [List.drop_drop, Nat.add_sub_cancel' hle]
  rw [firstCrossing, hbefore, hafter]
  exact findIdx_drop hn

theorem settle_drop (hn : n ≤ settle opens closes xs fuel start) :
    settle opens closes (xs.drop n) fuel (start - n) = settle opens closes xs fuel start - n := by
  induction fuel generalizing start with
  | zero => rfl
  | succ fuel ih =>
    rw [settle_succ] at hn ⊢
    split_ifs at hn with h
    · have hfirst := hn.trans (settle_le xs fuel _)
      rw [settle_succ, if_pos h, firstCrossing_drop hfirst, if_pos (by omega)]
      exact ih hn
    · have hle := @firstCrossing_le _ _ _ opens closes xs start
      rw [settle_succ, if_neg h, firstCrossing_drop (by omega), if_neg (by omega)]

end TinyHermes.Lib.Cuts
