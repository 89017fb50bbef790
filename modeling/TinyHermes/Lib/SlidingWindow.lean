import Mathlib

/-! A limit over a sliding window, for events that are admitted in any order of their own times. -/
namespace TinyHermes.Lib.SlidingWindow
variable {α : Type} [AddCommGroup α] [LinearOrder α]

/-- How many events lie in the window of length `width` that begins at `start`. -/
def inWindow (width start : α) (times : List α) : Nat := times.countP fun t => start ≤ t ∧ t < start + width

/-- How many events are less than `width` older than `now`; events later than `now` count too. -/
def recent (width now : α) (times : List α) : Nat := times.countP fun t => now - width < t

/-- Each event was admitted on top of those before it, with fewer than `limit` of them recent. -/
inductive Admitted (limit : Nat) (width : α) : List α → Prop where
  | nil : Admitted limit width []
  | snoc {times : List α} {now : α} (h : Admitted limit width times) (hroom : recent width now times < limit) :
      Admitted limit width (times ++ [now])

variable {limit : Nat} {width start now : α} {times : List α}

theorem recent_append (earlier : List α) : recent width now (earlier ++ times) = recent width now earlier + recent width now times :=
  List.countP_append

theorem inWindow_le_recent [IsOrderedAddMonoid α] (hnow : now < start + width) :
    inWindow width start times ≤ recent width now times := by
  apply List.countP_mono_left
  intro _ _ ht
  simp only [decide_eq_true_eq] at ht ⊢
  exact (sub_lt_iff_lt_add.mpr hnow).trans_le ht.1

/-- No window holds more than the limit, whatever the order of admission. -/
theorem Admitted.inWindow_le [IsOrderedAddMonoid α] (h : Admitted limit width times) (start : α) :
    inWindow width start times ≤ limit := by
  induction h with
  | nil => exact Nat.zero_le _
  | @snoc times now _ hroom ih =>
    rw [inWindow, List.countP_append]
    by_cases hin : start ≤ now ∧ now < start + width
    · have hrest : inWindow width start times < limit := (inWindow_le_recent hin.2).trans_lt hroom
      rw [List.countP_singleton, if_pos (decide_eq_true hin)]
      exact hrest
    · rw [List.countP_singleton, if_neg (by simpa using hin)]
      exact ih

end TinyHermes.Lib.SlidingWindow
