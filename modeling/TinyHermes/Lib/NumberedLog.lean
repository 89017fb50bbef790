import Mathlib

/-! Logs whose entries are numbered one after another, and readers that ask for what comes after a number. -/
namespace TinyHermes.Lib.NumberedLog
variable {α : Type} (number : α → Nat)

/-- The entries after the first `skipped`, numbered in order. -/
def NumberedFrom (skipped : Nat) (rows : List α) : Prop := rows.map number = List.range' (skipped + 1) rows.length

variable {number}

theorem NumberedFrom.nil (skipped : Nat) : NumberedFrom number skipped [] := rfl

variable {skipped : Nat} {rows : List α}

theorem NumberedFrom.cons_iff {r : α} :
    NumberedFrom number skipped (r :: rows) ↔ number r = skipped + 1 ∧ NumberedFrom number (skipped + 1) rows := by
  simp [NumberedFrom, List.range'_succ]

theorem NumberedFrom.append {more : List α} (h : NumberedFrom number skipped rows)
    (hmore : NumberedFrom number (skipped + rows.length) more) : NumberedFrom number skipped (rows ++ more) := by
  rw [NumberedFrom, List.map_append, h, hmore, List.length_append, Nat.add_right_comm]
  exact List.range'_append_1

theorem NumberedFrom.drop (h : NumberedFrom number skipped rows) (n : Nat) :
    NumberedFrom number (skipped + n) (rows.drop n) := by
  induction rows generalizing skipped n with
  | nil =>
    rw [List.drop_nil]
    exact .nil _
  | cons r rows ih =>
    cases n with
    | zero => exact h
    | succ n =>
      have hrest := ih (NumberedFrom.cons_iff.mp h).2 n
      rwa [Nat.add_right_comm] at hrest

theorem NumberedFrom.of_first {first : List α} (h : NumberedFrom number skipped rows)
    (hfirst : first <+: rows) : NumberedFrom number skipped first := by
  obtain ⟨_, rfl⟩ := hfirst
  rw [NumberedFrom, List.map_append, List.length_append, ← List.range'_append_1] at h
  exact (List.append_inj h (by simp)).1

/-- The entries with a number above `n`. -/
theorem NumberedFrom.filter_lt {n : Nat} (h : NumberedFrom number skipped rows) (hn : skipped ≤ n) :
    rows.filter (fun r => n < number r) = rows.drop (n - skipped) := by
  induction rows generalizing skipped with
  | nil => simp
  | cons r rows ih =>
    obtain ⟨hr, hrest⟩ := NumberedFrom.cons_iff.mp h
    rw [List.filter_cons, hr]
    by_cases heq : n = skipped
    · subst heq
      have hall : ∀ r ∈ rows, n < number r := by
        intro _ hmem
        have hnum := List.mem_map_of_mem (f := number) hmem
        rw [hrest, List.mem_range'_1] at hnum
        omega
      simpa using hall
    · have hsucc : skipped + 1 ≤ n := by omega
      rw [if_neg (by simpa using hsucc), ih hrest hsucc, show n - skipped = (n - (skipped + 1)) + 1 by omega,
        List.drop_succ_cons]

theorem NumberedFrom.pairwise (h : NumberedFrom number skipped rows) :
    rows.Pairwise fun a b => number a ≤ number b := by
  induction rows generalizing skipped with
  | nil => exact .nil
  | cons r rows ih =>
    obtain ⟨_, hrest⟩ := NumberedFrom.cons_iff.mp h
    refine .cons (fun b hb => ?_) (ih hrest)
    have hnum := List.mem_map_of_mem (f := number) hb
    rw [hrest, List.mem_range'_1] at hnum
    omega

end TinyHermes.Lib.NumberedLog
