import Mathlib

/-! For each key of a list the first item that has it, in the order of the list. -/
namespace TinyHermes.Lib
variable {α κ : Type} [DecidableEq κ]

/-- What setting each item under its key leaves, when a key that is set stays. -/
def firsts (key : α → Option κ) : List α → List (κ × α)
  | [] => []
  | a :: rest =>
    match key a with
    | some k => (k, a) :: (firsts key rest).filter fun e => e.1 ≠ k
    | none => firsts key rest

namespace Firsts
variable {key : α → Option κ}

theorem keys_nodup (xs : List α) : ((firsts key xs).map (·.1)).Nodup := by
  induction xs with
  | nil => exact List.nodup_nil
  | cons a rest ih =>
    rw [firsts]
    cases key a with
    | none => exact ih
    | some =>
      rw [List.map_cons, List.nodup_cons]
      constructor
      · intro h
        obtain ⟨_, he, hk⟩ := List.mem_map.mp h
        exact of_decide_eq_true (List.mem_filter.mp he).2 hk
      · exact ih.sublist (List.filter_sublist.map _)

theorem mem_iff {xs : List α} {k : κ} {a : α} :
    (k, a) ∈ firsts key xs ↔ ∃ before after, xs = before ++ a :: after ∧ key a = some k ∧ ∀ b ∈ before, key b ≠ some k := by
  induction xs with
  | nil =>
    constructor
    · intro h
      cases h
    · rintro ⟨before, after, hsplit, _⟩
      cases before <;> cases hsplit
  | cons x rest ih =>
    have hstep : (k, a) ∈ firsts key (x :: rest) ↔
        (key x = some k ∧ x = a) ∨ key x ≠ some k ∧ (k, a) ∈ firsts key rest := by
      rw [firsts]
      cases hx : key x with
      | none => simp
      | some j =>
        rw [List.mem_cons, List.mem_filter]
        by_cases hjk : j = k
        · subst hjk
          simp [eq_comm]
        · have hkj : k ≠ j := Ne.symm hjk
          simp [hjk, hkj]
    rw [hstep, ih]
    constructor
    · rintro (⟨hx, rfl⟩ | ⟨hx, before, after, rfl, ha, hbefore⟩)
      · exact ⟨[], rest, rfl, hx, fun b hb => absurd hb List.not_mem_nil⟩
      · refine ⟨x :: before, after, rfl, ha, ?_⟩
        intro b hb
        rcases List.mem_cons.mp hb with rfl | hb
        · exact hx
        · exact hbefore b hb
    · rintro ⟨before, after, hsplit, ha, hbefore⟩
      cases before with
      | nil =>
        cases hsplit
        exact .inl ⟨ha, rfl⟩
      | cons b before =>
        cases hsplit
        exact .inr ⟨hbefore _ List.mem_cons_self, before, after, rfl, ha, fun b hb => hbefore b (List.mem_cons_of_mem _ hb)⟩

theorem mem_of {xs : List α} {k : κ} {a : α} (h : (k, a) ∈ firsts key xs) : a ∈ xs ∧ key a = some k := by
  obtain ⟨_, _, rfl, ha, _⟩ := mem_iff.mp h
  exact ⟨List.mem_append_right _ List.mem_cons_self, ha⟩

theorem exists_of_key {xs : List α} {k : κ} {a : α} (ha : a ∈ xs) (hk : key a = some k) : ∃ b, (k, b) ∈ firsts key xs := by
  induction xs with
  | nil => cases ha
  | cons x rest ih =>
    rw [firsts]
    by_cases hx : key x = some k
    · exact ⟨x, by simp [hx]⟩
    · have hrest : a ∈ rest := by
        rcases List.mem_cons.mp ha with rfl | h
        · exact absurd hk hx
        · exact h
      obtain ⟨b, hb⟩ := ih hrest
      refine ⟨b, ?_⟩
      cases hj : key x with
      | none => exact hb
      | some j =>
        have hne : k ≠ j := by
          rintro rfl
          exact hx hj
        exact List.mem_cons_of_mem _ (List.mem_filter.mpr ⟨hb, decide_eq_true hne⟩)

end Firsts

end TinyHermes.Lib
