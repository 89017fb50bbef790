import Mathlib

/-! Items that are found by their keys, and keys that are put together of parts. -/
namespace TinyHermes.Lib.Keys
variable {α κ : Type} {key : α → κ} {items : List α} {a : α}

theorem parts_of_joined {sep : κ} {left right left' right' : List κ} (hleft : sep ∉ left) (hleft' : sep ∉ left')
    (h : left ++ sep :: right = left' ++ sep :: right') : left = left' ∧ right = right' := by
  induction left generalizing left' with
  | nil =>
    cases left' with
    | nil => exact ⟨rfl, (List.cons.inj h).2⟩
    | cons =>
      have hsep := (List.cons.inj h).1
      exact absurd (hsep ▸ List.mem_cons_self) hleft'
  | cons c rest ih =>
    rw [List.mem_cons, not_or] at hleft
    cases left' with
    | nil => exact absurd (List.cons.inj h).1.symm hleft.1
    | cons =>
      rw [List.mem_cons, not_or] at hleft'
      obtain ⟨hc, hrest⟩ := List.cons.inj h
      obtain ⟨hsame, hright⟩ := ih hleft.2 hleft'.2 hrest
      exact ⟨by rw [hc, hsame], hright⟩

theorem nodup_snoc (hkeys : (items.map key).Nodup) (ha : key a ∉ items.map key) : ((items ++ [a]).map key).Nodup := by
  rw [List.map_append, List.nodup_append]
  refine ⟨hkeys, List.nodup_singleton _, fun k hold k' hnew => ?_⟩
  rw [List.mem_singleton.mp hnew]
  rintro rfl
  exact ha hold

theorem forall_snoc {P : α → Prop} (hold : ∀ b ∈ items, P b) (hnew : P a) : ∀ b ∈ items ++ [a], P b :=
  List.forall_mem_append.mpr ⟨hold, List.forall_mem_singleton.mpr hnew⟩

variable [BEq κ] [LawfulBEq κ]

theorem find_own (hkeys : (items.map key).Nodup) (ha : a ∈ items) : items.find? (fun b => key b == key a) = some a := by
  induction items with
  | nil => cases ha
  | cons b rest ih =>
    rw [List.map_cons, List.nodup_cons] at hkeys
    obtain rfl | ha := List.mem_cons.mp ha
    · exact List.find?_cons_of_pos (beq_self_eq_true _)
    · have hne : key b ≠ key a := fun heq => hkeys.1 (heq ▸ List.mem_map_of_mem ha)
      rw [List.find?_cons_of_neg (by simpa using hne)]
      exact ih hkeys.2 ha

theorem found {k : κ} (h : items.find? (fun b => key b == k) = some a) : a ∈ items ∧ key a = k :=
  ⟨List.mem_of_find?_eq_some h, beq_iff_eq.mp (List.find?_some (p := fun b => key b == k) h)⟩

end TinyHermes.Lib.Keys
