import Mathlib

/-! Code that returns or raises, read back from what it returned. -/
namespace TinyHermes.Lib.Fallible
variable {ε α β γ : Type}

theorem bind_ok {x : Except ε α} {f : α → Except ε β} {b : β} :
    (x >>= f) = .ok b ↔ ∃ a, x = .ok a ∧ f a = .ok b := by
  cases x with
  | error =>
    constructor
    · intro h
      cases h
    · rintro ⟨a, h, _⟩
      cases h
  | ok a =>
    constructor
    · intro h
      exact ⟨a, rfl, h⟩
    · rintro ⟨_, h, hf⟩
      cases h
      exact hf

theorem foldlM_cons_ok {f : β → α → Except ε β} {a : α} {as : List α} {b b' : β} :
    (a :: as).foldlM f b = .ok b' ↔ ∃ next, f b a = .ok next ∧ as.foldlM f next = .ok b' := by
  rw [List.foldlM_cons]
  exact bind_ok

theorem foldlM_keeps {f : β → α → Except ε β} {P : β → Prop} {as : List α} {b b' : β}
    (hkeeps : ∀ a ∈ as, ∀ c c', P c → f c a = .ok c' → P c') (hb : P b) (h : as.foldlM f b = .ok b') : P b' := by
  induction as generalizing b with
  | nil => exact Except.ok.inj h ▸ hb
  | cons a rest ih =>
    obtain ⟨next, hfirst, hrest⟩ := foldlM_cons_ok.mp h
    exact ih (fun d hd => hkeeps d (List.mem_cons_of_mem _ hd)) (hkeeps a List.mem_cons_self b next hb hfirst) hrest

end TinyHermes.Lib.Fallible
