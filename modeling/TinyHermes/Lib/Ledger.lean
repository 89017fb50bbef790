import Mathlib

/-! Entries that may be taken back, each time together with everything that was entered after them. -/
namespace TinyHermes.Lib

structure Ledger (κ : Type) where
  entered : Set κ
  retracted : Set κ

namespace Ledger
variable {κ : Type} [Preorder κ] {l l' : Ledger κ} {a b c : κ}

def visible (l : Ledger κ) : Set κ := l.entered \ l.retracted

/-- Nothing is lost or restored, and what is taken back takes along what was entered after it. -/
structure Grows (l l' : Ledger κ) : Prop where
  entered : l.entered ⊆ l'.entered
  retracted : l.retracted ⊆ l'.retracted
  along : ∀ a ∈ l'.retracted, a ∉ l.retracted → ∀ b ∈ l.entered, a ≤ b → b ∈ l'.retracted

/-- `b` is entered after `a`, and is taken back when `a` is. -/
structure Tied (l : Ledger κ) (a b : κ) : Prop where
  le : a ≤ b
  entered : b ∈ l.entered
  along : a ∈ l.retracted → b ∈ l.retracted

theorem Grows.of_retracted (hentered : l.entered ⊆ l'.entered) (hretracted : l'.retracted = l.retracted) : Grows l l' where
  entered := hentered
  retracted := hretracted.ge
  along _ ha hnew := absurd (hretracted ▸ ha) hnew

theorem Tied.of_visible (ha : a ∈ l.visible) (hb : b ∈ l.visible) (hle : a ≤ b) : Tied l a b where
  le := hle
  entered := hb.1
  along h := absurd h ha.2

theorem Tied.trans (hab : Tied l a b) (hbc : Tied l b c) : Tied l a c where
  le := hab.le.trans hbc.le
  entered := hbc.entered
  along h := hbc.along (hab.along h)

theorem Tied.grows (h : Tied l a b) (hgrows : Grows l l') : Tied l' a b where
  le := h.le
  entered := hgrows.entered h.entered
  along := by
    intro ha
    by_cases hold : a ∈ l.retracted
    · exact hgrows.retracted (h.along hold)
    · exact hgrows.along a ha hold b h.entered h.le

theorem Tied.not_retracted (h : Tied l a b) (hb : b ∈ l.visible) : a ∉ l.retracted := by
  intro ha
  exact hb.2 (h.along ha)

end Ledger

end TinyHermes.Lib
