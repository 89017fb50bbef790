import Mathlib

/-! Names handed out on first sight: a key that is met again keeps its name, and a new key gets
a name nobody had. -/
namespace TinyHermes.Lib
variable {κ υ : Type}

structure Naming (κ υ : Type) where
  name : κ → Option υ
  /-- Every name that was ever drawn, whoever holds it. -/
  used : Set υ

namespace Naming

structure WellNamed (n : Naming κ υ) : Prop where
  used : ∀ k u, n.name k = some u → u ∈ n.used
  apart : ∀ k k' u, n.name k = some u → n.name k' = some u → k = k'

/-- What any number of enrolments may do. -/
structure Enrols (n n' : Naming κ υ) : Prop where
  keeps : ∀ k u, n.name k = some u → n'.name k = some u
  remembers : n.used ⊆ n'.used
  draws : ∀ k u, n.name k = none → n'.name k = some u → u ∉ n.used ∧ u ∈ n'.used
  once : ∀ k k' u, n.name k = none → n'.name k = some u → n'.name k' = some u → k = k'

theorem Enrols.refl (n : Naming κ υ) : Enrols n n where
  keeps _ _ h := h
  remembers _ h := h
  draws k u h h' := by
    rw [h] at h'
    cases h'
  once k k' u h h' := by
    rw [h] at h'
    cases h'

theorem Enrols.trans {n₁ n₂ n₃ : Naming κ υ} (h₁ : Enrols n₁ n₂) (h₂ : Enrols n₂ n₃) : Enrols n₁ n₃ where
  keeps k u h := h₂.keeps k u (h₁.keeps k u h)
  remembers _ h := h₂.remembers (h₁.remembers h)
  draws k u h h' := by
    cases hk : n₂.name k with
    | none =>
      obtain ⟨hnew, hin⟩ := h₂.draws k u hk h'
      exact ⟨fun hu => hnew (h₁.remembers hu), hin⟩
    | some v =>
      have hv : v = u := Option.some.inj ((h₂.keeps k v hk).symm.trans h')
      subst hv
      obtain ⟨hnew, hin⟩ := h₁.draws k v h hk
      exact ⟨hnew, h₂.remembers hin⟩
  once k k' u h h' h'' := by
    cases hk : n₂.name k with
    | none => exact h₂.once k k' u hk h' h''
    | some v =>
      have hv : v = u := Option.some.inj ((h₂.keeps k v hk).symm.trans h')
      subst hv
      cases hk' : n₂.name k' with
      | none =>
        -- `k'` would have drawn in the second half a name that the first half used up
        exact absurd (h₁.draws k v h hk).2 (h₂.draws k' v hk' h'').1
      | some w =>
        have hw : w = v := Option.some.inj ((h₂.keeps k' w hk').symm.trans h'')
        subst hw
        exact h₁.once k k' w h hk hk'

/-- One key enrolled under a name that was never used. -/
theorem Enrols.enrol {n n' : Naming κ υ} {k : κ} {u : υ} (hnew : u ∉ n.used) (hwell : n.WellNamed)
    (hold : ∀ k', k' ≠ k → n'.name k' = n.name k') (hname : n'.name k = some u) (hk : n.name k = none)
    (hmem : u ∈ n'.used) (hused : n.used ⊆ n'.used) : Enrols n n' where
  keeps k' v h := by
    rw [hold k' ?_, h]
    rintro rfl
    rw [hk] at h
    cases h
  remembers := hused
  draws k' v h h' := by
    by_cases hkk : k' = k
    · subst hkk
      cases hname.symm.trans h'
      exact ⟨hnew, hmem⟩
    · rw [hold k' hkk, h] at h'
      cases h'
  once k₁ k₂ v h h' h'' := by
    have hkk : k₁ = k := by
      by_contra hne
      rw [hold k₁ hne, h] at h'
      cases h'
    subst hkk
    cases hname.symm.trans h'
    by_contra hne
    rw [hold k₂ (Ne.symm hne)] at h''
    exact hnew (hwell.used k₂ _ h'')

theorem WellNamed.enrols {n n' : Naming κ υ} (h : n.WellNamed) (hstep : Enrols n n') : n'.WellNamed where
  used k u hk := by
    cases hold : n.name k with
    | none => exact (hstep.draws k u hold hk).2
    | some v =>
      obtain rfl := Option.some.inj ((hstep.keeps k v hold).symm.trans hk)
      exact hstep.remembers (h.used k v hold)
  apart k k' u hk hk' := by
    cases hold : n.name k with
    | none => exact hstep.once k k' u hold hk hk'
    | some v =>
      obtain rfl := Option.some.inj ((hstep.keeps k v hold).symm.trans hk)
      cases hold' : n.name k' with
      | none => exact (hstep.once k' k v hold' hk' hk).symm
      | some w =>
        obtain rfl := Option.some.inj ((hstep.keeps k' w hold').symm.trans hk')
        exact h.apart k k' w hold hold'

theorem WellNamed.same_name_iff {n : Naming κ υ} (h : n.WellNamed) {k k' : κ} {u u' : υ} (hk : n.name k = some u)
    (hk' : n.name k' = some u') : u = u' ↔ k = k' := by
  constructor
  · rintro rfl
    exact h.apart k k' u hk hk'
  · rintro rfl
    exact Option.some.inj (hk.symm.trans hk')

end Naming
end TinyHermes.Lib
