import TinyHermes.Lib.Transaction

/-! Many items settled one after another inside one transaction, where settling one of them changes nothing that
settling another one looks at. -/
namespace TinyHermes.Lib.Tx
variable {σ ε β : Type}

/-- Settling the items of `items` one by one. `Agree x s t` says that nothing which concerns `x` differs between
`s` and `t`. -/
structure Independent (f : β → Tx σ ε Unit) (items : List β) (Inv : σ → Prop) (Agree : β → σ → σ → Prop)
    (Admissible : β → σ → Prop) (Settled : β → σ → σ → Prop) : Prop where
  refl : ∀ x s, Agree x s s
  trans : ∀ x s t u, Agree x s t → Agree x t u → Agree x s u
  total : ∀ x ∈ items, ∀ s, Inv s → Admissible x s → ∃ s', f x s = .ok ((), s')
  only : ∀ x ∈ items, ∀ s s', Inv s → f x s = .ok ((), s') → Admissible x s
  keeps : ∀ x ∈ items, ∀ s s', Inv s → f x s = .ok ((), s') → Inv s'
  settles : ∀ x ∈ items, ∀ s s', Inv s → f x s = .ok ((), s') → Settled x s s'
  apart : ∀ x ∈ items, ∀ y ∈ items, x ≠ y → ∀ s s', Inv s → f x s = .ok ((), s') → Agree y s s'
  admissible : ∀ x ∈ items, ∀ s t, Inv s → Inv t → Agree x s t → (Admissible x s ↔ Admissible x t)
  before : ∀ x ∈ items, ∀ s t u, Inv s → Inv t → Agree x s t → Settled x t u → Settled x s u
  after : ∀ x ∈ items, ∀ s t u, Inv s → Inv t → Inv u → Settled x s t → Agree x t u → Settled x s u

namespace Independent
variable {f : β → Tx σ ε Unit} {items : List β} {Inv : σ → Prop} {Agree : β → σ → σ → Prop}
  {Admissible : β → σ → Prop} {Settled : β → σ → σ → Prop} {s s' : σ}

/-- The whole sweep keeps the invariant, and whoever is not part of it is left alone. -/
theorem forEach_apart (h : Independent f items Inv Agree Admissible Settled) {xs : List β} (hxs : xs ⊆ items)
    (hs : Inv s) (hrun : forEach xs f s = .ok ((), s')) :
    Inv s' ∧ ∀ y ∈ items, y ∉ xs → Agree y s s' := by
  induction xs generalizing s with
  | nil =>
    obtain ⟨_, rfl⟩ := pure_ok.mp hrun
    exact ⟨hs, fun y _ _ => h.refl y s⟩
  | cons x rest ih =>
    obtain ⟨hx, hrest⟩ := List.cons_subset.mp hxs
    obtain ⟨_, s₁, hfirst, hothers⟩ := bind_ok.mp hrun
    obtain ⟨hs', hagree⟩ := ih hrest (h.keeps x hx s s₁ hs hfirst) hothers
    refine ⟨hs', fun y hy hnot => ?_⟩
    have hne : x ≠ y := fun heq => hnot (heq ▸ List.mem_cons_self)
    have hfar : y ∉ rest := fun hmem => hnot (List.mem_cons_of_mem x hmem)
    exact h.trans y s s₁ s' (h.apart x hx y hy hne s s₁ hs hfirst) (hagree y hy hfar)

theorem forEach_settles (h : Independent f items Inv Agree Admissible Settled) {xs : List β} (hxs : xs ⊆ items)
    (hnodup : xs.Nodup) (hs : Inv s) (hrun : forEach xs f s = .ok ((), s')) :
    ∀ x ∈ xs, Admissible x s ∧ Settled x s s' := by
  induction xs generalizing s with
  | nil => exact fun x hx => (nomatch hx)
  | cons x rest ih =>
    obtain ⟨hx, hrest⟩ := List.cons_subset.mp hxs
    obtain ⟨hfresh, hnodup⟩ := List.nodup_cons.mp hnodup
    obtain ⟨_, s₁, hfirst, hothers⟩ := bind_ok.mp hrun
    have hs₁ := h.keeps x hx s s₁ hs hfirst
    obtain ⟨hs', hagree⟩ := h.forEach_apart hrest hs₁ hothers
    intro y hy
    rcases List.mem_cons.mp hy with rfl | hy
    · have hsettled := h.settles y hx s s₁ hs hfirst
      exact ⟨h.only y hx s s₁ hs hfirst, h.after y hx s s₁ s' hs hs₁ hs' hsettled (hagree y hx hfresh)⟩
    · obtain ⟨hadmissible, hsettled⟩ := ih hrest hnodup hs₁ hothers y hy
      have hne : x ≠ y := fun heq => hfresh (heq ▸ hy)
      have hsame := h.apart x hx y (hrest hy) hne s s₁ hs hfirst
      exact ⟨(h.admissible y (hrest hy) s s₁ hs hs₁ hsame).mpr hadmissible,
        h.before y (hrest hy) s s₁ s' hs hs₁ hsame hsettled⟩

theorem forEach_total (h : Independent f items Inv Agree Admissible Settled) {xs : List β} (hxs : xs ⊆ items)
    (hnodup : xs.Nodup) (hs : Inv s) (hall : ∀ x ∈ xs, Admissible x s) : ∃ s', forEach xs f s = .ok ((), s') := by
  induction xs generalizing s with
  | nil => exact ⟨s, rfl⟩
  | cons x rest ih =>
    obtain ⟨hx, hrest⟩ := List.cons_subset.mp hxs
    obtain ⟨hfresh, hnodup⟩ := List.nodup_cons.mp hnodup
    obtain ⟨s₁, hfirst⟩ := h.total x hx s hs (hall x List.mem_cons_self)
    have hs₁ := h.keeps x hx s s₁ hs hfirst
    have hothers : ∀ y ∈ rest, Admissible y s₁ := by
      intro y hy
      have hne : x ≠ y := fun heq => hfresh (heq ▸ hy)
      have hsame := h.apart x hx y (hrest hy) hne s s₁ hs hfirst
      exact (h.admissible y (hrest hy) s s₁ hs hs₁ hsame).mp (hall y (List.mem_cons_of_mem x hy))
    obtain ⟨s', hs'⟩ := ih hrest hnodup hs₁ hothers
    exact ⟨s', bind_ok.mpr ⟨(), s₁, hfirst, hs'⟩⟩

theorem forEach_iff (h : Independent f items Inv Agree Admissible Settled) (hnodup : items.Nodup) (hs : Inv s) :
    (∃ s', forEach items f s = .ok ((), s') ∧ ∀ x ∈ items, Settled x s s') ↔ ∀ x ∈ items, Admissible x s := by
  constructor
  · rintro ⟨s', hrun, _⟩ x hx
    exact (h.forEach_settles (List.Subset.refl _) hnodup hs hrun x hx).1
  · intro hall
    obtain ⟨s', hrun⟩ := h.forEach_total (List.Subset.refl _) hnodup hs hall
    exact ⟨s', hrun, fun x hx => (h.forEach_settles (List.Subset.refl _) hnodup hs hrun x hx).2⟩

end Independent
end TinyHermes.Lib.Tx
