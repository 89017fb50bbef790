import Mathlib

/-! Transactions over an explicit state: a failed one writes nothing, and what a successful one
can do is read off its parts. -/
namespace TinyHermes.Lib
variable {σ ε α β : Type}

/-- One atomic transaction. An error carries no state, which is the rollback. -/
abbrev Tx (σ ε α : Type) := StateT σ (Except ε) α

namespace Tx

def require (p : Prop) [Decidable p] (e : ε) : Tx σ ε Unit :=
  fun s => if p then .ok ((), s) else .error e

/-- Read a row that must exist. -/
def fetch (read : σ → Option α) (e : ε) : Tx σ ε α :=
  fun s => match read s with
    | some a => .ok (a, s)
    | none => .error e

def write (f : σ → σ) : Tx σ ε Unit := fun s => .ok ((), f s)

/-- An outcome that was already computed, inside a transaction. -/
def lift (x : Except ε α) : Tx σ ε α :=
  fun s => match x with
    | .ok a => .ok (a, s)
    | .error e => .error e

def onlyIf (p : Prop) [Decidable p] (x : Tx σ ε Unit) : Tx σ ε Unit := if p then x else pure ()

def forEach (xs : List β) (f : β → Tx σ ε Unit) : Tx σ ε Unit :=
  match xs with
  | [] => pure ()
  | x :: rest => do
    f x
    forEach rest f

/-- What is left of the state when a transaction is attempted. -/
def commit (x : Tx σ ε α) (s : σ) : σ :=
  match x s with
  | .ok (_, s') => s'
  | .error _ => s

variable {x : Tx σ ε α} {s s' : σ}

theorem bind_ok {f : α → Tx σ ε β} {b : β} :
    (x >>= f) s = .ok (b, s') ↔ ∃ a s₁, x s = .ok (a, s₁) ∧ f a s₁ = .ok (b, s') := by
  change (Except.bind (x s) fun p => f p.1 p.2) = _ ↔ _
  cases hx : x s with
  | error => simp [Except.bind]
  | ok p =>
    obtain ⟨a, s₁⟩ := p
    simp only [Except.bind, Except.ok.injEq, Prod.mk.injEq]
    constructor
    · intro h
      exact ⟨a, s₁, ⟨rfl, rfl⟩, h⟩
    · rintro ⟨_, _, ⟨rfl, rfl⟩, h⟩
      exact h

theorem pure_ok {a b : α} : (pure a : Tx σ ε α) s = .ok (b, s') ↔ a = b ∧ s = s' := by
  change Except.ok (a, s) = _ ↔ _
  simp

theorem get_ok {a : σ} : (get : Tx σ ε σ) s = .ok (a, s') ↔ a = s ∧ s' = s := by
  change Except.ok (s, s) = _ ↔ _
  simp [eq_comm]

theorem require_ok {p : Prop} [Decidable p] {e : ε} {u : Unit} :
    require p e s = .ok (u, s') ↔ p ∧ s' = s := by
  unfold require
  split <;> simp_all [eq_comm]

theorem fetch_ok {read : σ → Option α} {e : ε} {a : α} :
    fetch read e s = .ok (a, s') ↔ read s = some a ∧ s' = s := by
  unfold fetch
  cases read s <;> simp [eq_comm]

theorem write_ok {f : σ → σ} {u : Unit} :
    (write f : Tx σ ε Unit) s = .ok (u, s') ↔ s' = f s := by
  simp [write, eq_comm]

theorem lift_ok {x : Except ε α} {a : α} :
    lift x s = .ok (a, s') ↔ x = .ok a ∧ s' = s := by
  unfold lift
  cases x <;> simp [eq_comm]

theorem throw_ok {e : ε} {a : α} : ¬ (throw e : Tx σ ε α) s = .ok (a, s') := by
  change ¬ Except.error e = Except.ok (a, s')
  simp

section Peel
variable {f : α → Tx σ ε β} {s s' : σ} {b : β}

theorem bind_of_ok {a : α} (h : x s = .ok (a, s')) : (x >>= f) s = f a s' := by
  change Except.bind (x s) _ = _
  rw [h]
  rfl

theorem bind_of_error {e : ε} (h : x s = .error e) : (x >>= f) s = .error e := by
  change Except.bind (x s) _ = _
  rw [h]
  rfl

theorem get_bind {f : σ → Tx σ ε β} : (get >>= f) s = f s s := rfl

theorem pure_bind_run {a : α} : (pure a >>= f) s = f a s := rfl

theorem write_bind {g : σ → σ} {f : Unit → Tx σ ε β} : (write g >>= f) s = f () (g s) := rfl

theorem fetch_bind_ok {read : σ → Option α} {e : ε} :
    (fetch read e >>= f) s = .ok (b, s') ↔ ∃ a, read s = some a ∧ f a s = .ok (b, s') := by
  simp only [bind_ok, fetch_ok]
  constructor
  · rintro ⟨a, _, ⟨h, rfl⟩, hf⟩
    exact ⟨a, h, hf⟩
  · rintro ⟨a, h, hf⟩
    exact ⟨a, s, ⟨h, rfl⟩, hf⟩

theorem fetch_bind_run {read : σ → Option α} {e : ε} :
    (fetch read e >>= f) s = match read s with
      | some a => f a s
      | none => .error e := by
  change Except.bind (fetch read e s) _ = _
  unfold fetch
  cases read s <;> rfl

theorem require_bind_ok {p : Prop} [Decidable p] {e : ε} {f : Unit → Tx σ ε β} :
    (require p e >>= f) s = .ok (b, s') ↔ p ∧ f () s = .ok (b, s') := by
  simp only [bind_ok, require_ok]
  constructor
  · rintro ⟨_, _, ⟨h, rfl⟩, hf⟩
    exact ⟨h, hf⟩
  · rintro ⟨h, hf⟩
    exact ⟨(), s, ⟨h, rfl⟩, hf⟩

theorem require_bind_run {p : Prop} [Decidable p] {e : ε} {f : Unit → Tx σ ε β} :
    (require p e >>= f) s = if p then f () s else .error e := by
  change Except.bind (require p e s) _ = _
  unfold require
  split <;> rfl

theorem lift_bind_ok {x : Except ε α} :
    (lift x >>= f) s = .ok (b, s') ↔ ∃ a, x = .ok a ∧ f a s = .ok (b, s') := by
  simp only [bind_ok, lift_ok]
  constructor
  · rintro ⟨a, _, ⟨h, rfl⟩, hf⟩
    exact ⟨a, h, hf⟩
  · rintro ⟨a, h, hf⟩
    exact ⟨a, s, ⟨h, rfl⟩, hf⟩

end Peel

theorem onlyIf_ok {p : Prop} [Decidable p] {x : Tx σ ε Unit} {u : Unit} :
    onlyIf p x s = .ok (u, s') ↔ (p ∧ x s = .ok (u, s')) ∨ (¬ p ∧ s' = s) := by
  unfold onlyIf
  by_cases h : p
  · simp [h]
  · simp only [h, if_false, pure_ok, false_and, not_false_eq_true, true_and, false_or]
    exact eq_comm

theorem ok_of_toOption {α ε : Type} {x : Except ε α} {a : α} (h : x.toOption = some a) : x = .ok a := by
  cases x with
  | error => cases h
  | ok => exact congrArg _ (Option.some.inj h)

theorem commit_of_ok {a : α} (h : x s = .ok (a, s')) : commit x s = s' := by
  rw [commit, h]

theorem commit_of_error {e : ε} (h : x s = .error e) : commit x s = s := by
  rw [commit, h]

/-- Every successful run of `x` stays inside the relation `R`. -/
def Within (R : σ → σ → Prop) (x : Tx σ ε α) : Prop :=
  ∀ ⦃s a s'⦄, x s = .ok (a, s') → R s s'

namespace Within
variable {R : σ → σ → Prop}

theorem write {f : σ → σ} (h : ∀ s, R s (f s)) : Within R (write f : Tx σ ε Unit) := by
  intro s _ _ hs
  rw [write_ok.mp hs]
  exact h s

theorem throw (e : ε) : Within R (throw e : Tx σ ε α) :=
  fun _ _ _ hs => absurd hs throw_ok

theorem bind [IsTrans σ R] {f : α → Tx σ ε β} (hx : Within R x) (hf : ∀ a, Within R (f a)) :
    Within R (x >>= f) := by
  intro _ _ _ hs
  obtain ⟨a, _, h₁, h₂⟩ := bind_ok.mp hs
  exact Trans.trans (hx h₁) (hf a h₂)

theorem pure [Std.Refl R] (a : α) : Within R (pure a : Tx σ ε α) := by
  intro s _ _ hs
  obtain ⟨_, rfl⟩ := pure_ok.mp hs
  exact refl s

theorem get [Std.Refl R] : Within R (get : Tx σ ε σ) := by
  intro _ _ _ hs
  obtain ⟨_, rfl⟩ := get_ok.mp hs
  exact refl _

theorem require [Std.Refl R] (p : Prop) [Decidable p] (e : ε) : Within R (require p e : Tx σ ε Unit) := by
  intro _ _ _ hs
  obtain ⟨_, rfl⟩ := require_ok.mp hs
  exact refl _

theorem fetch [Std.Refl R] (read : σ → Option α) (e : ε) : Within R (fetch read e : Tx σ ε α) := by
  intro _ _ _ hs
  obtain ⟨_, rfl⟩ := fetch_ok.mp hs
  exact refl _

theorem lift [Std.Refl R] (x : Except ε α) : Within R (lift x : Tx σ ε α) := by
  intro _ _ _ hs
  obtain ⟨_, rfl⟩ := lift_ok.mp hs
  exact refl _

theorem ite {p : Prop} [Decidable p] {y : Tx σ ε α} (hx : p → Within R x) (hy : ¬ p → Within R y) :
    Within R (if p then x else y) := by
  by_cases h : p
  · simpa [h] using hx h
  · simpa [h] using hy h

theorem onlyIf [Std.Refl R] {p : Prop} [Decidable p] {x : Tx σ ε Unit} (hx : p → Within R x) :
    Within R (onlyIf p x) :=
  ite hx fun _ => pure ()

theorem forEach [Std.Refl R] [IsTrans σ R] (xs : List β) {f : β → Tx σ ε Unit} (h : ∀ x ∈ xs, Within R (f x)) :
    Within R (forEach xs f) := by
  induction xs with
  | nil => exact pure ()
  | cons x rest ih =>
    exact bind (h x List.mem_cons_self) fun _ => ih fun y hy => h y (List.mem_cons_of_mem x hy)

end Within

/-- The steps that keep `I` once it holds. -/
def Keeping (I : σ → Prop) (s s' : σ) : Prop := I s → I s'

instance (I : σ → Prop) : Std.Refl (Keeping I) := ⟨fun _ h => h⟩

instance (I : σ → Prop) : IsTrans σ (Keeping I) := ⟨fun _ _ _ h₁ h₂ h => h₂ (h₁ h)⟩

/-- The steps that leave a reading of the state alone. -/
def Same (f : σ → β) (s s' : σ) : Prop := f s' = f s

instance (f : σ → β) : Std.Refl (Same f) := ⟨fun _ => rfl⟩

instance (f : σ → β) : IsTrans σ (Same f) := ⟨fun _ _ _ h₁ h₂ => h₂.trans h₁⟩

end Tx
end TinyHermes.Lib
