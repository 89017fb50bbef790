import TinyHermes.Lib.Transaction

/-! Transactions that may also be refused: a refusal is committed with what was written on the way to it; an error still rolls
everything back. -/
namespace TinyHermes.Lib
variable {σ ε ρ α β : Type}

abbrev Call (σ ε ρ α : Type) := ExceptT ρ (Tx σ ε) α

/-- What the caller of a transaction hears. -/
inductive Reply (ε ρ α : Type) where
  | answered (a : α)
  | refused (r : ρ)
  | raised (e : ε)
  deriving DecidableEq, Repr

namespace Call

def refuse (r : ρ) : Call σ ε ρ α := fun s => .ok (.error r, s)

def demand (p : Prop) [Decidable p] (r : ρ) : Call σ ε ρ Unit :=
  fun s => if p then .ok (.ok (), s) else .ok (.error r, s)

/-- Read a row whose absence is refused. -/
def find (read : σ → Option α) (r : ρ) : Call σ ε ρ α :=
  fun s => match read s with
    | some a => .ok (.ok a, s)
    | none => .ok (.error r, s)

def read : Call σ ε ρ σ := fun s => .ok (.ok s, s)

/-- A transaction inside a call. -/
def tx (x : Tx σ ε α) : Call σ ε ρ α :=
  fun s => match x s with
    | .ok (a, s') => .ok (.ok a, s')
    | .error e => .error e

/-- Commit what was answered or refused, roll back what raised. -/
def dispatch (x : Call σ ε ρ α) (s : σ) : Reply ε ρ α × σ :=
  match x s with
  | .ok (.ok a, s') => (.answered a, s')
  | .ok (.error r, s') => (.refused r, s')
  | .error e => (.raised e, s)

section Run
variable {s s' : σ} {r : ρ} {e : ε} {a : α} {result : Except ρ β} {f : α → Call σ ε ρ β}

theorem bind_run (x : Call σ ε ρ α) : (x >>= f) s = match x s with
    | .ok (.ok a, s') => f a s'
    | .ok (.error r, s') => .ok (.error r, s')
    | .error e => .error e := by
  change Except.bind (x s) _ = _
  cases x s with
  | error => rfl
  | ok p =>
    obtain ⟨p, _⟩ := p
    cases p <;> rfl

theorem read_bind {f : σ → Call σ ε ρ β} : (read >>= f) s = f s s := rfl

theorem demand_bind {p : Prop} [Decidable p] {f : Unit → Call σ ε ρ β} :
    (demand p r >>= f) s = if p then f () s else .ok (.error r, s) := by
  by_cases h : p
  · rw [bind_run, demand, if_pos h, if_pos h]
  · rw [bind_run, demand, if_neg h, if_neg h]

theorem find_bind {read : σ → Option α} : (find read r >>= f) s = match read s with
    | some a => f a s
    | none => .ok (.error r, s) := by
  rw [bind_run]
  unfold find
  cases read s <;> rfl

theorem tx_bind {x : Tx σ ε α} : (tx x >>= f) s = match x s with
    | .ok (a, s') => f a s'
    | .error e => .error e := by
  rw [bind_run]
  unfold tx
  rcases x s with _ | ⟨_, _⟩ <;> rfl

theorem tx_run {x : Tx σ ε α} {result : Except ρ α} (h : (tx x : Call σ ε ρ α) s = .ok (result, s')) :
    ∃ a, x s = .ok (a, s') ∧ result = .ok a := by
  unfold tx at h
  rcases hx : x s with _ | ⟨a, _⟩
  · rw [hx] at h
    cases h
  · rw [hx] at h
    cases h
    exact ⟨a, rfl, rfl⟩

theorem bind_cases {x : Call σ ε ρ α} (h : (x >>= f) s = .ok (result, s')) :
    (∃ r, x s = .ok (.error r, s') ∧ result = .error r) ∨
      ∃ a s₁, x s = .ok (.ok a, s₁) ∧ f a s₁ = .ok (result, s') := by
  rw [bind_run] at h
  rcases hx : x s with _ | ⟨r | a, s₁⟩
  · rw [hx] at h
    cases h
  · rw [hx] at h
    cases h
    exact .inl ⟨r, rfl, rfl⟩
  · rw [hx] at h
    exact .inr ⟨a, s₁, rfl, h⟩

theorem bind_ok {x : Call σ ε ρ α} {b : β} :
    (x >>= f) s = .ok (.ok b, s') ↔ ∃ a s₁, x s = .ok (.ok a, s₁) ∧ f a s₁ = .ok (.ok b, s') := by
  constructor
  · intro h
    rcases bind_cases h with ⟨_, _, hr⟩ | h
    · cases hr
    · exact h
  · rintro ⟨_, _, hx, hf⟩
    rw [bind_run, hx]
    exact hf

theorem demand_ok {p : Prop} [Decidable p] {u : Unit} : (demand p r : Call σ ε ρ Unit) s = .ok (.ok u, s') ↔ p ∧ s' = s := by
  unfold demand
  split <;> simp_all [eq_comm]

theorem demand_bind_ok {p : Prop} [Decidable p] {f : Unit → Call σ ε ρ β} {b : β} :
    (demand p r >>= f) s = .ok (.ok b, s') ↔ p ∧ f () s = .ok (.ok b, s') := by
  rw [demand_bind]
  by_cases h : p
  · simp [h]
  · simp [h]

theorem find_bind_ok {read : σ → Option α} {b : β} :
    (find read r >>= f) s = .ok (.ok b, s') ↔ ∃ a, read s = some a ∧ f a s = .ok (.ok b, s') := by
  rw [find_bind]
  cases read s <;> simp

theorem tx_bind_run {x : Tx σ ε α} (h : (tx x >>= f) s = .ok (result, s')) :
    ∃ a s₁, x s = .ok (a, s₁) ∧ f a s₁ = .ok (result, s') := by
  rw [tx_bind] at h
  rcases hx : x s with _ | ⟨a, s₁⟩
  · rw [hx] at h
    cases h
  · rw [hx] at h
    exact ⟨a, s₁, rfl, h⟩

theorem dispatch_answered {x : Call σ ε ρ α} (h : (dispatch x s).1 = .answered a) :
    x s = .ok (.ok a, (dispatch x s).2) := by
  unfold dispatch at h ⊢
  rcases hx : x s with _ | ⟨_ | _, _⟩
  · rw [hx] at h
    cases h
  · rw [hx] at h
    cases h
  · rw [hx] at h
    cases h
    rfl

theorem dispatch_cases (x : Call σ ε ρ α) (s : σ) :
    (∃ result, x s = .ok (result, (dispatch x s).2)) ∨ (dispatch x s).2 = s := by
  unfold dispatch
  rcases x s with _ | ⟨_ | _, _⟩
  · exact .inr rfl
  · exact .inl ⟨_, rfl⟩
  · exact .inl ⟨_, rfl⟩

end Run

/-- Whatever the call decides, what it commits stays inside the relation `R`. -/
def Within (R : σ → σ → Prop) (x : Call σ ε ρ α) : Prop :=
  ∀ ⦃s result s'⦄, x s = .ok (result, s') → R s s'

namespace Within
variable {R : σ → σ → Prop}

theorem bind [IsTrans σ R] {x : Call σ ε ρ α} {f : α → Call σ ε ρ β} (hx : Within R x) (hf : ∀ a, Within R (f a)) :
    Within R (x >>= f) := by
  intro _ _ _ h
  rcases bind_cases h with ⟨_, h, _⟩ | ⟨a, _, h₁, h₂⟩
  · exact hx h
  · exact Trans.trans (hx h₁) (hf a h₂)

theorem pure [Std.Refl R] (a : α) : Within R (pure a : Call σ ε ρ α) := by
  intro s _ _ h
  cases h
  exact refl s

theorem refuse [Std.Refl R] (r : ρ) : Within R (refuse r : Call σ ε ρ α) := by
  intro s _ _ h
  cases h
  exact refl s

theorem read [Std.Refl R] : Within R (read : Call σ ε ρ σ) := by
  intro s _ _ h
  cases h
  exact refl s

theorem demand [Std.Refl R] (p : Prop) [Decidable p] (r : ρ) : Within R (demand p r : Call σ ε ρ Unit) := by
  intro s _ _ h
  unfold Call.demand at h
  split at h
  · cases h
    exact refl s
  · cases h
    exact refl s

theorem find [Std.Refl R] (read : σ → Option α) (r : ρ) : Within R (find read r : Call σ ε ρ α) := by
  intro s _ _ h
  unfold Call.find at h
  cases hr : read s with
  | none =>
    rw [hr] at h
    cases h
    exact refl s
  | some =>
    rw [hr] at h
    cases h
    exact refl s

theorem tx {x : Tx σ ε α} (hx : Tx.Within R x) : Within R (tx x : Call σ ε ρ α) := by
  intro _ _ _ h
  obtain ⟨_, h, _⟩ := tx_run h
  exact hx h

end Within

end Call
end TinyHermes.Lib
