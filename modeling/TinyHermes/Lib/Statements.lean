import TinyHermes.Lib.Execution
import TinyHermes.Lib.Table

/-! Transactions as programs of statements: between two of them others run, each sees what is committed by then, and what a
transaction has written it holds locked until it ends. -/
namespace TinyHermes.Lib

/-- A program that asks one statement after another, and at its end answers or is refused. -/
inductive Prog (Stmt : Type) (Ans : Stmt → Type) (ε α : Type) : Type where
  | ret (a : α)
  | refuse (e : ε)
  | ask (s : Stmt) (next : Ans s → Prog Stmt Ans ε α)

namespace Prog
variable {Stmt : Type} {Ans : Stmt → Type} {ε α β ς : Type}

def bind : Prog Stmt Ans ε α → (α → Prog Stmt Ans ε β) → Prog Stmt Ans ε β
  | .ret a, f => f a
  | .refuse e, _ => .refuse e
  | .ask s next, f => .ask s fun answer => (next answer).bind f

instance : Monad (Prog Stmt Ans ε) where
  pure := .ret
  bind := .bind

/-- One statement. -/
def perform (s : Stmt) : Prog Stmt Ans ε (Ans s) := .ask s .ret

@[simp] theorem ret_bind (a : α) (f : α → Prog Stmt Ans ε β) : (Prog.ret a : Prog Stmt Ans ε α) >>= f = f a := rfl

@[simp] theorem pure_bind (a : α) (f : α → Prog Stmt Ans ε β) : (pure a : Prog Stmt Ans ε α) >>= f = f a := rfl

@[simp] theorem refuse_bind (e : ε) (f : α → Prog Stmt Ans ε β) : (Prog.refuse e : Prog Stmt Ans ε α) >>= f = .refuse e := rfl

@[simp] theorem ask_bind (s : Stmt) (next : Ans s → Prog Stmt Ans ε α) (f : α → Prog Stmt Ans ε β) :
    Prog.ask s next >>= f = .ask s fun answer => next answer >>= f := rfl

section Leads
variable (possible : ς → (s : Stmt) → Ans s → ς → Prop)

/-- Whatever the statements answer that is possible: where the program comes to its end, `post` holds. -/
def Leads (post : α → ς → Prop) : ς → Prog Stmt Ans ε α → Prop
  | σ, .ret a => post a σ
  | _, .refuse _ => True
  | σ, .ask s next => ∀ answer σ', possible σ s answer σ' → Leads post σ' (next answer)

variable {possible} {post : α → ς → Prop} {post' : β → ς → Prop} {σ : ς}

theorem Leads.mono {p : Prog Stmt Ans ε α} {weaker : α → ς → Prop} (h : p.Leads possible post σ)
    (hpost : ∀ a σ', post a σ' → weaker a σ') : p.Leads possible weaker σ := by
  induction p generalizing σ with
  | ret a => exact hpost a σ h
  | refuse => exact trivial
  | ask s next ih =>
    intro answer σ' hpossible
    exact ih answer (h answer σ' hpossible)

theorem Leads.bind {p : Prog Stmt Ans ε α} {f : α → Prog Stmt Ans ε β} (h : p.Leads possible post σ)
    (hf : ∀ a σ', post a σ' → (f a).Leads possible post' σ') : (p >>= f).Leads possible post' σ := by
  induction p generalizing σ with
  | ret a => exact hf a σ h
  | refuse => exact trivial
  | ask s next ih =>
    intro answer σ' hpossible
    exact ih answer (h answer σ' hpossible)

end Leads
end Prog

/-- What the statements of a database do: beside the sessions of the others a statement answers, or waits; a commit applies what
its session wrote. -/
structure Engine (Stmt : Type) (Ans : Stmt → Type) (δ ς κ : Type) where
  empty : ς
  statement : List ς → δ → ς → (s : Stmt) → Option (Ans s × ς)
  commit : δ → ς → δ
  locks : ς → List κ
  locks_empty : locks empty = []
  /-- a lock that a statement takes is nobody else's -/
  locks_new : ∀ {others db σ s answer σ'}, statement others db σ s = some (answer, σ') →
    ∀ k ∈ locks σ', k ∈ locks σ ∨ ∀ other ∈ others, k ∉ locks other

namespace Engine
variable {Stmt : Type} {Ans : Stmt → Type} {δ ς κ ε α χ : Type} (engine : Engine Stmt Ans δ ς κ) (program : χ → Prog Stmt Ans ε α)

/-- A transaction under way: its session and what it still has to do. -/
structure Open (Stmt : Type) (Ans : Stmt → Type) (ς ε α : Type) where
  session : ς
  rest : Prog Stmt Ans ε α

/-- What is committed, and the transactions under way. -/
structure World (Stmt : Type) (Ans : Stmt → Type) (δ ς ε α : Type) where
  db : δ
  running : Table Nat (Open Stmt Ans ς ε α)

inductive Act (χ : Type) where
  | start (t : Nat) (command : χ)
  | advance (t : Nat)
  | finish (t : Nat)
  /-- the transaction ends without a trace: it is refused, or its connection is lost -/
  | abandon (t : Nat)

def others (running : Table Nat (Open Stmt Ans ς ε α)) (t : Nat) : List ς :=
  (running.select fun t' _ => t' ≠ t).map fun found => found.2.session

def step (w : World Stmt Ans δ ς ε α) : Act χ → Option (World Stmt Ans δ ς ε α)
  | .start t command =>
    match w.running.lookup t with
    | some _ => none
    | none => some { w with running := w.running.insert t { session := engine.empty, rest := program command } }
  | .advance t =>
    match w.running.lookup t with
    | some { session, rest := .ask s next } =>
      match engine.statement (others w.running t) w.db session s with
      | some (answer, session') => some { w with running := w.running.insert t { session := session', rest := next answer } }
      | none => none
    | _ => none
  | .finish t =>
    match w.running.lookup t with
    | some { session, rest := .ret _ } => some { db := engine.commit w.db session, running := w.running.erase t }
    | _ => none
  | .abandon t =>
    match w.running.lookup t with
    | some _ => some { w with running := w.running.erase t }
    | none => none

/-- A step of the world as a relation; there is nothing to answer. -/
def Steps (w : World Stmt Ans δ ς ε α) (act : Act χ) (_ : Unit) (w' : World Stmt Ans δ ς ε α) : Prop :=
  engine.step program w act = some w'

def committed (c : Commit (World Stmt Ans δ ς ε α) (Act χ) Unit) : Option ς :=
  match c.input with
  | .finish t => (c.before.running.lookup t).map Open.session
  | _ => none

section Rules
variable {engine program} {w w' : World Stmt Ans δ ς ε α}

/-- No two open transactions hold the same lock. -/
def Apart (engine : Engine Stmt Ans δ ς κ) (running : Table Nat (Open Stmt Ans ς ε α)) : Prop :=
  Table.Exclusive (fun o k => k ∈ engine.locks o.session) running

/-- What one step does to what is committed and to who is running. -/
theorem step_cases {act : Act χ} (h : engine.step program w act = some w') :
    (∃ t command, act = .start t command ∧ w.running.lookup t = none ∧
      w' = { w with running := w.running.insert t { session := engine.empty, rest := program command } }) ∨
    (∃ t session s next answer session', act = .advance t ∧ w.running.lookup t = some { session, rest := .ask s next } ∧
      engine.statement (others w.running t) w.db session s = some (answer, session') ∧
      w' = { w with running := w.running.insert t { session := session', rest := next answer } }) ∨
    (∃ t session a, act = .finish t ∧ w.running.lookup t = some { session, rest := .ret a } ∧
      w' = { db := engine.commit w.db session, running := w.running.erase t }) ∨
    ∃ t, act = .abandon t ∧ w' = { w with running := w.running.erase t } := by
  cases act with
  | start t command =>
    rw [step] at h
    cases hlookup : w.running.lookup t with
    | some o =>
      rw [hlookup] at h
      cases h
    | none =>
      rw [hlookup] at h
      exact .inl ⟨t, command, rfl, hlookup, (Option.some.inj h).symm⟩
  | advance t =>
    rw [step] at h
    cases hlookup : w.running.lookup t with
    | none =>
      rw [hlookup] at h
      cases h
    | some o =>
      obtain ⟨session, rest⟩ := o
      rw [hlookup] at h
      cases rest with
      | ret => cases h
      | refuse => cases h
      | ask s next =>
        dsimp only at h
        cases hstatement : engine.statement (others w.running t) w.db session s with
        | none =>
          rw [hstatement] at h
          cases h
        | some found =>
          obtain ⟨answer, session'⟩ := found
          rw [hstatement] at h
          exact .inr (.inl ⟨t, session, s, next, answer, session', rfl, hlookup, hstatement, (Option.some.inj h).symm⟩)
  | finish t =>
    rw [step] at h
    cases hlookup : w.running.lookup t with
    | none =>
      rw [hlookup] at h
      cases h
    | some o =>
      obtain ⟨session, rest⟩ := o
      rw [hlookup] at h
      cases rest with
      | ret a => exact .inr (.inr (.inl ⟨t, session, a, rfl, hlookup, (Option.some.inj h).symm⟩))
      | refuse => cases h
      | ask => cases h
  | abandon t =>
    rw [step] at h
    cases hlookup : w.running.lookup t with
    | none =>
      rw [hlookup] at h
      cases h
    | some =>
      rw [hlookup] at h
      exact .inr (.inr (.inr ⟨t, rfl, (Option.some.inj h).symm⟩))

theorem mem_others {running : Table Nat (Open Stmt Ans ς ε α)} {t t' : Nat} {o : Open Stmt Ans ς ε α} (hne : t' ≠ t)
    (h : running.lookup t' = some o) : o.session ∈ others running t :=
  List.mem_map.mpr ⟨(t', o), Table.mem_select.mpr ⟨h, decide_eq_true hne⟩, rfl⟩

theorem Apart.insert {running : Table Nat (Open Stmt Ans ς ε α)} {t : Nat} {o : Open Stmt Ans ς ε α} (h : Apart engine running)
    (hnew : ∀ k ∈ engine.locks o.session, ∀ t' o', t' ≠ t → running.lookup t' = some o' → k ∉ engine.locks o'.session) :
    Apart engine (running.insert t o) := by
  intro i j a b k ha hb hka hkb
  rw [Table.lookup_insert_ite] at ha hb
  split_ifs at ha hb with hi hj hj
  · rw [hi, hj]
  · cases ha
    exact absurd hkb (hnew k hka j b hj hb)
  · cases hb
    exact absurd hka (hnew k hkb i a hi ha)
  · exact h i j a b k ha hb hka hkb

end Rules

section Reasoning
variable {engine program}

/-- What is to be shown, transaction by transaction: `Inv` of what is committed, `Sound` of an open transaction, both while each
commit meets `Allowed`. -/
structure Proof (engine : Engine Stmt Ans δ ς κ) (program : χ → Prog Stmt Ans ε α) (Allowed : δ → ς → Prop) where
  Inv : δ → Prop
  Sound : δ → ς → Prog Stmt Ans ε α → Prop
  start : ∀ {db command}, Inv db → Sound db engine.empty (program command)
  advance : ∀ {others db σ s next answer σ'}, Inv db → Sound db σ (.ask s next) →
    engine.statement others db σ s = some (answer, σ') → Sound db σ' (next answer)
  finish : ∀ {db σ a}, Inv db → Sound db σ (.ret a) → Allowed db σ → Inv (engine.commit db σ)
  /-- another transaction's commit -/
  stable : ∀ {db σ a σ' rest}, Inv db → Sound db σ (.ret a) → Allowed db σ → Sound db σ' rest →
    (∀ k ∈ engine.locks σ, k ∉ engine.locks σ') → Sound (engine.commit db σ) σ' rest

/-- What holds of a world in the middle of a run. -/
structure Proof.Holds {Allowed : δ → ς → Prop} (proof : Proof engine program Allowed) (w : World Stmt Ans δ ς ε α) : Prop where
  inv : proof.Inv w.db
  sound : ∀ t o, w.running.lookup t = some o → proof.Sound w.db o.session o.rest
  apart : Apart engine w.running

variable {Allowed : δ → ς → Prop} {proof : Proof engine program Allowed} {w w' : World Stmt Ans δ ς ε α}

theorem Proof.Holds.step (h : proof.Holds w) {act : Act χ} (hstep : engine.step program w act = some w')
    (hallowed : ∀ σ, committed ⟨w, act, (), w'⟩ = some σ → Allowed w.db σ) : proof.Holds w' := by
  rcases step_cases hstep with ⟨t, _, rfl, _, rfl⟩ | ⟨t, session, _, _, _, _, rfl, hlookup, hstatement, rfl⟩ |
    ⟨t, session, a, rfl, hlookup, rfl⟩ | ⟨t, rfl, rfl⟩
  · refine ⟨h.inv, ?_, h.apart.insert ?_⟩
    · intro t' o ho
      rw [Table.lookup_insert_ite] at ho
      split_ifs at ho with ht
      · cases ho
        exact proof.start h.inv
      · exact h.sound t' o ho
    · intro k hk
      rw [engine.locks_empty] at hk
      cases hk
  · refine ⟨h.inv, ?_, h.apart.insert ?_⟩
    · intro t' o ho
      rw [Table.lookup_insert_ite] at ho
      split_ifs at ho with ht
      · cases ho
        exact proof.advance h.inv (h.sound t _ hlookup) hstatement
      · exact h.sound t' o ho
    · intro k hk t' o' hne ho' hk'
      rcases engine.locks_new hstatement k hk with hold | hfree
      · exact hne (h.apart t' t o' _ k ho' hlookup hk' hold)
      · exact hfree o'.session (mem_others hne ho') hk'
  · have hcommit : Allowed w.db session := by
      apply hallowed
      rw [committed]
      dsimp only
      rw [hlookup]
      rfl
    refine ⟨proof.finish h.inv (h.sound t _ hlookup) hcommit, ?_, h.apart.erase⟩
    intro t' o ho
    obtain ⟨hne, ho⟩ := Table.lookup_erase_some ho
    apply proof.stable h.inv (h.sound t _ hlookup) hcommit (h.sound t' o ho)
    intro k hk hk'
    exact hne (h.apart t' t o _ k ho hlookup hk' hk)
  · refine ⟨h.inv, ?_, h.apart.erase⟩
    intro t' o ho
    exact h.sound t' o (Table.lookup_erase_some ho).2

theorem Proof.Holds.commits (h : proof.Holds w) {act : Act χ} (hstep : engine.step program w act = some w') :
    (committed ⟨w, act, (), w'⟩ = none ∧ w'.db = w.db) ∨ ∃ σ a, committed ⟨w, act, (), w'⟩ = some σ ∧ proof.Sound w.db σ (.ret a) ∧
      w'.db = engine.commit w.db σ := by
  rcases step_cases hstep with ⟨t, _, rfl, _, rfl⟩ | ⟨t, session, _, _, _, _, rfl, _, _, rfl⟩ |
    ⟨t, session, a, rfl, hlookup, rfl⟩ | ⟨t, rfl, rfl⟩
  · exact .inl ⟨rfl, rfl⟩
  · exact .inl ⟨rfl, rfl⟩
  · refine .inr ⟨session, a, ?_, h.sound t _ hlookup, rfl⟩
    rw [committed]
    dsimp only
    rw [hlookup]
    rfl
  · exact .inl ⟨rfl, rfl⟩

/-- In a run whose commits are all allowed, the invariant holds at the end. -/
theorem Proof.run (proof : Proof engine program Allowed) {db : δ} {log : List (Commit (World Stmt Ans δ ς ε α) (Act χ) Unit)}
    (hrun : Execution (engine.Steps program) { db, running := ∅ } log w) (hdb : proof.Inv db)
    (hallowed : ∀ c ∈ log, ∀ σ, committed c = some σ → Allowed c.before.db σ) : proof.Holds w := by
  induction hrun with
  | nil =>
    refine ⟨hdb, ?_, ?_⟩
    · intro _ _ ho
      cases ho
    · intro _ _ _ _ _ ha
      cases ha
  | snoc hrun hstep ih =>
    apply (ih fun c hc => hallowed c (List.mem_append_left _ hc)).step hstep
    intro σ hσ
    exact hallowed _ (List.mem_append_right _ (List.mem_singleton_self _)) σ hσ

end Reasoning
end Engine
end TinyHermes.Lib
