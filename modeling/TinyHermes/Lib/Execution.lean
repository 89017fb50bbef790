import Mathlib

/-! Executions of a system that takes one committed step after another, with the record of what
each step was and what it answered. -/
namespace TinyHermes.Lib
variable {σ ι ω : Type}

/-- One committed step: what was asked, what was answered, and the states around it. -/
structure Commit (σ ι ω : Type) where
  before : σ
  input : ι
  answer : ω
  after : σ

/-- A run of `step` from `start`, its commits oldest first. -/
inductive Execution (step : σ → ι → ω → σ → Prop) (start : σ) : List (Commit σ ι ω) → σ → Prop where
  | nil : Execution step start [] start
  | snoc {log s s'} {i : ι} {a : ω} : Execution step start log s → step s i a s' →
      Execution step start (log ++ [⟨s, i, a, s'⟩]) s'

def Reachable (step : σ → ι → ω → σ → Prop) (start s : σ) : Prop := ∃ log, Execution step start log s

namespace Execution
variable {step : σ → ι → ω → σ → Prop} {start s : σ} {log : List (Commit σ ι ω)}

theorem invariant {I : σ → Prop} (hstart : I start) (hstep : ∀ s i a s', step s i a s' → I s → I s')
    (h : Execution step start log s) : I s := by
  induction h with
  | nil => exact hstart
  | snoc _ hs ih => exact hstep _ _ _ _ hs ih

theorem split {l r : List (Commit σ ι ω)} {c : Commit σ ι ω} (h : Execution step start (l ++ c :: r) s) :
    Execution step start l c.before ∧ step c.before c.input c.answer c.after ∧ Execution step c.after r s := by
  induction r using List.reverseRecOn generalizing s with
  | nil =>
    generalize hlog : l ++ [c] = log at h
    cases h with
    | nil => simp at hlog
    | snoc h hs =>
      obtain ⟨rfl, hc⟩ := List.append_inj' hlog rfl
      obtain rfl := (List.cons.inj hc).1
      exact ⟨h, hs, .nil⟩
  | append_singleton r d ih =>
    generalize hlog : l ++ c :: (r ++ [d]) = log at h
    cases h with
    | nil => simp at hlog
    | snoc h hs =>
      rw [← List.cons_append, ← List.append_assoc] at hlog
      obtain ⟨rfl, hd⟩ := List.append_inj' hlog rfl
      obtain rfl := (List.cons.inj hd).1
      obtain ⟨h₁, h₂, h₃⟩ := ih h
      exact ⟨h₁, h₂, .snoc h₃ hs⟩

theorem map {σ' ι' ω' : Type} {step' : σ' → ι' → ω' → σ' → Prop} (f : σ → σ') (g : Commit σ ι ω → ι')
    (o : Commit σ ι ω → ω')
    (hsim : ∀ s i a s', step s i a s' → step' (f s) (g ⟨s, i, a, s'⟩) (o ⟨s, i, a, s'⟩) (f s'))
    (h : Execution step start log s) :
    Execution step' (f start) (log.map fun c => ⟨f c.before, g c, o c, f c.after⟩) (f s) := by
  induction h with
  | nil => exact .nil
  | snoc _ hs ih =>
    rw [List.map_append]
    exact .snoc ih (hsim _ _ _ _ hs)

theorem strengthen {P : σ → ι → ω → σ → Prop} (h : Execution step start log s)
    (hP : ∀ c ∈ log, P c.before c.input c.answer c.after) :
    Execution (fun s i a s' => P s i a s' ∧ step s i a s') start log s := by
  induction h with
  | nil => exact .nil
  | snoc _ hs ih =>
    refine .snoc (ih fun c hc => hP c (List.mem_append_left _ hc)) ⟨?_, hs⟩
    exact hP _ (List.mem_append_right _ (List.mem_singleton_self _))

end Execution

section Replay
variable (perform : σ → ι → Option (ω × σ))

def replay (start : σ) (inputs : List ι) : List (Commit σ ι ω) × σ :=
  inputs.foldl (fun (log, s) i =>
    match perform s i with
    | some (a, s') => (log ++ [⟨s, i, a, s'⟩], s')
    | none => (log, s)) ([], start)

theorem replay_execution {step : σ → ι → ω → σ → Prop} (h : ∀ s i a s', perform s i = some (a, s') → step s i a s')
    (start : σ) (inputs : List ι) :
    Execution step start (replay perform start inputs).1 (replay perform start inputs).2 := by
  induction inputs using List.reverseRecOn with
  | nil => exact .nil
  | append_singleton inputs i ih =>
    rw [replay, List.foldl_append]
    simp only [List.foldl_cons, List.foldl_nil]
    split
    · next hp => exact .snoc ih (h _ _ _ _ hp)
    · exact ih

theorem replay_inputs (start : σ) (inputs : List ι) : ∀ c ∈ (replay perform start inputs).1, c.input ∈ inputs := by
  induction inputs using List.reverseRecOn with
  | nil => exact fun c hc => (nomatch hc)
  | append_singleton inputs i ih =>
    intro c hc
    rw [replay, List.foldl_append] at hc
    simp only [List.foldl_cons, List.foldl_nil] at hc
    split at hc
    · rcases List.mem_append.mp hc with hc | hc
      · exact List.mem_append_left _ (ih c hc)
      · rw [List.mem_singleton.mp hc]
        exact List.mem_append_right _ (List.mem_singleton_self i)
    · exact List.mem_append_left _ (ih c hc)

end Replay

theorem Reachable.invariant {step : σ → ι → ω → σ → Prop} {start s : σ} {I : σ → Prop} (h : Reachable step start s)
    (hstart : I start) (hstep : ∀ s i a s', step s i a s' → I s → I s') : I s := by
  obtain ⟨_, h⟩ := h
  exact h.invariant hstart hstep

end TinyHermes.Lib
