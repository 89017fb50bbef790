import Mathlib

/-! Layers of entries narrowed one after the other, each entry against the first of the next layer it is nested with. -/
namespace TinyHermes.Lib.Narrowing
variable {ε τ : Type} (contains : ε → ε → Bool) (approves : ε → τ → Prop)

/-- One entry contains the other. -/
def nested (a b : ε) : Bool := contains b a || contains a b

/-- Of two nested entries the one that is contained. -/
def narrower (a b : ε) : ε := if contains b a then a else b

/-- What is left of an entry by the first of a layer that it is nested with. -/
def narrowOne (layer : List ε) (entry : ε) : Option ε :=
  (layer.find? (nested contains entry)).map (narrower contains entry)

def narrow (current layer : List ε) : List ε := current.filterMap (narrowOne contains layer)

def narrowAll (current : List ε) (layers : List (List ε)) : List ε := layers.foldl (narrow contains) current

def Allows (layer : List ε) (target : τ) : Prop := ∃ entry ∈ layer, approves entry target

/-- The first entry of each further layer that is nested with what is left approves the target. -/
def Follows (target : τ) (entry : ε) : List (List ε) → Prop
  | [] => True
  | layer :: rest => ∃ next, layer.find? (nested contains entry) = some next ∧ approves next target ∧
      Follows target (narrower contains entry next) rest

def SoundOn (P : ε → Prop) : Prop := ∀ a b target, P a → P b → contains a b = true → approves b target → approves a target

variable {contains approves} {P : ε → Prop} {current layer : List ε} {layers : List (List ε)} {a b entry : ε} {target : τ}

theorem narrowOne_eq_some : narrowOne contains layer entry = some a ↔
    ∃ next, layer.find? (nested contains entry) = some next ∧ narrower contains entry next = a := by
  rw [narrowOne, Option.map_eq_some_iff]

theorem narrower_of (ha : P a) (hb : P b) : P (narrower contains a b) := by
  rw [narrower]
  split_ifs
  · exact ha
  · exact hb

theorem narrow_of (hcurrent : ∀ e ∈ current, P e) (hlayer : ∀ e ∈ layer, P e) : ∀ e ∈ narrow contains current layer, P e := by
  intro _ he
  obtain ⟨entry, hentry, hone⟩ := List.mem_filterMap.mp he
  obtain ⟨next, hnext, rfl⟩ := narrowOne_eq_some.mp hone
  exact narrower_of (hcurrent entry hentry) (hlayer next (List.mem_of_find?_eq_some hnext))

theorem narrower_approves (hsound : SoundOn contains approves P) (ha : P a) (hb : P b) (h : nested contains a b = true) :
    approves (narrower contains a b) target ↔ approves a target ∧ approves b target := by
  cases hinside : contains b a with
  | true =>
    rw [narrower, if_pos hinside]
    exact ⟨fun happroves => ⟨happroves, hsound b a target hb ha hinside happroves⟩, And.left⟩
  | false =>
    have hcovers : contains a b = true := by
      rw [nested, hinside, Bool.false_or] at h
      exact h
    rw [narrower, hinside, if_neg Bool.false_ne_true]
    exact ⟨fun happroves => ⟨hsound a b target ha hb hcovers happroves, happroves⟩, And.right⟩

theorem narrowed_approves (hsound : SoundOn contains approves P) (ha : P a) (hlayer : ∀ e ∈ layer, P e)
    (h : layer.find? (nested contains a) = some b) :
    approves (narrower contains a b) target ↔ approves a target ∧ approves b target :=
  narrower_approves hsound ha (hlayer b (List.mem_of_find?_eq_some h)) (List.find?_some h)

/-- What is left after all layers approves the targets that some chain of first nested entries does. -/
theorem narrowAll_approves (hsound : SoundOn contains approves P) (hall : ∀ layer ∈ current :: layers, ∀ e ∈ layer, P e) :
    Allows approves (narrowAll contains current layers) target ↔
      ∃ entry ∈ current, approves entry target ∧ Follows contains approves target entry layers := by
  induction layers generalizing current with
  | nil =>
    constructor
    · rintro ⟨entry, hentry, happroves⟩
      exact ⟨entry, hentry, happroves, trivial⟩
    · rintro ⟨entry, hentry, happroves, _⟩
      exact ⟨entry, hentry, happroves⟩
  | cons layer rest ih =>
    rw [List.forall_mem_cons, List.forall_mem_cons] at hall
    obtain ⟨hcurrent, hlayer, hrest⟩ := hall
    have hlater : ∀ layer' ∈ narrow contains current layer :: rest, ∀ e ∈ layer', P e := by
      rw [List.forall_mem_cons]
      exact ⟨narrow_of hcurrent hlayer, hrest⟩
    rw [narrowAll, List.foldl_cons]
    refine (ih hlater).trans ?_
    constructor
    · rintro ⟨_, hleft, happroves, hfollows⟩
      obtain ⟨entry, hentry, hone⟩ := List.mem_filterMap.mp hleft
      obtain ⟨next, hnext, rfl⟩ := narrowOne_eq_some.mp hone
      obtain ⟨hentry', hnext'⟩ := (narrowed_approves hsound (hcurrent entry hentry) hlayer hnext).mp happroves
      exact ⟨entry, hentry, hentry', next, hnext, hnext', hfollows⟩
    · rintro ⟨entry, hentry, happroves, next, hnext, hnext', hfollows⟩
      refine ⟨narrower contains entry next, ?_, ?_, hfollows⟩
      · exact List.mem_filterMap.mpr ⟨entry, hentry, narrowOne_eq_some.mpr ⟨next, hnext, rfl⟩⟩
      · exact (narrowed_approves hsound (hcurrent entry hentry) hlayer hnext).mpr ⟨happroves, hnext'⟩

theorem Follows.allows (h : Follows contains approves target entry layers) : ∀ layer ∈ layers, Allows approves layer target := by
  induction layers generalizing entry with
  | nil =>
    intro layer hlayer
    cases hlayer
  | cons first rest ih =>
    obtain ⟨next, hnext, happroves, hrest⟩ := h
    intro layer hlayer
    obtain rfl | hlayer := List.mem_cons.mp hlayer
    · exact ⟨next, List.mem_of_find?_eq_some hnext, happroves⟩
    · exact ih hrest layer hlayer

theorem narrowAll_sound (hsound : SoundOn contains approves P) (hall : ∀ layer ∈ current :: layers, ∀ e ∈ layer, P e)
    (h : Allows approves (narrowAll contains current layers) target) :
    ∀ layer ∈ current :: layers, Allows approves layer target := by
  obtain ⟨entry, hentry, happroves, hfollows⟩ := (narrowAll_approves hsound hall).mp h
  intro layer hlayer
  obtain rfl | hlayer := List.mem_cons.mp hlayer
  · exact ⟨entry, hentry, happroves⟩
  · exact hfollows.allows layer hlayer

theorem narrowAll_nil : narrowAll contains [] layers = [] := by
  induction layers with
  | nil => rfl
  | cons layer rest ih => exact ih

end TinyHermes.Lib.Narrowing
