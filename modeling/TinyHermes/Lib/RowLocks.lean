import Mathlib

/-! Rows under row locks: what is committed of a row, and the version of the one transaction that has written or locked it. -/
namespace TinyHermes.Lib
variable {τ α κ : Type} [DecidableEq τ] [DecidableEq κ]

/-- A row. Only the transaction that holds it has another version of it. -/
structure Cell (τ α : Type) where
  committed : α
  held : Option (τ × α)

namespace Cell

/-- What a transaction reads: its own version, or what is committed. -/
def view (t : τ) (c : Cell τ α) : α :=
  match c.held with
  | some (holder, version) => if holder = t then version else c.committed
  | none => c.committed

/-- No other transaction holds the row. -/
def freeFor (t : τ) (c : Cell τ α) : Bool := c.held.all fun held => held.1 = t

def write (t : τ) (f : α → α) (c : Cell τ α) : Cell τ α := { c with held := some (t, f (c.view t)) }

/-- Several writes, one after another. -/
def writes (t : τ) (fs : List (α → α)) (c : Cell τ α) : Cell τ α := fs.foldl (fun c f => c.write t f) c

def commit (t : τ) (c : Cell τ α) : Cell τ α :=
  match c.held with
  | some (holder, version) => if holder = t then ⟨version, none⟩ else c
  | none => c

def rollback (t : τ) (c : Cell τ α) : Cell τ α :=
  match c.held with
  | some (holder, _) => if holder = t then ⟨c.committed, none⟩ else c
  | none => c

/-- The versions of a row that there are. -/
def versions (c : Cell τ α) : List α := c.committed :: (c.held.map Prod.snd).toList

variable {t : τ} {c : Cell τ α}

theorem view_of_held {version : α} (h : c.held = some (t, version)) : c.view t = version := by
  simp only [view, h, if_true]

omit [DecidableEq τ] in
theorem mem_versions {version : α} {c : Cell τ α} :
    version ∈ c.versions ↔ version = c.committed ∨ ∃ t, c.held = some (t, version) := by
  simp [versions]

@[simp] theorem write_committed (t : τ) (f : α → α) (c : Cell τ α) : (c.write t f).committed = c.committed := rfl

@[simp] theorem write_held (t : τ) (f : α → α) (c : Cell τ α) : (c.write t f).held = some (t, f (c.view t)) := rfl

@[simp] theorem view_write (t : τ) (f : α → α) (c : Cell τ α) : (c.write t f).view t = f (c.view t) :=
  view_of_held rfl

theorem writes_cons (t : τ) (f : α → α) (fs : List (α → α)) (c : Cell τ α) :
    c.writes t (f :: fs) = ⟨c.committed, some (t, fs.foldl (fun version f => f version) (f (c.view t)))⟩ := by
  induction fs generalizing c f with
  | nil => rfl
  | cons g fs ih => exact (ih g (c.write t f)).trans (by rw [view_write, write_committed]; rfl)

theorem commit_of_held {version : α} (h : c.held = some (t, version)) : c.commit t = ⟨version, none⟩ := by
  simp only [commit, h, if_true]

theorem rollback_of_held {version : α} (h : c.held = some (t, version)) : c.rollback t = ⟨c.committed, none⟩ := by
  simp only [rollback, h, if_true]

theorem commit_cases (t : τ) (c : Cell τ α) :
    (∃ version, c.held = some (t, version) ∧ c.commit t = ⟨version, none⟩) ∨
      ((∀ version, c.held ≠ some (t, version)) ∧ c.commit t = c) := by
  cases hheld : c.held with
  | none => exact .inr ⟨fun _ h => (Option.some_ne_none _ h.symm).elim, by simp only [commit, hheld]⟩
  | some held =>
    obtain ⟨holder, version⟩ := held
    by_cases h : holder = t
    · subst h
      exact .inl ⟨version, rfl, commit_of_held hheld⟩
    · refine .inr ⟨fun version' h' => h (congrArg Prod.fst (Option.some.inj h')), ?_⟩
      simp only [commit, hheld, if_neg h]

theorem commit_committed (t : τ) (c : Cell τ α) : (c.commit t).committed = c.view t := by
  unfold commit view
  cases c.held with
  | none => rfl
  | some =>
    dsimp only
    split <;> rfl

theorem commit_held (t : τ) (c : Cell τ α) (version : α) : (c.commit t).held ≠ some (t, version) := by
  rcases commit_cases t c with ⟨_, _, h⟩ | ⟨hnone, h⟩
  · rw [h]
    exact (Option.some_ne_none _).symm
  · rw [h]
    exact hnone version

theorem rollback_committed (t : τ) (c : Cell τ α) : (c.rollback t).committed = c.committed := by
  unfold rollback
  cases c.held with
  | none => rfl
  | some =>
    dsimp only
    split <;> rfl

theorem rollback_cases (t : τ) (c : Cell τ α) :
    (∃ version, c.held = some (t, version) ∧ c.rollback t = ⟨c.committed, none⟩) ∨
      ((∀ version, c.held ≠ some (t, version)) ∧ c.rollback t = c) := by
  cases hheld : c.held with
  | none => exact .inr ⟨fun _ h => (Option.some_ne_none _ h.symm).elim, by simp only [rollback, hheld]⟩
  | some held =>
    obtain ⟨holder, version⟩ := held
    by_cases h : holder = t
    · subst h
      exact .inl ⟨version, rfl, rollback_of_held hheld⟩
    · refine .inr ⟨fun version' h' => h (congrArg Prod.fst (Option.some.inj h')), ?_⟩
      simp only [rollback, hheld, if_neg h]

theorem rollback_held (t : τ) (c : Cell τ α) (version : α) : (c.rollback t).held ≠ some (t, version) := by
  rcases rollback_cases t c with ⟨_, _, h⟩ | ⟨hnone, h⟩
  · rw [h]
    exact (Option.some_ne_none _).symm
  · rw [h]
    exact hnone version

theorem commit_held_other {s : τ} (h : s ≠ t) (version : α) : (c.commit t).held = some (s, version) ↔ c.held = some (s, version) := by
  rcases commit_cases t c with ⟨_, hheld, hcommit⟩ | ⟨-, hcommit⟩
  · rw [hcommit, hheld]
    exact ⟨fun hnone => absurd hnone.symm (Option.some_ne_none _), fun hs => absurd (congrArg Prod.fst (Option.some.inj hs)).symm h⟩
  · rw [hcommit]

theorem rollback_held_other {s : τ} (h : s ≠ t) (version : α) :
    (c.rollback t).held = some (s, version) ↔ c.held = some (s, version) := by
  rcases rollback_cases t c with ⟨_, hheld, hrollback⟩ | ⟨-, hrollback⟩
  · rw [hrollback, hheld]
    exact ⟨fun hnone => absurd hnone.symm (Option.some_ne_none _), fun hs => absurd (congrArg Prod.fst (Option.some.inj hs)).symm h⟩
  · rw [hrollback]

theorem held_of_freeFor (h : c.freeFor t) : c.held = none ∨ ∃ version, c.held = some (t, version) := by
  cases hheld : c.held with
  | none => exact .inl rfl
  | some held =>
    obtain ⟨holder, version⟩ := held
    have : holder = t := by simpa [freeFor, hheld] using h
    exact .inr ⟨version, by rw [this]⟩

end Cell

section Rows
variable (key : α → κ)

/-- `update … where id = k`. -/
def writeRow (t : τ) (k : κ) (f : α → α) (rows : List (Cell τ α)) : List (Cell τ α) :=
  rows.map fun c => if key c.committed = k then c.write t f else c

def writeRows (t : τ) (edits : List (κ × (α → α))) (rows : List (Cell τ α)) : List (Cell τ α) :=
  edits.foldl (fun rows edit => writeRow key t edit.1 edit.2 rows) rows

/-- Nobody else holds a row of the key. -/
def canWrite (t : τ) (k : κ) (rows : List (Cell τ α)) : Bool := rows.all fun c => key c.committed ≠ k || c.freeFor t

/-- The edits of one row. -/
def editsOf {ε : Type} (k : κ) (edits : List (κ × ε)) : List ε :=
  edits.filterMap fun edit => if edit.1 = k then some edit.2 else none

theorem writeRows_eq (t : τ) (edits : List (κ × (α → α))) (rows : List (Cell τ α)) :
    writeRows key t edits rows = rows.map fun c => c.writes t (editsOf (key c.committed) edits) := by
  induction edits generalizing rows with
  | nil => exact (List.map_id' rows).symm
  | cons edit edits ih =>
    rw [writeRows, List.foldl_cons, ← writeRows, ih, writeRow, List.map_map]
    apply List.map_congr_left
    intro c _
    rw [Function.comp_apply]
    by_cases h : key c.committed = edit.1
    · rw [if_pos h, Cell.write_committed, editsOf, editsOf, List.filterMap_cons_some (by rw [if_pos h.symm])]
      rfl
    · rw [if_neg h, editsOf, editsOf, List.filterMap_cons_none (by rw [if_neg (Ne.symm h)])]

variable {key} {t : τ} {rows : List (Cell τ α)}

theorem canWrite_iff {k : κ} : canWrite key t k rows ↔ ∀ c ∈ rows, key c.committed = k → c.freeFor t := by
  simp only [canWrite, List.all_eq_true, Bool.or_eq_true, decide_eq_true_eq, or_iff_not_imp_left, not_not]

section EditsOf
variable {ε ρ : Type} {k : κ}

theorem editsOf_append (a b : List (κ × ε)) : editsOf k (a ++ b) = editsOf k a ++ editsOf k b := List.filterMap_append

theorem editsOf_map (e : ε → ρ) (edits : List (κ × ε)) :
    editsOf k (edits.map (Prod.map id e)) = (editsOf k edits).map e := by
  rw [editsOf, editsOf, List.filterMap_map, List.map_filterMap]
  congr 1
  funext edit
  by_cases h : edit.1 = k
  · simp [h]
  · simp [h]

theorem editsOf_each (name : ρ → κ) {e : ρ → ε} {items : List ρ} {item : ρ} (hmem : item ∈ items)
    (hdistinct : (items.map name).Nodup) : editsOf (name item) (items.map fun i => (name i, e i)) = [e item] := by
  induction items with
  | nil => exact absurd hmem (List.not_mem_nil)
  | cons first rest ih =>
    obtain ⟨hfirst, hrest⟩ := List.nodup_cons.mp hdistinct
    rcases List.mem_cons.mp hmem with rfl | hmem
    · have hnone : editsOf (name item) (rest.map fun i => (name i, e i)) = [] := by
        apply List.filterMap_eq_nil_iff.mpr
        intro _ hedit
        obtain ⟨other, hother, rfl⟩ := List.mem_map.mp hedit
        exact if_neg fun h => hfirst (List.mem_map.mpr ⟨other, hother, h⟩)
      rw [List.map_cons, editsOf, List.filterMap_cons_some (by rw [if_pos rfl]), ← editsOf, hnone]
    · have hne : name first ≠ name item := fun h => hfirst (h ▸ List.mem_map_of_mem hmem)
      rw [List.map_cons, editsOf, List.filterMap_cons_none (by rw [if_neg hne]), ← editsOf]
      exact ih hmem hrest

theorem editsOf_none (name : ρ → κ) {e : ρ → ε} {items : List ρ} (h : k ∉ items.map name) :
    editsOf k (items.map fun i => (name i, e i)) = [] := by
  apply List.filterMap_eq_nil_iff.mpr
  intro _ hedit
  obtain ⟨item, hitem, rfl⟩ := List.mem_map.mp hedit
  exact if_neg fun hk => h (List.mem_map.mpr ⟨item, hitem, hk⟩)

end EditsOf
end Rows
end TinyHermes.Lib
