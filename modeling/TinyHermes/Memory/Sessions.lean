import TinyHermes.Memory.Effects

/-! Sessions on the memories beside each other: what they hold locked, and what of the table they may rely on. -/
namespace TinyHermes.Memory
open Lib Runs Runs.ApprovalDecisions
open Skills (getRow keepRow keepRow_cases)

section Engine
variable {others : List Session} {db : Database} {session later : Session}

theorem mem_locks {id : Uuid} : id ∈ session.locks ↔ ∃ write ∈ session.writes, id ∈ write.locks := List.mem_flatMap

theorem locking_some {write : Write} {α : Type} {result found : α} (h : locking others write result = some found) :
    (∀ id ∈ write.locks, ∀ other ∈ others, id ∉ other.locks) ∧ found = result := by
  unfold locking at h
  split_ifs at h with hfree
  refine ⟨?_, (Option.some.inj h).symm⟩
  intro id hid other hother
  simp only [List.all_eq_true] at hfree
  exact of_decide_eq_true (hfree id hid other hother)

theorem statement_writes {s : Statement} {answer : Answer s} (h : statement others db session s = some (answer, later)) :
    later.writes = session.writes ∨ ∃ write, later.writes = session.writes ++ [write] ∧
      ∀ id ∈ write.locks, ∀ other ∈ others, id ∉ other.locks := by
  cases s with
  | get =>
    cases h
    exact .inl rfl
  | insert =>
    obtain ⟨hfree, hresult⟩ := locking_some h
    split_ifs at hresult
    · cases hresult
      exact .inl rfl
    · cases hresult
      exact .inr ⟨_, rfl, hfree⟩
  | update =>
    obtain ⟨hfree, hresult⟩ := locking_some h
    cases hresult
    exact .inr ⟨_, rfl, hfree⟩
  | append =>
    cases h
    exact .inr ⟨_, rfl, fun _ hid => absurd hid List.not_mem_nil⟩

theorem statement_locks {s : Statement} {answer : Answer s} (h : statement others db session s = some (answer, later)) :
    ∀ id ∈ later.locks, id ∈ session.locks ∨ ∀ other ∈ others, id ∉ other.locks := by
  intro id hid
  obtain ⟨write, hwrite, hlock⟩ := mem_locks.mp hid
  rcases statement_writes h with hwrites | ⟨_, hwrites, hfree⟩
  · rw [hwrites] at hwrite
    exact .inl (mem_locks.mpr ⟨write, hwrite, hlock⟩)
  · rw [hwrites] at hwrite
    rcases List.mem_append.mp hwrite with hold | hnew
    · exact .inl (mem_locks.mpr ⟨write, hold, hlock⟩)
    · obtain rfl := List.mem_singleton.mp hnew
      exact .inr (hfree id hlock)

/-- The memories, as the transactions on them meet them. -/
def engine : Engine Statement Answer Database Session Uuid where
  empty := Session.empty
  statement := statement
  commit db session := session.view db
  locks := Session.locks
  locks_empty := rfl
  locks_new := statement_locks

abbrev World := Engine.World Statement Answer Database Session MemoryError Unit

abbrev Act := Engine.Act Command

abbrev Moves := engine.Steps Command.program

def quiet (db : Database) : World := { db, running := ∅ }

end Engine

section Applying
variable {db : Database} {writes : List Write} {id : Uuid}

def Database.statusOf (db : Database) (id : Uuid) : Option MemoryStatus := (db.memories.lookup id).map MemoryRow.status

theorem statusOf_isSome : (db.statusOf id).isSome = (db.memories.lookup id).isSome := Option.isSome_map

theorem applyAll_snoc (db : Database) (writes : List Write) (write : Write) :
    db.applyAll (writes ++ [write]) = (db.applyAll writes).apply write :=
  List.foldl_append

theorem apply_insert (db : Database) (id' : Uuid) (row : MemoryRow) (id : Uuid) :
    (db.apply (.insert id' row)).statusOf id = if id = id' then some row.status else db.statusOf id := by
  rw [Database.statusOf, Database.apply, Table.lookup_insert_ite]
  split_ifs
  · rfl
  · rfl

theorem apply_update (db : Database) (id' : Uuid) (moved : Option MemoryStatus) (updatedAt : Time) (id : Uuid) :
    (db.apply (.update id' moved updatedAt)).statusOf id =
      if id = id' then (db.statusOf id).map moved.getD else db.statusOf id := by
  rw [Database.statusOf, Database.apply, Table.lookup_modify]
  split_ifs
  · rw [Option.map_map, Database.statusOf, Option.map_map]
    rfl
  · rfl

theorem applyAll_present (h : (db.statusOf id).isSome = true) (writes : List Write) :
    ((db.applyAll writes).statusOf id).isSome = true := by
  induction writes using List.reverseRecOn with
  | nil => exact h
  | append_singleton writes write ih =>
    rw [applyAll_snoc]
    cases write with
    | insert =>
      rw [apply_insert]
      split_ifs
      · rfl
      · exact ih
    | update =>
      rw [apply_update]
      split_ifs
      · rw [Option.isSome_map]
        exact ih
      · exact ih
    | append => exact ih

theorem applyAll_inserted {row : MemoryRow} (h : .insert id row ∈ writes) : ((db.applyAll writes).statusOf id).isSome = true := by
  obtain ⟨before, after, rfl⟩ := List.append_of_mem h
  have hsplit : db.applyAll (before ++ .insert id row :: after) = ((db.applyAll before).apply (.insert id row)).applyAll after :=
    List.foldl_append
  rw [hsplit]
  apply applyAll_present
  rw [apply_insert, if_pos rfl]
  rfl

theorem applyAll_origin (h : ((db.applyAll writes).statusOf id).isSome = true) :
    (db.statusOf id).isSome = true ∨ ∃ row, .insert id row ∈ writes := by
  induction writes using List.reverseRecOn with
  | nil => exact .inl h
  | append_singleton writes write ih =>
    rw [applyAll_snoc] at h
    have hold : ((db.applyAll writes).statusOf id).isSome = true →
        (db.statusOf id).isSome = true ∨ ∃ row, .insert id row ∈ writes ++ [write] := by
      intro hold
      rcases ih hold with hdb | ⟨row, hrow⟩
      · exact .inl hdb
      · exact .inr ⟨row, List.mem_append_left _ hrow⟩
    cases write with
    | insert id' row =>
      rw [apply_insert] at h
      split_ifs at h with hid
      · subst hid
        exact .inr ⟨row, List.mem_append_right _ (List.mem_singleton_self _)⟩
      · exact hold h
    | update =>
      rw [apply_update] at h
      split_ifs at h
      · rw [Option.isSome_map] at h
        exact hold h
      · exact hold h
    | append => exact hold h

theorem applyAll_same (hinsert : ∀ row, .insert id row ∉ writes) (hmove : ∀ status updatedAt, .update id (some status) updatedAt ∉ writes) :
    (db.applyAll writes).statusOf id = db.statusOf id := by
  induction writes using List.reverseRecOn with
  | nil => rfl
  | append_singleton writes write ih =>
    have hrest := ih (fun row hmem => hinsert row (List.mem_append_left _ hmem))
      fun status updatedAt hmem => hmove status updatedAt (List.mem_append_left _ hmem)
    rw [applyAll_snoc]
    cases write with
    | insert id' row =>
      have hne : id ≠ id' := by
        rintro rfl
        exact hinsert row (List.mem_append_right _ (List.mem_singleton_self _))
      rw [apply_insert, if_neg hne]
      exact hrest
    | update id' moved updatedAt =>
      rw [apply_update]
      split_ifs with hid
      · subst hid
        cases moved with
        | none =>
          rw [hrest]
          exact Option.map_id'
        | some status => exact absurd (List.mem_append_right _ (List.mem_singleton_self _)) (hmove status updatedAt)
      · exact hrest
    | append => exact hrest

theorem view_apart {session : Session} (h : id ∉ session.locks) : (session.view db).statusOf id = db.statusOf id := by
  apply applyAll_same
  · intro _ hmem
    exact h (mem_locks.mpr ⟨_, hmem, List.mem_singleton_self _⟩)
  · intro _ _ hmem
    exact h (mem_locks.mpr ⟨_, hmem, List.mem_singleton_self _⟩)

end Applying

section Grounding
variable {others : List Session} {db : Database} {session later : Session}

def Session.Owns (session : Session) (id : Uuid) : Prop :=
  (∃ own, .insert id own ∈ session.writes) ∨ ∃ status updatedAt, .update id (some status) updatedAt ∈ session.writes

theorem Session.Owns.wrote {id : Uuid} {write : Write} (h : session.Owns id) (hwrites : later.writes = session.writes ++ [write]) :
    later.Owns id := by
  rcases h with ⟨own, hown⟩ | ⟨status, updatedAt, hmove⟩
  · exact .inl ⟨own, hwrites ▸ List.mem_append_left _ hown⟩
  · exact .inr ⟨status, updatedAt, hwrites ▸ List.mem_append_left _ hmove⟩

theorem view_same {id : Uuid} (h : ¬ session.Owns id) : (session.view db).statusOf id = db.statusOf id :=
  applyAll_same (fun row hmem => h (.inl ⟨row, hmem⟩)) fun status updatedAt hmem => h (.inr ⟨status, updatedAt, hmem⟩)

/-- What a session knows of the table, whoever commits beside it. -/
structure Grounded (db : Database) (session : Session) : Prop where
  fresh : ∀ id row, .insert id row ∈ session.writes → db.statusOf id = none
  present : ∀ id row, session.memories.lookup id = some row → ((session.view db).statusOf id).isSome = true
  /-- a memory that it knows as rejected is so, or it has made it so itself -/
  rejected : ∀ id row, session.memories.lookup id = some row → row.status = .rejected →
    db.statusOf id = some .rejected ∨ session.Owns id

theorem grounded_empty : Grounded db Session.empty where
  fresh _ _ h := absurd h List.not_mem_nil
  present _ _ h := nomatch h
  rejected _ _ h := nomatch h

theorem Grounded.get (h : Grounded db session) (id : Uuid) :
    Grounded db { session with memories := keepRow session.memories (session.view db).memories id } where
  fresh := h.fresh
  present id' row hrow := by
    rcases keepRow_cases hrow with hold | ⟨rfl, hview⟩
    · exact h.present id' row hold
    · change ((session.view db).statusOf id').isSome = true
      rw [statusOf_isSome, hview]
      rfl
  rejected id' row hrow hstatus := by
    rcases keepRow_cases hrow with hold | ⟨rfl, hview⟩
    · exact h.rejected id' row hold hstatus
    · by_cases howns : session.Owns id'
      · exact .inr howns
      · refine .inl ?_
        rw [← view_same howns, Database.statusOf, hview, ← hstatus]
        rfl

theorem Grounded.insert {id : Uuid} {row : MemoryRow} (h : Grounded db session) (hfree : (session.view db).statusOf id = none) :
    Grounded db { session.wrote (.insert id row) with memories := session.memories.insert id row } where
  fresh id' row' hmem := by
    rcases List.mem_append.mp hmem with hold | hnew
    · exact h.fresh id' row' hold
    · cases List.mem_singleton.mp hnew
      cases hstatus : db.statusOf id with
      | none => rfl
      | some =>
        have hview := applyAll_present (hstatus ▸ rfl : (db.statusOf id).isSome = true) session.writes
        rw [Session.view] at hfree
        rw [hfree] at hview
        cases hview
  present id' row' hrow := by
    change ((db.applyAll (session.writes ++ [.insert id row])).statusOf id').isSome = true
    rw [Table.lookup_insert_ite] at hrow
    split_ifs at hrow with hid
    · subst hid
      exact applyAll_inserted (List.mem_append_right _ (List.mem_singleton_self _))
    · rw [applyAll_snoc, apply_insert, if_neg hid]
      exact h.present id' row' hrow
  rejected id' row' hrow hstatus := by
    rw [Table.lookup_insert_ite] at hrow
    split_ifs at hrow with hid
    · subst hid
      exact .inr (.inl ⟨row, List.mem_append_right _ (List.mem_singleton_self _)⟩)
    · rcases h.rejected id' row' hrow hstatus with hdb | howns
      · exact .inl hdb
      · exact .inr (howns.wrote rfl)

theorem Grounded.update {id : Uuid} {status : MemoryStatus} {updatedAt : Time} {moved : Option MemoryStatus} (h : Grounded db session)
    (hmoved : moved = if (session.memories.lookup id).any fun row => row.status = status then none else some status) :
    Grounded db { session.wrote (.update id moved updatedAt) with
      memories := session.memories.modify id fun row => row.move (some status) updatedAt } where
  fresh id' row hmem := by
    rcases List.mem_append.mp hmem with hold | hnew
    · exact h.fresh id' row hold
    · cases List.mem_singleton.mp hnew
  present id' row hrow := by
    change ((db.applyAll (session.writes ++ [.update id moved updatedAt])).statusOf id').isSome = true
    have hloaded : ((session.view db).statusOf id').isSome = true := by
      dsimp only at hrow
      rw [Table.lookup_modify] at hrow
      split_ifs at hrow
      · obtain ⟨old, hold, -⟩ := Option.map_eq_some_iff.mp hrow
        exact h.present id' old hold
      · exact h.present id' row hrow
    rw [applyAll_snoc, apply_update]
    split_ifs
    · rw [Option.isSome_map]
      exact hloaded
    · exact hloaded
  rejected id' row hrow hstatus := by
    dsimp only at hrow
    rw [Table.lookup_modify] at hrow
    split_ifs at hrow with hid
    · subst hid
      obtain ⟨old, hold, rfl⟩ := Option.map_eq_some_iff.mp hrow
      obtain rfl : status = .rejected := hstatus
      rw [hold, Option.any_some] at hmoved
      by_cases hsame : old.status = .rejected
      · rcases h.rejected id' old hold hsame with hdb | howns
        · exact .inl hdb
        · exact .inr (howns.wrote rfl)
      · rw [if_neg (by simpa using hsame)] at hmoved
        exact .inr (.inr ⟨.rejected, updatedAt, hmoved ▸ List.mem_append_right _ (List.mem_singleton_self _)⟩)
    · rcases h.rejected id' row hrow hstatus with hdb | howns
      · exact .inl hdb
      · exact .inr (howns.wrote rfl)

theorem Grounded.append {event : AuditEventRow} (h : Grounded db session) : Grounded db (session.wrote (.append event)) where
  fresh id row hmem := by
    rcases List.mem_append.mp hmem with hold | hnew
    · exact h.fresh id row hold
    · cases List.mem_singleton.mp hnew
  present id row hrow := by
    change ((db.applyAll (session.writes ++ [.append event])).statusOf id).isSome = true
    rw [applyAll_snoc]
    exact h.present id row hrow
  rejected id row hrow hstatus := by
    rcases h.rejected id row hrow hstatus with hdb | howns
    · exact .inl hdb
    · exact .inr (howns.wrote rfl)

theorem Grounded.statement (h : Grounded db session) {s : Statement} {answer : Answer s}
    (hstatement : statement others db session s = some (answer, later)) : Possible session s answer later ∧ Grounded db later := by
  cases s with
  | get id =>
    cases hstatement
    exact ⟨.loaded _, h.get id⟩
  | insert id =>
    obtain ⟨_, hresult⟩ := locking_some hstatement
    split_ifs at hresult with hthere
    · cases hresult
      exact ⟨.refused, h⟩
    · cases hresult
      rw [← statusOf_isSome, Bool.not_eq_true, Option.isSome_eq_false_iff, Option.isNone_iff_eq_none] at hthere
      refine ⟨.inserted ?_, h.insert hthere⟩
      cases hloaded : session.memories.lookup id with
      | none => rfl
      | some old =>
        have hpresent := h.present id old hloaded
        rw [hthere] at hpresent
        cases hpresent
  | update =>
    obtain ⟨_, hresult⟩ := locking_some hstatement
    cases hresult
    exact ⟨.updated _ rfl, h.update rfl⟩
  | append =>
    cases hstatement
    exact ⟨.appended, h.append⟩

theorem Grounded.beside {other : Session} (h : Grounded db session) (hapart : ∀ id ∈ other.locks, id ∉ session.locks)
    (hkeeps : ∀ id, db.statusOf id = some .rejected → (other.view db).statusOf id = some .rejected) :
    Grounded (other.view db) session where
  fresh id row hmem := by
    have hown : id ∈ session.locks := mem_locks.mpr ⟨_, hmem, List.mem_singleton_self _⟩
    rw [view_apart fun hother => hapart id hother hown]
    exact h.fresh id row hmem
  present id row hrow := by
    rcases applyAll_origin (h.present id row hrow) with hdb | ⟨_, hown⟩
    · exact applyAll_present (applyAll_present hdb _) _
    · exact applyAll_inserted hown
  rejected id row hrow hstatus := by
    rcases h.rejected id row hrow hstatus with hdb | howns
    · exact .inl (hkeeps id hdb)
    · exact .inr howns

theorem Grounded.there (h : Grounded db session) {id : Uuid} {row : MemoryRow} (hloaded : session.memories.lookup id = some row)
    (hnew : ∀ own, .insert id own ∉ session.writes) : ∃ status, db.statusOf id = some status := by
  rcases applyAll_origin (h.present id row hloaded) with hdb | ⟨own, hown⟩
  · exact Option.isSome_iff_exists.mp hdb
  · exact absurd hown (hnew own)

end Grounding
end TinyHermes.Memory
