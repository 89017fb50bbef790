import TinyHermes.Skills.Effects

/-! Sessions of the catalog beside each other: what they hold locked, and what of the tables they may rely on. -/
namespace TinyHermes.Skills
open Lib Runs

section Engine
variable {others : List Session} {db : Database} {session later : Session}

theorem locks_wrote {session later : Session} {write : Write} (h : later.writes = session.writes ++ [write]) {lock : Lock}
    (hlock : lock ∈ later.locks) : lock ∈ session.locks ∨ lock ∈ write.locks := by
  rw [Session.locks, h, List.flatMap_append, List.mem_append, List.flatMap_singleton] at hlock
  exact hlock

theorem statement_writes {s : Statement} {answer : Answer s} (h : statement others db session s = some (answer, later)) :
    later.writes = session.writes ∨ ∃ write, later.writes = session.writes ++ [write] ∧
      ∀ lock ∈ write.locks, ∀ other ∈ others, lock ∉ other.locks := by
  cases s with
  | getSkill =>
    cases h
    exact .inl rfl
  | getVersion =>
    cases h
    exact .inl rfl
  | getProposal =>
    cases h
    exact .inl rfl
  | byContent =>
    rw [statement] at h
    split at h
    · cases h
      exact .inl rfl
    · cases h
      exact .inl rfl
  | highest =>
    cases h
    exact .inl rfl
  | insertSkill =>
    obtain ⟨hfree, hresult⟩ := locking_some h
    split_ifs at hresult
    · cases hresult
      exact .inl rfl
    · cases hresult
      exact .inr ⟨_, rfl, hfree⟩
  | insertVersion =>
    obtain ⟨hfree, hresult⟩ := locking_some h
    split_ifs at hresult
    · cases hresult
      exact .inl rfl
    · cases hresult
      exact .inr ⟨_, rfl, hfree⟩
  | updateSkill =>
    obtain ⟨hfree, hresult⟩ := locking_some h
    cases hresult
    exact .inr ⟨_, rfl, hfree⟩
  | updateVersion =>
    rw [statement] at h
    split_ifs at h
    · cases h
      exact .inl rfl
    · obtain ⟨hfree, hresult⟩ := locking_some h
      cases hresult
      exact .inr ⟨_, rfl, hfree⟩
  | decide =>
    obtain ⟨hfree, hresult⟩ := locking_some h
    cases hresult
    exact .inr ⟨_, rfl, hfree⟩

theorem statement_locks {s : Statement} {answer : Answer s} (h : statement others db session s = some (answer, later)) :
    ∀ lock ∈ later.locks, lock ∈ session.locks ∨ ∀ other ∈ others, lock ∉ other.locks := by
  intro lock hlock
  rcases statement_writes h with hwrites | ⟨_, hwrites, hfree⟩
  · rw [Session.locks, hwrites] at hlock
    exact .inl hlock
  · rcases locks_wrote hwrites hlock with hold | hnew
    · exact .inl hold
    · exact .inr (hfree lock hnew)

/-- The catalog's database, as its transactions meet it. -/
def engine : Engine Statement Answer Database Session Lock where
  empty := Session.empty
  statement := statement
  commit db session := session.view db
  locks := Session.locks
  locks_empty := rfl
  locks_new := statement_locks

abbrev World := Engine.World Statement Answer Database Session CatalogError Unit

abbrev Action := Engine.Act Command

abbrev Moves := engine.Steps Command.program

def quiet (db : Database) : World := { db, running := ∅ }

end Engine

variable {row : SkillVersionRow}

section Applying
variable {db : Database} {writes : List Write} {id : Uuid}

theorem applyAll_append (db : Database) (writes : List Write) (write : Write) :
    db.applyAll (writes ++ [write]) = (db.applyAll writes).apply write :=
  List.foldl_append

theorem applyAll_skill (h : (db.skills.lookup id).isSome = true) (writes : List Write) :
    ((db.applyAll writes).skills.lookup id).isSome = true := by
  induction writes using List.reverseRecOn with
  | nil => exact h
  | append_singleton writes write ih =>
    rw [applyAll_append]
    cases write with
    | insertSkill =>
      rw [Database.apply, Table.lookup_insert_ite]
      split_ifs
      · rfl
      · exact ih
    | updateSkill =>
      rw [Database.apply, Table.lookup_modify]
      split_ifs
      · rw [Option.isSome_map]
        exact ih
      · exact ih
    | insertVersion => exact ih
    | updateVersion => exact ih
    | decide => exact ih

theorem skill_origin (h : ((db.applyAll writes).skills.lookup id).isSome = true) :
    (db.skills.lookup id).isSome = true ∨ ∃ row, .insertSkill id row ∈ writes := by
  induction writes using List.reverseRecOn with
  | nil => exact .inl h
  | append_singleton writes write ih =>
    rw [applyAll_append] at h
    have hold : ((db.applyAll writes).skills.lookup id).isSome = true →
        (db.skills.lookup id).isSome = true ∨ ∃ row, .insertSkill id row ∈ writes ++ [write] := by
      intro hold
      rcases ih hold with hdb | ⟨row, hrow⟩
      · exact .inl hdb
      · exact .inr ⟨row, List.mem_append_left _ hrow⟩
    cases write with
    | insertSkill id' row =>
      rw [Database.apply, Table.lookup_insert_ite] at h
      split_ifs at h with hid
      · subst hid
        exact .inr ⟨row, List.mem_append_right _ (List.mem_singleton_self _)⟩
      · exact hold h
    | updateSkill =>
      rw [Database.apply, Table.lookup_modify] at h
      split_ifs at h
      · rw [Option.isSome_map] at h
        exact hold h
      · exact hold h
    | insertVersion => exact hold h
    | updateVersion => exact hold h
    | decide => exact hold h

theorem inserted_skill {row : SkillRow} (h : .insertSkill id row ∈ writes) : ((db.applyAll writes).skills.lookup id).isSome = true := by
  obtain ⟨before, after, rfl⟩ := List.append_of_mem h
  have hsplit : db.applyAll (before ++ .insertSkill id row :: after) =
      ((db.applyAll before).apply (.insertSkill id row)).applyAll after := List.foldl_append
  rw [hsplit]
  apply applyAll_skill
  rw [Database.apply, AList.lookup_insert]
  rfl

structure SameVersion (row row' : SkillVersionRow) : Prop where
  skillId : row'.skillId = row.skillId
  scanFindings : row'.scanFindings = row.scanFindings
  sourceRef : row'.sourceRef = row.sourceRef

theorem SameVersion.refl (row : SkillVersionRow) : SameVersion row row := ⟨rfl, rfl, rfl⟩

theorem SameVersion.trans {row' row'' : SkillVersionRow} (h : SameVersion row row') (h' : SameVersion row' row'') :
    SameVersion row row'' :=
  ⟨h'.skillId.trans h.skillId, h'.scanFindings.trans h.scanFindings, h'.sourceRef.trans h.sourceRef⟩

theorem SameVersion.symm {row' : SkillVersionRow} (h : SameVersion row row') : SameVersion row' row :=
  ⟨h.skillId.symm, h.scanFindings.symm, h.sourceRef.symm⟩

theorem version_origin (h : (db.applyAll writes).versions.lookup id = some row) :
    (∃ row', db.versions.lookup id = some row' ∧ SameVersion row' row) ∨
      ∃ row', .insertVersion id row' ∈ writes ∧ SameVersion row' row := by
  induction writes using List.reverseRecOn generalizing row with
  | nil => exact .inl ⟨row, h, .refl row⟩
  | append_singleton writes write ih =>
    rw [applyAll_append] at h
    have hold : ∀ {old}, (db.applyAll writes).versions.lookup id = some old → SameVersion old row →
        (∃ row', db.versions.lookup id = some row' ∧ SameVersion row' row) ∨
          ∃ row', .insertVersion id row' ∈ writes ++ [write] ∧ SameVersion row' row := by
      intro old hold hsame
      rcases ih hold with ⟨row', hrow', hsame'⟩ | ⟨row', hrow', hsame'⟩
      · exact .inl ⟨row', hrow', hsame'.trans hsame⟩
      · exact .inr ⟨row', List.mem_append_left _ hrow', hsame'.trans hsame⟩
    cases write with
    | insertVersion id' new =>
      rw [Database.apply, Table.lookup_insert_ite] at h
      split_ifs at h with hid
      · subst hid
        obtain rfl := Option.some.inj h
        exact .inr ⟨new, List.mem_append_right _ (List.mem_singleton_self _), .refl new⟩
      · exact hold h (.refl row)
    | updateVersion =>
      rw [Database.apply, Table.lookup_modify] at h
      split_ifs at h
      · obtain ⟨_, hlookup, rfl⟩ := Option.map_eq_some_iff.mp h
        exact hold hlookup ⟨rfl, rfl, rfl⟩
      · exact hold h (.refl row)
    | insertSkill => exact hold h (.refl row)
    | updateSkill => exact hold h (.refl row)
    | decide => exact hold h (.refl row)

theorem applyAll_version (h : (db.versions.lookup id).isSome = true) (writes : List Write) :
    ((db.applyAll writes).versions.lookup id).isSome = true := by
  induction writes using List.reverseRecOn with
  | nil => exact h
  | append_singleton writes write ih =>
    rw [applyAll_append]
    cases write with
    | insertVersion =>
      rw [Database.apply, Table.lookup_insert_ite]
      split_ifs
      · rfl
      · exact ih
    | updateVersion =>
      rw [Database.apply, Table.lookup_modify]
      split_ifs
      · rw [Option.isSome_map]
        exact ih
      · exact ih
    | insertSkill => exact ih
    | updateSkill => exact ih
    | decide => exact ih

end Applying

section Grounding
variable {others : List Session} {db : Database} {session later : Session}

def Database.Keyed (db : Database) : Prop :=
  ∀ id row, db.versions.lookup id = some row → (db.skills.lookup row.skillId).isSome = true

/-- What a session knows of the tables, whoever commits beside it. -/
structure Grounded (db : Database) (session : Session) : Prop where
  skill : ∀ id row, .insertSkill id row ∈ session.writes → db.skills.lookup id = none
  version : ∀ id row, .insertVersion id row ∈ session.writes → db.versions.lookup id = none
  skillOf : ∀ id row, .insertVersion id row ∈ session.writes →
    (db.skills.lookup row.skillId).isSome = true ∨ ∃ new, .insertSkill row.skillId new ∈ session.writes
  loaded : ∀ id row, session.versions.lookup id = some row →
    (∃ own, .insertVersion id own ∈ session.writes) ∨ ∃ row', db.versions.lookup id = some row' ∧ SameVersion row' row

theorem grounded_empty : Grounded db Session.empty where
  skill _ _ h := absurd h List.not_mem_nil
  version _ _ h := absurd h List.not_mem_nil
  skillOf _ _ h := absurd h List.not_mem_nil
  loaded _ _ h := nomatch h

theorem Grounded.viewed {id : Uuid} (h : (session.view db).versions.lookup id = some row) :
    (∃ own, .insertVersion id own ∈ session.writes) ∨ ∃ row', db.versions.lookup id = some row' ∧ SameVersion row' row := by
  rcases version_origin h with hdb | ⟨own, hown, _⟩
  · exact .inr hdb
  · exact .inl ⟨own, hown⟩

theorem Grounded.keepVersion (h : Grounded db session) (id : Uuid) :
    Grounded db { session with versions := keepRow session.versions (session.view db).versions id } where
  skill := h.skill
  version := h.version
  skillOf := h.skillOf
  loaded id' row hrow := by
    rcases keepRow_cases hrow with hold | ⟨rfl, hview⟩
    · exact h.loaded id' row hold
    · exact Grounded.viewed hview

theorem Grounded.write {write : Write} (h : Grounded db session) (hwrites : later.writes = session.writes ++ [write])
    (hskill : ∀ id row, write ≠ .insertSkill id row) (hversion : ∀ id row, write ≠ .insertVersion id row)
    (hloaded : ∀ id row, later.versions.lookup id = some row → ∃ row', session.versions.lookup id = some row' ∧ SameVersion row' row) :
    Grounded db later := by
  have hskills : ∀ {id row}, .insertSkill id row ∈ later.writes ↔ .insertSkill id row ∈ session.writes := by
    intro id row
    rw [hwrites, List.mem_append, List.mem_singleton]
    exact or_iff_left (hskill id row).symm
  have hversions : ∀ {id row}, .insertVersion id row ∈ later.writes ↔ .insertVersion id row ∈ session.writes := by
    intro id row
    rw [hwrites, List.mem_append, List.mem_singleton]
    exact or_iff_left (hversion id row).symm
  refine ⟨?_, ?_, ?_, ?_⟩
  · intro id row hrow
    exact h.skill id row (hskills.mp hrow)
  · intro id row hrow
    exact h.version id row (hversions.mp hrow)
  · intro id row hrow
    rcases h.skillOf id row (hversions.mp hrow) with hdb | ⟨new, hnew⟩
    · exact .inl hdb
    · exact .inr ⟨new, hskills.mpr hnew⟩
  · intro id row hrow
    obtain ⟨old, hold, hsame⟩ := hloaded id row hrow
    rcases h.loaded id old hold with ⟨own, hown⟩ | ⟨row', hrow', hsame'⟩
    · exact .inl ⟨own, hversions.mpr hown⟩
    · exact .inr ⟨row', hrow', hsame'.trans hsame⟩

theorem conflicts_skill {id : Uuid} {row : SkillRow} (h : ¬ (session.view db).conflicts (.insertSkill id row) = true) :
    db.skills.lookup id = none := by
  rw [Database.conflicts, Bool.or_eq_true, not_or, Bool.not_eq_true, Option.isSome_eq_false_iff, Option.isNone_iff_eq_none] at h
  cases hdb : db.skills.lookup id with
  | none => rfl
  | some old =>
    have hview := applyAll_skill (Option.isSome_iff_exists.mpr ⟨old, hdb⟩) session.writes
    rw [Session.view] at h
    rw [h.1] at hview
    cases hview

theorem conflicts_version {id : Uuid} (h : ¬ (session.view db).conflicts (.insertVersion id row) = true) :
    db.versions.lookup id = none ∧ ((session.view db).skills.lookup row.skillId).isSome = true := by
  rw [Database.conflicts, Bool.or_eq_true, not_or, Bool.or_eq_true, not_or] at h
  obtain ⟨⟨hversion, hskill⟩, _⟩ := h
  rw [Bool.not_eq_true, Option.isSome_eq_false_iff, Option.isNone_iff_eq_none] at hversion
  rw [Bool.not_eq_true, Option.isNone_eq_false_iff] at hskill
  refine ⟨?_, hskill⟩
  cases hdb : db.versions.lookup id with
  | none => rfl
  | some old =>
    have hview := applyAll_version (Option.isSome_iff_exists.mpr ⟨old, hdb⟩) session.writes
    rw [Session.view] at hversion
    rw [hversion] at hview
    cases hview

theorem Grounded.insertSkill {id : Uuid} {row : SkillRow} (h : Grounded db session)
    (hfree : ¬ (session.view db).conflicts (.insertSkill id row) = true) :
    Grounded db { session.wrote (.insertSkill id row) with skills := session.skills.insert id row } where
  skill id' row' hrow := by
    rcases List.mem_append.mp hrow with hold | hnew
    · exact h.skill id' row' hold
    · cases List.mem_singleton.mp hnew
      exact conflicts_skill hfree
  version id' row' hrow := by
    rcases List.mem_append.mp hrow with hold | hnew
    · exact h.version id' row' hold
    · cases List.mem_singleton.mp hnew
  skillOf id' row' hrow := by
    rcases List.mem_append.mp hrow with hold | hnew
    · rcases h.skillOf id' row' hold with hdb | ⟨new, hnew⟩
      · exact .inl hdb
      · exact .inr ⟨new, List.mem_append_left _ hnew⟩
    · cases List.mem_singleton.mp hnew
  loaded id' row' hrow := by
    rcases h.loaded id' row' hrow with ⟨own, hown⟩ | hdb
    · exact .inl ⟨own, List.mem_append_left _ hown⟩
    · exact .inr hdb

theorem Grounded.insertVersion {id : Uuid} (h : Grounded db session)
    (hfree : ¬ (session.view db).conflicts (.insertVersion id row) = true) :
    Grounded db { session.wrote (.insertVersion id row) with versions := session.versions.insert id row } where
  skill id' row' hrow := by
    rcases List.mem_append.mp hrow with hold | hnew
    · exact h.skill id' row' hold
    · cases List.mem_singleton.mp hnew
  version id' row' hrow := by
    rcases List.mem_append.mp hrow with hold | hnew
    · exact h.version id' row' hold
    · cases List.mem_singleton.mp hnew
      exact (conflicts_version hfree).1
  skillOf id' row' hrow := by
    rcases List.mem_append.mp hrow with hold | hnew
    · rcases h.skillOf id' row' hold with hdb | ⟨new, hnew⟩
      · exact .inl hdb
      · exact .inr ⟨new, List.mem_append_left _ hnew⟩
    · cases List.mem_singleton.mp hnew
      rcases skill_origin (conflicts_version hfree).2 with hdb | ⟨new, hnew⟩
      · exact .inl hdb
      · exact .inr ⟨new, List.mem_append_left _ hnew⟩
  loaded id' row' hrow := by
    rw [Table.lookup_insert_ite] at hrow
    split_ifs at hrow with hid
    · subst hid
      exact .inl ⟨row, List.mem_append_right _ (List.mem_singleton_self _)⟩
    · rcases h.loaded id' row' hrow with ⟨own, hown⟩ | hdb
      · exact .inl ⟨own, List.mem_append_left _ hown⟩
      · exact .inr hdb

theorem Grounded.updateVersion {id : Uuid} {status : SkillVersionStatus} (h : Grounded db session) :
    Grounded db { session.wrote (.updateVersion id status) with
      versions := session.versions.modify id fun row => { row with status } } := by
  refine @Grounded.write db session _ (.updateVersion id status) h rfl ?_ ?_ ?_
  · exact fun _ _ h => nomatch h
  · exact fun _ _ h => nomatch h
  intro _ row hrow
  dsimp only at hrow
  rw [Table.lookup_modify] at hrow
  split_ifs at hrow with hid
  · obtain ⟨old, hold, rfl⟩ := Option.map_eq_some_iff.mp hrow
    exact ⟨old, hold, rfl, rfl, rfl⟩
  · exact ⟨row, hrow, .refl row⟩

theorem Grounded.known (h : Grounded db session) (hkeyed : db.Keyed) {skillId id : Uuid}
    (hview : (session.view db).versions.lookup id = some row) (hskill : row.skillId = skillId) :
    ∀ new, .insertSkill skillId new ∈ session.writes → ∃ own, .insertVersion id own ∈ session.writes := by
  intro new hnew
  rcases Grounded.viewed hview with hown | ⟨row', hrow', hsame⟩
  · exact hown
  · have hsome := hkeyed id row' hrow'
    rw [← hsame.skillId, hskill, h.skill skillId new hnew] at hsome
    cases hsome

theorem Grounded.statement (h : Grounded db session) (hkeyed : db.Keyed) {s : Statement} {answer : Answer s}
    (hstatement : statement others db session s = some (answer, later)) : Possible session s answer later ∧ Grounded db later := by
  cases s with
  | getSkill =>
    cases hstatement
    exact ⟨.skill _, h.skill, h.version, h.skillOf, h.loaded⟩
  | getVersion id =>
    cases hstatement
    exact ⟨.version _, h.keepVersion id⟩
  | getProposal =>
    cases hstatement
    exact ⟨.proposal _, h.skill, h.version, h.skillOf, h.loaded⟩
  | byContent =>
    rw [Skills.statement] at hstatement
    split at hstatement
    · cases hstatement
      exact ⟨.noContent, h⟩
    · next id row hhead =>
      obtain ⟨hview, hrow⟩ := Table.mem_select.mp (List.mem_of_mem_head? hhead)
      rw [Bool.and_eq_true, decide_eq_true_eq] at hrow
      cases hstatement
      exact ⟨.content _ (h.known hkeyed hview hrow.1), h.keepVersion id⟩
  | highest =>
    cases hstatement
    exact ⟨.highest _, h⟩
  | insertSkill =>
    obtain ⟨_, hresult⟩ := locking_some hstatement
    split_ifs at hresult with hconflicts
    · cases hresult
      exact ⟨.refusedSkill, h⟩
    · cases hresult
      exact ⟨.insertedSkill, h.insertSkill hconflicts⟩
  | insertVersion =>
    obtain ⟨_, hresult⟩ := locking_some hstatement
    split_ifs at hresult with hconflicts
    · cases hresult
      exact ⟨.refusedVersion, h⟩
    · cases hresult
      exact ⟨.insertedVersion, h.insertVersion hconflicts⟩
  | updateSkill =>
    obtain ⟨_, hresult⟩ := locking_some hstatement
    cases hresult
    refine ⟨.movedSkill _ rfl, h.write rfl (fun _ _ h => nomatch h) (fun _ _ h => nomatch h) ?_⟩
    exact fun id' row hrow => ⟨row, hrow, .refl row⟩
  | updateVersion =>
    rw [Skills.statement] at hstatement
    split_ifs at hstatement with hsame
    · cases hstatement
      exact ⟨.keptVersion hsame, h⟩
    · obtain ⟨_, hresult⟩ := locking_some hstatement
      cases hresult
      exact ⟨.updatedVersion, h.updateVersion⟩
  | decide =>
    obtain ⟨_, hresult⟩ := locking_some hstatement
    cases hresult
    refine ⟨.decided, h.write rfl (fun _ _ h => nomatch h) (fun _ _ h => nomatch h) ?_⟩
    exact fun id' row hrow => ⟨row, hrow, .refl row⟩

theorem Grounded.beside {other : Session} (h : Grounded db session) (hother : Grounded db other)
    (hapart : ∀ lock ∈ other.locks, lock ∉ session.locks) : Grounded (other.view db) session where
  skill id row hrow := by
    have hown : .skill id ∈ session.locks := mem_locks.mpr ⟨_, hrow, List.mem_cons_self⟩
    rw [← Option.not_isSome_iff_eq_none]
    intro hview
    rcases skill_origin hview with hdb | ⟨row', hrow'⟩
    · rw [h.skill id row hrow] at hdb
      cases hdb
    · exact hapart _ (mem_locks.mpr ⟨_, hrow', List.mem_cons_self⟩) hown
  version id row hrow := by
    have hown : .version id ∈ session.locks := mem_locks.mpr ⟨_, hrow, List.mem_cons_self⟩
    cases hview : (other.view db).versions.lookup id with
    | none => rfl
    | some =>
      rcases version_origin hview with ⟨row', hdb, _⟩ | ⟨row', hrow', _⟩
      · rw [h.version id row hrow] at hdb
        cases hdb
      · exact absurd hown (hapart _ (mem_locks.mpr ⟨_, hrow', List.mem_cons_self⟩))
  skillOf id row hrow := by
    rcases h.skillOf id row hrow with hdb | hnew
    · exact .inl (applyAll_skill hdb _)
    · exact .inr hnew
  loaded id row hrow := by
    rcases h.loaded id row hrow with hown | ⟨row', hdb, hsame⟩
    · exact .inl hown
    · obtain ⟨found, hfound⟩ := Option.isSome_iff_exists.mp (applyAll_version (Option.isSome_iff_exists.mpr ⟨row', hdb⟩) other.writes)
      rcases version_origin hfound with ⟨_, hold, hsame'⟩ | ⟨own, hown, _⟩
      · rw [hdb] at hold
        cases hold
        exact .inr ⟨found, hfound, hsame'.symm.trans hsame⟩
      · rw [hother.version id own hown] at hdb
        cases hdb

theorem Grounded.keyed (h : Grounded db session) (hkeyed : db.Keyed) : (session.view db).Keyed := by
  intro id _ hrow
  rcases version_origin hrow with ⟨row', hrow', hsame⟩ | ⟨own, hown, hsame⟩
  · rw [hsame.skillId]
    exact applyAll_skill (hkeyed id row' hrow') _
  · rw [hsame.skillId]
    rcases h.skillOf id own hown with hdb | ⟨_, hnew⟩
    · exact applyAll_skill hdb _
    · exact inserted_skill hnew

end Grounding

section Reasoning

end Reasoning
end TinyHermes.Skills
