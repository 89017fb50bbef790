import TinyHermes.Skills.Sessions

/-! The default version of a skill, under any commands beside each other. -/
namespace TinyHermes.Skills
open Lib Runs

/-- What a skill points to is a version of its own that a draft may name. -/
def Database.DefaultBindable (db : Database) : Prop :=
  ∀ id skill versionId, db.skills.lookup id = some skill → skill.currentVersionId = some versionId →
    ∃ version, db.versions.lookup versionId = some version ∧ version.skillId = id ∧ version.status = .active ∧
      blocking version.scanFindings = []

/-- A commit that comes in time: what it points a skill to is not withdrawn yet, and what it withdraws is not pointed to, unless
it clears that pointer too. -/
def inTime (db : Database) (session : Session) : Bool :=
  session.writes.all fun write =>
    match write with
    | .updateSkill _ (some (some versionId)) => (db.versions.lookup versionId).all fun version => version.status = .active
    | .updateVersion versionId _ => (db.versions.lookup versionId).all fun version =>
        (db.skills.lookup version.skillId).all fun skill =>
          skill.currentVersionId ≠ some versionId || .updateSkill version.skillId (some none) ∈ session.writes
    | _ => true

namespace Database.DefaultBindable
variable {db : Database} {id : Uuid}

theorem insertSkill {row : SkillRow} (h : db.DefaultBindable) (hpointer : row.currentVersionId = none) :
    (db.apply (.insertSkill id row)).DefaultBindable := by
  intro id' skill versionId hskill hcurrent
  rw [Database.apply, Table.lookup_insert_ite] at hskill
  split_ifs at hskill
  · cases hskill
    rw [hpointer] at hcurrent
    cases hcurrent
  · exact h id' skill versionId hskill hcurrent

theorem insertVersion {row : SkillVersionRow} (h : db.DefaultBindable) (hnew : db.versions.lookup id = none) :
    (db.apply (.insertVersion id row)).DefaultBindable := by
  intro id' skill versionId hskill hcurrent
  obtain ⟨version, hversion, hrest⟩ := h id' skill versionId hskill hcurrent
  refine ⟨version, ?_, hrest⟩
  have hne : versionId ≠ id := by
    rintro rfl
    rw [hnew] at hversion
    cases hversion
  exact (AList.lookup_insert_ne hne).trans hversion

theorem updateSkill {moved : Option (Option Uuid)} (h : db.DefaultBindable)
    (hmoved : ∀ versionId, moved = some (some versionId) → ∃ version, db.versions.lookup versionId = some version ∧
      version.skillId = id ∧ version.status = .active ∧ blocking version.scanFindings = []) :
    (db.apply (.updateSkill id moved)).DefaultBindable := by
  intro id' skill versionId hskill hcurrent
  rw [Database.apply, Table.lookup_modify] at hskill
  split_ifs at hskill with hid
  · subst hid
    obtain ⟨old, hold, rfl⟩ := Option.map_eq_some_iff.mp hskill
    cases hpointer : moved with
    | none =>
      rw [hpointer] at hcurrent
      exact h id' old versionId hold hcurrent
    | some =>
      rw [hpointer] at hcurrent
      apply hmoved
      rw [hpointer]
      exact congrArg some hcurrent
  · exact h id' skill versionId hskill hcurrent

theorem updateVersion {status : SkillVersionStatus} (h : db.DefaultBindable)
    (hfree : ∀ skillId skill, db.skills.lookup skillId = some skill → skill.currentVersionId ≠ some id) :
    (db.apply (.updateVersion id status)).DefaultBindable := by
  intro id' skill versionId hskill hcurrent
  obtain ⟨version, hversion, hrest⟩ := h id' skill versionId hskill hcurrent
  refine ⟨version, ?_, hrest⟩
  have hne : versionId ≠ id := by
    rintro rfl
    exact hfree id' skill hskill hcurrent
  rw [Database.apply, Table.lookup_modify, if_neg hne]
  exact hversion

theorem cleared {session : Session} {status : SkillVersionStatus} (h : db.DefaultBindable) (htime : inTime db session = true)
    (hmem : .updateVersion id status ∈ session.writes) {skillId : Uuid} {skill : SkillRow}
    (hskill : db.skills.lookup skillId = some skill) (hcurrent : skill.currentVersionId = some id) :
    .updateSkill skillId (some none) ∈ session.writes := by
  obtain ⟨_, hversion, hof, _⟩ := h skillId skill id hskill hcurrent
  have hwrite := List.all_eq_true.mp htime _ hmem
  dsimp only at hwrite
  rw [hversion, Option.all_some, hof, hskill, Option.all_some, Bool.or_eq_true, decide_eq_true_eq, decide_eq_true_eq] at hwrite
  exact hwrite.resolve_left fun hne => hne hcurrent

theorem change {session : Session} {ref : Option SourceRef} {changes : List Write} (h : db.DefaultBindable) (hgrounded : Grounded db session)
    (htime : inTime db session = true) (hchange : Change session ref changes) (hmem : ∀ write ∈ changes, write ∈ session.writes)
    (hrest : ∀ write ∈ session.writes, write ∈ changes ∨ ∃ id status decidedBy decidedAt, write = .decide id status decidedBy decidedAt) :
    (db.applyAll changes).DefaultBindable := by
  cases hchange with
  | none => exact h
  | version => exact h.insertVersion (hgrounded.version _ _ (hmem _ (List.mem_singleton_self _)))
  | @first skillId skill versionId version hpointer hskill hbindable href =>
    have hversion := hgrounded.version versionId version (hmem _ (List.mem_cons_of_mem _ List.mem_cons_self))
    rw [SkillVersionRow.bindable, Bool.and_eq_true, decide_eq_true_eq, List.isEmpty_iff] at hbindable
    apply ((h.insertSkill hpointer).insertVersion hversion).updateSkill
    rintro _ ⟨rfl⟩
    exact ⟨version, AList.lookup_insert _, hskill, hbindable⟩
  | @moved skillId versionId version hloaded hskill hclean =>
    apply h.updateSkill
    rintro _ ⟨rfl⟩
    rcases hgrounded.loaded versionId version hloaded with ⟨_, hinserted⟩ | ⟨row, hrow, hsame⟩
    · rcases hrest _ hinserted with hmem | ⟨_, _, _, _, heq⟩
      · cases List.mem_singleton.mp hmem
      · cases heq
    · have hactive := List.all_eq_true.mp htime _ (hmem _ (List.mem_singleton_self _))
      dsimp only at hactive
      rw [hrow, Option.all_some, decide_eq_true_eq] at hactive
      exact ⟨row, hrow, hsame.skillId.symm.trans hskill, hactive, hsame.scanFindings ▸ hclean⟩
  | touched =>
    apply h.updateSkill
    intro versionId hmoved
    cases hmoved
  | unset =>
    apply h.updateSkill
    intro versionId hmoved
    cases hmoved
  | withdrawn =>
    apply h.updateVersion
    intro skillId skill hskill hcurrent
    rcases hrest _ (h.cleared htime (hmem _ (List.mem_singleton_self _)) hskill hcurrent) with hwrite | ⟨_, _, _, _, heq⟩
    · cases List.mem_singleton.mp hwrite
    · cases heq
  | @cleared skillId versionId =>
    -- the pointer is cleared first: the two writes are of different tables
    have hclear : (db.apply (.updateSkill skillId (some none))).DefaultBindable := by
      apply h.updateSkill
      intro _ hmoved
      cases hmoved
    apply hclear.updateVersion
    intro _ _ hskill hcurrent
    rw [Database.apply, Table.lookup_modify] at hskill
    split_ifs at hskill with hid
    · obtain ⟨_, _, rfl⟩ := Option.map_eq_some_iff.mp hskill
      cases hcurrent
    · rcases hrest _ (h.cleared htime (hmem _ List.mem_cons_self) hskill hcurrent) with hwrite | ⟨_, _, _, _, heq⟩
      · rcases List.mem_cons.mp hwrite with heq | hlast
        · cases heq
        · cases List.mem_singleton.mp hlast
          exact hid rfl
      · cases heq

theorem commit {session : Session} (h : db.DefaultBindable) (hgrounded : Grounded db session) (heffect : Effect session)
    (htime : inTime db session = true) : (session.view db).DefaultBindable := by
  rw [Session.view]
  cases heffect with
  | changed hchange _ => exact h.change hgrounded htime hchange (fun _ hmem => hmem) fun _ hmem => .inl hmem
  | @approved id decidedBy decidedAt changes hchange hwrites =>
    -- the decision itself is of another table
    have hdecided : (db.apply (.decide id .approved decidedBy decidedAt)).DefaultBindable := h
    have hknown : Grounded (db.apply (.decide id .approved decidedBy decidedAt)) session :=
      ⟨hgrounded.skill, hgrounded.version, hgrounded.skillOf, hgrounded.loaded⟩
    rw [hwrites]
    apply hdecided.change hknown htime hchange
    · intro write hmem
      rw [hwrites]
      exact List.mem_cons_of_mem _ hmem
    · intro _ hmem
      rw [hwrites] at hmem
      rcases List.mem_cons.mp hmem with rfl | hmem
      · exact .inr ⟨_, _, _, _, rfl⟩
      · exact .inl hmem
  | rejected hwrites =>
    rw [hwrites]
    exact h

end Database.DefaultBindable

section Example

def attempt (w : World) (act : Action) : Option (Unit × World) := (engine.step Command.program w act).map fun w' => ((), w')

def developer : Request where
  workspaceId := 1
  actorId := 2
  mayWrite := fun _ => true

def upload (contentHash : String) : Upload where
  package := some { name := "pdf", contentHash }
  findings := []

def drawn (versionId : Uuid) : Drawn where
  skillId := 3
  versionId := versionId
  now := 0

def alone (command : Command) (statements : Nat) : List Action :=
  .start 0 command :: (List.replicate statements (.advance 0) ++ [.finish 0])

end Example
end TinyHermes.Skills
