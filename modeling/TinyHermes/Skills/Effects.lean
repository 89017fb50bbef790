import TinyHermes.Skills.Catalog

/-! What each command of the catalog has written when it commits. -/
namespace TinyHermes.Skills
open Lib Runs

section Engine

theorem mem_locks {session : Session} {lock : Lock} : lock ∈ session.locks ↔ ∃ write ∈ session.writes, lock ∈ write.locks :=
  List.mem_flatMap

theorem locking_some {others : List Session} {write : Write} {α : Type} {result found : α} (h : locking others write result = some found) :
    (∀ lock ∈ write.locks, ∀ other ∈ others, lock ∉ other.locks) ∧ found = result := by
  unfold locking at h
  split_ifs at h with hfree
  refine ⟨?_, (Option.some.inj h).symm⟩
  intro lock hlock other hother
  simp only [free, List.all_eq_true] at hfree
  exact of_decide_eq_true (hfree lock hlock other hother)

/-- What a statement may do to a session, whatever is committed: nothing but to load, or one write that nobody else locks. -/
inductive Possible : Session → (s : Statement) → Answer s → Session → Prop where
  | skill {session id} (rows) :
      Possible session (.getSkill id) (getRow session.skills rows id) { session with skills := keepRow session.skills rows id }
  | version {session id} (rows) : Possible session (.getVersion id) (getRow session.versions rows id)
      { session with versions := keepRow session.versions rows id }
  | proposal {session id} (rows) : Possible session (.getProposal id) (getRow session.proposals rows id)
      { session with proposals := keepRow session.proposals rows id }
  | noContent {session skillId contentHash} : Possible session (.byContent skillId contentHash) none session
  | content {session skillId contentHash id row} (rows)
      (hknown : ∀ new, .insertSkill skillId new ∈ session.writes → ∃ own, .insertVersion id own ∈ session.writes) :
      Possible session (.byContent skillId contentHash) (some (id, row)) { session with versions := keepRow session.versions rows id }
  | highest {session skillId} (number) : Possible session (.highest skillId) number session
  | refusedSkill {session id row} : Possible session (.insertSkill id row) false session
  | insertedSkill {session id row} : Possible session (.insertSkill id row) true
      { session.wrote (.insertSkill id row) with skills := session.skills.insert id row }
  | refusedVersion {session id row} : Possible session (.insertVersion id row) false session
  | insertedVersion {session id row} : Possible session (.insertVersion id row) true
      { session.wrote (.insertVersion id row) with versions := session.versions.insert id row }
  | movedSkill {session id pointer} (moved) (hmoved : moved =
        if (session.skills.lookup id).any fun row => row.currentVersionId = pointer then none else some pointer) :
      Possible session (.updateSkill id pointer) () { session.wrote (.updateSkill id moved) with
        skills := session.skills.modify id fun row => row.move (some pointer) }
  | keptVersion {session id status} (h : (session.versions.lookup id).any fun row => row.status = status) :
      Possible session (.updateVersion id status) () session
  | updatedVersion {session id status} : Possible session (.updateVersion id status) ()
      { session.wrote (.updateVersion id status) with versions := session.versions.modify id fun row => { row with status } }
  | decided {session id status decidedBy decidedAt} : Possible session (.decide id status decidedBy decidedAt) ()
      { session.wrote (.decide id status decidedBy decidedAt) with
        proposals := session.proposals.modify id fun row => row.decided status decidedBy decidedAt }

end Engine

section Loading
variable {session later last : Session}

/-- The same writes, and every object that was loaded. -/
structure Session.Extends (session later : Session) : Prop where
  writes : later.writes = session.writes
  skills : ∀ id row, session.skills.lookup id = some row → later.skills.lookup id = some row
  versions : ∀ id row, session.versions.lookup id = some row → later.versions.lookup id = some row
  proposals : ∀ id row, session.proposals.lookup id = some row → later.proposals.lookup id = some row

theorem Session.Extends.refl (session : Session) : session.Extends session :=
  ⟨rfl, fun _ _ h => h, fun _ _ h => h, fun _ _ h => h⟩

theorem Session.Extends.trans (h : session.Extends later) (h' : later.Extends last) : session.Extends last where
  writes := h'.writes.trans h.writes
  skills id row hrow := h'.skills id row (h.skills id row hrow)
  versions id row hrow := h'.versions id row (h.versions id row hrow)
  proposals id row hrow := h'.proposals id row (h.proposals id row hrow)

variable {α : Type} {loaded rows : Table Uuid α} {id : Uuid} {row : α}

theorem lookup_keepRow (h : getRow loaded rows id = some row) : (keepRow loaded rows id).lookup id = some row := by
  unfold getRow at h
  unfold keepRow
  cases hloaded : loaded.lookup id with
  | some =>
    rw [hloaded, Option.some_or] at h
    rw [← h]
    exact hloaded
  | none =>
    rw [hloaded, Option.none_or] at h
    rw [h]
    exact AList.lookup_insert loaded

theorem keepRow_lookup {id' : Uuid} (h : loaded.lookup id' = some row) : (keepRow loaded rows id).lookup id' = some row := by
  unfold keepRow
  cases hloaded : loaded.lookup id with
  | some => exact h
  | none =>
    have hne : id' ≠ id := by
      rintro rfl
      rw [h] at hloaded
      cases hloaded
    cases rows.lookup id with
    | none => exact h
    | some => exact (AList.lookup_insert_ne hne).trans h

theorem keepRow_cases {id' : Uuid} (h : (keepRow loaded rows id).lookup id' = some row) :
    loaded.lookup id' = some row ∨ id' = id ∧ rows.lookup id = some row := by
  unfold keepRow at h
  cases hloaded : loaded.lookup id with
  | some =>
    rw [hloaded] at h
    exact .inl h
  | none =>
    rw [hloaded] at h
    cases hrows : rows.lookup id with
    | none =>
      rw [hrows] at h
      exact .inl h
    | some =>
      rw [hrows] at h
      dsimp only at h
      rw [Table.lookup_insert_ite] at h
      split_ifs at h with hid
      · exact .inr ⟨hid, h⟩
      · exact .inl h

theorem extends_skills (rows : Table Uuid SkillRow) (id : Uuid) :
    session.Extends { session with skills := keepRow session.skills rows id } :=
  ⟨rfl, fun _ _ h => keepRow_lookup h, fun _ _ h => h, fun _ _ h => h⟩

theorem extends_versions (rows : Table Uuid SkillVersionRow) (id : Uuid) :
    session.Extends { session with versions := keepRow session.versions rows id } :=
  ⟨rfl, fun _ _ h => h, fun _ _ h => keepRow_lookup h, fun _ _ h => h⟩

theorem extends_proposals (rows : Table Uuid SkillProposalRow) (id : Uuid) :
    session.Extends { session with proposals := keepRow session.proposals rows id } :=
  ⟨rfl, fun _ _ h => h, fun _ _ h => h, fun _ _ h => keepRow_lookup h⟩

end Loading

section Specs
variable {session : Session} {request : Request}

/-- Wherever the program comes to an end, whatever is committed meanwhile. -/
abbrev Leads {α : Type} (program : Catalog α) (session : Session) (post : α → Session → Prop) : Prop :=
  program.Leads Possible post session

theorem leads_ask {s : Statement} {post : Answer s → Session → Prop} (h : ∀ answer later, Possible session s answer later → post answer later) :
    Leads (ask s) session post := h

theorem leads_getSkill (id : Uuid) : Leads (getSkill id) session fun found later =>
    session.Extends later ∧ ∀ row, found = some row → later.skills.lookup id = some row := by
  apply leads_ask
  intro _ _ h
  cases h with
  | skill rows => exact ⟨extends_skills rows id, fun row hrow => lookup_keepRow hrow⟩

theorem leads_getVersion (id : Uuid) : Leads (getVersion id) session fun found later =>
    session.Extends later ∧ ∀ row, found = some row → later.versions.lookup id = some row := by
  apply leads_ask
  intro _ _ h
  cases h with
  | version rows => exact ⟨extends_versions rows id, fun row hrow => lookup_keepRow hrow⟩

theorem leads_getProposal (id : Uuid) : Leads (getProposal id) session fun found later =>
    session.Extends later ∧ ∀ row, found = some row → later.proposals.lookup id = some row := by
  apply leads_ask
  intro _ _ h
  cases h with
  | proposal rows => exact ⟨extends_proposals rows id, fun row hrow => lookup_keepRow hrow⟩

theorem leads_visible (skillId : Uuid) : Leads (visible request skillId) session fun row later =>
    session.Extends later ∧ later.skills.lookup skillId = some row := by
  apply Prog.Leads.bind (leads_getSkill skillId)
  rintro found _ ⟨hextends, hloaded⟩
  cases found with
  | none => exact trivial
  | some row =>
    dsimp only
    split_ifs
    · exact ⟨hextends, hloaded row rfl⟩
    · exact trivial
    · exact ⟨hextends, hloaded row rfl⟩

theorem leads_requireWriter (scope : SkillScope) : Leads (requireWriter request scope) session fun _ later => later = session := by
  unfold requireWriter
  split_ifs
  · rfl
  · exact trivial

theorem leads_writable (skillId : Uuid) : Leads (writable request skillId) session fun row later =>
    session.Extends later ∧ later.skills.lookup skillId = some row := by
  apply Prog.Leads.bind (leads_visible skillId)
  rintro row _ ⟨hextends, hloaded⟩
  apply Prog.Leads.bind (leads_requireWriter row.scope)
  rintro _ _ rfl
  exact ⟨hextends, hloaded⟩

theorem leads_accept (upload : Upload) : Leads (accept upload) session fun _ later =>
    later = session ∧ blocking upload.findings = [] := by
  unfold accept
  cases upload.package with
  | none => exact trivial
  | some =>
    dsimp only
    split_ifs with hblocking
    · exact trivial
    · exact ⟨rfl, not_not.mp hblocking⟩

theorem leads_insertSkill (id : Uuid) (row : SkillRow) : Leads (insertSkill id row) session fun _ later =>
    later = { session.wrote (.insertSkill id row) with skills := session.skills.insert id row } := by
  apply Prog.Leads.bind (leads_ask fun answer later h => h)
  rintro _ _ h
  cases h with
  | refusedSkill => exact trivial
  | insertedSkill => rfl

/-- What `add_version` does: it inserts a version, or finds one. -/
inductive Added (session : Session) (skillId : Uuid) (scanFindings : List Finding) (sourceRef : Option SourceRef) :
    VersionResult → Session → Prop where
  | inserted {id row later} (hwrites : later.writes = session.writes ++ [.insertVersion id row]) (hskills : later.skills = session.skills)
      (hskill : row.skillId = skillId) (hstatus : row.status = .active) (hfindings : row.scanFindings = scanFindings)
      (href : row.sourceRef = sourceRef) : Added session skillId scanFindings sourceRef { id, row, created := true } later
  | found {id row later} (hextends : session.Extends later)
      (hknown : ∀ new, .insertSkill skillId new ∈ session.writes → ∃ own, .insertVersion id own ∈ session.writes) :
      Added session skillId scanFindings sourceRef { id, row, created := false } later

theorem leads_addVersion (id skillId : Uuid) (package : SkillPackage) (scanFindings : List Finding) (source : SkillSource)
    (sourceRef : Option SourceRef) : Leads (addVersion id skillId package scanFindings source sourceRef) session
      (Added session skillId scanFindings sourceRef) := by
  apply Prog.Leads.bind (leads_ask fun answer later h => h)
  rintro _ later h
  cases h with
  | content rows hknown => exact .found (extends_versions rows _) hknown
  | noContent =>
    apply Prog.Leads.bind (leads_ask fun answer later h => h)
    rintro _ later h
    cases h with
    | highest =>
      apply Prog.Leads.bind (leads_ask fun answer later h => h)
      rintro _ later h
      cases h with
      | insertedVersion => exact .inserted rfl rfl rfl rfl rfl rfl
      | refusedVersion =>
        apply Prog.Leads.bind (leads_ask fun answer later h => h)
        rintro _ _ h
        cases h with
        | noContent => exact trivial
        | content rows hknown => exact .found (extends_versions rows _) hknown

theorem getRow_loaded {α : Type} {loaded : Table Uuid α} {id : Uuid} {row : α} (rows : Table Uuid α) (h : loaded.lookup id = some row) :
    getRow loaded rows id = some row ∧ keepRow loaded rows id = loaded := by
  unfold getRow keepRow
  rw [h]
  exact ⟨rfl, rfl⟩

theorem leads_movePointer (id : Uuid) (pointer : Option Uuid) {row : SkillRow} (hloaded : session.skills.lookup id = some row) :
    Leads (movePointer id pointer) session fun moved later => moved = true ∧ later.versions = session.versions ∧
      later.writes = session.writes ++ [.updateSkill id (if row.currentVersionId = pointer then none else some pointer)] := by
  apply Prog.Leads.bind (leads_ask fun answer later h => h)
  rintro _ later h
  cases h with
  | skill rows =>
    obtain ⟨hfound, hkept⟩ := getRow_loaded rows hloaded
    rw [hfound, hkept]
    apply Prog.Leads.bind (leads_ask fun answer later h => h)
    rintro _ _ h
    cases h with
    | movedSkill moved hmoved =>
      have hrow : (session.skills.lookup id).any (fun row => row.currentVersionId = pointer) = decide (row.currentVersionId = pointer) := by
        rw [hloaded, Option.any_some]
      rw [hrow] at hmoved
      simp only [decide_eq_true_eq] at hmoved
      rw [hmoved]
      exact ⟨rfl, rfl, rfl⟩

theorem leads_setVersionStatus (id : Uuid) (status : SkillVersionStatus) {row : SkillVersionRow}
    (hloaded : session.versions.lookup id = some row) :
    Leads (setVersionStatus id status) session fun done later => done = true ∧ later.skills = session.skills ∧
      (later.writes = session.writes ∨ later.writes = session.writes ++ [.updateVersion id status]) := by
  apply Prog.Leads.bind (leads_ask fun answer later h => h)
  rintro _ later h
  cases h with
  | version rows =>
    obtain ⟨hfound, hkept⟩ := getRow_loaded rows hloaded
    rw [hfound, hkept]
    apply Prog.Leads.bind (leads_ask fun answer later h => h)
    rintro _ _ h
    cases h with
    | keptVersion => exact ⟨rfl, rfl, .inl rfl⟩
    | updatedVersion => exact ⟨rfl, rfl, .inr rfl⟩

theorem leads_decideProposal (id : Uuid) (status : ProposalStatus) (decidedBy : Uuid) (decidedAt : Time) :
    Leads (decideProposal id status decidedBy decidedAt) session fun done later => done = true →
      later.writes = session.writes ++ [.decide id status decidedBy decidedAt] := by
  apply Prog.Leads.bind (leads_getProposal id)
  rintro found later ⟨hextends, _⟩
  cases found with
  | none => exact fun h => absurd h Bool.false_ne_true
  | some =>
    dsimp only
    split_ifs with hpending
    · exact fun h => absurd h Bool.false_ne_true
    · apply Prog.Leads.bind (leads_ask fun answer later h => h)
      rintro _ _ h _
      cases h with
      | decided => exact congrArg (· ++ _) hextends.writes

end Specs

section Effects

/-- What a transaction has written of skills and versions; `ref` is the reference of a version that it added. -/
inductive Change (session : Session) (ref : Option SourceRef) : List Write → Prop where
  | none : Change session ref []
  | version {id row} (href : row.sourceRef = ref) : Change session ref [.insertVersion id row]
  | first {skillId skill versionId version} (hpointer : skill.currentVersionId = none) (hskill : version.skillId = skillId)
      (hbindable : version.bindable = true) (href : version.sourceRef = ref) : Change session ref
        [.insertSkill skillId skill, .insertVersion versionId version, .updateSkill skillId (some (some versionId))]
  | moved {skillId versionId version} (hloaded : session.versions.lookup versionId = some version) (hskill : version.skillId = skillId)
      (hclean : blocking version.scanFindings = []) : Change session ref [.updateSkill skillId (some (some versionId))]
  | touched {skillId} : Change session ref [.updateSkill skillId none]
  | withdrawn {versionId} : Change session ref [.updateVersion versionId .withdrawn]
  | cleared {skillId versionId} : Change session ref [.updateVersion versionId .withdrawn, .updateSkill skillId (some none)]
  | unset {skillId} : Change session ref [.updateSkill skillId (some none)]

/-- What a transaction of the catalog has written when it comes to its end. -/
inductive Effect (session : Session) : Prop where
  | changed {ref} (h : Change session ref session.writes) (href : ∀ id, ref ≠ some (.proposal id))
  | approved {id decidedBy decidedAt changes} (h : Change session (some (.proposal id)) changes)
      (hwrites : session.writes = .decide id .approved decidedBy decidedAt :: changes)
  | rejected {id decidedBy decidedAt} (hwrites : session.writes = [.decide id .rejected decidedBy decidedAt])

variable {session : Session} {request : Request} {ref : Option SourceRef}

theorem leads_publishNew {skill : SkillRow} {skillId versionId : Uuid} {package : SkillPackage}
    {findings : List Finding} {source : SkillSource} (hpointer : skill.currentVersionId = none) (hclean : blocking findings = [])
    (hnew : ∀ id own, .insertVersion id own ∉ session.writes) :
    Leads (do
      insertSkill skillId skill
      let result ← addVersion versionId skillId package findings source ref
      if ← movePointer skillId (some result.id) then pure () else .refuse .unknownSkill) session
      fun _ later => ∃ changes, later.writes = session.writes ++ changes ∧ Change later ref changes := by
  apply Prog.Leads.bind (leads_insertSkill skillId skill)
  rintro _ _ rfl
  apply Prog.Leads.bind (leads_addVersion _ _ _ _ _ _)
  rintro _ later hadded
  cases hadded with
  | found _ hknown =>
    obtain ⟨own, hown⟩ := hknown skill (List.mem_append_right _ (List.mem_singleton_self _))
    rcases List.mem_append.mp hown with hown | hown
    · exact absurd hown (hnew _ own)
    · cases List.mem_singleton.mp hown
  | @inserted id row later hwrites hskills hskill hstatus hfindings href =>
    have hloaded : later.skills.lookup skillId = some skill := by
      rw [hskills]
      exact AList.lookup_insert _
    apply Prog.Leads.bind (leads_movePointer skillId (some id) hloaded)
    rintro _ last ⟨rfl, _, hlast⟩
    have hbindable : row.bindable = true := by
      simp [SkillVersionRow.bindable, hstatus, hfindings, hclean]
    refine ⟨_, ?_, @Change.first last ref skillId skill id row hpointer hskill hbindable href⟩
    rw [hlast, hwrites, hpointer]
    simp [Session.wrote]

theorem leads_publishOld {skillId versionId : Uuid} {package : SkillPackage} {findings : List Finding}
    {source : SkillSource} :
    Leads (do
      let _ ← addVersion versionId skillId package findings source ref
      pure ()) session fun _ later => ∃ changes, later.writes = session.writes ++ changes ∧ Change later ref changes := by
  apply Prog.Leads.bind (leads_addVersion _ _ _ _ _ _)
  rintro _ _ hadded
  cases hadded with
  | found hextends => exact ⟨[], by rw [hextends.writes, List.append_nil], .none⟩
  | inserted hwrites _ _ _ _ href => exact ⟨_, hwrites, .version href⟩

theorem leads_publishFirst {scope : SkillScope} {upload : Upload} {source : SkillSource} {drawn : Drawn}
    (hempty : session.writes = []) (href : ∀ id, ref ≠ some (.proposal id)) :
    Leads (publishFirst request scope upload source ref drawn) session fun _ later => Effect later := by
  have hnew : ∀ id own, Write.insertVersion id own ∉ session.writes := by
    intro _ _
    rw [hempty]
    exact List.not_mem_nil
  apply Prog.Leads.bind (leads_accept upload)
  rintro _ _ ⟨rfl, hclean⟩
  apply Prog.Leads.mono (leads_publishNew rfl hclean hnew)
  rintro _ _ ⟨_, hwrites, hchange⟩
  rw [hempty, List.nil_append] at hwrites
  subst hwrites
  exact .changed hchange href

theorem leads_publishNext {skillId : Uuid} {skill : SkillRow} {upload : Upload} {source : SkillSource}
    {drawn : Drawn} (hempty : session.writes = []) (href : ∀ id, ref ≠ some (.proposal id)) :
    Leads (publishNext skillId skill upload source ref drawn) session fun _ later => Effect later := by
  apply Prog.Leads.bind (leads_accept upload)
  rintro _ _ ⟨rfl, _⟩
  split_ifs
  · exact trivial
  · apply Prog.Leads.mono leads_publishOld
    rintro _ _ ⟨_, hwrites, hchange⟩
    rw [hempty, List.nil_append] at hwrites
    subst hwrites
    exact .changed hchange href

theorem leads_withdrawVersion (skillId versionId : Uuid) :
    Leads (withdrawVersion request skillId versionId) Session.empty fun _ later => Effect later := by
  apply Prog.Leads.bind (leads_writable skillId)
  rintro skill _ ⟨hextends, hskill⟩
  apply Prog.Leads.bind (leads_getVersion versionId)
  rintro found loaded ⟨hextends', hfound⟩
  cases found with
  | none => exact trivial
  | some version =>
    dsimp only
    split
    · exact trivial
    · apply Prog.Leads.bind (leads_setVersionStatus versionId .withdrawn (hfound version rfl))
      rintro _ last ⟨rfl, hskills, hstatus⟩
      have hnone : loaded.writes = [] := (hextends.trans hextends').writes
      rw [hnone] at hstatus
      rw [if_pos rfl]
      split
      · next hcurrent =>
        have hloaded : last.skills.lookup skillId = some skill := by
          rw [hskills]
          exact hextends'.skills _ _ hskill
        apply Prog.Leads.bind (leads_movePointer skillId none hloaded)
        rintro _ _ ⟨_, _, hfinal⟩
        rw [if_neg (by rw [hcurrent]; exact Option.some_ne_none _)] at hfinal
        have href : ∀ id, (none : Option SourceRef) ≠ some (.proposal id) := fun _ h => nomatch h
        rcases hstatus with hstatus | hstatus
        · rw [hstatus] at hfinal
          exact .changed (hfinal ▸ .unset) href
        · rw [hstatus] at hfinal
          exact .changed (hfinal ▸ .cleared) href
      · have href : ∀ id, (none : Option SourceRef) ≠ some (.proposal id) := fun _ h => nomatch h
        rcases hstatus with hstatus | hstatus
        · exact .changed (hstatus ▸ .none) href
        · exact .changed (hstatus ▸ .withdrawn) href

theorem leads_setCurrentVersion (skillId versionId : Uuid) :
    Leads (setCurrentVersion request skillId versionId) Session.empty fun _ later => Effect later := by
  have href : ∀ id, (none : Option SourceRef) ≠ some (.proposal id) := fun _ h => nomatch h
  apply Prog.Leads.bind (leads_writable skillId)
  rintro skill _ ⟨hextends, hskill⟩
  apply Prog.Leads.bind (leads_getVersion versionId)
  rintro found _ ⟨hextends', hfound⟩
  cases found with
  | none => exact trivial
  | some version =>
    dsimp only
    split_ifs with hother hbindable
    · exact trivial
    · exact trivial
    · apply Prog.Leads.bind (leads_movePointer skillId (some versionId) (hextends'.skills _ _ hskill))
      rintro moved final ⟨rfl, hversions, hfinal⟩
      rw [(hextends.trans hextends').writes] at hfinal
      rw [SkillVersionRow.bindable, Bool.not_eq_true', Bool.not_eq_false, Bool.and_eq_true] at hbindable
      by_cases hcurrent : skill.currentVersionId = some versionId
      · rw [if_pos hcurrent] at hfinal
        exact .changed (hfinal ▸ .touched) href
      · rw [if_neg hcurrent] at hfinal
        have hloaded : final.versions.lookup versionId = some version := by
          rw [hversions]
          exact hfound version rfl
        exact .changed (hfinal ▸ .moved hloaded (not_not.mp hother) (List.isEmpty_iff.mp hbindable.2)) href

theorem leads_proposalIn (proposalId : Uuid) : Leads (proposalIn request proposalId) session fun _ later => session.Extends later := by
  apply Prog.Leads.bind (leads_getProposal proposalId)
  rintro found _ ⟨hextends, _⟩
  cases found with
  | none => exact trivial
  | some =>
    dsimp only
    split_ifs
    · exact trivial
    · exact hextends

theorem leads_decidable (proposal : SkillProposalRow) : Leads (decidable request proposal) session fun _ later => session.Extends later := by
  unfold decidable
  cases proposal.skillId with
  | none =>
    apply Prog.Leads.mono (leads_requireWriter .workspace)
    rintro _ _ rfl
    exact .refl _
  | some skillId =>
    apply Prog.Leads.bind (leads_writable skillId)
    rintro _ _ ⟨hextends, _⟩
    exact hextends

theorem leads_approveProposal (proposalId : Uuid) (drawn : Drawn) :
    Leads (approveProposal request proposalId drawn) Session.empty fun _ later => Effect later := by
  apply Prog.Leads.bind (leads_proposalIn proposalId)
  rintro proposal _ hextends
  apply Prog.Leads.bind (leads_decidable proposal)
  rintro _ _ hextends'
  dsimp only
  split_ifs with hpending hblocking
  · exact trivial
  · exact trivial
  · apply Prog.Leads.bind (leads_decideProposal proposalId .approved request.actorId drawn.now)
    rintro _ last hdone
    rw [(hextends.trans hextends').writes] at hdone
    split_ifs with hok
    · have hlast := hdone hok
      have hnew : ∀ id own, Write.insertVersion id own ∉ last.writes := by
        intro _ _ hmem
        rw [hlast] at hmem
        cases List.mem_singleton.mp hmem
      cases hskill : proposal.skillId with
      | some =>
        apply Prog.Leads.mono leads_publishOld
        rintro _ final ⟨changes, hwrites, hchange⟩
        rw [hlast] at hwrites
        exact .approved hchange hwrites
      | none =>
        apply Prog.Leads.mono (leads_publishNew rfl (not_not.mp hblocking) hnew)
        rintro _ _ ⟨_, hwrites, hchange⟩
        rw [hlast] at hwrites
        exact .approved hchange hwrites
    · exact trivial

theorem leads_rejectProposal (proposalId : Uuid) (now : Time) :
    Leads (rejectProposal request proposalId now) Session.empty fun _ later => Effect later := by
  apply Prog.Leads.bind (leads_proposalIn proposalId)
  rintro proposal _ hextends
  apply Prog.Leads.bind (leads_decidable proposal)
  rintro _ _ hextends'
  apply Prog.Leads.bind (leads_decideProposal proposalId .rejected request.actorId now)
  rintro _ _ hdone
  rw [(hextends.trans hextends').writes] at hdone
  split_ifs with hok
  · exact .rejected (hdone hok)
  · exact trivial

theorem leads_program (command : Command) : Leads command.program Session.empty fun _ later => Effect later := by
  have href : ∀ id, (none : Option SourceRef) ≠ some (.proposal id) := fun _ h => nomatch h
  have hgit : ∀ ref id, some (SourceRef.git ref) ≠ some (.proposal id) := fun _ _ h => nomatch h
  cases command with
  | createSkill _ scope =>
    apply Prog.Leads.bind (leads_requireWriter scope)
    rintro _ _ rfl
    exact leads_publishFirst rfl href
  | importSkill _ scope fetched =>
    apply Prog.Leads.bind (leads_requireWriter scope)
    rintro _ _ rfl
    cases fetched with
    | none => exact trivial
    | some found => exact leads_publishFirst rfl (hgit found.1)
  | uploadVersion _ skillId =>
    apply Prog.Leads.bind (leads_writable skillId)
    rintro skill later ⟨hextends, _⟩
    exact leads_publishNext hextends.writes href
  | importVersion _ skillId fetched =>
    apply Prog.Leads.bind (leads_writable skillId)
    rintro _ _ ⟨hextends, _⟩
    cases fetched with
    | none => exact trivial
    | some found => exact leads_publishNext hextends.writes (hgit found.1)
  | withdrawVersion request skillId versionId => exact leads_withdrawVersion skillId versionId
  | setCurrentVersion request skillId versionId => exact leads_setCurrentVersion skillId versionId
  | approveProposal request proposalId drawn => exact leads_approveProposal proposalId drawn
  | rejectProposal request proposalId now => exact leads_rejectProposal proposalId now

end Effects
end TinyHermes.Skills
