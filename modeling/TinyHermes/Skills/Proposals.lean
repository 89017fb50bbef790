import TinyHermes.Skills.Sessions

/-! The decisions on a proposal, under any commands beside each other. -/
namespace TinyHermes.Skills
open Lib Runs

structure Decision where
  status : ProposalStatus
  decidedBy : Uuid
  decidedAt : Time
  deriving DecidableEq, Repr

def Write.decision (proposalId : Uuid) : Write → Option Decision
  | .decide id status decidedBy decidedAt => if id = proposalId then some { status, decidedBy, decidedAt } else none
  | _ => none

def SkillProposalRow.take (row : SkillProposalRow) (decision : Decision) : SkillProposalRow :=
  row.decided decision.status decision.decidedBy decision.decidedAt

def Write.first (db : Database) : Write → Bool
  | .decide id _ _ _ => (db.proposals.lookup id).any fun proposal => proposal.status = .pending
  | _ => true

def stillPending (db : Database) (session : Session) : Bool := session.writes.all (Write.first db)

def DecidedOnce (before after : Option SkillProposalRow) (made : List Decision) : Prop :=
  made = [] ∧ after = before ∨
    ∃ row decision, before = some row ∧ row.status = .pending ∧ made = [decision] ∧ decision.status ≠ .pending ∧
      after = some (row.take decision)

structure Database.Sourced (db : Database) : Prop where
  approved : ∀ id version proposalId, db.versions.lookup id = some version → version.sourceRef = some (.proposal proposalId) →
    ∃ proposal, db.proposals.lookup proposalId = some proposal ∧ proposal.status = .approved
  single : ∀ id version id' version' proposalId, db.versions.lookup id = some version → version.sourceRef = some (.proposal proposalId) →
    db.versions.lookup id' = some version' → version'.sourceRef = some (.proposal proposalId) → id = id'

section Changes
variable {session : Session} {ref : Option SourceRef} {changes : List Write} {db : Database}

/-- Apart from its decision a transaction decides nothing, and it adds one version at most. -/
structure Undecided (ref : Option SourceRef) (changes : List Write) : Prop where
  proposals : ∀ db : Database, (db.applyAll changes).proposals = db.proposals
  decision : ∀ proposalId, changes.filterMap (Write.decision proposalId) = []
  source : ∀ id row, .insertVersion id row ∈ changes → row.sourceRef = ref
  single : ∀ id row id' row', .insertVersion id row ∈ changes → .insertVersion id' row' ∈ changes → id = id'

theorem Change.undecided (h : Change session ref changes) : Undecided ref changes := by
  refine ⟨?_, ?_, ?_, ?_⟩
  · intro _
    cases h <;> rfl
  · intro _
    cases h <;> rfl
  · intro id row hmem
    cases h with
    | version href =>
      cases List.mem_singleton.mp hmem
      exact href
    | first _ _ _ href =>
      simp only [List.mem_cons, List.not_mem_nil, or_false, reduceCtorEq, false_or, Write.insertVersion.injEq] at hmem
      rw [hmem.2]
      exact href
    | _ => simp at hmem
  · intro _ _ _ _ hmem hmem'
    cases h with
    | version =>
      cases List.mem_singleton.mp hmem
      cases List.mem_singleton.mp hmem'
      rfl
    | first =>
      simp only [List.mem_cons, List.not_mem_nil, or_false, reduceCtorEq, false_or, Write.insertVersion.injEq] at hmem hmem'
      rw [hmem.1, hmem'.1]
    | _ => simp at hmem

theorem Undecided.origin (h : Undecided ref changes) {id proposalId : Uuid} {version : SkillVersionRow}
    (hlookup : (db.applyAll changes).versions.lookup id = some version) (hsource : version.sourceRef = some (.proposal proposalId)) :
    (∃ old, db.versions.lookup id = some old ∧ old.sourceRef = some (.proposal proposalId)) ∨
      ref = some (.proposal proposalId) ∧ ∃ row, .insertVersion id row ∈ changes := by
  rcases version_origin hlookup with ⟨old, hold, hsame⟩ | ⟨row, hrow, hsame⟩
  · exact .inl ⟨old, hold, hsame.sourceRef.symm.trans hsource⟩
  · refine .inr ⟨?_, row, hrow⟩
    rw [← h.source id row hrow, ← hsame.sourceRef, hsource]

end Changes

section Committing
variable {session : Session} {db : Database}

theorem first_pending {id : Uuid} {status : ProposalStatus} {decidedBy : Uuid} {decidedAt : Time} (h : stillPending db session = true)
    (hmem : .decide id status decidedBy decidedAt ∈ session.writes) :
    ∃ row, db.proposals.lookup id = some row ∧ row.status = .pending := by
  obtain ⟨row, hrow, hpending⟩ := (Option.any_eq_true _ _).mp (List.all_eq_true.mp h _ hmem)
  exact ⟨row, hrow, of_decide_eq_true hpending⟩

theorem Database.Sourced.unused (h : db.Sourced) {proposalId : Uuid} {row : SkillProposalRow}
    (hlookup : db.proposals.lookup proposalId = some row) (hpending : row.status = .pending) {id : Uuid} {version : SkillVersionRow}
    (hversion : db.versions.lookup id = some version) : version.sourceRef ≠ some (.proposal proposalId) := by
  intro hsource
  obtain ⟨_, hproposal, happroved⟩ := h.approved id version proposalId hversion hsource
  rw [hlookup] at hproposal
  rw [← Option.some.inj hproposal, hpending] at happroved
  cases happroved

theorem decide_proposal (db : Database) (id : Uuid) (status : ProposalStatus) (decidedBy : Uuid) (decidedAt : Time) (proposalId : Uuid) :
    (db.apply (.decide id status decidedBy decidedAt)).proposals.lookup proposalId =
      if proposalId = id then (db.proposals.lookup proposalId).map fun row => row.decided status decidedBy decidedAt
      else db.proposals.lookup proposalId :=
  Table.lookup_modify _ _ _ _

theorem Database.Sourced.decide (h : db.Sourced) {id : Uuid} {status : ProposalStatus} {decidedBy : Uuid} {decidedAt : Time}
    {row : SkillProposalRow} (hlookup : db.proposals.lookup id = some row) (hpending : row.status = .pending) :
    (db.apply (.decide id status decidedBy decidedAt)).Sourced where
  approved id' version proposalId hversion hsource := by
    obtain ⟨proposal, hproposal, happroved⟩ := h.approved id' version proposalId hversion hsource
    refine ⟨proposal, ?_, happroved⟩
    have hne : proposalId ≠ id := by
      rintro rfl
      exact h.unused hlookup hpending hversion hsource
    rw [decide_proposal, if_neg hne]
    exact hproposal
  single := h.single

theorem Database.Sourced.change (h : db.Sourced) {ref : Option SourceRef} {changes : List Write} (hundecided : Undecided ref changes)
    (hnew : ∀ proposalId, ref = some (.proposal proposalId) →
      (∃ proposal, db.proposals.lookup proposalId = some proposal ∧ proposal.status = .approved) ∧
        ∀ id version, db.versions.lookup id = some version → version.sourceRef ≠ some (.proposal proposalId)) :
    (db.applyAll changes).Sourced where
  approved id version proposalId hversion hsource := by
    rw [hundecided.proposals]
    rcases hundecided.origin hversion hsource with ⟨old, hold, hsource⟩ | ⟨href, -⟩
    · exact h.approved id old proposalId hold hsource
    · exact (hnew proposalId href).1
  single id version id' version' proposalId hversion hsource hversion' hsource' := by
    rcases hundecided.origin hversion hsource with ⟨old, hold, hfrom⟩ | ⟨href, row, hrow⟩
    · rcases hundecided.origin hversion' hsource' with ⟨old', hold', hfrom'⟩ | ⟨href, -⟩
      · exact h.single id old id' old' proposalId hold hfrom hold' hfrom'
      · exact absurd hfrom ((hnew proposalId href).2 id old hold)
    · rcases hundecided.origin hversion' hsource' with ⟨old', hold', hfrom'⟩ | ⟨-, row', hrow'⟩
      · exact absurd hfrom' ((hnew proposalId href).2 id' old' hold')
      · exact hundecided.single id row id' row' hrow hrow'

theorem Database.Sourced.commit (h : db.Sourced) (heffect : Effect session) (hpending : stillPending db session = true) :
    (session.view db).Sourced := by
  cases heffect with
  | changed hchange href => exact h.change hchange.undecided fun proposalId heq => absurd heq (href proposalId)
  | @approved id decidedBy decidedAt changes hchange hwrites =>
    obtain ⟨row, hrow, hstatus⟩ := first_pending hpending (hwrites ▸ List.mem_cons_self)
    have hdecided : (db.apply (.decide id .approved decidedBy decidedAt)).Sourced := h.decide hrow hstatus
    rw [Session.view, hwrites]
    apply hdecided.change hchange.undecided
    rintro proposalId heq
    obtain rfl : id = proposalId := by
      cases heq
      rfl
    refine ⟨⟨row.decided .approved decidedBy decidedAt, ?_, rfl⟩, fun id' version hversion => h.unused hrow hstatus hversion⟩
    rw [decide_proposal, if_pos rfl, hrow]
    rfl
  | rejected hwrites =>
    obtain ⟨_, hrow, hstatus⟩ := first_pending hpending (hwrites ▸ List.mem_singleton_self _)
    rw [Session.view, hwrites]
    exact h.decide hrow hstatus

theorem DecidedOnce.trans {before middle after : Option SkillProposalRow} {made more : List Decision} (h : DecidedOnce before middle made)
    (h' : DecidedOnce middle after more) : DecidedOnce before after (made ++ more) := by
  rcases h with ⟨rfl, rfl⟩ | ⟨row, decision, rfl, hpending, rfl, hdecided, rfl⟩
  · exact h'
  · rcases h' with ⟨rfl, rfl⟩ | ⟨_, _, hrow', hpending', _⟩
    · exact .inr ⟨row, decision, rfl, hpending, rfl, hdecided, rfl⟩
    · rw [← Option.some.inj hrow'] at hpending'
      exact absurd hpending' hdecided

end Committing

section Runs
variable {db : Database} {log : List (Commit World Action Unit)} {w : World}

def InOrder (log : List (Commit World Action Unit)) : Prop :=
  ∀ c ∈ log, ∀ session, Engine.committed c = some session → stillPending c.before.db session = true

end Runs
end TinyHermes.Skills
