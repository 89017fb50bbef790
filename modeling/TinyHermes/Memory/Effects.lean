import TinyHermes.Memory.Store

/-! What each command on a memory has written when it commits. -/
namespace TinyHermes.Memory
open Lib Runs Runs.ApprovalDecisions
open Skills (getRow keepRow lookup_keepRow keepRow_lookup keepRow_cases getRow_loaded)

/-- What a statement may do to a session, whatever is committed: nothing but to load, or one write. -/
inductive Possible : Session → (s : Statement) → Answer s → Session → Prop where
  | loaded {session id} (rows) :
      Possible session (.get id) (getRow session.memories rows id) { session with memories := keepRow session.memories rows id }
  | refused {session id row} : Possible session (.insert id row) false session
  | inserted {session id row} (hnew : session.memories.lookup id = none) : Possible session (.insert id row) true
      { session.wrote (.insert id row) with memories := session.memories.insert id row }
  | updated {session id status updatedAt} (moved) (hmoved : moved =
        if (session.memories.lookup id).any fun row => row.status = status then none else some status) :
      Possible session (.update id status updatedAt) () { session.wrote (.update id moved updatedAt) with
        memories := session.memories.modify id fun row => row.move (some status) updatedAt }
  | appended {session event} : Possible session (.append event) () (session.wrote (.append event))

/-- Only the record that somebody acted on another's behalf. -/
def Acting (writes : List Write) : Prop := writes = [] ∨ ∃ event, writes = [.append event] ∧ event.action = .actedOnBehalf

def Adding (id : Uuid) (writes : List Write) : Prop :=
  writes = [] ∨ ∃ new row, writes = [.insert new row] ∧ row.status = .active ∧ new ≠ id

/-- What a transaction on a memory has written when it comes to its end. -/
inductive Effect (session : Session) : Prop where
  | reviewed {id status updatedAt event row} (hstatus : status ≠ .pending) (hloaded : session.memories.lookup id = some row)
      (haction : event.action = .decided status) (hresource : event.resourceId = id)
      (hwrites : session.writes = [.update id (some status) updatedAt, .append event])
  | withdrawn {id moved updatedAt event row acted added} (hmoved : moved = none ∨ moved = some .rejected)
      (hloaded : session.memories.lookup id = some row) (hstatus : row.status = .rejected)
      (haction : event.action = .corrected ∨ event.action = .forgotten) (hresource : event.resourceId = id)
      (hacted : Acting acted) (hadded : Adding id added)
      (hwrites : session.writes = acted ++ .update id moved updatedAt :: (added ++ [.append event]))

section Specs
variable {session : Session} {request : Request}

/-- Wherever the program comes to an end, whatever is committed meanwhile. -/
abbrev Leads {α : Type} (program : Reviews α) (session : Session) (post : α → Session → Prop) : Prop :=
  program.Leads Possible post session

theorem leads_ask {s : Statement} {post : Answer s → Session → Prop} (h : ∀ answer later, Possible session s answer later → post answer later) :
    Leads (ask s) session post := h

theorem leads_get (id : Uuid) : Leads (get id) session fun found later =>
    later.writes = session.writes ∧ ∀ row, found = some row → later.memories.lookup id = some row := by
  apply leads_ask
  intro _ _ h
  cases h with
  | loaded => exact ⟨rfl, fun row hrow => lookup_keepRow hrow⟩

theorem leads_get_loaded (id : Uuid) {row : MemoryRow} (h : session.memories.lookup id = some row) :
    Leads (get id) session fun found later => found = some row ∧ later = session := by
  apply leads_ask
  intro _ _ hpossible
  cases hpossible with
  | loaded rows =>
    obtain ⟨hfound, hkept⟩ := getRow_loaded rows h
    rw [hfound, hkept]
    exact ⟨rfl, rfl⟩

theorem leads_appendAudit (actorType : CallerType) (action : MemoryAction) (resourceId : Uuid) :
    Leads (appendAudit request actorType action resourceId) session fun _ later => later.memories = session.memories ∧
      ∃ event, later.writes = session.writes ++ [.append event] ∧ event.action = action ∧ event.resourceId = resourceId := by
  apply leads_ask
  intro _ _ h
  cases h with
  | appended => exact ⟨rfl, _, rfl, rfl, rfl⟩

theorem leads_update {id : Uuid} {status : MemoryStatus} {updatedAt : Time} {row : MemoryRow}
    (hloaded : session.memories.lookup id = some row) :
    Leads (ask (.update id status updatedAt)) session fun _ later =>
      later.memories.lookup id = some (row.move (some status) updatedAt) ∧
        later.writes = session.writes ++ [.update id (if row.status = status then none else some status) updatedAt] := by
  apply leads_ask
  intro _ _ h
  cases h with
  | updated moved hmoved =>
    rw [hloaded, Option.any_some] at hmoved
    simp only [decide_eq_true_eq] at hmoved
    rw [hmoved]
    refine ⟨?_, rfl⟩
    dsimp only
    rw [Table.lookup_modify_self, hloaded]
    rfl

theorem leads_setStatus {missing : MemoryError} {id : Uuid} {status : MemoryStatus} {now : Time} {row : MemoryRow}
    (hloaded : session.memories.lookup id = some row) :
    Leads (setStatus missing id status now) session fun _ later =>
      later.memories.lookup id = some (row.move (some status) now) ∧
        later.writes = session.writes ++ [.update id (if row.status = status then none else some status) now] := by
  apply Prog.Leads.bind (leads_get_loaded id hloaded)
  rintro _ _ ⟨rfl, rfl⟩
  exact leads_update hloaded

theorem leads_requireSteward : Leads (requireSteward request) session fun _ later => later = session := by
  unfold requireSteward
  split_ifs
  · exact trivial
  · rfl
  · exact trivial
  · rfl

theorem leads_decideMemory {memoryId : Uuid} {status : MemoryStatus} {now : Time} (hdecides : status ≠ .pending) :
    Leads (decideMemory request memoryId status now) Session.empty fun _ later => Effect later := by
  apply Prog.Leads.bind leads_requireSteward
  rintro _ _ rfl
  apply Prog.Leads.bind (leads_get memoryId)
  rintro found _ ⟨hwrites, hloaded⟩
  cases found with
  | none => exact trivial
  | some record =>
    dsimp only
    split_ifs with hworkspace hpending
    · exact trivial
    · exact trivial
    · apply Prog.Leads.bind (leads_setStatus (hloaded record rfl))
      rintro _ _ ⟨hset, hupdate⟩
      apply Prog.Leads.mono (leads_appendAudit _ _ _)
      rintro _ _ ⟨hmemories, _, hlast, haction, hresource⟩
      have hmoves : record.status ≠ status := by
        rw [not_not.mp hpending]
        exact hdecides.symm
      rw [hupdate, hwrites, if_neg hmoves] at hlast
      exact .reviewed hdecides (hmemories ▸ hset) haction hresource hlast

theorem leads_requireSelfOrSteward (subject : CallerIdentity) : Leads (requireSelfOrSteward request subject) session fun _ later =>
    later.memories = session.memories ∧ ∃ acted, Acting acted ∧ later.writes = session.writes ++ acted := by
  unfold requireSelfOrSteward
  split_ifs
  · exact trivial
  · exact ⟨rfl, [], .inl rfl, (List.append_nil _).symm⟩
  · apply Prog.Leads.bind (leads_appendAudit _ _ _)
    rintro _ _ ⟨hmemories, event, hwrites, haction, -⟩
    exact ⟨hmemories, _, .inr ⟨event, rfl, haction⟩, hwrites⟩
  · exact trivial

theorem leads_subjectOf {memoryId : Uuid} {row : MemoryRow} (hloaded : session.memories.lookup memoryId = some row) :
    Leads (subjectOf memoryId) session fun _ later => later = session := by
  apply Prog.Leads.bind (leads_get_loaded memoryId hloaded)
  rintro _ _ ⟨rfl, rfl⟩
  dsimp only
  split_ifs
  · rfl
  · rfl

theorem leads_owned (memoryId : Uuid) : Leads (owned request memoryId) Session.empty fun _ later =>
    (∃ row, later.memories.lookup memoryId = some row) ∧ Acting later.writes := by
  apply Prog.Leads.bind (leads_get memoryId)
  rintro found _ ⟨hwrites, hloaded⟩
  cases found with
  | none => exact trivial
  | some record =>
    have hrecord := hloaded record rfl
    dsimp only
    split_ifs with hworkspace
    · exact trivial
    · apply Prog.Leads.bind (leads_subjectOf hrecord)
      rintro owner _ rfl
      cases owner with
      | none => exact trivial
      | some subject =>
        apply Prog.Leads.mono (leads_requireSelfOrSteward subject)
        rintro _ _ ⟨hmemories, _, hacted, hlast⟩
        rw [hwrites] at hlast
        refine ⟨⟨record, hmemories ▸ hrecord⟩, ?_⟩
        rw [hlast]
        exact hacted

theorem cleanedBody_cases (body : String) : (∃ e, cleanedBody body = .refuse e) ∨ ∃ text, cleanedBody body = pure text := by
  unfold cleanedBody
  dsimp only
  split_ifs
  · exact .inl ⟨_, rfl⟩
  · exact .inl ⟨_, rfl⟩
  · exact .inr ⟨_, rfl⟩

theorem moved_cases (row : MemoryRow) :
    (if row.status = .rejected then none else some .rejected) = (none : Option MemoryStatus) ∨
      (if row.status = .rejected then none else some .rejected) = some MemoryStatus.rejected := by
  split_ifs
  · exact .inl rfl
  · exact .inr rfl

theorem leads_forget {memoryId : Uuid} {now : Time} :
    Leads (forget request memoryId now) Session.empty fun _ later => Effect later := by
  apply Prog.Leads.bind (leads_owned memoryId)
  rintro _ _ ⟨⟨row, hloaded⟩, hacted⟩
  apply Prog.Leads.bind (leads_setStatus hloaded)
  rintro _ _ ⟨hset, hupdate⟩
  apply Prog.Leads.mono (leads_appendAudit _ _ _)
  rintro _ _ ⟨hmemories, _, hlast, haction, hresource⟩
  rw [hupdate, List.append_assoc] at hlast
  exact .withdrawn (moved_cases row) (hmemories ▸ hset) rfl (.inr haction) hresource hacted (.inl rfl) hlast

theorem leads_replace {memoryId : Uuid} {body : String} {drawn : Drawn} {row : MemoryRow}
    (hloaded : session.memories.lookup memoryId = some row) :
    Leads (replace memoryId body drawn) session fun _ later =>
      later.memories.lookup memoryId = some (row.move (some .rejected) drawn.now) ∧ ∃ added, Adding memoryId added ∧
        later.writes = session.writes ++ .update memoryId (if row.status = .rejected then none else some .rejected) drawn.now :: added := by
  apply Prog.Leads.bind (leads_get_loaded memoryId hloaded)
  rintro _ later ⟨rfl, rfl⟩
  apply Prog.Leads.bind (leads_update hloaded)
  rintro _ _ ⟨hset, hupdate⟩
  apply Prog.Leads.bind (leads_ask fun answer later h => h)
  rintro _ _ h
  cases h with
  | refused => exact trivial
  | inserted hnew =>
    have hne : drawn.memoryId ≠ memoryId := by
      intro heq
      rw [heq, hset] at hnew
      cases hnew
    refine ⟨?_, _, .inr ⟨drawn.memoryId, row.corrected memoryId body drawn, rfl, rfl, hne⟩, ?_⟩
    · rw [← hset]
      exact AList.lookup_insert_ne hne.symm
    · rw [Session.wrote, hupdate, List.append_assoc]
      rfl

theorem leads_correct {memoryId : Uuid} {body : String} {drawn : Drawn} :
    Leads (correct request memoryId body drawn) Session.empty fun _ later => Effect later := by
  apply Prog.Leads.bind (leads_owned memoryId)
  rintro _ _ ⟨⟨row, hloaded⟩, hacted⟩
  rcases cleanedBody_cases body with ⟨_, hrefused⟩ | ⟨_, hcleaned⟩
  · rw [hrefused]
    exact trivial
  · rw [hcleaned]
    apply Prog.Leads.bind (leads_replace hloaded)
    rintro _ _ ⟨hset, _, hadded, hupdate⟩
    apply Prog.Leads.mono (leads_appendAudit _ _ _)
    rintro _ _ ⟨hmemories, _, hlast, haction, hresource⟩
    rw [hupdate, List.append_assoc] at hlast
    exact .withdrawn (moved_cases row) (hmemories ▸ hset) rfl (.inl haction) hresource hacted hadded hlast

theorem leads_program (command : Command) : Leads command.program Session.empty fun _ later => Effect later := by
  cases command with
  | approve => exact leads_decideMemory (by decide)
  | reject => exact leads_decideMemory (by decide)
  | correct => exact leads_correct
  | forget => exact leads_forget

end Specs
end TinyHermes.Memory
