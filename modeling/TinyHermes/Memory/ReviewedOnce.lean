import TinyHermes.Memory.Sessions
import TinyHermes.Skills.DefaultVersion
import TinyHermes.Skills.Proposals

/-! What becomes of a memory that is reviewed, corrected and forgotten by transactions beside each other. -/
namespace TinyHermes.Memory
open Lib Runs

section Records

def AuditEventRow.review (memoryId : Uuid) (event : AuditEventRow) : Option MemoryStatus :=
  match event.action with
  | .decided status => if event.resourceId = memoryId then some status else none
  | _ => none

def AuditEventRow.withdraws (memoryId : Uuid) (event : AuditEventRow) : Bool :=
  (event.action = .corrected || event.action = .forgotten) && event.resourceId = memoryId

def Write.event : Write → Option AuditEventRow
  | .append event => some event
  | _ => none

def Session.events (session : Session) : List AuditEventRow := session.writes.filterMap Write.event

def Session.reviews (session : Session) (memoryId : Uuid) : List MemoryStatus :=
  session.events.filterMap (AuditEventRow.review memoryId)

def Session.withdraws (session : Session) (memoryId : Uuid) : Bool := session.events.any (AuditEventRow.withdraws memoryId)

def events (log : List (Commit World Act Unit)) : List AuditEventRow :=
  log.flatMap fun c => (Engine.committed c).elim [] Session.events

def reviews (memoryId : Uuid) (log : List (Commit World Act Unit)) : List MemoryStatus :=
  (events log).filterMap (AuditEventRow.review memoryId)

def withdrawn (memoryId : Uuid) (log : List (Commit World Act Unit)) : Bool := (events log).any (AuditEventRow.withdraws memoryId)

/-- A decision that comes in time: it is the first on its memory, and an approval finds it pending still. -/
def AuditEventRow.inTime (db : Database) (event : AuditEventRow) : Bool :=
  match event.action with
  | .decided status => db.audit.all (fun other => (other.review event.resourceId).isNone) &&
      (status ≠ .active || db.statusOf event.resourceId = some .pending)
  | _ => true

def inTime (db : Database) (session : Session) : Bool := session.events.all (AuditEventRow.inTime db)

end Records

variable {before after : Option MemoryStatus} {made : List MemoryStatus} {withdraws : Bool}

section Committing
variable {db : Database} {session : Session}

/-- What one transaction makes of a memory: from its status before to that after, with the decision and the withdrawal that it
records. -/
inductive Settles : Option MemoryStatus → List MemoryStatus → Bool → Option MemoryStatus → Prop where
  | same (status) : Settles status [] false status
  | added : Settles none [] false (some .active)
  | approved : Settles (some .pending) [.active] false (some .active)
  | rejected (status) : Settles (some status) [.rejected] false (some .rejected)
  | withdrawn (status) : Settles (some status) [] true (some .rejected)

theorem Acting.status {acted : List Write} (h : Acting acted) (db : Database) (memoryId : Uuid) :
    (db.applyAll acted).statusOf memoryId = db.statusOf memoryId := by
  rcases h with rfl | ⟨_, rfl, -⟩
  · rfl
  · rfl

theorem Acting.silent {acted : List Write} (h : Acting acted) (memoryId : Uuid) :
    (acted.filterMap Write.event).filterMap (AuditEventRow.review memoryId) = [] ∧
      (acted.filterMap Write.event).any (AuditEventRow.withdraws memoryId) = false := by
  rcases h with rfl | ⟨event, rfl, haction⟩
  · exact ⟨rfl, rfl⟩
  · simp [Write.event, AuditEventRow.review, AuditEventRow.withdraws, haction]

theorem Adding.events {id : Uuid} {added : List Write} (h : Adding id added) : added.filterMap Write.event = [] := by
  rcases h with rfl | ⟨_, _, rfl, -⟩
  · rfl
  · rfl

theorem Adding.status {id : Uuid} {added : List Write} (h : Adding id added) (db : Database) (memoryId : Uuid) :
    (db.applyAll added).statusOf memoryId = db.statusOf memoryId ∨
      memoryId ≠ id ∧ (∃ row, .insert memoryId row ∈ added) ∧ (db.applyAll added).statusOf memoryId = some .active := by
  rcases h with rfl | ⟨new, row, rfl, hactive, hne⟩
  · exact .inl rfl
  · have hview : (db.applyAll [.insert new row]).statusOf memoryId = if memoryId = new then some row.status else db.statusOf memoryId :=
      apply_insert db new row memoryId
    rw [hview]
    split_ifs with hnew
    · subst hnew
      exact .inr ⟨hne, ⟨row, List.mem_singleton_self _⟩, congrArg some hactive⟩
    · exact .inl rfl

theorem withdrawn_status {id : Uuid} {moved : Option MemoryStatus} {updatedAt : Time} {row : MemoryRow} {acted added : List Write}
    {event : AuditEventRow} (hgrounded : Grounded db session) (hmoved : moved = none ∨ moved = some .rejected)
    (hloaded : session.memories.lookup id = some row) (hstatus : row.status = .rejected) (hacted : Acting acted)
    (hadded : Adding id added) (hwrites : session.writes = acted ++ .update id moved updatedAt :: (added ++ [.append event])) :
    ∃ before, db.statusOf id = some before ∧ moved.getD before = .rejected := by
  have hnew : ∀ own, .insert id own ∉ session.writes := by
    intro own hmem
    rw [hwrites] at hmem
    rcases hacted with rfl | ⟨acting, rfl, -⟩ <;> rcases hadded with rfl | ⟨new, added, rfl, -, hne⟩ <;>
      simp at hmem
    · exact hne hmem.1.symm
    · exact hne hmem.1.symm
  obtain ⟨before, hbefore⟩ := hgrounded.there hloaded hnew
  refine ⟨before, hbefore, ?_⟩
  rcases hmoved with rfl | rfl
  · rcases hgrounded.rejected id row hloaded hstatus with hdb | ⟨own, hown⟩ | ⟨_, _, hown⟩
    · rw [hbefore] at hdb
      exact Option.some.inj hdb
    · exact absurd hown (hnew own)
    · rw [hwrites] at hown
      rcases hacted with rfl | ⟨_, rfl, -⟩ <;> rcases hadded with rfl | ⟨_, _, rfl, -, -⟩ <;> simp at hown
  · rfl

theorem Effect.settles (heffect : Effect session) (hgrounded : Grounded db session) (htime : inTime db session = true) (memoryId : Uuid) :
    Settles (db.statusOf memoryId) (session.reviews memoryId) (session.withdraws memoryId) ((session.view db).statusOf memoryId) := by
  cases heffect with
  | @reviewed id status updatedAt event row hstatus hloaded haction hresource hwrites =>
    have hevents : session.events = [event] := by
      rw [Session.events, hwrites]
      rfl
    have hnew : ∀ own, .insert id own ∉ session.writes := by
      intro _ hmem
      rw [hwrites] at hmem
      simp at hmem
    obtain ⟨before, hbefore⟩ := hgrounded.there hloaded hnew
    have hview : (session.view db).statusOf memoryId = if memoryId = id then (db.statusOf memoryId).map fun _ => status
        else db.statusOf memoryId := by
      rw [Session.view, hwrites]
      exact apply_update db id (some status) updatedAt memoryId
    have hwithdraws : session.withdraws memoryId = false := by
      rw [Session.withdraws, hevents]
      simp [AuditEventRow.withdraws, haction]
    have hreviews : session.reviews memoryId = if id = memoryId then [status] else [] := by
      rw [Session.reviews, hevents, List.filterMap_cons, AuditEventRow.review, haction, hresource]
      split_ifs
      · rfl
      · rfl
    rw [hview, hwithdraws, hreviews]
    by_cases hid : memoryId = id
    · subst hid
      rw [if_pos rfl, if_pos rfl, hbefore]
      cases status with
      | pending => exact absurd rfl hstatus
      | rejected => exact .rejected before
      | active =>
        rw [inTime, hevents, List.all_cons, AuditEventRow.inTime, haction, hresource] at htime
        have hpending : before = .pending := by
          simp only [hbefore, List.all_nil, Bool.and_true, Bool.and_eq_true, Bool.or_eq_true, decide_eq_true_eq, ne_eq,
            not_true_eq_false, false_or, Option.some.injEq] at htime
          exact htime.2
        rw [hpending]
        exact .approved
    · rw [if_neg hid, if_neg (Ne.symm hid)]
      exact .same _
  | @withdrawn id moved updatedAt event row acted added hmoved hloaded hstatus haction hresource hacted hadded hwrites =>
    obtain ⟨before, hbefore, hrejected⟩ := withdrawn_status hgrounded hmoved hloaded hstatus hacted hadded hwrites
    have hevents : session.events = acted.filterMap Write.event ++ [event] := by
      rw [Session.events, hwrites, List.filterMap_append, List.filterMap_cons, List.filterMap_append, hadded.events]
      rfl
    obtain ⟨hundecided, hkept⟩ := hacted.silent memoryId
    have hreviews : session.reviews memoryId = [] := by
      rw [Session.reviews, hevents, List.filterMap_append, hundecided]
      rcases haction with haction | haction
      · simp [AuditEventRow.review, haction]
      · simp [AuditEventRow.review, haction]
    have hwithdraws : session.withdraws memoryId = decide (id = memoryId) := by
      rw [Session.withdraws, hevents, List.any_append, hkept, ← hresource]
      rcases haction with haction | haction
      · simp [AuditEventRow.withdraws, haction]
      · simp [AuditEventRow.withdraws, haction]
    have hview : (session.view db).statusOf memoryId =
        (((db.applyAll acted).apply (.update id moved updatedAt)).applyAll added).statusOf memoryId := by
      rw [Session.view, hwrites, Database.applyAll, List.foldl_append, List.foldl_cons, List.foldl_append]
      rfl
    have hupdate : ((db.applyAll acted).apply (.update id moved updatedAt)).statusOf memoryId =
        if memoryId = id then (db.statusOf memoryId).map moved.getD else db.statusOf memoryId := by
      rw [apply_update, hacted.status]
    rw [hreviews, hwithdraws, hview]
    by_cases hid : memoryId = id
    · subst hid
      rcases hadded.status ((db.applyAll acted).apply (.update memoryId moved updatedAt)) memoryId with hsame | ⟨hne, -⟩
      · rw [hsame, hupdate, if_pos rfl, hbefore, Option.map_some, hrejected, decide_eq_true rfl]
        exact .withdrawn before
      · exact absurd rfl hne
    · rw [decide_eq_false (Ne.symm hid)]
      rcases hadded.status ((db.applyAll acted).apply (.update id moved updatedAt)) memoryId with hsame | ⟨-, ⟨row, hrow⟩, hactive⟩
      · rw [hsame, hupdate, if_neg hid]
        exact .same _
      · have hfresh : db.statusOf memoryId = none := by
          apply hgrounded.fresh memoryId row
          rw [hwrites]
          simp [hrow]
        rw [hactive, hfresh]
        exact .added

theorem Settles.keeps
    (h : Settles before made withdraws after) (hbefore : before = some .rejected) : after = some .rejected := by
  cases h with
  | same => exact hbefore
  | added => cases hbefore
  | approved => cases hbefore
  | rejected => rfl
  | withdrawn => rfl

theorem Settles.decided
    (h : Settles before made withdraws after) (hbefore : before ≠ some .pending) : after ≠ some .pending := by
  cases h with
  | same => exact hbefore
  | added => decide
  | approved => decide
  | rejected => decide
  | withdrawn => decide

theorem Settles.made_decides
    (h : Settles before made withdraws after) : ∀ status ∈ made, status ≠ .pending := by
  intro _ hstatus
  cases h with
  | same => cases hstatus
  | added => cases hstatus
  | approved =>
    cases List.mem_singleton.mp hstatus
    decide
  | rejected =>
    cases List.mem_singleton.mp hstatus
    decide
  | withdrawn => cases hstatus

/-- What every transaction on the memories keeps, when each commits in time. -/
def proof : engine.Proof Command.program fun db session => inTime db session = true where
  Inv _ := True
  Sound db session rest := Grounded db session ∧ Leads rest session fun _ later => Effect later
  start := fun _ => ⟨grounded_empty, leads_program _⟩
  advance := fun _ hsound hstatement =>
    ⟨(hsound.1.statement hstatement).2, hsound.2 _ _ (hsound.1.statement hstatement).1⟩
  finish := fun _ _ _ => trivial
  stable := fun _ hsound htime hother hapart =>
    ⟨hother.1.beside hapart fun id => (hsound.2.settles hsound.1 htime id).keeps, hother.2⟩

end Committing

section Runs
variable {db : Database} {log : List (Commit World Act Unit)} {w : World}

def leaves (memoryId : Uuid) (c : Commit World Act Unit) : Bool :=
  c.before.db.statusOf memoryId = some .pending && c.after.db.statusOf memoryId ≠ some .pending

/-- Where a memory is after the decisions and the withdrawals that were recorded. -/
structure Settled (before : Option MemoryStatus) (made : List MemoryStatus) (withdraws : Bool) (after : Option MemoryStatus) : Prop where
  once : made.length ≤ 1
  refused : withdraws = true ∨ .rejected ∈ made → after = some .rejected
  approved : .active ∈ made → withdraws = false → after = some .active
  untouched : made = [] → withdraws = false → after = before ∨ before = none ∧ after = some .active

theorem Settled.refl (status : Option MemoryStatus) : Settled status [] false status where
  once := Nat.zero_le 1
  refused h := by
    rcases h with h | h
    · cases h
    · cases h
  approved h := absurd h List.not_mem_nil
  untouched _ _ := .inl rfl

theorem Settled.untouched_of
    (h : Settled before made withdraws after) (hrejected : after ≠ some .rejected) (hactive : after ≠ some .active)
    (hmade : ∀ status ∈ made, status ≠ .pending) : made = [] ∧ withdraws = false := by
  have hnot : withdraws = false := by
    cases withdraws with
    | false => rfl
    | true => exact absurd (h.refused (.inl rfl)) hrejected
  refine ⟨List.eq_nil_iff_forall_not_mem.mpr ?_, hnot⟩
  intro status hstatus
  cases status with
  | pending => exact hmade _ hstatus rfl
  | active => exact hactive (h.approved hstatus hnot)
  | rejected => exact hrejected (h.refused (.inr hstatus))

theorem Settled.trans {middle : Option MemoryStatus} {more : List MemoryStatus} {withdraws' : Bool}
    (h : Settled before made withdraws middle) (h' : Settles middle more withdraws' after) (hmade : ∀ status ∈ made, status ≠ .pending)
    (hfirst : more ≠ [] → made = []) : Settled before (made ++ more) (withdraws || withdraws') after := by
  cases h' with
  | same =>
    rw [List.append_nil, Bool.or_false]
    exact h
  | added =>
    obtain ⟨rfl, rfl⟩ := h.untouched_of (by decide) (by decide) hmade
    refine ⟨Nat.zero_le 1, ?_, fun _ _ => rfl, fun _ _ => ?_⟩
    · rintro (hfalse | hmem)
      · cases hfalse
      · cases hmem
    · rcases h.untouched rfl rfl with hsame | ⟨-, hactive⟩
      · exact .inr ⟨hsame.symm, rfl⟩
      · cases hactive
  | approved =>
    obtain ⟨rfl, rfl⟩ := h.untouched_of (by decide) (by decide) hmade
    refine ⟨Nat.le_refl 1, ?_, fun _ _ => rfl, fun hnil => absurd hnil (by decide)⟩
    rintro (hfalse | hmem)
    · cases hfalse
    · cases List.mem_singleton.mp hmem
  | rejected =>
    obtain rfl := hfirst (by decide)
    refine ⟨Nat.le_refl 1, fun _ => rfl, ?_, fun hnil => absurd hnil (by decide)⟩
    intro hmem
    cases List.mem_singleton.mp hmem
  | withdrawn =>
    rw [List.append_nil, Bool.or_true]
    exact ⟨h.once, fun _ => rfl, fun _ hfalse => absurd hfalse (by decide), fun _ hfalse => absurd hfalse (by decide)⟩

structure Follows (memoryId : Uuid) (db : Database) (log : List (Commit World Act Unit)) (w : World) : Prop where
  settled : Settled (db.statusOf memoryId) (reviews memoryId log) (withdrawn memoryId log) (w.db.statusOf memoryId)
  decides : ∀ status ∈ reviews memoryId log, status ≠ .pending
  recorded : w.db.audit = db.audit ++ events log
  once : log.countP (leaves memoryId) ≤ 1
  left : 0 < log.countP (leaves memoryId) → w.db.statusOf memoryId ≠ some .pending

structure StepSettles (memoryId : Uuid) (w : World) (recorded : List AuditEventRow) (w' : World) : Prop where
  audit : w'.db.audit = w.db.audit ++ recorded
  settles : Settles (w.db.statusOf memoryId) (recorded.filterMap (AuditEventRow.review memoryId))
    (recorded.any (AuditEventRow.withdraws memoryId)) (w'.db.statusOf memoryId)
  first : recorded.filterMap (AuditEventRow.review memoryId) ≠ [] → ∀ event ∈ w.db.audit, event.review memoryId = none

theorem Follows.step {memoryId : Uuid} {act : Act} {w' : World} (h : Follows memoryId db log w)
    (hstep : StepSettles memoryId w ((Engine.committed ⟨w, act, (), w'⟩).elim [] Session.events) w') :
    Follows memoryId db (log ++ [⟨w, act, (), w'⟩]) w' := by
  obtain ⟨haudit, hsettles, hfirst⟩ := hstep
  generalize hrecorded : (Engine.committed ⟨w, act, (), w'⟩).elim [] Session.events = recorded at haudit hsettles hfirst
  have hevents : events (log ++ [⟨w, act, (), w'⟩]) = events log ++ recorded := by
    rw [events, List.flatMap_append, List.flatMap_singleton, hrecorded]
    rfl
  have hreviews : reviews memoryId (log ++ [⟨w, act, (), w'⟩]) =
      reviews memoryId log ++ recorded.filterMap (AuditEventRow.review memoryId) := by
    rw [reviews, hevents, List.filterMap_append]
    rfl
  have hwithdrawn : withdrawn memoryId (log ++ [⟨w, act, (), w'⟩]) =
      (withdrawn memoryId log || recorded.any (AuditEventRow.withdraws memoryId)) := by
    rw [withdrawn, hevents, List.any_append]
    rfl
  have hnew : recorded.filterMap (AuditEventRow.review memoryId) ≠ [] → reviews memoryId log = [] := by
    intro hnew
    apply List.filterMap_eq_nil_iff.mpr
    intro event hevent
    apply hfirst hnew event
    rw [h.recorded]
    exact List.mem_append_right _ hevent
  have hcount : (log ++ [(⟨w, act, (), w'⟩ : Commit World Act Unit)]).countP (leaves memoryId) =
      log.countP (leaves memoryId) + if leaves memoryId (⟨w, act, (), w'⟩ : Commit World Act Unit) = true then 1 else 0 := by
    rw [List.countP_append, List.countP_singleton]
  refine ⟨?_, ?_, ?_, ?_, ?_⟩
  · rw [hreviews, hwithdrawn]
    exact h.settled.trans hsettles h.decides hnew
  · rw [hreviews]
    exact List.forall_mem_append.mpr ⟨h.decides, hsettles.made_decides⟩
  · rw [haudit, hevents, ← List.append_assoc, ← h.recorded]
  · rw [hcount]
    split_ifs with hleaves
    · -- it was pending, so it had not left before
      have hpending := of_decide_eq_true (Bool.and_eq_true_iff.mp hleaves).1
      have hnone := Nat.eq_zero_of_not_pos fun hpos => h.left hpos hpending
      omega
    · exact h.once
  · rw [hcount]
    split_ifs with hleaves
    · exact fun _ => of_decide_eq_true (Bool.and_eq_true_iff.mp hleaves).2
    · exact fun hpos => hsettles.decided (h.left hpos)

end Runs

section Reading
variable {db : Database} {memoryId : Uuid}

end Reading

section Decided

def attempt (w : World) (act : Act) : Option (Unit × World) := (engine.step Command.program w act).map fun w' => ((), w')

def alone (command : Command) (statements : Nat) : List Act :=
  .start 0 command :: (List.replicate statements (.advance 0) ++ [.finish 0])

def subject : CallerIdentity where
  callerType := .user
  callerId := 7

def owner : Request where
  actor := { id := 7 }
  workspaceId := 1
  role := none

end Decided
end TinyHermes.Memory
