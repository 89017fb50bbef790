import TinyHermes.Runs.Operations
import TinyHermes.Runs.RunMoves

/-! When a child's report is handed to its parent: the mark on the child's row is written by one statement of one operation,
beside the report's turn. -/
namespace TinyHermes.Runs.ChildDeliveries
open Lib Tx SqlRunStore StateMachine Interruption

def deliveredAt (s : Store) (id : Uuid) : Option Time := (s.runs.lookup id).bind (·.resultDeliveredAt)

def SameMarks (s s' : Store) : Prop := ∀ id, deliveredAt s' id = deliveredAt s id

instance : Std.Refl SameMarks := ⟨fun _ _ => rfl⟩

instance : IsTrans Store SameMarks := ⟨fun _ _ _ h₁ h₂ id => (h₂ id).trans (h₁ id)⟩

theorem SameMarks.of_runs {s s' : Store} (h : s'.runs = s.runs) : SameMarks s s' := by
  intro _
  rw [deliveredAt, deliveredAt, h]

theorem SameMarks.of_housekeeping {s s' : Store} (h : Housekeeping s s') : SameMarks s s' := by
  intro id
  have hrow := h.runs id
  rw [deliveredAt, deliveredAt]
  cases hr : s.runs.lookup id with
  | none =>
    rw [hr] at hrow
    cases hr' : s'.runs.lookup id with
    | none => rfl
    | some =>
      rw [hr'] at hrow
      cases hrow
  | some =>
    rw [hr] at hrow
    obtain ⟨_, hr', hk⟩ := hrow.of_some
    rw [hr', Option.bind_some, Option.bind_some, hk]

variable {runId id : Uuid}

section Statements
variable {env : Env}

theorem write_marks {f : Store → Store} (hruns : ∀ s, (f s).runs = s.runs) :
    Within SameMarks (Tx.write f : StoreTx Unit) :=
  Within.write fun s => .of_runs (hruns s)

theorem SameMarks.of_modify {s : Store} {f : RunRow → RunRow}
    (h : ∀ r : RunRow, (f r).resultDeliveredAt = r.resultDeliveredAt) :
    SameMarks s { s with runs := s.runs.modify runId f } := by
  intro id
  rw [deliveredAt, deliveredAt, Table.lookup_modify]
  split
  · cases s.runs.lookup id with
    | none => rfl
    | some r => exact h r
  · rfl

theorem modifyRun_marks {f : RunRow → RunRow}
    (h : ∀ r : RunRow, (f r).resultDeliveredAt = r.resultDeliveredAt) : Within SameMarks (modifyRun runId f) :=
  Within.write fun _ => .of_modify h

theorem mint_marks : Within SameMarks (mint id) :=
  Within.bind Within.get fun _ => Within.bind (Within.require _ _) fun _ => write_marks fun _ => rfl

variable {sessionId : Uuid}

theorem modifySession_marks {f : SessionRow → SessionRow} :
    Within SameMarks (modifySession sessionId f) :=
  write_marks fun _ => rfl

theorem insertSession_marks {row : SessionRow} : Within SameMarks (insertSession sessionId row) :=
  Within.bind Within.get fun _ => Within.bind (Within.require _ _) fun _ => write_marks fun _ => rfl

theorem appendEvents_marks {workspaceId : Uuid} {events : List ReservedEvent} :
    Within SameMarks (appendEvents env workspaceId runId events) :=
  fun _ _ _ h => .of_housekeeping (Housekeeping.of_appendEvents h)

theorem appendMessage_marks {message : CanonicalMessage} :
    Within SameMarks (appendMessage sessionId runId message) :=
  Within.bind (Within.fetch _ _) fun _ => Within.bind (write_marks fun _ => rfl) fun _ => modifySession_marks

theorem grantArtifact_marks {artifactId : Uuid} : Within SameMarks (grantArtifact artifactId runId) := by
  apply write_marks
  intro _
  split <;> rfl

theorem joinSession_marks {row : RunRow} (hrow : row.resultDeliveredAt = none) :
    Within SameMarks (joinSession sessionId runId row) := by
  refine Within.bind (Within.fetch _ _) fun session => Within.bind (Within.require _ _) fun _ => ?_
  refine Within.bind ?_ fun _ => modifySession_marks
  intro _ _ _ h
  rw [insertRun, get_bind, require_bind_ok] at h
  obtain ⟨hnew, h⟩ := h
  obtain rfl := write_ok.mp h
  intro _
  rw [deliveredAt, deliveredAt, Table.lookup_insert_ite]
  split
  · next heq =>
    rw [heq, hnew]
    exact hrow
  · rfl

theorem decideAndWrite_marks {signal : RunSignal} {args : SignalArgs} :
    Within SameMarks (decideAndWrite env runId signal args) := by
  intro s _ _ h
  obtain ⟨_, _, d, _, _, _, hkeep⟩ := decideAndWrite_spec h
  have hmoved : SameMarks s { s with runs := s.runs.modify runId fun r => decidedRow r d args.waitPolicy env.now } :=
    .of_modify fun _ => rfl
  exact IsTrans.trans _ _ _ hmoved (.of_housekeeping hkeep)

end Statements

section Operations
variable {env : Env}

theorem claimHead_marks {cmd : ClaimRunCommand} {leaseId : Uuid} : Within SameMarks (claimHead env cmd leaseId) := by
  intro s _ _ h
  rcases claimHead_spec h with ⟨_, rfl⟩ | ⟨runId, _, _, d, _, _, _, _, _, _, _, _, _, _, _, _,
    rfl, rfl, hev⟩
  · exact Std.Refl.refl _
  refine IsTrans.trans _ _ _ ?_ (appendEvents_marks hev)
  have hmoved : SameMarks s { s with runs := s.runs.modify runId (claimedRow d env.now) } := .of_modify fun _ => rfl
  exact IsTrans.trans _ _ _ hmoved (SameMarks.of_runs rfl)

theorem rows_marks : Operations.Rows env SameMarks where
  mints _ := mint_marks
  opens _ _ _ _ := insertSession_marks
  message _ _ _ := appendMessage_marks
  events _ _ _ := appendEvents_marks
  grants _ _ := grantArtifact_marks
  row _ _ h := modifyRun_marks fun r => (h r).resultDeliveredAt
  session _ _ _ := modifySession_marks
  lease _ := write_marks fun _ => rfl
  decides _ _ _ := decideAndWrite_marks
  claims _ _ := claimHead_marks
  repairs _ := fun _ _ _ h => .of_housekeeping (Housekeeping.of_repairSessionHead h)

theorem exec_marks {op : Op} (hop : ∀ parentRunId, op ≠ .settleChildWait parentRunId) :
    Within SameMarks (exec env op) := by
  refine Operations.op_within rows_marks (fun _ _ _ _ hrow => joinSession_marks (by cases hrow <;> rfl))
    (fun _ _ => write_marks fun _ => rfl) (fun _ _ => write_marks fun _ => rfl) fun hmarks => ?_
  cases op with
  | settleChildWait parentRunId => exact absurd rfl (hop parentRunId)
  | _ => cases hmarks

end Operations

section Reports
variable {env : Env} {s s' : Store} {u : Unit}

/-- What a parent would read about the Run, the state it is in, and when it was asked to stop. -/
def report (s : Store) (id : Uuid) : Option (Option ChildReport × RunState × Option Time) :=
  (s.runs.lookup id).map fun row => (row.delegationResult, row.status, row.cancelRequestedAt)

/-- The turn that relays the reports of `children` as the store has them. -/
def resultsTurn (s : Store) (children : List Uuid) : CanonicalMessage where
  role := .user
  byPlatform := true
  blocks_ne := by simp
  blocks := [.text ("The Agents you delegated to have finished. This is everything they " ++
    "reported; you cannot see how they worked.\n" ++
    "\n".intercalate (children.filterMap fun id => (report s id).map fun r => childReportLine id r.1 r.2.1))]

theorem resultsTurn_congr {children : List Uuid} (h : ∀ id ∈ children, report s' id = report s id) :
    resultsTurn s' children = resultsTurn s children := by
  have hlines : (children.filterMap fun id => (report s' id).map fun r => childReportLine id r.1 r.2.1) =
      children.filterMap fun id => (report s id).map fun r => childReportLine id r.1 r.2.1 := by
    apply List.filterMap_congr
    intro id hid
    rw [h id hid]
  simp only [resultsTurn, hlines]

theorem report_mapRows {f : Uuid → RunRow → RunRow}
    (h : ∀ r, ((f id r).delegationResult, (f id r).status, (f id r).cancelRequestedAt) =
      (r.delegationResult, r.status, r.cancelRequestedAt)) :
    Same (report · id) s { s with runs := s.runs.mapRows f } := by
  rw [Same, report, report, Table.lookup_mapRows, Option.map_map]
  congr 1
  funext r
  exact h r

theorem modifyRun_report {f : RunRow → RunRow}
    (h : id ≠ runId ∨ ∀ r, ((f r).delegationResult, (f r).status, (f r).cancelRequestedAt) =
      (r.delegationResult, r.status, r.cancelRequestedAt)) :
    Within (Same (report · id)) (modifyRun runId f) := by
  refine Within.write fun s => report_mapRows fun r => ?_
  split
  · next heq =>
    rcases h with hne | hsame
    · exact absurd heq hne
    · exact hsame r
  · rfl

theorem appendEvents_report {workspaceId : Uuid} {events : List ReservedEvent} :
    Within (Same (report · id)) (appendEvents env workspaceId runId events) := by
  refine Within.ite (fun _ => Within.pure _) fun _ => Within.bind (Within.fetch _ _) fun run => ?_
  exact Within.bind (modifyRun_report (.inr fun _ => rfl)) fun _ => Within.write fun _ => rfl

theorem terminalize_report (hne : id ≠ runId) : Within (Same (report · id)) (terminalize env runId) := by
  refine Within.bind (Within.fetch _ _) fun run => Within.bind Within.get fun s => ?_
  refine Within.bind (modifyRun_report (.inl hne)) fun _ => Within.bind (Within.write fun _ => rfl) fun _ => ?_
  refine Within.bind (Within.fetch _ _) fun session => Within.ite (fun _ => Within.pure _) fun _ => ?_
  refine Within.bind Within.get fun _ => Within.bind (Within.write fun _ => rfl) fun _ => ?_
  refine Within.bind (Within.forEach _ fun _ _ => modifyRun_report (.inr fun _ => rfl)) fun _ => ?_
  refine Within.write fun s => report_mapRows fun r => ?_
  split <;> rfl

theorem decideAndWrite_report {signal : RunSignal} {args : SignalArgs} (hne : id ≠ runId) :
    Within (Same (report · id)) (decideAndWrite env runId signal args) := by
  refine Within.bind (Within.fetch _ _) fun run => Within.bind (Within.fetch _ _) fun budget => ?_
  refine Within.bind (Within.lift _) fun d => Within.bind (modifyRun_report (.inl hne)) fun _ => ?_
  exact Within.bind (Within.onlyIf fun _ => terminalize_report hne) fun _ => appendEvents_report

theorem forEach_grants (artifacts : List Uuid)
    (h : forEach artifacts (fun id => grantArtifact id runId) s = .ok (u, s')) :
    ∃ grants, s' = { s with grants } := by
  induction artifacts generalizing s with
  | nil =>
    obtain ⟨_, rfl⟩ := pure_ok.mp h
    exact ⟨s.grants, rfl⟩
  | cons a rest ih =>
    obtain ⟨_, _, ha, hrest⟩ := bind_ok.mp h
    obtain ⟨grants, hgrants⟩ := ih hrest
    rw [hgrants, write_ok.mp ha]
    split
    · exact ⟨grants, rfl⟩
    · exact ⟨grants, rfl⟩

theorem forEach_stamped (children : List Uuid)
    (h : forEach children (fun id => modifyRun id fun row => { row with resultDeliveredAt := some env.now }) s =
      .ok (u, s')) :
    ∃ runs, s' = { s with runs } ∧ ∀ id, runs.lookup id =
      if id ∈ children then (s.runs.lookup id).map fun row => { row with resultDeliveredAt := some env.now }
      else s.runs.lookup id := by
  induction children generalizing s with
  | nil =>
    obtain ⟨_, rfl⟩ := pure_ok.mp h
    exact ⟨s.runs, rfl, fun id => by simp⟩
  | cons c rest ih =>
    obtain ⟨_, _, hc, hrest⟩ := bind_ok.mp h
    obtain ⟨runs, hs', hruns⟩ := ih hrest
    obtain rfl := write_ok.mp hc
    refine ⟨runs, hs', fun id => ?_⟩
    rw [hruns id, Table.lookup_modify]
    by_cases hid : id = c
    · cases s.runs.lookup id <;> simp [hid]
    · simp [hid]

theorem deliverChildResults_spec {parentRunId : Uuid} {parent : RunRow} {children : List Uuid}
    (h : deliverChildResults env parentRunId parent children s = .ok (u, s')) :
    (∀ id, s'.runs.lookup id =
      if id ∈ children then (s.runs.lookup id).map fun row => { row with resultDeliveredAt := some env.now }
      else s.runs.lookup id) ∧
    s'.budgets = s.budgets ∧
    ∃ sequence, s'.messages = s.messages ++
      [{ sessionId := parent.sessionId, sequence, sourceRunId := parentRunId, message := resultsTurn s children }] := by
  rw [deliverChildResults, get_bind] at h
  obtain ⟨_, _, hgrants, h⟩ := bind_ok.mp h
  obtain ⟨_, _, hstamps, h⟩ := bind_ok.mp h
  obtain ⟨_, rfl⟩ := forEach_grants _ hgrants
  obtain ⟨runs, rfl, hruns⟩ := forEach_stamped _ hstamps
  simp only [appendMessage, modifySession, fetch_bind_ok, write_bind, write_ok] at h
  obtain ⟨session, _, rfl⟩ := h
  refine ⟨hruns, rfl, session.nextMessageSequence, ?_⟩
  have hlines : (children.filterMap fun id => (report s id).map fun r => childReportLine id r.1 r.2.1) =
      (children.filterMap fun id => (s.runs.lookup id).map fun row => (id, row)).map
        fun e => childReportLine e.1 e.2.delegationResult e.2.status := by
    rw [List.map_filterMap]
    apply List.filterMap_congr
    intro _ _
    rw [report, Option.map_map, Option.map_map]
    rfl
  simp only [resultsTurn, hlines]

end Reports

section Children
variable {s : Store} {parentRunId id : Uuid} {p : RunRow → Bool}

theorem mem_childrenOf : id ∈ childrenOf s parentRunId p ↔
    ∃ row, s.runs.lookup id = some row ∧ row.parentRunId = some parentRunId ∧ p row = true := by
  simp only [childrenOf, List.mem_map, List.mem_mergeSort, Prod.exists, Table.mem_select, Bool.and_eq_true,
    decide_eq_true_eq]
  constructor
  · rintro ⟨_, row, ⟨hrow, hp⟩, rfl⟩
    exact ⟨row, hrow, hp⟩
  · rintro ⟨row, hrow, hp⟩
    exact ⟨id, row, ⟨hrow, hp⟩, rfl⟩

theorem nodup_childrenOf : (childrenOf s parentRunId p).Nodup := by
  have hperm := ((List.mergeSort_perm (s.runs.select fun _ run => run.parentRunId = some parentRunId && p run)
    fun a b => a.2.createdAt < b.2.createdAt || (a.2.createdAt = b.2.createdAt && a.1 ≤ b.1)).map (·.1))
  exact hperm.nodup_iff.mpr (Table.nodup_select _ _)

theorem mem_finishedAmong {children : List Uuid} {q : RunState → Bool} : id ∈ finishedAmong s children q ↔
    id ∈ children ∧ ∃ row, s.runs.lookup id = some row ∧ q row.status = true := by
  rw [finishedAmong, List.mem_filter, Option.any_eq_true]

theorem nodup_finishedAmong {children : List Uuid} {q : RunState → Bool} (h : children.Nodup) :
    (finishedAmong s children q).Nodup :=
  h.filter _

structure Unheard (s : Store) (parentRunId id : Uuid) (row : RunRow) : Prop where
  found : s.runs.lookup id = some row
  child : row.parentRunId = some parentRunId
  undelivered : row.resultDeliveredAt = none

theorem mem_unheard : id ∈ childrenOf s parentRunId (fun run => run.resultDeliveredAt.isNone) ↔
    ∃ row, Unheard s parentRunId id row := by
  rw [mem_childrenOf]
  constructor
  · rintro ⟨row, hrow, hchild, hnone⟩
    exact ⟨row, hrow, hchild, Option.isNone_iff_eq_none.mp hnone⟩
  · rintro ⟨row, hrow, hchild, hnone⟩
    exact ⟨row, hrow, hchild, Option.isNone_iff_eq_none.mpr hnone⟩

end Children

section Settling
variable {env : Env} {s s' : Store} {parentRunId : Uuid}

def standing (s : Store) (id : Uuid) : Option (RunState × Option Time) :=
  (s.runs.lookup id).map fun row => (row.status, row.cancelRequestedAt)

theorem standing_report (s : Store) (id : Uuid) : standing s id = (report s id).map (·.2) := by
  rw [standing, report, Option.map_map]
  rfl

def Finished (s : Store) (id : Uuid) : Prop := ∃ row, s.runs.lookup id = some row ∧ row.status.isTerminal = true

theorem finished_iff : Finished s id ↔ ∃ state, standing s id = some state ∧ state.1.isTerminal = true := by
  simp only [Finished, standing, Option.map_eq_some_iff]
  constructor
  · rintro ⟨row, hrow, hdone⟩
    exact ⟨(row.status, row.cancelRequestedAt), ⟨row, hrow, rfl⟩, hdone⟩
  · rintro ⟨_, ⟨row, hrow, rfl⟩, hdone⟩
    exact ⟨row, hrow, hdone⟩

/-- The reports of `delivered` go to the parent, and they are marked. -/
structure HandsOver (now : Time) (parentRunId : Uuid) (parent : RunRow) (delivered : List Uuid) (s s' : Store) : Prop where
  marks : ∀ id, deliveredAt s' id = if id ∈ delivered then some now else deliveredAt s id
  finished : ∀ id ∈ delivered, Finished s' id
  turn : ∃ sequence, s'.messages = s.messages ++
    [{ sessionId := parent.sessionId, sequence, sourceRunId := parentRunId, message := resultsTurn s' delivered }]

theorem wakeParent_spec {parent : RunRow} {policy : WaitPolicy} {finished succeeded : List Uuid} {woken : Bool}
    (h : wakeParent env parentRunId parent policy finished succeeded s = .ok (woken, s'))
    (hdone : ∀ id ∈ finished, Finished s id) :
    woken = true ∧ HandsOver env.now parentRunId parent finished s s' ∧
      ∀ id, id ≠ parentRunId → standing s' id = standing s id := by
  rw [wakeParent] at h
  obtain ⟨_, s₁, hdeliver, h⟩ := bind_ok.mp h
  obtain ⟨_, s₂, hdecide, h⟩ := bind_ok.mp h
  obtain ⟨rfl, rfl⟩ := pure_ok.mp h
  obtain ⟨hruns, _, sequence, hmessages⟩ := deliverChildResults_spec hdeliver
  have hstatus : ∀ id, standing s₁ id = standing s id := by
    intro id
    rw [standing, standing, hruns id]
    split
    · cases s.runs.lookup id <;> rfl
    · rfl
  have hreport : ∀ id, report s₁ id = report s id := by
    intro id
    rw [report, report, hruns id]
    split
    · cases s.runs.lookup id <;> rfl
    · rfl
  have hparent : parentRunId ∉ finished := by
    intro hmem
    obtain ⟨_, hstate, hterminal⟩ := finished_iff.mp (hdone parentRunId hmem)
    obtain ⟨run, _, _, hrun, _, hd, _⟩ := decideAndWrite_spec hdecide
    have hlive : run.status.isTerminal = false := decide_live hd
    rw [← hstatus parentRunId, standing, hrun, Option.map_some, Option.some.injEq] at hstate
    rw [← hstate, hlive] at hterminal
    cases hterminal
  have hothers : ∀ id, id ≠ parentRunId → report s₂ id = report s₁ id := fun id hid => decideAndWrite_report hid hdecide
  refine ⟨rfl, ⟨fun id => ?_, fun id hid => ?_, sequence, ?_⟩, fun id hid => ?_⟩
  · rw [decideAndWrite_marks hdecide id, deliveredAt, deliveredAt, hruns id]
    split
    · next hid =>
      obtain ⟨_, hrow, _⟩ := hdone id hid
      rw [hrow]
      rfl
    · rfl
  · have hne : id ≠ parentRunId := fun heq => hparent (heq ▸ hid)
    rw [finished_iff, standing_report, hothers id hne, ← standing_report, hstatus id]
    exact finished_iff.mp (hdone id hid)
  · have hkept : s₂.messages = s₁.messages := by
      obtain ⟨_, _, _, _, _, _, hkeep⟩ := decideAndWrite_spec hdecide
      exact hkeep.messages
    have hturn : resultsTurn s₂ finished = resultsTurn s finished := by
      apply resultsTurn_congr
      intro id hid
      rw [hothers id fun heq => hparent (heq ▸ hid), hreport id]
    rw [hkept, hmessages, hturn]
  · rw [standing_report, hothers id hid, ← standing_report, hstatus id]

/-- Why a parent was woken: somebody it has not heard from succeeded, or nobody of them is still going. -/
inductive Cause (parentRunId : Uuid) (parent : RunRow) (s s' : Store) : Prop where
  | success {id : Uuid} {row : RunRow} (hany : parent.waitPolicy = some .any) (hunheard : Unheard s parentRunId id row)
      (hcompleted : row.status = .completed) : Cause parentRunId parent s s'
  | nobodyLeft (hdone : ∀ id row, Unheard s parentRunId id row → row.status.isTerminal = true)
      (hstill : ∀ id, id ≠ parentRunId → standing s' id = standing s id) : Cause parentRunId parent s s'

theorem cancelChild_marks {reason : String} : Within SameMarks (cancelChild env id reason) :=
  Operations.sweepSignal_within rows_marks

theorem cancelChild_messages {reason : String} :
    Within (Same Store.messages) (cancelChild env id reason) := by
  refine Operations.sweepRun_within fun _ _ s u s' h => ?_
  obtain ⟨_, _, _, _, _, _, hkeep⟩ := decideAndWrite_spec h
  exact hkeep.messages

/-- `settle_child_wait` once it has read the children the parent has not heard from. -/
def settleAmong (env : Env) (parentRunId : Uuid) (parent : RunRow) (children : List Uuid) : StoreTx Bool := do
  let s ← get
  let policy := parent.waitPolicy.getD .all
  let finished := finishedAmong s children RunState.isTerminal
  let succeeded := finishedAmong s children fun status => status = .completed
  if children = [] then pure false
  else if policy = .any ∧ succeeded ≠ [] then do
    Tx.forEach children fun id => cancelChild env id "sibling_succeeded"
    let s ← get
    wakeParent env parentRunId parent policy (finishedAmong s children RunState.isTerminal) succeeded
  else if finished.length ≠ children.length then pure false
  else wakeParent env parentRunId parent policy finished succeeded

theorem settleChildren_eq (env : Env) (parentRunId : Uuid) (parent : RunRow) (s : Store) :
    settleChildren env parentRunId parent s =
      settleAmong env parentRunId parent (childrenOf s parentRunId fun run => run.resultDeliveredAt.isNone) s := by
  rw [settleChildren, settleAmong, get_bind, get_bind]

theorem settleChildren_cases {parent : RunRow} {woken : Bool}
    (h : settleChildren env parentRunId parent s = .ok (woken, s')) :
    (woken = false ∧ s' = s) ∨ (woken = true ∧ Cause parentRunId parent s s' ∧
      ∃ delivered, delivered.Nodup ∧ (∀ id ∈ delivered, ∃ row, Unheard s parentRunId id row) ∧
        HandsOver env.now parentRunId parent delivered s s') := by
  rw [settleChildren_eq, settleAmong, get_bind] at h
  split at h
  · obtain ⟨rfl, rfl⟩ := pure_ok.mp h
    exact .inl ⟨rfl, rfl⟩
  split at h
  · next hany =>
    obtain ⟨_, s₁, hcancel, h⟩ := bind_ok.mp h
    rw [get_bind] at h
    have hmarks : SameMarks s s₁ := Within.forEach _ (fun _ _ => cancelChild_marks) hcancel
    have hmessages : s₁.messages = s.messages :=
      Within.forEach (R := Same Store.messages) _ (fun _ _ => cancelChild_messages) hcancel
    obtain ⟨rfl, hhands, _⟩ := wakeParent_spec h fun id hid => (mem_finishedAmong.mp hid).2
    refine .inr ⟨rfl, ?_, _, nodup_finishedAmong nodup_childrenOf, fun id hid => ?_, fun id => ?_, hhands.finished, ?_⟩
    · obtain ⟨hpolicy, hsome⟩ := hany
      obtain ⟨id, hid⟩ := List.exists_mem_of_ne_nil _ hsome
      obtain ⟨hchild, row, hrow, hcompleted⟩ := mem_finishedAmong.mp hid
      obtain ⟨row', hunheard⟩ := mem_unheard.mp hchild
      cases hrow.symm.trans hunheard.found
      refine .success ?_ hunheard (of_decide_eq_true hcompleted)
      cases hw : parent.waitPolicy with
      | none =>
        rw [hw] at hpolicy
        cases hpolicy
      | some =>
        rw [hw] at hpolicy
        exact congrArg some hpolicy
    · exact mem_unheard.mp (mem_finishedAmong.mp hid).1
    · rw [hhands.marks id, hmarks id]
    · obtain ⟨sequence, hturn⟩ := hhands.turn
      exact ⟨sequence, by rw [hturn, hmessages]⟩
  split at h
  · obtain ⟨rfl, rfl⟩ := pure_ok.mp h
    exact .inl ⟨rfl, rfl⟩
  · next hall =>
    obtain ⟨rfl, hhands, hstill⟩ := wakeParent_spec h fun id hid => (mem_finishedAmong.mp hid).2
    refine .inr ⟨rfl, ?_, _, nodup_finishedAmong nodup_childrenOf, fun id hid => ?_, hhands⟩
    · refine .nobodyLeft (fun id row hunheard => ?_) hstill
      rw [not_not] at hall
      rw [finishedAmong, List.length_filter_eq_length_iff] at hall
      have hevery := hall id (mem_unheard.mpr ⟨row, hunheard⟩)
      obtain ⟨_, hrow', hdone⟩ := Option.any_eq_true _ _ |>.mp hevery
      cases hunheard.found.symm.trans hrow'
      exact hdone
    · exact mem_unheard.mp (mem_finishedAmong.mp hid).1

theorem settleChildWait_cases {woken : Bool} (h : settleChildWait env parentRunId s = .ok (woken, s')) :
    (woken = false ∧ s' = s) ∨ (woken = true ∧ ∃ parent, s.runs.lookup parentRunId = some parent ∧
      Cause parentRunId parent s s' ∧ ∃ delivered, delivered.Nodup ∧
        (∀ id ∈ delivered, ∃ row, Unheard s parentRunId id row) ∧
        HandsOver env.now parentRunId parent delivered s s') := by
  rcases RunMoves.sweepRun_cases h with hnothing | ⟨parent, _, hparent, _, _, _, h⟩
  · exact .inl hnothing
  · rcases settleChildren_cases h with hnothing | ⟨hwoken, hwakes⟩
    · exact .inl hnothing
    · exact .inr ⟨hwoken, parent, hparent, hwakes⟩

end Settling

section Steps
variable {env : Env} {s s' : Store} {op : Op} {a : Answer}

theorem finished_move {A : Allowed} {v v' : RunView} (hmove : RunMove A v v') {state : RunState}
    (hdone : state.isTerminal = true) (h : ∃ row, v.row = some row ∧ row.status = state) :
    ∃ row, v'.row = some row ∧ row.status = state := by
  obtain ⟨row, hrow, hstate⟩ := h
  have hlive {row' : RunRow} {signal : RunSignal} {d : StateDecision} (hrow' : v.row = some row')
      (hd : Decides row' signal d) : False := by
    cases hrow.symm.trans hrow'
    obtain ⟨_, _, _, _, hview, hd⟩ := hd
    have := decide_live hd
    rw [hview, hstate, hdone] at this
    cases this
  have hsame {row' : RunRow} (hrow' : v.row = some row') : row'.status = state := by
    rw [← Option.some.inj (hrow.symm.trans hrow'), hstate]
  cases hmove with
  | beside hb =>
    have hb := hb.row
    rw [hrow] at hb
    obtain ⟨row', hrow', hk⟩ := hb.of_some
    exact ⟨row', hrow', by rw [hk, hstate]⟩
  | born hnew =>
    rw [hnew] at hrow
    cases hrow
  | claimed _ hr hd => exact (hlive hr hd).elim
  | renewed => exact ⟨row, hrow, hstate⟩
  | sent hr =>
    have hstatus := hsame hr
    exact ⟨_, rfl, hstatus⟩
  | recorded _ hr =>
    have hstatus := hsame hr
    exact ⟨_, rfl, hstatus⟩
  | ended _ hr _ _ _ _ hd => exact (hlive hr hd).elim
  | signalled _ _ hr _ hd => exact (hlive hr hd).elim
  | swept _ hr _ hd => exact (hlive hr hd).elim
  | reclaimed _ hr hd => exact (hlive hr hd).elim
  | told hr =>
    have hstatus := hsame hr
    exact ⟨_, rfl, hstatus⟩

theorem finished_moving {A : Uuid → Allowed} (h : RunMoves.Moving A s s') (hdone : Finished s id) :
    Finished s' id := by
  obtain ⟨row, hrow, hterminal⟩ := hdone
  have hkept := RunMoves.keep_moves (I := fun v => ∃ r, v.row = some r ∧ r.status = row.status)
    (fun _ _ hm hv => finished_move hm hterminal hv) (h id) ⟨row, hrow, rfl⟩
  obtain ⟨row', hrow', hstatus⟩ := hkept
  exact ⟨row', hrow', by rw [hstatus, hterminal]⟩

theorem exec_finished (h : exec env op s = .ok (a, s')) (hdone : Finished s id) : Finished s' id :=
  finished_moving (RunMoves.exec_moves op h) hdone

/-- The children whose reports the transaction hands over, each of them for the first time. -/
def Delivers (c : Commit Store (Env × Op) Answer) (parentRunId : Uuid) (delivered : List Uuid) : Prop :=
  c.input.2 = .settleChildWait parentRunId ∧ delivered.Nodup ∧ (∀ id ∈ delivered, deliveredAt c.before id = none) ∧
    ∃ parent, c.before.runs.lookup parentRunId = some parent ∧
      HandsOver c.input.1.now parentRunId parent delivered c.before c.after

theorem Unheard.deliveredAt {parentRunId : Uuid} {row : RunRow} (h : Unheard s parentRunId id row) :
    deliveredAt s id = none := by
  rw [ChildDeliveries.deliveredAt, h.found]
  exact h.undelivered

/-- A transaction that hands nothing over: no mark moves, and one that meant to settle a wait writes nothing. -/
def Silent (c : Commit Store (Env × Op) Answer) : Prop :=
  SameMarks c.before c.after ∧ ∀ parentRunId, c.input.2 = .settleChildWait parentRunId → c.after = c.before

theorem step_delivers (h : exec env op s = .ok (a, s')) :
    Silent ⟨s, (env, op), a, s'⟩ ∨ ∃ parentRunId delivered, Delivers ⟨s, (env, op), a, s'⟩ parentRunId delivered := by
  by_cases hop : ∃ parentRunId, op = .settleChildWait parentRunId
  · obtain ⟨parentRunId, rfl⟩ := hop
    obtain ⟨_, _, hsettle, h⟩ := bind_ok.mp h
    obtain ⟨rfl, rfl⟩ := pure_ok.mp h
    rcases settleChildWait_cases hsettle with ⟨_, rfl⟩ | ⟨_, parent, hparent, _, delivered, hnodup, hunheard, hhands⟩
    · exact .inl ⟨Std.Refl.refl _, fun _ _ => rfl⟩
    · refine .inr ⟨parentRunId, delivered, rfl, hnodup, fun id hid => ?_, parent, hparent, hhands⟩
      obtain ⟨_, hrow⟩ := hunheard id hid
      exact hrow.deliveredAt
  · refine .inl ⟨exec_marks (fun parentRunId heq => hop ⟨parentRunId, heq⟩) h, fun parentRunId heq => ?_⟩
    exact absurd ⟨parentRunId, heq⟩ hop

theorem exec_marked (h : exec env op s = .ok (a, s')) {at_ : Time} (hmark : deliveredAt s id = some at_) :
    deliveredAt s' id = some at_ := by
  rcases step_delivers h with ⟨hsame, _⟩ | ⟨_, _, _, _, hnew, _, _, hhands⟩
  · rw [hsame id, hmark]
  · rw [hhands.marks id, if_neg, hmark]
    intro hmem
    have := hnew id hmem
    rw [hmark] at this
    cases this

theorem reachable_delivered (h : ReachableStore s) (id : Uuid) (hmark : (deliveredAt s id).isSome = true) :
    Finished s id := by
  refine h.invariant (I := fun s => ∀ id, (deliveredAt s id).isSome = true → Finished s id) ?_ ?_ id hmark
  · intro id hmark
    cases hmark
  · intro _ _ _ _ hstep hs id hmark
    rcases step_delivers hstep with ⟨hsame, _⟩ | ⟨_, delivered, _, _, _, _, _, hhands⟩
    · rw [hsame id] at hmark
      exact exec_finished hstep (hs id hmark)
    · by_cases hmem : id ∈ delivered
      · exact hhands.finished id hmem
      · rw [hhands.marks id, if_neg hmem] at hmark
        exact exec_finished hstep (hs id hmark)

end Steps

section Runs
variable {log : History} {s : Store}

theorem execution_marked {start : Store} (h : Execution Step start log s) {at_ : Time}
    (hmark : deliveredAt start id = some at_) : deliveredAt s id = some at_ :=
  h.invariant (I := fun s => deliveredAt s id = some at_) hmark fun _ _ _ _ hstep hs => exec_marked hstep hs

theorem delivers_once (h : Executes log s) {l m r : History} {c c' : Commit Store (Env × Op) Answer}
    (hlog : log = l ++ c :: (m ++ c' :: r)) {p p' : Uuid} {delivered delivered' : List Uuid}
    (hc : Delivers c p delivered) (hc' : Delivers c' p' delivered') : delivered.Disjoint delivered' := by
  subst hlog
  obtain ⟨_, _, htail⟩ := h.split
  obtain ⟨hbetween, _, _⟩ := htail.split
  intro id hid hid'
  obtain ⟨_, _, _, _, _, hhands⟩ := hc
  have hmark : deliveredAt c.after id = some c.input.1.now := by rw [hhands.marks id, if_pos hid]
  have hagain := hc'.2.2.1 id hid'
  rw [execution_marked hbetween hmark] at hagain
  cases hagain

end Runs

end TinyHermes.Runs.ChildDeliveries
