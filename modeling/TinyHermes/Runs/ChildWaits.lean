import TinyHermes.Runs.Billing
import TinyHermes.Runs.ChildDeliveries
import TinyHermes.Runs.DelegationBounds

/-! Which delegation a parent's wait belongs to, and what ends it. The row of the wait does not keep the children it is for, so
both are read off the run. -/
namespace TinyHermes.Runs.ChildWaits
open Lib SqlRunStore SlicePolicy ChildDeliveries

def waits (s : Store) (runId : Uuid) : Bool :=
  (s.runs.lookup runId).any fun run => run.status = .waitingExternal && run.waitKind = some waitChildRuns

/-- The children a transaction created for `parentRunId`, when it was a delegation that created any. -/
def delegatedBy (parentRunId : Uuid) (c : Commit Store (Env × Op) Answer) : Option (List Uuid) :=
  match c.input.2, c.answer with
  | .delegateChildren runId _, .delegated result =>
    if runId = parentRunId ∧ result.children ≠ [] then some (result.children.map (·.runId)) else none
  | _, _ => none

structure Delegations where
  latest : List Uuid := []
  awaited : List Uuid := []

/-- A round that delegates goes into the wait with the last delegation it made. -/
def note (parentRunId : Uuid) (d : Delegations) (c : Commit Store (Env × Op) Answer) : Delegations where
  latest := (delegatedBy parentRunId c).getD d.latest
  awaited := if !waits c.before parentRunId && waits c.after parentRunId then d.latest else d.awaited

def delegations (parentRunId : Uuid) (log : History) : Delegations := log.foldl (note parentRunId) {}

def awaited (parentRunId : Uuid) (log : History) : List Uuid := (delegations parentRunId log).awaited

def successes (s : Store) (parentRunId : Uuid) : List Uuid :=
  finishedAmong s (childrenOf s parentRunId fun run => run.resultDeliveredAt.isNone) fun status => status = .completed

def waitsForAny (s : Store) (parentRunId : Uuid) : Bool :=
  (s.runs.lookup parentRunId).any fun run => run.waitPolicy = some .any

def OwnSuccess (s : Store) (parentRunId : Uuid) (own : List Uuid) : Prop :=
  waitsForAny s parentRunId = true ∧ ∃ id ∈ successes s parentRunId, id ∈ own

structure SettledByOwn (parentRunId : Uuid) (own : List Uuid) (s s' : Store) : Prop where
  met : OwnSuccess s parentRunId own ∨ ∀ id ∈ own, Finished s id
  spares : ∀ id, id ≠ parentRunId → standing s' id ≠ standing s id → OwnSuccess s parentRunId own

def settles (parentRunId : Uuid) : Op → Bool
  | .settleChildWait runId => runId = parentRunId
  | _ => false

theorem settles_iff {parentRunId : Uuid} {op : Op} : settles parentRunId op = true ↔ op = .settleChildWait parentRunId := by
  cases op <;> simp [settles]

def woke : Answer → Bool
  | .settled woken => woken
  | _ => false

theorem woke_iff {a : Answer} : woke a = true ↔ a = .settled true := by cases a <;> simp [woke]

def OwnFirst (parentRunId : Uuid) (own : List Uuid) (c : Commit Store (Env × Op) Answer) : Prop :=
  settles parentRunId c.input.2 = true → waitsForAny c.before parentRunId = true →
    (∃ id ∈ successes c.before parentRunId, id ∉ own) → ∃ id ∈ successes c.before parentRunId, id ∈ own

instance (parentRunId : Uuid) (own : List Uuid) (c : Commit Store (Env × Op) Answer) :
    Decidable (OwnFirst parentRunId own c) :=
  inferInstanceAs (Decidable (_ → _ → _ → _))

section History
variable {parentRunId : Uuid} {log : History} {s : Store}

theorem delegations_snoc (c : Commit Store (Env × Op) Answer) :
    delegations parentRunId (log ++ [c]) = note parentRunId (delegations parentRunId log) c := by
  rw [delegations, List.foldl_append]
  rfl

theorem delegatedBy_child {env : Env} {op : Op} {a : Answer} {s' : Store} {children : List Uuid}
    (h : exec env op s = .ok (a, s')) (hc : delegatedBy parentRunId ⟨s, (env, op), a, s'⟩ = some children) :
    ∀ id ∈ children, ∃ k, Billing.kinOf s' id = some k ∧ k.parent = some parentRunId := by
  unfold delegatedBy at hc
  split at hc
  · next runId requests result hop ha =>
    simp only at hop ha
    subst hop
    subst ha
    split at hc
    · next hmade =>
      cases hc
      obtain ⟨rfl, _⟩ := hmade
      obtain ⟨_, _, hmake, h⟩ := Tx.bind_ok.mp h
      obtain ⟨hanswer, rfl⟩ := Tx.pure_ok.mp h
      obtain rfl := Answer.delegated.inj hanswer
      intro _ hid
      obtain ⟨child, hchild, rfl⟩ := List.mem_map.mp hid
      rcases Billing.delegateChildren_cases hmake with ⟨_, hnone⟩ | ⟨_, _, _, _, _, _, _, hcreate⟩
      · rw [hnone] at hchild
        cases hchild
      · exact ⟨_, Billing.createChildren_listed requests hcreate child hchild, rfl⟩
    · cases hc
  · cases hc

theorem delegations_children (h : Executes log s) :
    ∀ id, (id ∈ (delegations parentRunId log).latest ∨ id ∈ (delegations parentRunId log).awaited) →
      ∃ k, Billing.kinOf s id = some k ∧ k.parent = some parentRunId := by
  induction h with
  | nil => exact fun id hid => by rcases hid with hid | hid <;> cases hid
  | @snoc log s s' i a _ hstep ih =>
    have hkept (id : Uuid) (hid : ∃ k, Billing.kinOf s id = some k ∧ k.parent = some parentRunId) :
        ∃ k, Billing.kinOf s' id = some k ∧ k.parent = some parentRunId := by
      obtain ⟨k, hk, hparent⟩ := hid
      exact ⟨k, Billing.exec_remembers hstep hk, hparent⟩
    intro id hid
    rw [delegations_snoc] at hid
    rcases hid with hid | hid
    · simp only [note] at hid
      cases hc : delegatedBy parentRunId ⟨s, i, a, s'⟩ with
      | none =>
        rw [hc] at hid
        exact hkept id (ih id (.inl hid))
      | some =>
        rw [hc] at hid
        exact delegatedBy_child hstep hc id hid
    · simp only [note] at hid
      split at hid
      · exact hkept id (ih id (.inl hid))
      · exact hkept id (ih id (.inr hid))

theorem finished_of_heard (h : ReachableStore s) {id : Uuid} {k : Billing.Kin} (hk : Billing.kinOf s id = some k)
    (hparent : k.parent = some parentRunId)
    (hdone : ∀ id row, Unheard s parentRunId id row → row.status.isTerminal = true) : Finished s id := by
  obtain ⟨row, hrow, rfl⟩ := Option.map_eq_some_iff.mp hk
  cases hmark : row.resultDeliveredAt with
  | none => exact ⟨row, hrow, hdone id row ⟨hrow, hparent, hmark⟩⟩
  | some =>
    refine reachable_delivered h id ?_
    rw [deliveredAt, hrow, Option.bind_some, hmark]
    rfl

theorem mem_successes {id : Uuid} {row : RunRow} (h : Unheard s parentRunId id row) (hdone : row.status = .completed) :
    id ∈ successes s parentRunId :=
  mem_finishedAmong.mpr ⟨mem_unheard.mpr ⟨row, h⟩, row, h.found, by rw [hdone]; rfl⟩

theorem settle_by_own (h : Executes log s) {env : Env} {s' : Store}
    (hsettle : settleChildWait env parentRunId s = .ok (true, s'))
    (hfirst : waitsForAny s parentRunId = true → (∃ id ∈ successes s parentRunId, id ∉ awaited parentRunId log) →
      ∃ id ∈ successes s parentRunId, id ∈ awaited parentRunId log) :
    SettledByOwn parentRunId (awaited parentRunId log) s s' := by
  rcases settleChildWait_cases hsettle with ⟨hfalse, _⟩ | ⟨_, _, hparent, hcause, _⟩
  · cases hfalse
  cases hcause with
  | @success id row hany hunheard hcompleted =>
    have hone : waitsForAny s parentRunId = true := by
      rw [waitsForAny, hparent, Option.any_some, hany]
      rfl
    have hmem := mem_successes hunheard hcompleted
    have hown : OwnSuccess s parentRunId (awaited parentRunId log) := by
      refine ⟨hone, ?_⟩
      by_cases hid : id ∈ awaited parentRunId log
      · exact ⟨id, hmem, hid⟩
      · exact hfirst hone ⟨id, hmem, hid⟩
    exact ⟨.inl hown, fun _ _ _ => hown⟩
  | nobodyLeft hdone hstill =>
    refine ⟨.inr fun id hid => ?_, fun id hid hmoved => absurd (hstill id hid) hmoved⟩
    obtain ⟨_, hk, hchild⟩ := delegations_children h id (.inr hid)
    exact finished_of_heard ⟨log, h⟩ hk hchild hdone

end History

/-- In every run in which the wait's own children come first, each wait is settled by them. In every run, marks
and reports go together, and no child is reported twice. -/
theorem waits_settled_by_own (log : History) (s : Store) (h : Executes log s) :
    (∀ parentRunId, (∀ l c r, log = l ++ c :: r → OwnFirst parentRunId (awaited parentRunId l) c) →
      ∀ l c r, log = l ++ c :: r → c.input.2 = .settleChildWait parentRunId → c.answer = .settled true →
        SettledByOwn parentRunId (awaited parentRunId l) c.before c.after) ∧
    (∀ c ∈ log, Silent c ∨ ∃ parentRunId delivered, Delivers c parentRunId delivered) ∧
    (∀ l c m c' r, log = l ++ c :: (m ++ c' :: r) → ∀ p p' delivered delivered',
      Delivers c p delivered → Delivers c' p' delivered' → delivered.Disjoint delivered') := by
  refine ⟨fun parentRunId hfirst l c r hlog hop hanswer => ?_, fun c hc => ?_, fun l c m c' r hlog p p' d d' hd hd' => ?_⟩
  · have hcond := hfirst l c r hlog
    subst hlog
    obtain ⟨hbefore, hstep, _⟩ := h.split
    obtain ⟨_, ⟨_, _⟩, _, _⟩ := c
    simp only at hop hanswer
    subst hop
    subst hanswer
    obtain ⟨_, _, hsettle, hpure⟩ := Tx.bind_ok.mp hstep
    obtain ⟨hwoken, rfl⟩ := Tx.pure_ok.mp hpure
    obtain rfl := Answer.settled.inj hwoken
    exact settle_by_own hbefore hsettle (hcond (decide_eq_true rfl))
  · obtain ⟨_, _, rfl⟩ := List.append_of_mem hc
    obtain ⟨_, hstep, _⟩ := h.split
    exact step_delivers hstep
  · exact delivers_once h hlog hd hd'

section Example
open DelegationBounds

def waitForAny (leaseId : Uuid) (version : Nat) : Op :=
  .recordSlice { slice 3 leaseId version (some .externalWaitStarted) with
    waitKind := some waitChildRuns, waitSeconds := some 60, waitPolicy := some .any }

def handWork (sessionId runId : Uuid) : Op :=
  .delegateChildren 3 [({ aliasName := "helper", instruction := "look" }, sessionId, runId)]

def firstDelegation : List (Env × Op) :=
  [(lendingAt 0, openSession 2), (lendingAt 1, ask 2 3 "question"), (lendingAt 2, take 5), (lendingAt 3, handWork 6 7),
    (lendingAt 4, waitForAny 5 2), (lendingAt 5, take 8)]

def inTime : List (Env × Op) :=
  firstDelegation ++ [(lendingAt 6, .recordSlice (slice 7 8 2 (some .completed))), (lendingAt 7, .settleChildWait 3)]

def secondDelegation : List (Env × Op) :=
  firstDelegation ++ [(lendingAt 70, .timeOutExternalWait 3), (lendingAt 71, .controlRun true 1 3 .resumeRequested 7 4),
    (lendingAt 72, take 9), (lendingAt 73, handWork 10 11), (lendingAt 74, waitForAny 9 6),
    (lendingAt 75, .recordSlice (slice 7 8 2 (some .completed)))]

theorem ownFirst_of_all {parentRunId : Uuid} {log : History}
    (h : (List.range log.length).all fun i =>
      log[i]?.all fun c => decide (OwnFirst parentRunId (awaited parentRunId (log.take i)) c)) :
    ∀ l c r, log = l ++ c :: r → OwnFirst parentRunId (awaited parentRunId l) c := by
  rintro l _ _ rfl
  have hat := List.all_eq_true.mp h l.length (by simp)
  simpa using hat

/-- A wait whose child succeeds in time is settled by that child. -/
theorem inTime_settled_by_own :
    ∃ l c, (attempt inTime).1 = l ++ [c] ∧ c.answer = .settled true ∧ awaited 3 l = [7] ∧
      SettledByOwn 3 (awaited 3 l) c.before c.after := by
  have hfirst : (List.range (attempt inTime).1.length).all fun i =>
      (attempt inTime).1[i]?.all fun c => decide (OwnFirst 3 (awaited 3 ((attempt inTime).1.take i)) c) := by
    decide +kernel
  have hlast : ((attempt inTime).1.getLast?.map fun c => settles 3 c.input.2 && woke c.answer) =
      some true := by decide +kernel
  have hown : awaited 3 (attempt inTime).1.dropLast = [7] := by decide +kernel
  have hsettled := waits_settled_by_own (attempt inTime).1 (attempt inTime).2 (attempt_executes inTime)
  generalize attempt inTime = run at *
  obtain ⟨c, hc, hsettles⟩ := Option.map_eq_some_iff.mp hlast
  obtain ⟨l, hlog⟩ := List.getLast?_eq_some_iff.mp hc
  rw [Bool.and_eq_true, settles_iff] at hsettles
  have hanswer : c.answer = .settled true := woke_iff.mp hsettles.2
  refine ⟨l, c, hlog, hanswer, ?_, hsettled.1 3 (ownFirst_of_all hfirst) l c [] hlog hsettles.1 hanswer⟩
  rwa [hlog, List.dropLast_concat] at hown

private theorem mergeSort_pair {α : Type} (le : α → α → Bool) (a b : α) :
    [a, b].mergeSort le = if le a b then [a, b] else [b, a] := by
  simp [List.mergeSort, List.MergeSort.Internal.splitInTwo, List.merge]

private theorem second_unheard :
    childrenOf (attempt secondDelegation).2 3 (fun run => run.resultDeliveredAt.isNone) = [7, 11] := by
  have hfound : (((attempt secondDelegation).2.runs.select fun _ run =>
      run.parentRunId = some 3 && run.resultDeliveredAt.isNone).map fun e => (e.1, e.2.createdAt)) =
        [(11, 73), (7, 3)] := by decide +kernel
  rw [childrenOf]
  generalize (attempt secondDelegation).2.runs.select _ = found at hfound
  obtain ⟨_, rest, rfl, ha, hfound⟩ := List.map_eq_cons_iff.mp hfound
  obtain ⟨_, _, rfl, hb, hfound⟩ := List.map_eq_cons_iff.mp hfound
  obtain rfl := List.map_eq_nil_iff.mp hfound
  simp only [Prod.mk.injEq] at ha hb
  simp [mergeSort_pair, ha, hb]

private theorem second_woken :
    ∃ s', exec (lendingAt 76) (.settleChildWait 3) (attempt secondDelegation).2 = .ok (.settled true, s') := by
  have hwoken : ((attempt secondDelegation).2.runs.lookup 3).map (fun parent =>
      (parent.status, parent.waitKind, ((attempt secondDelegation).2.sessions.lookup parent.sessionId).map
        (fun session => decide (session.workspaceId = parent.workspaceId)),
        (settleAmong (lendingAt 76) 3 parent [7, 11] (attempt secondDelegation).2).toOption.map (·.1))) =
      some (.waitingExternal, some waitChildRuns, some true, some true) := by decide +kernel
  obtain ⟨_, hparent, hwoken⟩ := Option.map_eq_some_iff.mp hwoken
  simp only [Prod.mk.injEq, Option.map_eq_some_iff] at hwoken
  obtain ⟨hstatus, hkind, ⟨_, hsession, hworkspace⟩, ⟨_, s'⟩, hsettle, rfl⟩ := hwoken
  refine ⟨s', ?_⟩
  have hfound : settleChildWait (lendingAt 76) 3 (attempt secondDelegation).2 = .ok (true, s') := by
    rw [settleChildWait, RunMoves.sweepRun_found hparent (by rw [hstatus, hkind]; rfl) hsession
      (of_decide_eq_true hworkspace), settleChildren_eq, second_unheard]
    exact Tx.ok_of_toOption hsettle
  rw [exec, Tx.bind_of_ok hfound]
  rfl

/-- A child of the delegation that timed out succeeds: its success ends the wait for the second one, whose own
child is still queued. -/
theorem late_success_settles :
    ¬ ∀ log s, Executes log s → ∀ parentRunId l c r, log = l ++ c :: r → c.input.2 = .settleChildWait parentRunId →
      c.answer = .settled true → SettledByOwn parentRunId (awaited parentRunId l) c.before c.after := by
  intro hclaim
  obtain ⟨s', hstep⟩ := second_woken
  have hexec := attempt_executes secondDelegation
  have hown : awaited 3 (attempt secondDelegation).1 = [11] := by decide +kernel
  have hqueued : ((attempt secondDelegation).2.runs.lookup 11).map (·.status) = some .queued := by decide +kernel
  generalize attempt secondDelegation = run at *
  have hstep : Step run.2 (lendingAt 76, .settleChildWait 3) (.settled true) s' := hstep
  have hsettled := hclaim _ s' (.snoc hexec hstep) 3 _ _ [] rfl rfl rfl
  obtain ⟨_, hrow, hstatus⟩ := Option.map_eq_some_iff.mp hqueued
  rw [hown] at hsettled
  rcases hsettled.met with ⟨_, _, hid, hmem⟩ | hdone
  · obtain rfl := List.mem_singleton.mp hmem
    obtain ⟨_, row', hrow', hcompleted⟩ := mem_finishedAmong.mp hid
    cases hrow.symm.trans hrow'
    rw [hstatus] at hcompleted
    cases hcompleted
  · obtain ⟨_, hrow', hterminal⟩ := hdone 11 (List.mem_singleton_self _)
    cases hrow.symm.trans hrow'
    rw [hstatus] at hterminal
    cases hterminal

end Example

end TinyHermes.Runs.ChildWaits
