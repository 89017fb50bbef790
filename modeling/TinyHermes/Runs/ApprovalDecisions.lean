import TinyHermes.Identity.Machines
import TinyHermes.Runs.Transactions

/-! Approvals, and who writes what became of one while decisions and the expiry overlap: a transaction reads the row, checks it
and writes it, and from the write on it is locked. -/
namespace TinyHermes.Runs.ApprovalDecisions
open Lib Tx SqlRunStore StateMachine

inductive ApprovalType where
  | userConfirmation | governanceApproval
  deriving DecidableEq, Repr

inductive ApprovalStatus where
  | pending | approved | rejected | expired
  deriving DecidableEq, Repr

inductive ApprovalDecision where
  | approve | reject
  deriving DecidableEq, Repr

structure ApprovalRow where
  id : Uuid
  runId : Uuid
  workspaceId : Uuid
  approvalType : ApprovalType
  status : ApprovalStatus := .pending
  requestedBy : Uuid
  expiresAt : Time
  decidedBy : Option Uuid := none
  decidedAt : Option Time := none
  decisionReason : Option String := none
  deriving DecidableEq, Repr

structure Actor where
  id : Uuid
  isPlatformAdmin : Bool := false
  isServiceAccount : Bool := false
  isEndUser : Bool := false
  deriving DecidableEq, Repr

structure Decider where
  userId : Uuid
  isWorkspaceAdmin : Bool := false
  isPlatformAdmin : Bool := false
  isRunEndUser : Bool := false

def mayDecide (approval : ApprovalRow) (decider : Decider) : Bool :=
  match approval.approvalType with
  | .userConfirmation => decider.isRunEndUser && decider.userId = approval.requestedBy
  | .governanceApproval => decider.isWorkspaceAdmin || decider.isPlatformAdmin

def maxReasonLength : Nat := 2048

inductive ApprovalError where
  | unknownApproval | approvalAlreadyDecided (status : ApprovalStatus) | approvalExpired | forbiddenApprovalAction
  | reasonRequired
  deriving DecidableEq, Repr

/-- What a person asks for. `role` is what `user_role` finds. -/
structure DecideCommand where
  actor : Actor
  role : Option Identity.Role := none
  workspaceId : Uuid
  decision : ApprovalDecision
  reason : Option String := none

def endUserOf (s : Store) (runId : Uuid) : Option Uuid := (s.runs.lookup runId).bind (·.endUserId)

def deciderOf (s : Store) (cmd : DecideCommand) (approval : ApprovalRow) : Decider where
  userId := cmd.actor.id
  isWorkspaceAdmin := cmd.role = some .workspaceAdmin
  isPlatformAdmin := cmd.actor.isPlatformAdmin
  isRunEndUser := cmd.actor.isEndUser && endUserOf s approval.runId = some cmd.actor.id

/-- `(reason or "").strip() or None`. -/
def cleanedReason (reason : Option String) : Option String :=
  (reason.map Text.strip).filter (· ≠ "")

/-- The columns a transaction sets; what it leaves as it was loaded is not in the `UPDATE`. -/
structure Ruling where
  status : ApprovalStatus
  decidedBy : Option Uuid := none
  decidedAt : Time
  reason : Option String := none
  deriving DecidableEq, Repr

def Ruling.write (ruling : Ruling) (row : ApprovalRow) : ApprovalRow :=
  { row with
    status := ruling.status
    decidedBy := ruling.decidedBy.or row.decidedBy
    decidedAt := some ruling.decidedAt
    decisionReason := ruling.reason.or row.decisionReason }

/-- The checks of `ApprovalService.decide`, and what it then writes. -/
def checkDecision (env : Env) (s : Store) (approval : ApprovalRow) (cmd : DecideCommand) : Except ApprovalError Ruling :=
  if approval.workspaceId ≠ cmd.workspaceId then .error .unknownApproval
  else if approval.status ≠ .pending then .error (.approvalAlreadyDecided approval.status)
  else if approval.expiresAt ≤ env.now then .error .approvalExpired
  else if cmd.actor.isServiceAccount then .error .forbiddenApprovalAction
  else if mayDecide approval (deciderOf s cmd approval) = false then .error .forbiddenApprovalAction
  else if cmd.decision = .reject ∧ cleanedReason cmd.reason = none then .error .reasonRequired
  else .ok {
    status := match cmd.decision with
      | .approve => .approved
      | .reject => .rejected
    decidedBy := some cmd.actor.id
    decidedAt := env.now
    reason := (cleanedReason cmd.reason).map fun text => String.ofList (text.toList.take maxReasonLength) }

/-- The sweep selects pending approvals whose time is over, and looks again at the row it loads. -/
def checkExpiry (env : Env) (approval : ApprovalRow) : Option Ruling :=
  if approval.status = .pending ∧ approval.expiresAt ≤ env.now then some { status := .expired, decidedAt := env.now }
  else none

structure Transition where
  signal : RunSignal
  pauseReason : Option PauseReason := none
  deriving DecidableEq

def transitionFor : ApprovalStatus → Option Transition
  | .pending => none
  | .approved => some { signal := .approvalApproved }
  | .rejected => some { signal := .approvalPaused, pauseReason := some .approvalRejected }
  | .expired => some { signal := .approvalPaused, pauseReason := some .approvalExpired }

def waiting (s : Store) (runId : Uuid) : Bool := (s.runs.lookup runId).any fun run => run.status = .waitingApproval

def sweepMoves (s : Store) (runId : Uuid) : Bool :=
  ((s.runs.lookup runId).filter fun run => run.status = .waitingApproval).any fun run =>
    ((s.sessions.lookup run.sessionId).filter fun session => session.workspaceId = run.workspaceId).isSome

/-- `_move_run` once the Run was seen waiting. -/
def moveRun (env : Env) (approval : ApprovalRow) (status : ApprovalStatus) : StoreTx Transition := do
  let transition : Transition :=
    if status = .approved then { signal := .approvalApproved }
    else { signal := .approvalPaused, pauseReason := some .approvalRejected }
  applySignal env
    { workspaceId := approval.workspaceId, runId := approval.runId, signal := transition.signal,
      pauseReason := transition.pauseReason, payload := [("approval_id", toString approval.id)] }
  pure transition

inductive Request where
  | decide (cmd : DecideCommand)
  | expire

/-- How far a transaction has come; `seen` is how often the row had been written when it was read. -/
inductive Phase where
  | arrived
  | checked (ruling : Ruling) (seen : Nat)
  | written (ruling : Ruling)
  | moving (ruling : Ruling)
  | settled (ruling : Ruling) (moved : Option (Transition × Store))

/-- The row lock, from the `UPDATE` on. -/
def Phase.holdsRow : Phase → Bool
  | .arrived | .checked _ _ => false
  | _ => true

structure Participant where
  request : Request
  phase : Phase := .arrived

/-- What is committed, and the transactions under way. `writes` counts the committed writes of the approval's row;
no statement reads it. -/
structure World where
  store : Store
  approval : ApprovalRow
  writes : Nat := 0
  participants : Table Nat Participant := ∅

/-- What a commit made public: the ruling, and the Run's transition if there was one. -/
inductive Outcome where
  | quiet
  | decided (ruling : Ruling) (transition : Option Transition)
  deriving DecidableEq

abbrev WorldTx := Tx World StoreError

def participantOf (id : Nat) : WorldTx Participant := fetch (·.participants.lookup id) .integrity

def setPhase (id : Nat) (phase : Phase) : WorldTx Outcome := do
  write fun w => { w with participants := w.participants.modify id fun p => { p with phase } }
  pure .quiet

def leave (id : Nat) : WorldTx Outcome := do
  write fun w => { w with participants := w.participants.erase id }
  pure .quiet

def arrive (id : Nat) (request : Request) : WorldTx Outcome := do
  let w ← get
  require (w.participants.lookup id = none) .integrity
  write fun w => { w with participants := w.participants.insert id { request } }
  pure .quiet

/-- The row is read, as committed by now, and checked. -/
def read (env : Env) (id : Nat) : WorldTx Outcome := do
  let p ← participantOf id
  let w ← get
  match p.phase, p.request with
  | .arrived, .decide cmd =>
    match checkDecision env w.store w.approval cmd with
    | .ok ruling => setPhase id (.checked ruling w.writes)
    | .error _ => leave id
  | .arrived, .expire =>
    match checkExpiry env w.approval with
    | some ruling => setPhase id (.checked ruling w.writes)
    | none => leave id
  | _, _ => throw .integrity

/-- The `UPDATE` of the row, which waits while another transaction has written it and not ended. -/
def writeRow (id : Nat) : WorldTx Outcome := do
  let p ← participantOf id
  let w ← get
  match p.phase with
  | .checked ruling _ => do
    require (w.participants.select (fun j q => j ≠ id && q.phase.holdsRow) = []) .integrity
    setPhase id (.written ruling)
  | _ => throw .integrity

/-- `_move_run` reads the Run without a lock; the sweep goes on to lock it. -/
def look (id : Nat) : WorldTx Outcome := do
  let p ← participantOf id
  let w ← get
  match p.phase, p.request with
  | .written ruling, .decide _ =>
    if waiting w.store w.approval.runId then setPhase id (.moving ruling) else setPhase id (.settled ruling none)
  | .written ruling, .expire => setPhase id (.moving ruling)
  | _, _ => throw .integrity

/-- The Run is locked and moved; an error rolls the transaction back. -/
def move (env : Env) (id : Nat) : WorldTx Outcome := do
  let p ← participantOf id
  let w ← get
  match p.phase, p.request with
  | .moving ruling, .decide _ =>
    match moveRun env w.approval ruling.status w.store with
    | .ok (transition, s) => setPhase id (.settled ruling (some (transition, s)))
    | .error _ => leave id
  | .moving ruling, .expire =>
    match expireApproval env w.approval.id w.approval.runId w.store with
    | .ok (_, s) =>
      setPhase id (.settled ruling (if sweepMoves w.store w.approval.runId then
        some ({ signal := .approvalPaused, pauseReason := some .approvalExpired }, s) else none))
    | .error _ => leave id
  | _, _ => throw .integrity

def commit (id : Nat) : WorldTx Outcome := do
  let p ← participantOf id
  match p.phase with
  | .settled ruling moved => do
    write fun w => { w with
      store := (moved.map (·.2)).getD w.store
      approval := ruling.write w.approval
      writes := w.writes + 1
      participants := w.participants.erase id }
    pure (.decided ruling (moved.map (·.1)))
  | _ => throw .integrity

inductive Act where
  | arrive (id : Nat) (request : Request)
  | read (id : Nat)
  | writeRow (id : Nat)
  | look (id : Nat)
  | move (id : Nat)
  | commit (id : Nat)
  | rollBack (id : Nat)

def act (env : Env) : Act → WorldTx Outcome
  | .arrive id request => arrive id request
  | .read id => read env id
  | .writeRow id => writeRow id
  | .look id => look id
  | .move id => move env id
  | .commit id => commit id
  | .rollBack id => leave id

def WorldStep (w : World) (i : Env × Act) (o : Outcome) (w' : World) : Prop := act i.1 i.2 w = .ok (o, w')

abbrev WorldHistory := List (Commit World (Env × Act) Outcome)

/-- The runs of the transactions on one approval that nobody has answered yet. -/
structure Begins (w : World) : Prop where
  pending : w.approval.status = .pending
  unwritten : w.writes = 0
  nobody : ∀ id, w.participants.lookup id = none

/-- The status leaves `pending` once, stays as it is from then on, and the Run moved as it says. -/
structure DecidedOnce (log : WorldHistory) (w : World) : Prop where
  leavesOnce : (log.filter fun c => c.before.approval.status = .pending && c.after.approval.status ≠ .pending).length ≤ 1
  keptAfter : ∀ c ∈ log, c.before.approval.status ≠ .pending → c.after.approval = c.before.approval
  matching : ∀ c ∈ log, ∀ ruling transition, c.answer = .decided ruling (some transition) →
    transitionFor w.approval.status = some transition

/-- Nobody has committed another answer since this transaction read the row. -/
def WritesFresh (c : Commit World (Env × Act) Outcome) : Prop :=
  match c.input.2 with
  | .writeRow id => ∀ p ruling seen, c.before.participants.lookup id = some p → p.phase = .checked ruling seen →
      seen = c.before.writes
  | _ => True

section Moves
variable {env : Env} {w w' : World} {x : Act} {o : Outcome} {id : Nat} {p : Participant}

def Fits : Request → Ruling → Prop
  | .decide _, ruling => ruling.status = .approved ∨ ruling.status = .rejected
  | .expire, ruling => ruling.status = .expired

/-- A step of one transaction that makes nothing public. -/
inductive Advances (w : World) (id : Nat) (p : Participant) : Act → Phase → Prop where
  | checked {x : Act} {ruling : Ruling} (hphase : p.phase = .arrived) (hpending : w.approval.status = .pending)
      (hfits : Fits p.request ruling) : Advances w id p x (.checked ruling w.writes)
  | wrote {ruling : Ruling} {seen : Nat} (hphase : p.phase = .checked ruling seen)
      (hfree : ∀ j q, j ≠ id → w.participants.lookup j = some q → q.phase.holdsRow = false) :
      Advances w id p (.writeRow id) (.written ruling)
  | looked {x : Act} {ruling : Ruling} (hphase : p.phase = .written ruling) : Advances w id p x (.moving ruling)
  | stayed {x : Act} {ruling : Ruling} (hphase : p.phase = .written ruling) : Advances w id p x (.settled ruling none)
  | moved {x : Act} {ruling : Ruling} {made : Option (Transition × Store)} (hphase : p.phase = .moving ruling)
      (hmade : Fits p.request ruling → ∀ t s, made = some (t, s) → transitionFor ruling.status = some t) :
      Advances w id p x (.settled ruling made)

inductive Moves (w : World) : Act → Outcome → World → Prop where
  | arrived {id : Nat} {request : Request} (hnew : w.participants.lookup id = none) :
      Moves w (.arrive id request) .quiet { w with participants := w.participants.insert id { request } }
  | advanced {x : Act} {id : Nat} {p : Participant} {phase : Phase} (hp : w.participants.lookup id = some p)
      (hstep : Advances w id p x phase) :
      Moves w x .quiet { w with participants := w.participants.modify id fun p => { p with phase } }
  | left {x : Act} {id : Nat} : Moves w x .quiet { w with participants := w.participants.erase id }
  | committed {x : Act} {id : Nat} {p : Participant} {ruling : Ruling} {made : Option (Transition × Store)}
      (hp : w.participants.lookup id = some p) (hphase : p.phase = .settled ruling made) :
      Moves w x (.decided ruling (made.map (·.1))) { w with
        store := (made.map (·.2)).getD w.store
        approval := ruling.write w.approval
        writes := w.writes + 1
        participants := w.participants.erase id }

theorem setPhase_ok {phase : Phase} (h : setPhase id phase w = .ok (o, w')) :
    o = .quiet ∧ w' = { w with participants := w.participants.modify id fun p => { p with phase } } := by
  rw [setPhase, write_bind] at h
  obtain ⟨rfl, rfl⟩ := pure_ok.mp h
  exact ⟨rfl, rfl⟩

theorem leave_moves (h : leave id w = .ok (o, w')) : Moves w x o w' := by
  rw [leave, write_bind] at h
  obtain ⟨rfl, rfl⟩ := pure_ok.mp h
  exact .left

theorem setPhase_moves {phase : Phase} (h : setPhase id phase w = .ok (o, w')) (hp : w.participants.lookup id = some p)
    (hstep : Advances w id p x phase) : Moves w x o w' := by
  obtain ⟨rfl, rfl⟩ := setPhase_ok h
  exact .advanced hp hstep

theorem checkDecision_ok {s : Store} {approval : ApprovalRow} {cmd : DecideCommand} {ruling : Ruling}
    (h : checkDecision env s approval cmd = .ok ruling) :
    approval.status = .pending ∧ (ruling.status = .approved ∨ ruling.status = .rejected) := by
  unfold checkDecision at h
  split_ifs at h with h₁ h₂ h₃ h₄ h₅ h₆
  refine ⟨not_not.mp h₂, ?_⟩
  rw [← Except.ok.inj h]
  cases cmd.decision with
  | approve => exact .inl rfl
  | reject => exact .inr rfl

theorem checkExpiry_some {approval : ApprovalRow} {ruling : Ruling} (h : checkExpiry env approval = some ruling) :
    approval.status = .pending ∧ ruling.status = .expired := by
  unfold checkExpiry at h
  split_ifs at h with hdue
  rw [← Option.some.inj h]
  exact ⟨hdue.1, rfl⟩

theorem read_moves (h : read env id w = .ok (o, w')) : Moves w (.read id) o w' := by
  rw [read, participantOf, fetch_bind_ok] at h
  obtain ⟨p, hp, h⟩ := h
  rw [get_bind] at h
  cases hphase : p.phase with
  | arrived =>
    cases hrequest : p.request with
    | decide cmd =>
      simp only [hphase, hrequest] at h
      cases hcheck : checkDecision env w.store w.approval cmd with
      | error =>
        rw [hcheck] at h
        exact leave_moves h
      | ok =>
        rw [hcheck] at h
        obtain ⟨hpending, hanswer⟩ := checkDecision_ok hcheck
        exact setPhase_moves h hp (.checked hphase hpending (by rw [hrequest]; exact hanswer))
    | expire =>
      simp only [hphase, hrequest] at h
      cases hcheck : checkExpiry env w.approval with
      | none =>
        rw [hcheck] at h
        exact leave_moves h
      | some =>
        rw [hcheck] at h
        obtain ⟨hpending, hanswer⟩ := checkExpiry_some hcheck
        exact setPhase_moves h hp (.checked hphase hpending (by rw [hrequest]; exact hanswer))
  | _ =>
    simp only [hphase] at h
    exact absurd h throw_ok

theorem writeRow_moves (h : writeRow id w = .ok (o, w')) : Moves w (.writeRow id) o w' := by
  rw [writeRow, participantOf, fetch_bind_ok] at h
  obtain ⟨p, hp, h⟩ := h
  rw [get_bind] at h
  cases hphase : p.phase with
  | checked =>
    simp only [hphase] at h
    obtain ⟨hfree, h⟩ := require_bind_ok.mp h
    refine setPhase_moves h hp (.wrote hphase fun j q hj hq => ?_)
    cases hholds : q.phase.holdsRow with
    | false => rfl
    | true =>
      have hmem : (j, q) ∈ w.participants.select fun j q => j ≠ id && q.phase.holdsRow :=
        Table.mem_select.mpr ⟨hq, by simp [hj, hholds]⟩
      rw [hfree] at hmem
      cases hmem
  | _ =>
    simp only [hphase] at h
    exact absurd h throw_ok

theorem look_moves (h : look id w = .ok (o, w')) : Moves w (.look id) o w' := by
  rw [look, participantOf, fetch_bind_ok] at h
  obtain ⟨p, hp, h⟩ := h
  rw [get_bind] at h
  cases hphase : p.phase with
  | written =>
    cases hrequest : p.request with
    | decide =>
      simp only [hphase, hrequest] at h
      split_ifs at h
      · exact setPhase_moves h hp (.looked hphase)
      · exact setPhase_moves h hp (.stayed hphase)
    | expire =>
      simp only [hphase, hrequest] at h
      exact setPhase_moves h hp (.looked hphase)
  | _ =>
    simp only [hphase] at h
    exact absurd h throw_ok

theorem moveRun_transition {approval : ApprovalRow} {status : ApprovalStatus} {s s' : Store} {t : Transition}
    (h : moveRun env approval status s = .ok (t, s')) (hanswer : status = .approved ∨ status = .rejected) :
    transitionFor status = some t := by
  obtain ⟨_, _, _, hpure⟩ := bind_ok.mp h
  obtain ⟨rfl, _⟩ := pure_ok.mp hpure
  rcases hanswer with rfl | rfl
  · rfl
  · rfl

theorem move_moves (h : move env id w = .ok (o, w')) : Moves w (.move id) o w' := by
  rw [move, participantOf, fetch_bind_ok] at h
  obtain ⟨p, hp, h⟩ := h
  rw [get_bind] at h
  cases hphase : p.phase with
  | moving ruling =>
    cases hrequest : p.request with
    | decide =>
      simp only [hphase, hrequest] at h
      cases hmove : moveRun env w.approval ruling.status w.store with
      | error =>
        simp only [hmove] at h
        exact leave_moves h
      | ok made =>
        obtain ⟨_, _⟩ := made
        simp only [hmove] at h
        refine setPhase_moves h hp (.moved hphase fun hfits t' s' heq => ?_)
        cases heq
        rw [hrequest] at hfits
        exact moveRun_transition hmove hfits
    | expire =>
      simp only [hphase, hrequest] at h
      cases hmove : expireApproval env w.approval.id w.approval.runId w.store with
      | error =>
        simp only [hmove] at h
        exact leave_moves h
      | ok =>
        simp only [hmove] at h
        refine setPhase_moves h hp (.moved hphase fun hfits t' s' heq => ?_)
        rw [hrequest] at hfits
        have hexpired : ruling.status = .expired := hfits
        split_ifs at heq
        obtain ⟨rfl, _⟩ := Prod.mk.inj (Option.some.inj heq)
        rw [hexpired]
        rfl
  | _ =>
    simp only [hphase] at h
    exact absurd h throw_ok

theorem commit_moves (h : commit id w = .ok (o, w')) : Moves w x o w' := by
  rw [commit, participantOf, fetch_bind_ok] at h
  obtain ⟨p, hp, h⟩ := h
  cases hphase : p.phase with
  | settled =>
    simp only [hphase, write_bind] at h
    obtain ⟨rfl, rfl⟩ := pure_ok.mp h
    exact .committed hp hphase
  | _ =>
    simp only [hphase] at h
    exact absurd h throw_ok

theorem act_moves (h : act env x w = .ok (o, w')) : Moves w x o w' := by
  cases x with
  | arrive =>
    simp only [act, arrive, get_bind, require_bind_ok, write_bind] at h
    obtain ⟨hnew, h⟩ := h
    obtain ⟨rfl, rfl⟩ := pure_ok.mp h
    exact .arrived hnew
  | read => exact read_moves h
  | writeRow => exact writeRow_moves h
  | look => exact look_moves h
  | move => exact move_moves h
  | commit => exact commit_moves h
  | rollBack => exact leave_moves h

end Moves

section Once
variable {start w w' : World} {x : Act} {o : Outcome} {id : Nat} {p : Participant} {env : Env} {log : WorldHistory}

def rulingOf : Phase → Option Ruling
  | .arrived => none
  | .checked ruling _ | .written ruling | .moving ruling | .settled ruling _ => some ruling

/-- What a transaction is about to make public is the answer it was asked for. -/
def Consistent (p : Participant) : Prop :=
  (∀ ruling, rulingOf p.phase = some ruling → Fits p.request ruling) ∧
    ∀ ruling t s, p.phase = .settled ruling (some (t, s)) → transitionFor ruling.status = some t

theorem Fits.answered {request : Request} {ruling : Ruling} (h : Fits request ruling) : ruling.status ≠ .pending := by
  intro hpending
  cases request with
  | decide =>
    rcases h with h | h
    · rw [hpending] at h
      cases h
    · rw [hpending] at h
      cases h
  | expire =>
    have hexpired : ruling.status = .expired := h
    rw [hpending] at hexpired
    cases hexpired

theorem Advances.consistent {phase : Phase} (hstep : Advances w id p x phase) (h : Consistent p) :
    Consistent { p with phase } := by
  cases hstep with
  | checked hphase hpending hfits =>
    refine ⟨fun ruling hr => ?_, fun _ _ _ heq => (nomatch heq)⟩
    cases hr
    exact hfits
  | wrote hphase =>
    refine ⟨fun ruling hr => h.1 ruling ?_, fun _ _ _ heq => (nomatch heq)⟩
    rw [hphase]
    exact hr
  | looked hphase =>
    refine ⟨fun ruling hr => h.1 ruling ?_, fun _ _ _ heq => (nomatch heq)⟩
    rw [hphase]
    exact hr
  | stayed hphase =>
    refine ⟨fun ruling hr => h.1 ruling ?_, fun _ _ _ heq => (nomatch heq)⟩
    rw [hphase]
    exact hr
  | moved hphase hmade =>
    have hfits := h.1 _ (by rw [hphase]; rfl)
    refine ⟨fun ruling hr => ?_, fun ruling t s heq => ?_⟩
    · cases hr
      exact hfits
    · obtain ⟨rfl, rfl⟩ := Phase.settled.inj heq
      exact hmade hfits t s rfl

/-- While nobody has answered: one transaction at most has written the row, and whoever read it read it unwritten. -/
structure Sound (w : World) : Prop where
  alone : w.participants.Exclusive fun p (_ : Unit) => p.phase.holdsRow = true
  consistent : ∀ id p, w.participants.lookup id = some p → Consistent p
  unwritten : w.writes = 0 ↔ w.approval.status = .pending
  seen : ∀ id p ruling seen, w.participants.lookup id = some p → p.phase = .checked ruling seen → seen = 0
  first : ∀ id p, w.participants.lookup id = some p → p.phase.holdsRow = true → w.writes = 0

theorem Sound.committed {ruling : Ruling} {made : Option (Transition × Store)} (h : Sound w)
    (hp : w.participants.lookup id = some p) (hphase : p.phase = .settled ruling made) :
    w.writes = 0 ∧ ruling.status ≠ .pending ∧ ∀ t, made.map (·.1) = some t → transitionFor ruling.status = some t := by
  obtain ⟨hfits, hmade⟩ := h.consistent id p hp
  refine ⟨h.first id p hp (by rw [hphase]; rfl), (hfits ruling (by rw [hphase]; rfl)).answered, fun t ht => ?_⟩
  obtain ⟨⟨t', s⟩, rfl, rfl⟩ := Option.map_eq_some_iff.mp ht
  exact hmade ruling t' s hphase

theorem sound_start (h : Begins start) : Sound start where
  alone i j p q _ hp := by
    rw [h.nobody i] at hp
    cases hp
  consistent id p hp := by
    rw [h.nobody id] at hp
    cases hp
  unwritten := iff_of_true h.unwritten h.pending
  seen id p _ _ hp := by
    rw [h.nobody id] at hp
    cases hp
  first id p hp := by
    rw [h.nobody id] at hp
    cases hp

theorem sound_step (hmove : Moves w x o w') (hfresh : WritesFresh ⟨w, (env, x), o, w'⟩) (h : Sound w) : Sound w' := by
  cases hmove with
  | @arrived id request hnew =>
    have hold : ∀ {j q}, (w.participants.insert id { request }).lookup j = some q →
        q = { request } ∨ w.participants.lookup j = some q := by
      intro j q hq
      rw [Table.lookup_insert_ite] at hq
      split_ifs at hq
      · exact .inl (Option.some.inj hq).symm
      · exact .inr hq
    refine ⟨h.alone.insert fun _ hholds => (nomatch hholds), fun j q hq => ?_, h.unwritten, fun j q ruling seen hq hr => ?_,
      fun j q hq hholds => ?_⟩
    · rcases hold hq with rfl | hq
      · exact ⟨fun _ hr => (nomatch hr), fun _ _ _ hr => (nomatch hr)⟩
      · exact h.consistent j q hq
    · rcases hold hq with rfl | hq
      · cases hr
      · exact h.seen j q ruling seen hq hr
    · rcases hold hq with rfl | hq
      · cases hholds
      · exact h.first j q hq hholds
  | @advanced x id p phase hp hstep =>
    refine ⟨h.alone.modify hp fun _ hholds => ?_, fun j q hq => ?_, h.unwritten, fun j q ruling seen hq hr => ?_,
      fun j q hq hholds => ?_⟩
    · cases hstep with
      | checked => cases hholds
      | wrote hphase hfree =>
        refine .inr fun j q hj hq hother => ?_
        rw [hfree j q hj hq] at hother
        cases hother
      | looked hphase => exact .inl (by rw [hphase]; rfl)
      | stayed hphase => exact .inl (by rw [hphase]; rfl)
      | moved hphase => exact .inl (by rw [hphase]; rfl)
    · rcases Table.lookup_modify_cases hp hq with ⟨_, rfl⟩ | ⟨_, hq⟩
      · exact hstep.consistent (h.consistent id p hp)
      · exact h.consistent j q hq
    · rcases Table.lookup_modify_cases hp hq with ⟨_, rfl⟩ | ⟨_, hq⟩
      · cases hstep with
        | checked hphase hpending =>
          obtain ⟨_, rfl⟩ := Phase.checked.inj hr
          exact h.unwritten.mpr hpending
        | _ => cases hr
      · exact h.seen j q ruling seen hq hr
    · rcases Table.lookup_modify_cases hp hq with ⟨_, rfl⟩ | ⟨_, hq⟩
      · cases hstep with
        | checked => cases hholds
        | wrote hphase =>
          -- nobody committed since the row was read, and it was unwritten then
          have hunread := hfresh p _ _ hp hphase
          rw [h.seen _ p _ _ hp hphase] at hunread
          exact hunread.symm
        | looked hphase => exact h.first _ p hp (by rw [hphase]; rfl)
        | stayed hphase => exact h.first _ p hp (by rw [hphase]; rfl)
        | moved hphase => exact h.first _ p hp (by rw [hphase]; rfl)
      · exact h.first j q hq hholds
  | left =>
    exact ⟨h.alone.erase, fun j q hq => h.consistent j q (Table.lookup_erase_some hq).2, h.unwritten,
      fun j q ruling seen hq => h.seen j q ruling seen (Table.lookup_erase_some hq).2,
      fun j q hq => h.first j q (Table.lookup_erase_some hq).2⟩
  | @committed x id p ruling made hp hphase =>
    obtain ⟨_, hanswered, _⟩ := h.committed hp hphase
    refine ⟨h.alone.erase, fun j q hq => h.consistent j q (Table.lookup_erase_some hq).2, ?_,
      fun j q ruling seen hq => h.seen j q ruling seen (Table.lookup_erase_some hq).2, fun j q hq hholds => ?_⟩
    · exact iff_of_false (Nat.succ_ne_zero _) hanswered
    · obtain ⟨hj, hq⟩ := Table.lookup_erase_some hq
      have hmine : p.phase.holdsRow = true := by
        rw [hphase]
        rfl
      exact absurd (h.alone j id q p () hq hp hholds hmine) hj

def Quiet (c : Commit World (Env × Act) Outcome) : Prop := c.answer = .quiet ∧ c.after.approval = c.before.approval

/-- Nobody has answered, or one transaction has and the rest made nothing public. -/
inductive Tally (log : WorldHistory) (w : World) : Prop where
  | unanswered (hwrites : w.writes = 0) (hquiet : ∀ c ∈ log, Quiet c)
  | answered {before after : WorldHistory} {c : Commit World (Env × Act) Outcome} {ruling : Ruling}
      {transition : Option Transition} (hlog : log = before ++ c :: after) (hquiet : ∀ c' ∈ before ++ after, Quiet c')
      (hpending : c.before.approval.status = .pending) (hanswer : c.answer = .decided ruling transition)
      (hstatus : w.approval.status = ruling.status) (hsettled : ruling.status ≠ .pending)
      (hmatch : ∀ t, transition = some t → transitionFor ruling.status = some t)

theorem Moves.quiet_or_decided (hmove : Moves w x o w') :
    (o = .quiet ∧ w'.approval = w.approval ∧ w'.writes = w.writes) ∨
      ∃ id p ruling made, w.participants.lookup id = some p ∧ p.phase = .settled ruling made ∧
        o = .decided ruling (made.map (·.1)) ∧ w'.approval.status = ruling.status := by
  cases hmove with
  | arrived => exact .inl ⟨rfl, rfl, rfl⟩
  | advanced => exact .inl ⟨rfl, rfl, rfl⟩
  | left => exact .inl ⟨rfl, rfl, rfl⟩
  | committed hp hphase => exact .inr ⟨_, _, _, _, hp, hphase, rfl, rfl⟩

theorem tally_step (hmove : Moves w x o w') (h : Sound w) (ht : Tally log w) :
    Tally (log ++ [⟨w, (env, x), o, w'⟩]) w' := by
  rcases hmove.quiet_or_decided with ⟨rfl, happroval, hwrites⟩ | ⟨_, _, ruling, _, hp, hphase, rfl, hstatus⟩
  · have hlast : Quiet ⟨w, (env, x), .quiet, w'⟩ := ⟨rfl, happroval⟩
    cases ht with
    | unanswered hzero hquiet =>
      refine .unanswered (hwrites.trans hzero) fun c hc => ?_
      rcases List.mem_append.mp hc with hc | hc
      · exact hquiet c hc
      · rw [List.mem_singleton.mp hc]
        exact hlast
    | @answered before after c ruling transition hlog hquiet hpending hanswer hstatus hsettled hmatch =>
      have hlog' : log ++ [⟨w, (env, x), .quiet, w'⟩] = before ++ c :: (after ++ [⟨w, (env, x), .quiet, w'⟩]) := by
        rw [hlog, List.append_assoc, List.cons_append]
      refine .answered hlog' (fun c' hc' => ?_) hpending hanswer (by rw [happroval, hstatus]) hsettled hmatch
      rw [← List.append_assoc] at hc'
      rcases List.mem_append.mp hc' with hc' | hc'
      · exact hquiet c' hc'
      · rw [List.mem_singleton.mp hc']
        exact hlast
  · obtain ⟨hzero, hsettled, hmatch⟩ := h.committed hp hphase
    cases ht with
    | unanswered _ =>
      refine .answered rfl ?_ (h.unwritten.mp hzero) rfl hstatus hsettled hmatch
      rwa [List.append_nil]
    | answered hlog hquiet hpending hanswer hstatus hsettled =>
      exact absurd (hstatus.symm.trans (h.unwritten.mp hzero)) hsettled

theorem Tally.decidedOnce (h : Tally log w) : DecidedOnce log w := by
  have hnone : ∀ {l : WorldHistory}, (∀ c ∈ l, Quiet c) →
      (l.filter fun c => c.before.approval.status = .pending && c.after.approval.status ≠ .pending) = [] := by
    intro _ hl
    rw [List.filter_eq_nil_iff]
    intro c hc
    rw [(hl c hc).2]
    simp
  cases h with
  | unanswered hwrites hquiet =>
    refine ⟨?_, fun c hc _ => (hquiet c hc).2, fun c hc ruling transition hdecided => ?_⟩
    · rw [hnone hquiet]
      exact Nat.zero_le 1
    · rw [(hquiet c hc).1] at hdecided
      cases hdecided
  | @answered before after c ruling transition hlog hquiet hpending hanswer hstatus hsettled hmatch =>
    have hbefore : ∀ c' ∈ before, Quiet c' := fun c' hc' => hquiet c' (List.mem_append_left _ hc')
    have hafter : ∀ c' ∈ after, Quiet c' := fun c' hc' => hquiet c' (List.mem_append_right _ hc')
    have hcases : ∀ c' ∈ log, Quiet c' ∨ c' = c := by
      intro c' hc'
      rw [hlog] at hc'
      rcases List.mem_append.mp hc' with hc' | hc'
      · exact .inl (hbefore c' hc')
      · rcases List.mem_cons.mp hc' with rfl | hc'
        · exact .inr rfl
        · exact .inl (hafter c' hc')
    refine ⟨?_, fun c' hc' hne => ?_, fun c' hc' ruling' transition' hdecided => ?_⟩
    · rw [hlog, List.filter_append, List.filter_cons, hnone hbefore, hnone hafter, List.nil_append]
      split_ifs
      · exact Nat.le_refl 1
      · exact Nat.zero_le 1
    · rcases hcases c' hc' with hq | rfl
      · exact hq.2
      · exact absurd hpending hne
    · rcases hcases c' hc' with hq | rfl
      · rw [hq.1] at hdecided
        cases hdecided
      · obtain ⟨rfl, rfl⟩ := Outcome.decided.inj (hanswer.symm.trans hdecided)
        rw [hstatus]
        exact hmatch transition' rfl

/-- Transactions that write the row only while nobody has answered since they read it decide it once. -/
theorem approval_decided_once (hstart : Begins start) (h : Execution WorldStep start log w)
    (hfresh : ∀ c ∈ log, WritesFresh c) : DecidedOnce log w := by
  have hboth : Sound w ∧ Tally log w := by
    induction h with
    | nil => exact ⟨sound_start hstart, .unanswered hstart.unwritten fun c hc => (nomatch hc)⟩
    | snoc _ hs ih =>
      obtain ⟨hsound, htally⟩ := ih fun c hc => hfresh c (List.mem_append_left _ hc)
      have hlast := hfresh _ (List.mem_append_right _ (List.mem_singleton_self _))
      exact ⟨sound_step (act_moves hs) hlast hsound, tally_step (act_moves hs) hsound htally⟩
  exact hboth.2.decidedOnce

end Once

section Example

def asksFirst : List (Env × Op) :=
  [(clock 0, openSession 2), (clock 1, ask 2 3 "question"), (clock 2, take 5),
    (clock 3, .recordSlice { slice 3 5 2 (some .approvalRequested) with
      waitKind := some "approval", waitSeconds := some 3600 })]

def unanswered : World where
  store := (attempt asksFirst).2
  approval := { id := 50, runId := 3, workspaceId := 1, approvalType := .governanceApproval, requestedBy := 7,
                expiresAt := seconds 3600 }

def answers (userId : Uuid) (decision : ApprovalDecision) : Request :=
  .decide { actor := { id := userId }, role := some .workspaceAdmin, workspaceId := 1, decision, reason := some "seen" }

def performAct (w : World) (i : Env × Act) : Option (Outcome × World) := (act i.1 i.2 w).toOption

def attemptActs (acts : List Act) : WorldHistory × World :=
  replay performAct unanswered (acts.map fun x => (clock 10, x))

theorem attemptActs_executes (acts : List Act) :
    Execution WorldStep unanswered (attemptActs acts).1 (attemptActs acts).2 := by
  refine replay_execution performAct (fun w i o w' h => ?_) unanswered _
  exact Tx.ok_of_toOption h

theorem unanswered_begins : Begins unanswered := ⟨rfl, rfl, fun _ => rfl⟩

def bothAnswer : List Act :=
  [.arrive 1 (answers 8 .approve), .arrive 2 (answers 9 .reject), .read 1, .read 2, .writeRow 1, .look 1, .move 1,
    .commit 1, .writeRow 2, .look 2, .commit 2]

/-- The approval ends up rejected, and the Run went back to work on it. -/
theorem bothAnswer_not_once : ∃ log w, Begins unanswered ∧ Execution WorldStep unanswered log w ∧ ¬ DecidedOnce log w := by
  refine ⟨_, _, unanswered_begins, attemptActs_executes bothAnswer, fun h => ?_⟩
  have hkept : (attemptActs bothAnswer).1.all (fun c =>
      c.before.approval.status = .pending || c.after.approval = c.before.approval) = false := by decide
  have hall : (attemptActs bothAnswer).1.all (fun c =>
      c.before.approval.status = .pending || c.after.approval = c.before.approval) = true := by
    rw [List.all_eq_true]
    intro c hc
    by_cases hpending : c.before.approval.status = .pending
    · simp [hpending]
    · simp [h.keptAfter c hc hpending]
  rw [hkept] at hall
  cases hall

def oneAfterTheOther : List Act :=
  [.arrive 1 (answers 8 .approve), .arrive 2 (answers 9 .reject), .read 1, .writeRow 1, .look 1, .move 1, .commit 1, .read 2]

theorem oneAfterTheOther_once :
    (attemptActs oneAfterTheOther).2.approval.status = .approved ∧
      DecidedOnce (attemptActs oneAfterTheOther).1 (attemptActs oneAfterTheOther).2 := by
  refine ⟨by decide, approval_decided_once unanswered_begins (attemptActs_executes oneAfterTheOther) ?_⟩
  have hunwritten : (attemptActs oneAfterTheOther).1.all (fun c => match c.input.2 with
      | .writeRow id => ((c.before.participants.lookup id).all fun p => match p.phase with
          | .checked _ seen => seen = c.before.writes
          | _ => true)
      | _ => true) = true := by decide
  intro c hc
  have hthis := List.all_eq_true.mp hunwritten c hc
  unfold WritesFresh
  cases hx : c.input.2 with
  | writeRow =>
    intro _ _ _ hp hphase
    simpa [hx, hp, hphase] using hthis
  | _ => trivial

end Example

end TinyHermes.Runs.ApprovalDecisions
