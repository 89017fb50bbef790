import TinyHermes.Runs.Operations

/-! What can happen to one Run: every transaction, seen from it, is a sequence of the moves listed here, and only of those its
operation has a part in. -/
namespace TinyHermes.Runs
open Lib StateMachine SqlRunStore Interruption

/-- What the store holds of one Run: its row, its lease, its own turns, and the ids drawn so far. -/
structure RunView where
  row : Option RunRow
  lease : Option WorkerLeaseRow
  said : List CanonicalMessage
  drawn : List Uuid

def ownTurns (s : Store) (runId : Uuid) : List CanonicalMessage :=
  (s.messages.filter fun m => m.sourceRunId = some runId).map (·.message)

def view (s : Store) (runId : Uuid) : RunView where
  row := s.runs.lookup runId
  lease := s.leases.lookup runId
  said := ownTurns s runId
  drawn := s.drawn

/-- Bookkeeping of the row: its place in line, its counters and its report. -/
def RunRow.Beside (r r' : RunRow) : Prop :=
  r' = { r with
    blockedByRunId := r'.blockedByRunId, updatedAt := r'.updatedAt
    nextEventSequence := r'.nextEventSequence, delegationResult := r'.delegationResult
    resultDeliveredAt := r'.resultDeliveredAt, recoveryAttempts := r'.recoveryAttempts
    claimableAfter := r'.claimableAfter, checkpointWorkspaceRevisionId := r'.checkpointWorkspaceRevisionId }

theorem RunRow.Kept.beside {r r' : RunRow} (h : r.Kept r') : r.Beside r' := by
  unfold RunRow.Kept at h
  unfold RunRow.Beside
  rw [h]

theorem RunRow.Beside.refl (r : RunRow) : r.Beside r := rfl

theorem RunRow.Beside.trans {r₁ r₂ r₃ : RunRow} (h₁ : r₁.Beside r₂) (h₂ : r₂.Beside r₃) : r₁.Beside r₃ := by
  unfold RunRow.Beside at *
  rw [h₂]
  rw [h₁]

structure RunView.Beside (v v' : RunView) : Prop where
  row : Both RunRow.Beside v.row v'.row
  lease : v'.lease = v.lease
  said : v.said <+: v'.said
  drawn : v.drawn ⊆ v'.drawn

theorem RunView.Beside.refl (v : RunView) : v.Beside v :=
  ⟨.refl .refl _, rfl, List.prefix_rfl, fun _ h => h⟩

theorem RunView.Beside.map_row {β : Type} {f : RunRow → β} {v v' : RunView} (h : v.Beside v')
    (hf : ∀ r r' : RunRow, r.Beside r' → f r' = f r) : v'.row.map f = v.row.map f := by
  have hrow := h.row
  cases hr : v.row with
  | none =>
    rw [hr] at hrow
    cases hr' : v'.row with
    | none => rfl
    | some =>
      rw [hr'] at hrow
      cases hrow
  | some r =>
    rw [hr] at hrow
    obtain ⟨r', hr', hk⟩ := hrow.of_some
    rw [hr', Option.map_some, Option.map_some, hf r r' hk]

structure Allowed where
  claims : Uuid → Prop := fun _ => False
  sends : InFlightRound → Prop := fun _ => False
  tells : Prop := False
  applies : RunSignal → Prop := fun _ => False
  records : RecordSliceCommand → Prop := fun _ => False

structure RunRow.Newborn (row : RunRow) : Prop where
  queued : row.status = .queued
  nothingSent : row.inflightRound = none
  nothingInterrupted : row.interruptedWrites = []
  nothingToClean : row.workspaceCleanupTarget = none
  lineage : (row.parentRunId = none ∧ row.depth = 0 ∧ row.delegationScope = none) ∨
    (row.parentRunId.isSome ∧ 1 ≤ row.depth ∧ row.delegationScope.isSome ∧ row.retryOfRunId = none)

/-- The key a call goes out with, what is left waiting, and the draws after it. -/
inductive TakesKey (waiting : List InterruptedWrite) (drawn : List Uuid) :
    Option String → Option Uuid → List InterruptedWrite → List Uuid → Prop where
  | plain : TakesKey waiting drawn none none waiting drawn
  | again {fp : String} {entry : InterruptedWrite} (h : waiting.find? (fun e => e.fingerprint = fp) = some entry) :
      TakesKey waiting drawn (some fp) (some entry.idempotencyKey) (waiting.erase entry) drawn
  | anew {fp : String} {key : Uuid} (h : waiting.find? (fun e => e.fingerprint = fp) = none) (hfresh : key ∉ drawn) :
      TakesKey waiting drawn (some fp) (some key) waiting (key :: drawn)

theorem TakesKey.drawn_subset {waiting waiting' : List InterruptedWrite} {drawn drawn' : List Uuid} {fp : Option String}
    {key : Option Uuid} (h : TakesKey waiting drawn fp key waiting' drawn') : drawn ⊆ drawn' := by
  cases h with
  | plain => exact fun _ hx => hx
  | again => exact fun _ hx => hx
  | anew => exact fun _ hx => List.mem_cons_of_mem _ hx

def sentRow (recorded : InFlightRound) (waiting : List InterruptedWrite) (row : RunRow) : RunRow :=
  { row with checkpointEffectStatus := .unknown, interruptedWrites := waiting, inflightRound := some recorded }

def toldRow (sending : InFlightRound) (row : RunRow) : RunRow :=
  { row with
    interruptedWrites :=
      match sending.idempotencyKey, sending.fingerprint with
      | some key, some fp => row.interruptedWrites ++ [{ fingerprint := fp, idempotencyKey := key }]
      | _, _ => row.interruptedWrites
    inflightRound := none
    checkpointEffectStatus := .none }

def released (now : Time) (lease : WorkerLeaseRow) : WorkerLeaseRow :=
  if lease.releasedAt = none then { lease with releasedAt := some now } else lease

def cleaned (clears : Bool) (row : RunRow) : RunRow :=
  if clears then { row with workspaceCleanupTarget := none, workspaceCleanupSandboxId := none } else row

@[simp] theorem cleaned_status (clears : Bool) (row : RunRow) : (cleaned clears row).status = row.status := by
  cases clears <;> rfl

@[simp] theorem cleaned_inflightRound (clears : Bool) (row : RunRow) :
    (cleaned clears row).inflightRound = row.inflightRound := by
  cases clears <;> rfl

@[simp] theorem cleaned_checkpointEffectStatus (clears : Bool) (row : RunRow) :
    (cleaned clears row).checkpointEffectStatus = row.checkpointEffectStatus := by
  cases clears <;> rfl

def sweepSignals : List RunSignal :=
  [.externalReady, .externalPaused, .approvalPaused, .cancelRequested, .recoveryApproved, .recoveryFailed]

/-- The Run takes the decision `d` of the state machine on a signal. -/
def Decides (row : RunRow) (signal : RunSignal) (d : StateDecision) : Prop :=
  ∃ view reason kind deadline, view.state = row.status ∧
    RunStateMachine.decide view signal reason kind deadline = .ok d

variable {signal : RunSignal}

theorem Decides.cases {row : RunRow} {d : StateDecision} (h : Decides row signal d) :
    (row.status = .running ∧ d.state = .running ∧ (signal = .pauseRequested ∨ signal = .cancelRequested)) ∨
      transitions row.status signal = some d.state := by
  obtain ⟨_, _, _, _, hstate, hd⟩ := h
  rw [← hstate]
  exact decide_cases hd

inductive RunMove (A : Allowed) : RunView → RunView → Prop where
  | beside {v v' : RunView} (h : v.Beside v') : RunMove A v v'
  | born {v : RunView} {row : RunRow} (hnew : v.row = none) (hrow : row.Newborn) :
      RunMove A v { v with row := some row }
  | claimed {v : RunView} {row : RunRow} {d : StateDecision} {lease : WorkerLeaseRow} (now : Time)
      (hrow : v.row = some row) (hd : Decides row .leaseAcquired d) (hclaim : A.claims lease.id)
      (hfresh : lease.id ∉ v.drawn) (hheld : lease.releasedAt = none) :
      RunMove A v { v with row := some (claimedRow d now row), lease := some lease, drawn := lease.id :: v.drawn }
  | renewed {v : RunView} {lease lease' : WorkerLeaseRow} (hlease : v.lease = some lease)
      (hheld : lease.releasedAt = none) (hid : lease'.id = lease.id) (hheld' : lease'.releasedAt = none) :
      RunMove A v { v with lease := some lease' }
  | sent {v : RunView} {row : RunRow} {lease : WorkerLeaseRow} {sending : InFlightRound} {key : Option Uuid}
      {waiting : List InterruptedWrite} {drawn : List Uuid} (hrow : v.row = some row) (hsend : A.sends sending)
      (hlease : v.lease = some lease) (hheld : lease.releasedAt = none)
      (hkey : TakesKey row.interruptedWrites v.drawn sending.fingerprint key waiting drawn) :
      RunMove A v { v with row := some (sentRow { sending with idempotencyKey := key } waiting row), drawn := drawn }
  | recorded {v : RunView} {row : RunRow} {lease : WorkerLeaseRow} {cmd : RecordSliceCommand} (now : Time)
      (hrow : v.row = some row) (hrecord : A.records cmd) (hsignal : cmd.signal = none)
      (hlease : v.lease = some lease) (hheld : lease.releasedAt = none) :
      RunMove A v { v with row := some (checkpointed cmd now row), said := v.said ++ cmd.appended }
  | ended {v : RunView} {row : RunRow} {lease : WorkerLeaseRow} {cmd : RecordSliceCommand} {signal : RunSignal}
      {d : StateDecision} (now : Time) (hrow : v.row = some row) (hrecord : A.records cmd)
      (hsignal : cmd.signal = some signal) (hlease : v.lease = some lease) (hheld : lease.releasedAt = none)
      (hd : Decides row signal d) :
      RunMove A v { v with
        row := some (decidedRow (checkpointed cmd now row) d cmd.waitPolicy now)
        lease := some (released now lease)
        said := v.said ++ cmd.appended }
  | signalled {v : RunView} {row : RunRow} {signal : RunSignal} {d : StateDecision} (clears : Bool) (now : Time)
      (hrow : v.row = some row) (happly : A.applies signal) (hd : Decides row signal d)
      (hclears : signal = .limitCleanupConfirmed → clears = true ∧ row.workspaceCleanupTarget ≠ none) :
      RunMove A v { v with
        row := some (cleaned clears (decidedRow row d none now))
        lease := if d.state = .running then v.lease else v.lease.map (released now) }
  | swept {v : RunView} {row : RunRow} {signal : RunSignal} {d : StateDecision} (now : Time)
      (hrow : v.row = some row) (hsignal : signal ∈ sweepSignals) (hd : Decides row signal d)
      (hsafe : signal = .recoveryApproved →
        row.inflightRound = none ∧ row.checkpointEffectStatus ≠ .unknown ∧ row.workspaceCleanupTarget = none) :
      RunMove A v { v with row := some (decidedRow row d none now) }
  | reclaimed {v : RunView} {row : RunRow} {d : StateDecision} (now : Time) (hrow : v.row = some row)
      (hd : Decides row .interrupted d) :
      RunMove A v { v with row := some (decidedRow row d none now), lease := v.lease.map (released now) }
  | told {v : RunView} {row : RunRow} {sending : InFlightRound} {turn answers : CanonicalMessage}
      (hrow : v.row = some row) (hsending : row.inflightRound = some sending) (htells : A.tells)
      (hstatus : row.status = .interrupted) (htold : toldAfterInterruption sending = some (turn, answers)) :
      RunMove A v { v with row := some (toldRow sending row), said := v.said ++ [turn, answers] }

def Op.allows (runId : Uuid) : Op → Allowed
  | .claimHead _ leaseId => { claims := fun id => id = leaseId }
  | .applySignal cmd => { applies := fun signal => cmd.runId = runId ∧ signal = cmd.signal }
  | .controlRun _ _ id signal' _ _ => { applies := fun signal => id = runId ∧ signal = signal' }
  | .reserveOutsideCall _ id _ sending' _ => { sends := fun sending => id = runId ∧ sending = sending' }
  | .recordSlice cmd' => { records := fun cmd => cmd.runId = runId ∧ cmd = cmd' }
  | .recordRound cmd' =>
    { records := fun cmd => cmd.runId = runId ∧ cmd = cmd'
      applies := fun signal => cmd'.runId = runId ∧ cmd'.signal = some .safeCancelStarted ∧
        signal = .safeCancelFinished }
  | .commitCheckpoint commit => { records := fun cmd => cmd.runId = runId ∧ cmd = commit.slice }
  | .recoverInterrupted id _ => { tells := id = runId }
  | _ => {}

namespace RunMoves
open Relation Tx

/-- From `s` to `s'` every Run makes moves its part allows. -/
def Moving (A : Uuid → Allowed) (s s' : Store) : Prop :=
  ∀ id, ReflTransGen (RunMove (A id)) (view s id) (view s' id)

variable {A : Uuid → Allowed} {env : Env}

instance : Std.Refl (Moving A) := ⟨fun _ _ => .refl⟩

theorem Moving.trans {s₁ s₂ s₃ : Store} (h₁ : Moving A s₁ s₂) (h₂ : Moving A s₂ s₃) : Moving A s₁ s₃ :=
  fun id => (h₁ id).trans (h₂ id)

instance : IsTrans Store (Moving A) := ⟨fun _ _ _ => Moving.trans⟩

theorem keep_moves {a : Allowed} {I : RunView → Prop} (hmove : ∀ v v', RunMove a v v' → I v → I v') {v v' : RunView}
    (h : ReflTransGen (RunMove a) v v') (hv : I v) : I v' := by
  induction h with
  | refl => exact hv
  | tail _ hlast ih => exact hmove _ _ hlast ih

structure Identity where
  workspaceId : Uuid
  sessionId : Uuid
  agentVersionId : Uuid
  sessionSequence : Nat
  budgetRootRunId : Uuid
  retryOfRunId : Option Uuid
  parentRunId : Option Uuid
  depth : Nat
  delegationScope : Option Agents.DelegationScope

def identity (row : RunRow) : Identity where
  workspaceId := row.workspaceId
  sessionId := row.sessionId
  agentVersionId := row.agentVersionId
  sessionSequence := row.sessionSequence
  budgetRootRunId := row.budgetRootRunId
  retryOfRunId := row.retryOfRunId
  parentRunId := row.parentRunId
  depth := row.depth
  delegationScope := row.delegationScope

theorem identity_move {a : Allowed} {v v' : RunView} {row' : RunRow} (hmove : RunMove a v v')
    (hrow' : v'.row = some row') :
    (v.row = none ∧ row'.Newborn) ∨ ∃ row, v.row = some row ∧ identity row' = identity row := by
  cases hmove with
  | beside hb =>
    have hb := hb.row
    rw [hrow'] at hb
    obtain ⟨row, hrow, hk⟩ := hb.to_some
    exact .inr ⟨row, hrow, by rw [hk]; rfl⟩
  | born hnew hborn =>
    cases hrow'
    exact .inl ⟨hnew, hborn⟩
  | renewed => exact .inr ⟨row', hrow', rfl⟩
  | claimed now hr =>
    cases hrow'
    exact .inr ⟨_, hr, rfl⟩
  | sent hr =>
    cases hrow'
    exact .inr ⟨_, hr, rfl⟩
  | recorded now hr =>
    cases hrow'
    exact .inr ⟨_, hr, rfl⟩
  | ended now hr =>
    cases hrow'
    exact .inr ⟨_, hr, rfl⟩
  | signalled clears now hr =>
    cases hrow'
    exact .inr ⟨_, hr, by cases clears <;> rfl⟩
  | swept now hr =>
    cases hrow'
    exact .inr ⟨_, hr, rfl⟩
  | reclaimed now hr =>
    cases hrow'
    exact .inr ⟨_, hr, rfl⟩
  | told hr =>
    cases hrow'
    exact .inr ⟨_, hr, rfl⟩

variable {s s' : Store}

theorem Moving.of_beside (h : ∀ id, (view s id).Beside (view s' id)) : Moving A s s' :=
  fun id => .single (.beside (h id))

theorem Moving.of_one (runId : Uuid) (h : RunMove (A runId) (view s runId) (view s' runId))
    (hother : ∀ id, id ≠ runId → (view s id).Beside (view s' id)) : Moving A s s' := by
  intro id
  by_cases hid : id = runId
  · rw [hid]
    exact .single h
  · exact .single (.beside (hother id hid))

theorem housekeeping_beside (h : Housekeeping s s') (id : Uuid) : (view s id).Beside (view s' id) where
  row := by
    have hrow := h.runs id
    change Both RunRow.Beside (s.runs.lookup id) (s'.runs.lookup id)
    cases hr : s.runs.lookup id with
    | none =>
      rw [hr] at hrow
      cases hr' : s'.runs.lookup id with
      | none => exact .none
      | some =>
        rw [hr'] at hrow
        cases hrow
    | some =>
      rw [hr] at hrow
      obtain ⟨_, hr', hk⟩ := hrow.of_some
      rw [hr']
      exact .some hk.beside
  lease := congrArg (AList.lookup id) h.leases
  said := by
    change ownTurns s id <+: ownTurns s' id
    rw [ownTurns, ownTurns, h.messages]
  drawn := by
    change s.drawn ⊆ s'.drawn
    rw [h.drawn]
    exact fun _ hx => hx

theorem write_moves {f : Store → Store} (hruns : ∀ s, (f s).runs = s.runs) (hleases : ∀ s, (f s).leases = s.leases)
    (hmessages : ∀ s, (f s).messages = s.messages) (hdrawn : ∀ s, (f s).drawn = s.drawn) :
    Within (Moving A) (Tx.write f : StoreTx Unit) := by
  refine Within.write fun s => .of_beside fun id => ?_
  have hview : view (f s) id = view s id := by
    simp only [view, ownTurns, hruns, hleases, hmessages, hdrawn]
  rw [hview]
  exact .refl _

variable {runId : Uuid}

theorem modifyRun_moves {f : RunRow → RunRow} (h : ∀ r : RunRow, r.Beside (f r)) :
    Within (Moving A) (modifyRun runId f) := by
  refine Within.write fun s => .of_beside fun id => ⟨?_, rfl, List.prefix_rfl, fun _ hx => hx⟩
  change Both RunRow.Beside (s.runs.lookup id) ((s.runs.modify runId f).lookup id)
  rw [Table.lookup_modify]
  split
  · exact .map h _
  · exact .refl .refl _

theorem mint_moves {id : Uuid} : Within (Moving A) (mint id) := by
  refine Within.bind Within.get fun _ => Within.bind (Within.require _ _) fun _ => Within.write fun s => ?_
  exact .of_beside fun _ => ⟨.refl .refl _, rfl, List.prefix_rfl, fun _ hx => List.mem_cons_of_mem id hx⟩

variable {workspaceId : Uuid}

theorem appendEvents_moves {events : List ReservedEvent} :
    Within (Moving A) (appendEvents env workspaceId runId events) :=
  fun _ _ _ h => .of_beside fun id => housekeeping_beside (Housekeeping.of_appendEvents h) id

variable {sessionId : Uuid}

theorem modifySession_moves {f : SessionRow → SessionRow} :
    Within (Moving A) (modifySession sessionId f) :=
  write_moves (fun _ => rfl) (fun _ => rfl) (fun _ => rfl) fun _ => rfl

theorem ownTurns_append (s : Store) (rows : List SessionMessageRow) (id : Uuid) :
    ownTurns { s with messages := s.messages ++ rows } id =
      ownTurns s id ++ (rows.filter fun m => m.sourceRunId = some id).map (·.message) := by
  simp [ownTurns]

theorem appendMessage_moves {message : CanonicalMessage} :
    Within (Moving A) (appendMessage sessionId runId message) := by
  refine Within.bind (Within.fetch _ _) fun session => Within.bind (Within.write fun s => ?_) fun _ =>
    modifySession_moves
  refine .of_beside fun id => ⟨.refl .refl _, rfl, ?_, fun _ hx => hx⟩
  change ownTurns s id <+: ownTurns { s with messages := s.messages ++ [_] } id
  rw [ownTurns_append]
  exact List.prefix_append _ _

theorem grantArtifact_moves {artifactId : Uuid} : Within (Moving A) (grantArtifact artifactId runId) := by
  refine write_moves (fun s => ?_) (fun s => ?_) (fun s => ?_) fun s => ?_ <;> split <;> rfl

theorem insertSession_moves {row : SessionRow} : Within (Moving A) (insertSession sessionId row) :=
  Within.bind Within.get fun _ => Within.bind (Within.require _ _) fun _ =>
    write_moves (fun _ => rfl) (fun _ => rfl) (fun _ => rfl) fun _ => rfl

theorem joinSession_moves {row : RunRow} (h : row.Newborn) :
    Within (Moving A) (joinSession sessionId runId row) := by
  intro s _ _ hs
  simp only [joinSession, insertRun, modifySession, bind_assoc, fetch_bind_ok, get_bind, require_bind_ok, write_bind,
    write_ok] at hs
  obtain ⟨session, _, _, hfree, rfl⟩ := hs
  let born : RunRow := { row with
    sessionId, sessionSequence := session.nextRunSequence, blockedByRunId := session.headRunId }
  refine .of_one runId ?_ fun id hid => ⟨?_, rfl, List.prefix_rfl, fun _ hx => hx⟩
  · have hview : view { s with
        runs := s.runs.insert runId born
        sessions := s.sessions.modify sessionId fun s => { s with
          nextRunSequence := s.nextRunSequence + 1
          headRunId := if s.headRunId = none then some runId else s.headRunId } } runId =
        { view s runId with row := some born } := by
      simp [view, ownTurns]
    rw [hview]
    exact .born hfree ⟨h.queued, h.nothingSent, h.nothingInterrupted, h.nothingToClean, h.lineage⟩
  · change Both RunRow.Beside (s.runs.lookup id) ((s.runs.insert runId born).lookup id)
    rw [AList.lookup_insert_ne hid]
    exact .refl .refl _

theorem beside_view {v : RunView} {row row' : RunRow} (hrow : v.row = some row)
    (hrow' : s.runs.lookup runId = some row') (hb : row.Beside row') (hlease : s.leases.lookup runId = v.lease)
    (hsaid : ownTurns s runId = v.said) (hdrawn : s.drawn = v.drawn) : v.Beside (view s runId) where
  row := by
    change Both RunRow.Beside v.row (s.runs.lookup runId)
    rw [hrow, hrow']
    exact .some hb
  lease := hlease
  said := by
    change v.said <+: ownTurns s runId
    rw [hsaid]
  drawn := by
    change v.drawn ⊆ s.drawn
    rw [hdrawn]
    exact fun _ hx => hx

theorem view_congr {id : Uuid} (hrow : s'.runs.lookup id = s.runs.lookup id)
    (hlease : s'.leases.lookup id = s.leases.lookup id) (hsaid : ownTurns s' id = ownTurns s id)
    (hdrawn : s'.drawn = s.drawn) : view s' id = view s id := by
  simp only [view, hrow, hlease, hsaid, hdrawn]

theorem Moving.of_move {v : RunView} (runId : Uuid) (h : RunMove (A runId) (view s runId) v)
    (hafter : v.Beside (view s' runId)) (hother : ∀ id, id ≠ runId → (view s id).Beside (view s' id)) :
    Moving A s s' := by
  intro id
  by_cases hid : id = runId
  · rw [hid]
    exact .tail (.single h) (.beside hafter)
  · exact .single (.beside (hother id hid))

variable {u : Unit}

theorem decideAndWrite_decides {args : SignalArgs}
    (h : decideAndWrite env runId signal args s = .ok (u, s')) :
    ∃ row d, s.runs.lookup runId = some row ∧ Decides row signal d ∧
      Housekeeping { s with runs := s.runs.modify runId fun r => decidedRow r d args.waitPolicy env.now } s' := by
  obtain ⟨row, _, d, hrow, _, hd, hkeep⟩ := decideAndWrite_spec h
  exact ⟨row, d, hrow, ⟨_, _, _, _, rfl, hd⟩, hkeep⟩

theorem decideAndWrite_rows {args : SignalArgs}
    (h : decideAndWrite env runId signal args s = .ok (u, s')) :
    ∃ row d row', s.runs.lookup runId = some row ∧ Decides row signal d ∧ s'.runs.lookup runId = some row' ∧
      (decidedRow row d args.waitPolicy env.now).Kept row' ∧
      (∀ id, id ≠ runId → (view s id).Beside (view s' id)) ∧
      s'.leases = s.leases ∧ s'.messages = s.messages ∧ s'.drawn = s.drawn := by
  obtain ⟨row, d, hrow, hd, hkeep⟩ := decideAndWrite_decides h
  have hself := hkeep.runs runId
  simp only [Table.lookup_modify_self, hrow, Option.map_some] at hself
  obtain ⟨row', hrow', hk⟩ := hself.of_some
  refine ⟨row, d, row', hrow, hd, hrow', hk, fun id hid => ?_, hkeep.leases, hkeep.messages, hkeep.drawn⟩
  have hview : view { s with runs := s.runs.modify runId fun r => decidedRow r d args.waitPolicy env.now } id =
      view s id := by
    simp [view, ownTurns, Table.lookup_modify_of_ne hid]
  rw [← hview]
  exact housekeeping_beside hkeep id

theorem decideAndWrite_moves {args : SignalArgs}
    (hsignal : signal ∈ sweepSignals) (hpolicy : args.waitPolicy = none)
    (hsafe : ∀ row, s.runs.lookup runId = some row → signal = .recoveryApproved →
      row.inflightRound = none ∧ row.checkpointEffectStatus ≠ .unknown ∧ row.workspaceCleanupTarget = none)
    (h : decideAndWrite env runId signal args s = .ok (u, s')) : Moving A s s' := by
  obtain ⟨row, _, _, hrow, hd, hrow', hk, hother, hleases, hmessages, hdrawn⟩ := decideAndWrite_rows h
  rw [hpolicy] at hk
  refine .of_move runId (.swept env.now hrow hsignal hd (hsafe row hrow)) ?_ hother
  refine ⟨?_, ?_, ?_, ?_⟩
  · change Both RunRow.Beside _ (s'.runs.lookup runId)
    rw [hrow']
    exact .some hk.beside
  · exact congrArg (AList.lookup runId) hleases
  · change ownTurns s runId <+: ownTurns s' runId
    rw [ownTurns, ownTurns, hmessages]
  · change s.drawn ⊆ s'.drawn
    rw [hdrawn]
    exact fun _ hx => hx

theorem sweep_moves {args : SignalArgs} (hsignal : signal ∈ sweepSignals)
    (hnot : signal ≠ .recoveryApproved) (hpolicy : args.waitPolicy = none) :
    Within (Moving A) (decideAndWrite env runId signal args) :=
  fun _ _ _ h => decideAndWrite_moves hsignal hpolicy (fun _ _ hs => absurd hs hnot) h

theorem releaseLease_ok :
    releaseLease env runId s = .ok (u, s') ↔ s' = { s with leases := s.leases.modify runId (released env.now) } :=
  write_ok

/-- What `append_messages` leaves behind. -/
theorem appendMessages_spec {messages : List CanonicalMessage}
    (h : appendMessages sessionId runId messages s = .ok (u, s')) :
    ∃ rows sessions, s' = { s with messages := s.messages ++ rows, sessions } ∧ rows.map (·.message) = messages ∧
      ∀ r ∈ rows, r.sessionId = sessionId ∧ r.sourceRunId = some runId ∧ r.withdrawnAt = none := by
  unfold appendMessages at h
  induction messages generalizing s u with
  | nil =>
    obtain ⟨_, rfl⟩ := pure_ok.mp h
    exact ⟨[], s.sessions, by simp, rfl, by simp⟩
  | cons m rest ih =>
    obtain ⟨_, _, hm, hrest⟩ := bind_ok.mp h
    simp only [appendMessage, modifySession, fetch_bind_ok, write_bind, write_ok] at hm
    obtain ⟨session, _, rfl⟩ := hm
    obtain ⟨rows, sessions, rfl, hmap, hrows⟩ := ih hrest
    refine ⟨{ sessionId, sequence := session.nextMessageSequence, message := m, sourceRunId := some runId } :: rows,
      sessions, by simp, by rw [List.map_cons, hmap], ?_⟩
    intro r hr
    rcases List.mem_cons.mp hr with rfl | hr
    · exact ⟨rfl, rfl, rfl⟩
    · exact hrows r hr

theorem appendMessages_ownTurns {messages : List CanonicalMessage}
    (h : appendMessages sessionId runId messages s = .ok (u, s')) :
    s'.runs = s.runs ∧ s'.leases = s.leases ∧ s'.drawn = s.drawn ∧ s'.budgets = s.budgets ∧
      ownTurns s' runId = ownTurns s runId ++ messages ∧ ∀ id, id ≠ runId → ownTurns s' id = ownTurns s id := by
  obtain ⟨rows, _, rfl, hmap, hrows⟩ := appendMessages_spec h
  refine ⟨rfl, rfl, rfl, rfl, ?_, fun id hid => ?_⟩
  · have hown : (rows.filter fun m => m.sourceRunId = some runId) = rows :=
      List.filter_eq_self.mpr fun r hr => by simp [(hrows r hr).2.1]
    simp [ownTurns, hown, hmap]
  · have hnone : (rows.filter fun m => m.sourceRunId = some id) = [] :=
      List.filter_eq_nil_iff.mpr fun r hr => by simp [(hrows r hr).2.1, Ne.symm hid]
    simp [ownTurns, hnone]

/-- What `apply_signal` does: the decision, the cleanup it confirms, and the lease of a Run that left `running`. -/
theorem applySignal_cases {cmd : ApplySignalCommand}
    (h : applySignal env cmd s = .ok (u, s')) :
    ∃ row d row', s.runs.lookup cmd.runId = some row ∧ Decides row cmd.signal d ∧
      (cmd.signal = .limitCleanupConfirmed → clearsCleanup cmd = true ∧ row.workspaceCleanupTarget ≠ none) ∧
      s'.runs.lookup cmd.runId = some row' ∧
      (cleaned (clearsCleanup cmd) (decidedRow row d none env.now)).Beside row' ∧
      (∀ id, id ≠ cmd.runId → (view s id).Beside (view s' id)) ∧
      s'.leases = (if d.state = .running then s.leases else s.leases.modify cmd.runId (released env.now)) ∧
      s'.messages = s.messages ∧ s'.drawn = s.drawn := by
  simp only [applySignal, lockRun, lockSession, fetch_bind_ok, require_bind_ok] at h
  obtain ⟨_, hlocked, _, _, _, hconfirmed, h⟩ := h
  obtain ⟨_, s₁, hdec, h⟩ := bind_ok.mp h
  simp only [modifyRun, write_bind, fetch_bind_ok] at h
  obtain ⟨after, hafter, h⟩ := h
  obtain ⟨row, d, _, hrow, hd, hrow₁, hk, hother, hleases, hmessages, hdrawn⟩ := decideAndWrite_rows hdec
  obtain rfl := Option.some.inj (hrow.symm.trans (Option.filter_eq_some_iff.mp hlocked).1)
  have hclears : cmd.signal = .limitCleanupConfirmed → clearsCleanup cmd = true ∧ row.workspaceCleanupTarget ≠ none := by
    intro hs
    simp only [cleanupConfirmed, hs, Bool.and_eq_true, decide_eq_true_eq] at hconfirmed
    refine ⟨by simp [clearsCleanup, hs], ?_⟩
    rw [hconfirmed.1.1]
    exact Option.some_ne_none _
  simp only [Table.lookup_modify_self, hrow₁, Option.map_some, Option.some.injEq] at hafter
  have hrow' : (cleaned (clearsCleanup cmd) (decidedRow row d none env.now)).Beside after := by
    rw [← hafter]
    have hkept := hk.beside
    unfold RunRow.Beside at hkept ⊢
    unfold cleaned
    cases clearsCleanup cmd <;> rw [hkept] <;> rfl
  have hstatus : after.status = d.state := by
    rw [hrow']
    exact cleaned_status _ _
  generalize hcleared : (s₁.runs.modify cmd.runId fun row => if clearsCleanup cmd then
    { row with workspaceCleanupTarget := none, workspaceCleanupSandboxId := none } else row) = runs at h
  have hfinal : s'.runs = runs ∧ s'.messages = s.messages ∧ s'.drawn = s.drawn ∧
      s'.leases = if d.state = .running then s.leases else s.leases.modify cmd.runId (released env.now) := by
    rcases onlyIf_ok.mp h with ⟨hnot, hrel⟩ | ⟨hrunning, rfl⟩
    · rw [hstatus] at hnot
      rw [releaseLease_ok.mp hrel, if_neg hnot, ← hleases]
      exact ⟨rfl, hmessages, hdrawn, rfl⟩
    · rw [hstatus, ne_eq, not_not] at hrunning
      rw [if_pos hrunning, ← hleases]
      exact ⟨rfl, hmessages, hdrawn, rfl⟩
  obtain ⟨hruns, hmessages', hdrawn', hleases'⟩ := hfinal
  refine ⟨row, d, after, hrow, hd, hclears, ?_, hrow', fun id hid => ?_, hleases', hmessages', hdrawn'⟩
  · rw [hruns, ← hcleared]
    simpa [hrow₁] using hafter
  · have hview : view s' id = view s₁ id := by
      refine view_congr ?_ ?_ ?_ ?_
      · rw [hruns, ← hcleared]
        exact Table.lookup_modify_of_ne hid _ _
      · rw [hleases', hleases]
        split
        · rfl
        · exact Table.lookup_modify_of_ne hid _ _
      · rw [ownTurns, ownTurns, hmessages', hmessages]
      · rw [hdrawn', hdrawn]
    rw [hview]
    exact hother id hid

theorem applySignal_moves {cmd : ApplySignalCommand} (happly : (A cmd.runId).applies cmd.signal) :
    Within (Moving A) (applySignal env cmd) := by
  intro _ _ _ h
  obtain ⟨_, _, _, hrow, hd, hclears, hlookup, hrow', hother, hleases, hmessages, hdrawn⟩ := applySignal_cases h
  refine .of_move cmd.runId (.signalled (clearsCleanup cmd) env.now hrow happly hd hclears) ?_ hother
  refine beside_view rfl hlookup hrow' ?_ (by rw [ownTurns, hmessages]; rfl) hdrawn
  rw [hleases]
  split
  · rfl
  · exact Table.lookup_modify_self _ _ _

/-- What a slice must show before anything of it is written. -/
structure SliceHeld (s : Store) (cmd : RecordSliceCommand) (row : RunRow) (lease : WorkerLeaseRow) : Prop where
  stored : s.runs.lookup cmd.runId = some row
  version : row.stateVersion = cmd.expectedStateVersion
  leased : s.leases.lookup cmd.runId = some lease
  leaseId : lease.id = cmd.leaseId
  unreleased : lease.releasedAt = none

variable {leaseId : Uuid}

theorem lockLease_bind_ok {α : Type} {usable : WorkerLeaseRow → Bool} {a : α}
    {f : WorkerLeaseRow → StoreTx α} :
    (lockLease runId leaseId usable >>= f) s = .ok (a, s') ↔
      ∃ lease, (s.leases.lookup runId = some lease ∧ lease.id = leaseId ∧ lease.releasedAt = none ∧
        usable lease = true) ∧ f lease s = .ok (a, s') := by
  simp [lockLease, fetch_bind_ok, Option.filter_eq_some_iff, and_assoc]

variable {cmd : RecordSliceCommand}

/-- The half of `record_slice` before the signal: the checkpoint, the turns and the accounting. -/
theorem recordSlice_cases
    (h : recordSlice env cmd s = .ok (u, s')) :
    ∃ row lease s₃, SliceHeld s cmd row lease ∧
      s₃.runs = s.runs.modify cmd.runId (checkpointed cmd env.now) ∧ s₃.leases = s.leases ∧ s₃.drawn = s.drawn ∧
      ownTurns s₃ cmd.runId = ownTurns s cmd.runId ++ cmd.appended ∧
      (∀ id, id ≠ cmd.runId → ownTurns s₃ id = ownTurns s id) ∧
      ((cmd.signal = none ∧ appendEvents env cmd.workspaceId cmd.runId cmd.events s₃ = .ok (u, s')) ∨
        ∃ signal, cmd.signal = some signal ∧ endSlice env cmd signal s₃ = .ok (u, s')) := by
  simp only [recordSlice, lockRun, lockSession, fetch_bind_ok] at h
  obtain ⟨row, hrow, h⟩ := h
  obtain ⟨lease, ⟨hlease, hid, hheld, _⟩, hrest⟩ := lockLease_bind_ok.mp h
  simp only [modifyRun, require_bind_ok, fetch_bind_ok, write_bind] at hrest
  obtain ⟨hversion, _, _, hrest⟩ := hrest
  obtain ⟨_, _, happ, hrest⟩ := bind_ok.mp hrest
  obtain ⟨_, s₃, hbudget, hrest⟩ := bind_ok.mp hrest
  obtain ⟨hruns, hleases, hdrawn, _, hown, hownOther⟩ := appendMessages_ownTurns happ
  simp only [consumeBudget, fetch_bind_ok, write_ok] at hbudget
  obtain ⟨_, _, hs₃⟩ := hbudget
  refine ⟨row, lease, s₃, ⟨(Option.filter_eq_some_iff.mp hrow).1, hversion, hlease, hid, hheld⟩, by rw [hs₃, hruns],
    by rw [hs₃, hleases], by rw [hs₃, hdrawn], by rw [hs₃]; exact hown, by rw [hs₃]; exact hownOther, ?_⟩
  cases hsignal : cmd.signal with
  | none =>
    rw [hsignal] at hrest
    exact .inl ⟨rfl, hrest⟩
  | some signal =>
    rw [hsignal] at hrest
    exact .inr ⟨signal, rfl, hrest⟩

/-- `end_slice`: the decision, the hold-off and the release. -/
theorem endSlice_cases
    (h : endSlice env cmd signal s = .ok (u, s')) :
    ∃ row d row', s.runs.lookup cmd.runId = some row ∧ Decides row signal d ∧ s'.runs.lookup cmd.runId = some row' ∧
      (decidedRow row d cmd.waitPolicy env.now).Beside row' ∧
      (∀ id, id ≠ cmd.runId → (view s id).Beside (view s' id)) ∧
      s'.leases = s.leases.modify cmd.runId (released env.now) ∧ s'.messages = s.messages ∧ s'.drawn = s.drawn := by
  obtain ⟨_, _, hdec, h⟩ := bind_ok.mp h
  obtain ⟨row, d, row₁, hrow, hd, hrow₁, hk, hother, hleases, hmessages, hdrawn⟩ := decideAndWrite_rows hdec
  simp only [modifyRun, write_bind, releaseLease_ok] at h
  subst h
  refine ⟨row, d, heldOff cmd env.now row₁, hrow, hd, by simp [hrow₁], ?_, fun id hid => ?_, by rw [hleases], hmessages,
    hdrawn⟩
  · refine hk.beside.trans ?_
    unfold heldOff
    split
    · split <;> rfl
    · rfl
  · refine Eq.mp (congrArg _ ?_) (hother id hid)
    refine (view_congr ?_ ?_ ?_ ?_).symm
    · exact Table.lookup_modify_of_ne hid _ _
    · exact Table.lookup_modify_of_ne hid _ _
    · rfl
    · rfl

theorem recordSlice_moves (hrecord : (A cmd.runId).records cmd) :
    Within (Moving A) (recordSlice env cmd) := by
  intro s _ _ h
  obtain ⟨row, _, s₃, held, hruns, hleases, hdrawn, hown, hownOther, h⟩ := recordSlice_cases h
  have hrow₃ : s₃.runs.lookup cmd.runId = some (checkpointed cmd env.now row) := by
    rw [hruns, Table.lookup_modify_self, held.stored]
    rfl
  have hother : ∀ id, id ≠ cmd.runId → view s₃ id = view s id := fun id hid =>
    view_congr (by rw [hruns, Table.lookup_modify_of_ne hid]) (by rw [hleases]) (hownOther id hid) hdrawn
  rcases h with ⟨hsignal, hev⟩ | ⟨_, hsignal, hend⟩
  · refine Moving.trans ?_ (appendEvents_moves hev)
    refine .of_move cmd.runId (.recorded env.now held.stored hrecord hsignal held.leased held.unreleased) ?_ fun id hid => ?_
    · exact beside_view rfl hrow₃ rfl (by rw [hleases]; rfl) hown hdrawn
    · rw [hother id hid]
      exact .refl _
  · obtain ⟨_, _, _, hlook, hd, hrow', hb, hother', hleases', hmessages, hdrawn'⟩ := endSlice_cases hend
    cases hrow₃.symm.trans hlook
    obtain ⟨v, reason, kind, deadline, hv, hdec⟩ := hd
    refine .of_move cmd.runId (.ended env.now held.stored hrecord hsignal held.leased held.unreleased
      ⟨v, reason, kind, deadline, hv, hdec⟩) ?_ fun id hid => ?_
    · refine beside_view rfl hrow' hb ?_ ?_ (hdrawn'.trans hdrawn)
      · rw [hleases', Table.lookup_modify_self, hleases, held.leased]
        rfl
      · rw [ownTurns, hmessages]
        exact hown
    · rw [← hother id hid]
      exact hother' id hid

theorem recordRound_moves (hrecord : (A cmd.runId).records cmd)
    (happly : cmd.signal = some .safeCancelStarted → (A cmd.runId).applies .safeCancelFinished) :
    Within (Moving A) (recordRound env cmd) :=
  Within.bind (recordSlice_moves hrecord) fun _ => Within.onlyIf fun hs => applySignal_moves (happly hs)

theorem commitCheckpoint_moves {commit : CommitCheckpoint}
    (hrecord : (A commit.slice.runId).records commit.slice) : Within (Moving A) (commitCheckpoint env commit) := by
  refine Within.bind (Within.fetch _ _) fun session => Within.ite (fun _ => Within.pure _) fun _ => ?_
  refine Within.bind mint_moves fun _ => Within.bind modifySession_moves fun _ => ?_
  refine Within.bind (recordSlice_moves hrecord) fun _ => Within.bind (modifyRun_moves fun _ => rfl) fun _ => ?_
  exact Within.pure _

theorem claimHead_moves_taken {cmd : ClaimRunCommand} {answer : Option ClaimedRun}
    (h : claimHead env cmd leaseId s = .ok (answer, s'))
    (hclaim : ∀ claimed, answer = some claimed → (A claimed.runId).claims leaseId) : Moving A s s' := by
  rcases claimHead_spec h with ⟨_, rfl⟩ | ⟨runId, row, _, d, _, _, version, claimed, rfl, rfl, _, hrow, _, _, hd,
    hfresh, rfl, rfl, hev⟩
  · exact Std.Refl.refl _
  refine Moving.trans (fun id => ?_) (appendEvents_moves hev)
  by_cases hid : id = claimed.runId
  · subst hid
    refine .single ?_
    have hmove : RunMove (A claimed.runId) (view s claimed.runId) { view s claimed.runId with
        row := some (claimedRow d env.now row)
        lease := some (leaseFor env cmd leaseId version)
        drawn := leaseId :: s.drawn } :=
      .claimed env.now hrow ⟨_, _, _, _, rfl, hd⟩ (hclaim claimed rfl) hfresh rfl
    simpa [view, ownTurns, hrow] using hmove
  · refine .single (.beside ⟨?_, ?_, List.prefix_rfl, fun _ hx => List.mem_cons_of_mem _ hx⟩)
    · change Both RunRow.Beside (s.runs.lookup id) ((s.runs.modify claimed.runId (claimedRow d env.now)).lookup id)
      rw [Table.lookup_modify_of_ne hid]
      exact .refl .refl _
    · exact AList.lookup_insert_ne hid

theorem claimHead_moves {cmd : ClaimRunCommand} (hclaim : ∀ id, (A id).claims leaseId) :
    Within (Moving A) (claimHead env cmd leaseId) :=
  fun _ _ _ h => claimHead_moves_taken h fun _ _ => hclaim _

/-- What `charge_tool_call` checks and writes. -/
theorem chargeToolCall_spec {charged : Bool}
    (h : chargeToolCall env workspaceId runId leaseId s = .ok (charged, s')) :
    ∃ row lease budgets, s.runs.lookup runId = some row ∧ s.leases.lookup runId = some lease ∧ lease.id = leaseId ∧
      lease.releasedAt = none ∧ lease.expiresAt > env.now ∧ s' = { s with budgets } := by
  simp only [chargeToolCall, lockRun, fetch_bind_ok] at h
  obtain ⟨row, hrow, h⟩ := h
  obtain ⟨lease, ⟨hlease, hid, hheld, husable⟩, hrest⟩ := lockLease_bind_ok.mp h
  rw [get_bind] at hrest
  have hrow := (Option.filter_eq_some_iff.mp hrow).1
  have hexp : lease.expiresAt > env.now := by simpa using husable
  generalize (s.budgets.lookup row.budgetRootRunId).filter _ = room at hrest
  cases room with
  | none =>
    obtain ⟨_, rfl⟩ := pure_ok.mp hrest
    exact ⟨row, lease, _, hrow, hlease, hid, hheld, hexp, rfl⟩
  | some =>
    simp only [write_bind, pure_ok] at hrest
    obtain ⟨_, rfl⟩ := hrest
    exact ⟨row, lease, _, hrow, hlease, hid, hheld, hexp, rfl⟩

theorem takeKey_spec {waiting waiting' : List InterruptedWrite} {fingerprint : Option String} {newKey : Uuid}
    {key : Option Uuid} (h : takeKey waiting fingerprint newKey s = .ok ((key, waiting'), s')) :
    ∃ drawn, TakesKey waiting s.drawn fingerprint key waiting' drawn ∧ s' = { s with drawn } := by
  unfold takeKey at h
  cases fingerprint with
  | none =>
    obtain ⟨heq, rfl⟩ := pure_ok.mp h
    cases heq
    exact ⟨_, .plain, rfl⟩
  | some fp =>
    cases hfind : waiting.find? fun e => e.fingerprint = fp with
    | some =>
      simp only [hfind, pure_ok] at h
      obtain ⟨heq, rfl⟩ := h
      cases heq
      exact ⟨_, .again hfind, rfl⟩
    | none =>
      simp only [hfind, mint, bind_assoc, get_bind, require_bind_ok, write_bind, pure_ok] at h
      obtain ⟨hfresh, heq, rfl⟩ := h
      cases heq
      exact ⟨_, .anew hfind hfresh, rfl⟩

/-- What `reserve_outside_call` does: it charges nothing and sends nothing, or the round is written
down under the key it goes out with. -/
theorem reserveOutsideCall_spec {newKey : Uuid} {sending : InFlightRound}
    {answer : Option InFlightRound}
    (h : reserveOutsideCall env workspaceId runId leaseId sending newKey s = .ok (answer, s')) :
    ∃ row lease budgets, s.runs.lookup runId = some row ∧ s.leases.lookup runId = some lease ∧ lease.id = leaseId ∧
      lease.releasedAt = none ∧ lease.expiresAt > env.now ∧
      ((answer = none ∧ s' = { s with budgets }) ∨
        ∃ key waiting drawn, TakesKey row.interruptedWrites s.drawn sending.fingerprint key waiting drawn ∧
          answer = some { sending with idempotencyKey := key } ∧
          s' = { s with
            budgets, drawn
            runs := s.runs.modify runId (sentRow { sending with idempotencyKey := key } waiting) }) := by
  obtain ⟨charged, _, hcharge, hrest⟩ := bind_ok.mp h
  obtain ⟨row, lease, budgets, hrow, hlease, hid, hheld, hexp, rfl⟩ := chargeToolCall_spec hcharge
  refine ⟨row, lease, budgets, hrow, hlease, hid, hheld, hexp, ?_⟩
  cases charged with
  | false =>
    obtain ⟨rfl, rfl⟩ := pure_ok.mp hrest
    exact .inl ⟨rfl, rfl⟩
  | true =>
    simp only [if_true, fetch_bind_ok] at hrest
    obtain ⟨_, hrow', hrest⟩ := hrest
    cases hrow.symm.trans hrow'
    obtain ⟨⟨key, waiting⟩, _, htake, hrest⟩ := bind_ok.mp hrest
    obtain ⟨drawn, htakes, rfl⟩ := takeKey_spec htake
    simp only [modifyRun, write_bind, pure_ok] at hrest
    obtain ⟨rfl, rfl⟩ := hrest
    exact .inr ⟨key, waiting, drawn, htakes, rfl, rfl⟩

theorem reserveOutsideCall_moves {newKey : Uuid} {sending : InFlightRound}
    (hsend : (A runId).sends sending) :
    Within (Moving A) (reserveOutsideCall env workspaceId runId leaseId sending newKey) := by
  intro s _ _ h
  obtain ⟨row, _, _, hrow, hlease, _, hheld, _, ⟨_, rfl⟩ | ⟨key, waiting, drawn, htakes, _, rfl⟩⟩ :=
    reserveOutsideCall_spec h
  · exact .of_beside fun id => .refl _
  · refine .of_one runId ?_ fun id hid => ⟨?_, rfl, List.prefix_rfl, htakes.drawn_subset⟩
    · have hmove : RunMove (A runId) (view s runId) { view s runId with
          row := some (sentRow { sending with idempotencyKey := key } waiting row), drawn := drawn } :=
        .sent hrow hsend hlease hheld htakes
      simpa [view, ownTurns, hrow] using hmove
    · change Both RunRow.Beside (s.runs.lookup id) ((s.runs.modify runId _).lookup id)
      rw [Table.lookup_modify_of_ne hid]
      exact .refl .refl _

theorem chargeToolCall_moves :
    Within (Moving A) (chargeToolCall env workspaceId runId leaseId) := by
  intro _ _ _ h
  obtain ⟨_, _, _, _, _, _, _, _, rfl⟩ := chargeToolCall_spec h
  exact .of_beside fun id => .refl _

theorem renewLease_moves {cmd : RenewLeaseCommand} : Within (Moving A) (renewLease env cmd) := by
  intro s _ _ h
  simp only [renewLease, get_bind] at h
  generalize (s.runs.lookup cmd.runId).filter _ = run at h
  cases run with
  | none =>
    obtain ⟨_, rfl⟩ := pure_ok.mp h
    exact Std.Refl.refl _
  | some =>
    cases hlease : (s.leases.lookup cmd.runId).filter fun lease =>
        lease.id = cmd.leaseId && lease.version = cmd.expectedVersion && lease.releasedAt.isNone with
    | none =>
      simp only [hlease, pure_ok] at h
      obtain ⟨_, rfl⟩ := h
      exact Std.Refl.refl _
    | some lease =>
      simp only [hlease, write_bind, pure_ok] at h
      obtain ⟨_, rfl⟩ := h
      obtain ⟨hlook, hcond⟩ := Option.filter_eq_some_iff.mp hlease
      simp only [Bool.and_eq_true, Option.isNone_iff_eq_none] at hcond
      refine .of_one cmd.runId ?_ fun id hid => ⟨.refl .refl _, ?_, List.prefix_rfl, fun _ hx => hx⟩
      · have hmove : RunMove (A cmd.runId) (view s cmd.runId) { view s cmd.runId with
            lease := some { lease with expiresAt := env.now + seconds cmd.leaseSeconds, version := lease.version + 1 } } :=
          .renewed hlook hcond.2 rfl hcond.2
        simpa [view, ownTurns, hlook] using hmove
      · exact Table.lookup_modify_of_ne hid _ _

theorem sweepRun_cases {α : Type} {applies : RunRow → Bool} {unchanged a : α}
    {sweep : RunRow → SessionRow → StoreTx α}
    (h : sweepRun runId applies unchanged sweep s = .ok (a, s')) :
    (a = unchanged ∧ s' = s) ∨ ∃ run session, s.runs.lookup runId = some run ∧ applies run = true ∧
      s.sessions.lookup run.sessionId = some session ∧ session.workspaceId = run.workspaceId ∧
      sweep run session s = .ok (a, s') := by
  simp only [sweepRun, get_bind] at h
  cases hrun : (s.runs.lookup runId).filter applies with
  | none =>
    simp only [hrun, pure_ok] at h
    exact .inl ⟨h.1.symm, h.2.symm⟩
  | some run =>
    simp only [hrun] at h
    obtain ⟨hrun, happlies⟩ := Option.filter_eq_some_iff.mp hrun
    cases hsession : (s.sessions.lookup run.sessionId).filter fun session => session.workspaceId = run.workspaceId with
    | none =>
      simp only [hsession, pure_ok] at h
      exact .inl ⟨h.1.symm, h.2.symm⟩
    | some session =>
      simp only [hsession] at h
      obtain ⟨hsession, hworkspace⟩ := Option.filter_eq_some_iff.mp hsession
      exact .inr ⟨run, session, hrun, happlies, hsession, of_decide_eq_true hworkspace, h⟩

theorem sweepRun_found {α : Type} {applies : RunRow → Bool} {unchanged : α}
    {sweep : RunRow → SessionRow → StoreTx α} {run : RunRow} {session : SessionRow}
    (hrun : s.runs.lookup runId = some run) (happlies : applies run = true)
    (hsession : s.sessions.lookup run.sessionId = some session) (hworkspace : session.workspaceId = run.workspaceId) :
    sweepRun runId applies unchanged sweep s = sweep run session s := by
  have hfound : (s.runs.lookup runId).filter applies = some run := Option.filter_eq_some_iff.mpr ⟨hrun, happlies⟩
  have hhome : ((s.sessions.lookup run.sessionId).filter fun session => session.workspaceId = run.workspaceId) =
      some session := Option.filter_eq_some_iff.mpr ⟨hsession, decide_eq_true hworkspace⟩
  simp only [sweepRun, get_bind, hfound, hhome]

theorem sweepRun_moves {α : Type} {applies : RunRow → Bool} {unchanged : α}
    {sweep : RunRow → SessionRow → StoreTx α}
    (h : ∀ run session s a s', s.runs.lookup runId = some run → applies run = true →
      sweep run session s = .ok (a, s') → Moving A s s') :
    Within (Moving A) (sweepRun runId applies unchanged sweep) := by
  intro s a s' hs
  rcases sweepRun_cases hs with ⟨_, rfl⟩ | ⟨run, session, hrun, happlies, _, _, hs⟩
  · exact Std.Refl.refl _
  · exact h run session s a s' hrun happlies hs

theorem reclaimExpiredLease_moves : Within (Moving A) (reclaimExpiredLease env runId) := by
  refine sweepRun_moves fun run session s u s' _ _ h => ?_
  obtain ⟨_, _, hrel, hdec⟩ := bind_ok.mp h
  obtain rfl := releaseLease_ok.mp hrel
  obtain ⟨_, _, _, hrow, hd, hrow', hk, hother, hleases, hmessages, hdrawn⟩ := decideAndWrite_rows hdec
  refine .of_move runId (.reclaimed env.now hrow hd) ?_ fun id hid => ?_
  · refine beside_view rfl hrow' hk.beside ?_ ?_ hdrawn
    · rw [hleases, Table.lookup_modify_self]
      rfl
    · rw [ownTurns, hmessages]
      rfl
  · have hview : view { s with leases := s.leases.modify runId (released env.now) } id = view s id :=
      view_congr rfl (Table.lookup_modify_of_ne hid _ _) rfl rfl
    rw [← hview]
    exact hother id hid

theorem tellInterruptedRound_spec {run : RunRow} {told : Option String}
    (h : tellInterruptedRound runId run s = .ok (told, s')) :
    (run.inflightRound = none ∧ told = none ∧ s' = s) ∨
      ∃ sending turn answers rows sessions, run.inflightRound = some sending ∧ told = some sending.callId ∧
        toldAfterInterruption sending = some (turn, answers) ∧
        s' = { s with
          messages := s.messages ++ rows, sessions, runs := s.runs.modify runId (toldRow sending) } ∧
        rows.map (·.message) = [turn, answers] ∧
        ∀ r ∈ rows, r.sessionId = run.sessionId ∧ r.sourceRunId = some runId ∧ r.withdrawnAt = none := by
  unfold tellInterruptedRound at h
  cases hsending : run.inflightRound with
  | none =>
    rw [hsending] at h
    obtain ⟨rfl, rfl⟩ := pure_ok.mp h
    exact .inl ⟨rfl, rfl, rfl⟩
  | some sending =>
    rw [hsending] at h
    simp only [fetch_bind_ok] at h
    obtain ⟨⟨turn, answers⟩, htold, h⟩ := h
    obtain ⟨_, _, happ, h⟩ := bind_ok.mp h
    obtain ⟨rows, sessions, rfl, hmap, hrows⟩ := appendMessages_spec happ
    simp only [modifyRun, write_bind, pure_ok] at h
    obtain ⟨rfl, rfl⟩ := h
    exact .inr ⟨sending, turn, answers, rows, sessions, rfl, rfl, htold, rfl, hmap, hrows⟩

theorem tellInterruptedRound_moves {run : RunRow} {told : Option String}
    (htells : (A runId).tells) (hrun : s.runs.lookup runId = some run) (hstatus : run.status = .interrupted)
    (h : tellInterruptedRound runId run s = .ok (told, s')) : Moving A s s' := by
  rcases tellInterruptedRound_spec h with ⟨_, _, rfl⟩ | ⟨sending, turn, answers, rows, sessions, hsending, _, htold, rfl,
    hmap, hrows⟩
  · exact Std.Refl.refl _
  have hown : (rows.filter fun m => m.sourceRunId = some runId) = rows :=
    List.filter_eq_self.mpr fun r hr => by simp [(hrows r hr).2.1]
  refine .of_one runId ?_ fun id hid => ?_
  · have hmove : RunMove (A runId) (view s runId) { view s runId with
        row := some (toldRow sending run), said := ownTurns s runId ++ [turn, answers] } :=
      .told hrun hsending htells hstatus htold
    simpa [view, ownTurns, hrun, hown, hmap] using hmove
  · have hnone : (rows.filter fun m => m.sourceRunId = some id) = [] :=
      List.filter_eq_nil_iff.mpr fun r hr => by simp [(hrows r hr).2.1, Ne.symm hid]
    have hview : view { s with
        messages := s.messages ++ rows, sessions, runs := s.runs.modify runId (toldRow sending) } id = view s id :=
      view_congr (Table.lookup_modify_of_ne hid _ _) rfl (by simp [ownTurns, hnone]) rfl
    rw [hview]
    exact .refl _

private theorem told_safe {run current : RunRow} {session : SessionRow} {told : Option String}
    {budget : RunBudgetScopeRow} {maxAttempts : Nat} (hrun : s.runs.lookup runId = some run)
    (h : tellIfAgreed runId run session s = .ok (told, s')) (hcurrent : s'.runs.lookup runId = some current)
    (hclean : run.workspaceCleanupTarget = none) (hsafe : replaySafe env current session budget maxAttempts = true) :
    current.inflightRound = none ∧ current.checkpointEffectStatus ≠ .unknown ∧ current.workspaceCleanupTarget = none := by
  simp only [replaySafe, Bool.and_eq_true, decide_eq_true_eq] at hsafe
  obtain ⟨⟨⟨⟨_, hagrees⟩, heffect⟩, _⟩, _⟩ := hsafe
  suffices hcall : current.inflightRound = none ∧ current.workspaceCleanupTarget = none from ⟨hcall.1, heffect, hcall.2⟩
  unfold tellIfAgreed at h
  split at h
  · rcases tellInterruptedRound_spec h with ⟨hnone, _, rfl⟩ | ⟨_, _, _, _, _, _, _, _, rfl, _, _⟩
    · rw [hrun] at hcurrent
      rw [← Option.some.inj hcurrent]
      exact ⟨hnone, hclean⟩
    · simp only [Table.lookup_modify_self, hrun, Option.map_some, Option.some.injEq] at hcurrent
      rw [← hcurrent]
      exact ⟨rfl, hclean⟩
  · next hnot =>
    obtain ⟨_, rfl⟩ := pure_ok.mp h
    rw [hrun] at hcurrent
    cases hcurrent
    exact absurd hagrees hnot

theorem recoverInterrupted_moves {maxAttempts : Nat} (htells : (A runId).tells) :
    Within (Moving A) (recoverInterrupted env runId maxAttempts) := by
  refine sweepRun_moves fun run session s answer s' hrun happlies h => ?_
  simp only [get_bind] at h
  cases hbudget : s.budgets.lookup run.budgetRootRunId with
  | none =>
    simp only [hbudget, pure_ok] at h
    obtain ⟨_, rfl⟩ := h
    exact Std.Refl.refl _
  | some =>
    simp only [hbudget] at h
    obtain ⟨_, s₁, htell, h⟩ := bind_ok.mp h
    simp only [fetch_bind_ok] at h
    obtain ⟨_, hcurrent, h⟩ := h
    obtain ⟨_, s₂, hattempt, h⟩ := bind_ok.mp h
    obtain ⟨_, _, hdec, h⟩ := bind_ok.mp h
    simp only [fetch_bind_ok, pure_ok] at h
    obtain ⟨_, _, _, rfl⟩ := h
    simp only [Bool.and_eq_true, decide_eq_true_eq] at happlies
    have h₁ : Moving A s s₁ := by
      unfold tellIfAgreed at htell
      split at htell
      · exact tellInterruptedRound_moves htells hrun happlies.1 htell
      · obtain ⟨_, rfl⟩ := pure_ok.mp htell
        exact Std.Refl.refl _
    have h₂ : Moving A s₁ s₂ := by
      refine modifyRun_moves (fun r => ?_) hattempt
      unfold attempted
      split <;> rfl
    refine h₁.trans (h₂.trans (decideAndWrite_moves ?_ rfl ?_ hdec))
    · split <;> decide
    · intro _ hrow hsignal
      split at hsignal
      · next hsafe =>
        obtain rfl := write_ok.mp hattempt
        simp only [Table.lookup_modify_self, hcurrent, Option.map_some, Option.some.injEq] at hrow
        have htold := told_safe hrun htell hcurrent (Option.isNone_iff_eq_none.mp happlies.2) hsafe
        rw [← hrow, attempted, if_pos hsafe]
        exact htold
      · cases hsignal

theorem Admitted.newborn {row : RunRow} (h : Operations.Admitted env row) : row.Newborn := by
  cases h with
  | accepted | retried => exact ⟨rfl, rfl, rfl, rfl, .inl ⟨rfl, rfl, rfl⟩⟩
  | child => exact ⟨rfl, rfl, rfl, rfl, .inr ⟨rfl, Nat.succ_le_succ (Nat.zero_le _), rfl, rfl⟩⟩

theorem around_moves : Operations.Around env (Moving A) where
  mints _ := mint_moves
  opens _ _ _ _ := insertSession_moves
  message _ _ _ := appendMessage_moves
  events _ _ _ := appendEvents_moves
  grants _ _ := grantArtifact_moves

theorem joins_moves : Operations.Joins env (Moving A) := fun _ _ _ h => joinSession_moves (Admitted.newborn h)

theorem files_moves : Operations.Files (Moving A) := fun _ => write_moves (fun _ => rfl) (fun _ => rfl) (fun _ => rfl) fun _ => rfl

theorem bills_moves : Operations.Bills (Moving A) := fun _ => write_moves (fun _ => rfl) (fun _ => rfl) (fun _ => rfl) fun _ => rfl

theorem acceptRun_moves {cmd : AcceptRunCommand} : Within (Moving A) (acceptRun env cmd runId) :=
  Operations.acceptRun_within around_moves joins_moves files_moves bills_moves

theorem cancelChild_moves {reason : String} : Within (Moving A) (cancelChild env runId reason) :=
  sweepRun_moves fun _ _ _ _ _ _ _ h => sweep_moves (by decide) (by decide) rfl h

theorem wakeParent_moves {parentRunId : Uuid} {parent : RunRow} {policy : WaitPolicy} {finished succeeded : List Uuid} :
    Within (Moving A) (wakeParent env parentRunId parent policy finished succeeded) := by
  refine Within.bind (Operations.deliverChildResults_within around_moves fun _ => modifyRun_moves fun _ => rfl) fun _ => ?_
  exact Within.bind (sweep_moves (by decide) (by decide) rfl) fun _ => Within.pure _

theorem settleChildWait_moves {parentRunId : Uuid} : Within (Moving A) (settleChildWait env parentRunId) := by
  refine sweepRun_moves fun parent _ _ _ _ _ _ h => ?_
  have hwithin : Within (Moving A) (settleChildren env parentRunId parent) := by
    refine Within.bind Within.get fun s => ?_
    refine Within.ite (fun _ => Within.pure _) fun _ => Within.ite (fun _ => ?_) fun _ => ?_
    · refine Within.bind (Within.forEach _ fun _ _ => cancelChild_moves) fun _ => ?_
      exact Within.bind Within.get fun _ => wakeParent_moves
    · exact Within.ite (fun _ => Within.pure _) fun _ => wakeParent_moves
  exact hwithin h

theorem cascadeCancelChildren_moves {parentRunId : Uuid} :
    Within (Moving A) (cascadeCancelChildren env parentRunId) := by
  refine Within.bind Within.get fun s => ?_
  split
  · exact Within.pure _
  · exact Within.forEach _ fun _ _ => cancelChild_moves

theorem repairSessionHead_moves : Within (Moving A) (repairSessionHead env sessionId) := by
  refine Within.bind (Within.fetch _ _) fun session => Within.bind Within.get fun s => ?_
  refine Within.ite (fun _ => Within.pure _) fun _ => ?_
  refine Within.bind (Within.forEach _ fun _ _ => modifyRun_moves fun _ => rfl) fun _ => ?_
  refine Within.bind modifySession_moves fun _ => ?_
  exact Within.bind (Within.forEach _ fun _ _ => appendEvents_moves) fun _ => Within.pure _

theorem exec_moves (op : Op) : Within (Moving fun id => op.allows id) (exec env op) := by
  cases op with
  | createSession => exact Within.bind (Operations.createSession_within around_moves) fun _ => Within.pure _
  | acceptRun => exact Within.bind acceptRun_moves fun _ => Within.pure _
  | deriveRetry =>
    exact Within.bind (Operations.deriveRetry_within around_moves joins_moves files_moves bills_moves) fun _ => Within.pure _
  | delegateChildren =>
    exact Within.bind (Operations.delegateChildren_within around_moves joins_moves) fun _ => Within.pure _
  | claimHead => exact Within.bind (claimHead_moves fun _ => rfl) fun _ => Within.pure _
  | applySignal => exact Within.bind (applySignal_moves ⟨rfl, rfl⟩) fun _ => Within.pure _
  | controlRun =>
    refine Within.bind (Within.bind (Within.require _ _) fun _ => ?_) fun _ => Within.pure _
    exact applySignal_moves ⟨rfl, rfl⟩
  | widenBudget => exact Within.bind (Operations.widenBudget_within bills_moves) fun _ => Within.pure _
  | renewLease => exact Within.bind renewLease_moves fun _ => Within.pure _
  | reserveToolCall => exact Within.bind chargeToolCall_moves fun _ => Within.pure _
  | reserveOutsideCall => exact Within.bind (reserveOutsideCall_moves ⟨rfl, rfl⟩) fun _ => Within.pure _
  | recordSlice => exact Within.bind (recordSlice_moves ⟨rfl, rfl⟩) fun _ => Within.pure _
  | recordRound => exact Within.bind (recordRound_moves ⟨rfl, rfl⟩ fun h => ⟨rfl, h, rfl⟩) fun _ => Within.pure _
  | commitCheckpoint => exact Within.bind (commitCheckpoint_moves ⟨rfl, rfl⟩) fun _ => Within.pure _
  | reclaimExpiredLease => exact Within.bind reclaimExpiredLease_moves fun _ => Within.pure _
  | recoverInterrupted => exact Within.bind (recoverInterrupted_moves rfl) fun _ => Within.pure _
  | wakeExternalWait =>
    refine Within.bind (sweepRun_moves fun _ _ _ _ _ _ _ h => ?_) fun _ => Within.pure _
    exact sweep_moves (by decide) (by decide) rfl h
  | timeOutExternalWait =>
    refine Within.bind (sweepRun_moves fun _ _ _ _ _ _ _ h => ?_) fun _ => Within.pure _
    exact sweep_moves (by decide) (by decide) rfl h
  | expireApproval =>
    refine Within.bind (sweepRun_moves fun _ _ _ _ _ _ _ h => ?_) fun _ => Within.pure _
    exact sweep_moves (by decide) (by decide) rfl h
  | cancelAgedCompatTimeout =>
    refine Within.bind (sweepRun_moves fun _ _ _ _ _ _ _ h => ?_) fun _ => Within.pure _
    exact sweep_moves (by decide) (by decide) rfl h
  | settleChildWait => exact Within.bind settleChildWait_moves fun _ => Within.pure _
  | cascadeCancelChildren => exact Within.bind cascadeCancelChildren_moves fun _ => Within.pure _
  | repairSessionHead => exact Within.bind repairSessionHead_moves fun _ => Within.pure _

end RunMoves
end TinyHermes.Runs
