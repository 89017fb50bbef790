import TinyHermes.Runs.Frames
import TinyHermes.Runs.Transactions

/-! How every operation is put together: a relation that contains the few statements an operation is made of contains its
transactions. -/
namespace TinyHermes.Runs
open Lib SqlRunStore StateMachine Tx

variable {sessionId : Uuid}

theorem Housekeeping.of_repairSessionHead {env : Env} :
    Within Housekeeping (repairSessionHead env sessionId) := by
  refine Within.bind (Within.fetch _ _) fun session => Within.bind Within.get fun s => ?_
  refine Within.ite (fun _ => Within.pure _) fun _ => ?_
  refine Within.bind (Within.forEach _ fun _ _ => of_modifyRun fun _ => rfl) fun _ => ?_
  refine Within.bind (of_modifySession fun _ => rfl) fun _ => ?_
  exact Within.bind (Within.forEach _ fun _ _ => of_appendEvents) fun _ => Within.pure _

structure RunRow.InPlace (r r' : RunRow) : Prop where
  workspaceId : r'.workspaceId = r.workspaceId
  sessionId : r'.sessionId = r.sessionId
  sessionSequence : r'.sessionSequence = r.sessionSequence
  budgetRootRunId : r'.budgetRootRunId = r.budgetRootRunId
  blockedByRunId : r'.blockedByRunId = r.blockedByRunId
  terminal : r'.status.isTerminal = r.status.isTerminal

structure SessionRow.InPlace (r r' : SessionRow) : Prop where
  workspaceId : r'.workspaceId = r.workspaceId
  caller : r'.caller = r.caller
  headRunId : r'.headRunId = r.headRunId
  nextRunSequence : r'.nextRunSequence = r.nextRunSequence

theorem RunRow.InPlace.of_row (r : RunRow) : r.InPlace r := ⟨rfl, rfl, rfl, rfl, rfl, rfl⟩

/-- A relation that contains every statement of the store. -/
structure Closed (R : Store → Store → Prop) : Prop where
  aside : ∀ s s', s'.runs = s.runs → s'.sessions = s.sessions → R s s'
  run : ∀ s runId f, (∀ r, s.runs.lookup runId = some r → r.InPlace (f r)) →
    R s { s with runs := s.runs.modify runId f }
  session : ∀ s sessionId f, (∀ r : SessionRow, r.InPlace (f r)) →
    R s { s with sessions := s.sessions.modify sessionId f }
  opens : ∀ sessionId row, row.headRunId = none → row.nextRunSequence = 1 → Within R (insertSession sessionId row)
  joins : ∀ sessionId runId row, row.status = .queued → Within R (joinSession sessionId runId row)
  decides : ∀ env runId signal args, Within R (decideAndWrite env runId signal args)
  repairs : ∀ env sessionId, Within R (repairSessionHead env sessionId)

namespace Operations

inductive Admitted (env : Env) : RunRow → Prop where
  | accepted (cmd : AcceptRunCommand) (session : SessionRow) (versionId runId : Uuid) :
      Admitted env (acceptedRow env cmd session versionId runId)
  | retried (cmd : RetryRunCommand) (source : RunRow) (session : SessionRow) : Admitted env (retryRow env cmd source session)
  | child (parentRunId : Uuid) (parent : RunRow) (sessionId versionId : Uuid) (scope : Agents.DelegationScope) :
      Admitted env (childRow env parentRunId parent sessionId versionId scope)

structure Steady (r r' : RunRow) : Prop extends r.InPlace r' where
  parentRunId : r'.parentRunId = r.parentRunId
  retryOfRunId : r'.retryOfRunId = r.retryOfRunId
  resultDeliveredAt : r'.resultDeliveredAt = r.resultDeliveredAt

theorem Steady.of_row (r : RunRow) : Steady r r := ⟨.of_row r, rfl, rfl, rfl⟩

section Relations
variable (env : Env) (R : Store → Store → Prop)

structure Around : Prop where
  mints : ∀ id, Within R (mint id)
  opens : ∀ sessionId row, row.headRunId = none → row.nextRunSequence = 1 → Within R (insertSession sessionId row)
  message : ∀ sessionId runId message, Within R (appendMessage sessionId runId message)
  events : ∀ workspaceId runId events, Within R (appendEvents env workspaceId runId events)
  grants : ∀ artifactId runId, Within R (grantArtifact artifactId runId)

structure Rows : Prop extends Around env R where
  row : ∀ runId f, (∀ r, Steady r (f r)) → Within R (modifyRun runId f)
  session : ∀ sessionId f, (∀ r : SessionRow, r.InPlace (f r)) → Within R (modifySession sessionId f)
  lease : ∀ f : Store → _, Within R (Tx.write fun s => { s with leases := f s } : StoreTx Unit)
  decides : ∀ runId signal args, Within R (decideAndWrite env runId signal args)
  claims : ∀ cmd leaseId, Within R (claimHead env cmd leaseId)
  repairs : ∀ sessionId, Within R (repairSessionHead env sessionId)

abbrev Joins : Prop := ∀ sessionId runId row, Admitted env row → Within R (joinSession sessionId runId row)

abbrev Files : Prop := ∀ f : Store → _, Within R (Tx.write fun s => { s with records := f s } : StoreTx Unit)

abbrev Bills : Prop := ∀ f : Store → _, Within R (Tx.write fun s => { s with budgets := f s } : StoreTx Unit)

abbrev Marks : Prop := ∀ runId, Within R (modifyRun runId fun row => { row with resultDeliveredAt := some env.now })

end Relations

variable {R : Store → Store → Prop} [Std.Refl R] [IsTrans Store R] {env : Env}

omit [IsTrans Store R] in
theorem publishedVersion_within {session : SessionRow} : Within R (publishedVersion env session) := by
  unfold publishedVersion
  split
  · exact Within.throw _
  · split
    · exact Within.throw _
    · exact Within.pure _

variable {runId : Uuid}

theorem sweepRun_within {α : Type} {applies : RunRow → Bool} {unchanged : α}
    {sweep : RunRow → SessionRow → StoreTx α} (h : ∀ run session, Within R (sweep run session)) :
    Within R (sweepRun runId applies unchanged sweep) := by
  refine Within.bind Within.get fun s => ?_
  split
  · exact Within.pure _
  split
  · exact Within.pure _
  · exact h _ _

theorem appendMessages_within (hmessage : ∀ sessionId runId message, Within R (appendMessage sessionId runId message))
    {messages : List CanonicalMessage} : Within R (appendMessages sessionId runId messages) :=
  Within.forEach _ fun _ _ => hmessage _ _ _

theorem takeKey_within (hmints : ∀ id, Within R (mint id)) {waiting : List Interruption.InterruptedWrite} {fingerprint : Option String}
    {newKey : Uuid} : Within R (takeKey waiting fingerprint newKey) := by
  unfold takeKey
  split
  · exact Within.pure _
  · split
    · exact Within.pure _
    · exact Within.bind (hmints _) fun _ => Within.pure _

section Keys
variable (hfiles : Files R)
include hfiles

theorem claimIdempotency_within {scope : IdempotencyScope} {fingerprint : String} :
    Within R (claimIdempotency scope fingerprint) := by
  refine Within.bind Within.get fun s => ?_
  split
  · exact Within.bind (hfiles _) fun _ => Within.pure _
  · split
    · exact Within.bind (Within.require _ _) fun _ => Within.pure _
    · exact Within.throw _

theorem storeResponse_within {scope : IdempotencyScope} : Within R (storeResponse scope runId) :=
  Within.bind (Within.fetch _ _) fun _ => hfiles _

end Keys

variable {workspaceId : Uuid}

section Scopes
variable (hbills : Bills R)
include hbills

theorem widenBudget_within {canControl : Bool} {version maxModelCalls : Nat} :
    Within R (widenBudget canControl workspaceId runId version maxModelCalls) := by
  refine Within.bind (Within.require _ _) fun _ => Within.bind (Within.fetch _ _) fun run => ?_
  refine Within.bind (Within.require _ _) fun _ => Within.bind (Within.fetch _ _) fun budget => ?_
  exact Within.bind (Within.require _ _) fun _ => hbills _

theorem chargeToolCall_within {leaseId : Uuid} :
    Within R (chargeToolCall env workspaceId runId leaseId) := by
  refine Within.bind (Within.fetch _ _) fun run => Within.bind (Within.fetch _ _) fun _ => Within.bind Within.get fun s => ?_
  split
  · exact Within.pure _
  · exact Within.bind (hbills _) fun _ => Within.pure _

theorem consumeBudget_within {rootRunId : Uuid} {executedMs modelCalls tokens : Nat} {cost : Option Cost} :
    Within R (consumeBudget rootRunId executedMs modelCalls tokens cost) :=
  Within.bind (Within.fetch _ _) fun _ => hbills _

end Scopes

variable {parentRunId : Uuid}

section Around
variable (hR : Around env R)
include hR

theorem createSession_within {cmd : CreateSessionCommand} :
    Within R (createSession env cmd sessionId) :=
  Within.bind (Within.require _ _) fun _ => Within.bind (hR.mints _) fun _ => hR.opens _ _ rfl rfl

section Admissions
variable (hjoins : Joins env R)
include hjoins

theorem acceptRun_within (hfiles : Files R) (hbills : Bills R) {cmd : AcceptRunCommand} :
    Within R (acceptRun env cmd runId) := by
  refine Within.bind (claimIdempotency_within hfiles) fun replay => ?_
  split
  · exact Within.pure _
  refine Within.bind (Within.fetch _ _) fun session => Within.bind publishedVersion_within fun version => ?_
  refine Within.bind (hR.mints _) fun _ => Within.bind (hjoins _ _ _ (.accepted cmd session version.1 runId)) fun _ => ?_
  refine Within.bind (appendMessages_within hR.message) fun _ => Within.bind (hbills _) fun _ => ?_
  exact Within.bind (hR.events _ _ _) fun _ => Within.bind (storeResponse_within hfiles) fun _ => Within.pure _

theorem deriveRetry_within (hfiles : Files R) (hbills : Bills R) {cmd : RetryRunCommand} :
    Within R (deriveRetry env cmd runId) := by
  refine Within.bind (Within.require _ _) fun _ => Within.bind (claimIdempotency_within hfiles) fun replay => ?_
  split
  · exact Within.pure _
  refine Within.bind (Within.fetch _ _) fun source => Within.bind (Within.fetch _ _) fun session => ?_
  refine Within.bind (Within.fetch _ _) fun budget => Within.bind Within.get fun s => ?_
  split
  · exact Within.throw _
  refine Within.bind (hbills _) fun _ => Within.bind (hR.mints _) fun _ => ?_
  refine Within.bind (hjoins _ _ _ (.retried cmd source session)) fun _ => ?_
  refine Within.bind (Within.bind Within.get fun _ => appendMessages_within hR.message) fun _ => ?_
  refine Within.bind (hR.events _ _ _) fun _ => Within.bind (hR.events _ _ _) fun _ => ?_
  exact Within.bind (storeResponse_within hfiles) fun _ => Within.pure _

theorem createChild_within {parent : RunRow} {owning : SessionRow} {spec : Agents.AgentSpec}
    {policy : Agents.DelegationPolicy} {readable : String → Option Uuid} {item : DelegationRequest}
    :
    Within R (createChild env parentRunId parent owning spec policy readable item sessionId runId) := by
  refine Within.bind (Within.fetch _ _) fun binding => Within.bind (Within.fetch _ _) fun versionId => ?_
  refine Within.bind (Within.fetch _ _) fun version => Within.bind (hR.mints _) fun _ => ?_
  refine Within.bind (hR.opens _ _ rfl rfl) fun _ => Within.bind (hR.mints _) fun _ => ?_
  refine Within.bind (hjoins _ _ _ (.child parentRunId parent sessionId versionId _)) fun _ => ?_
  refine Within.bind (Within.forEach _ fun _ _ => hR.grants _ _) fun _ => ?_
  exact Within.bind (hR.message _ _ _) fun _ => Within.bind (hR.events _ _ _) fun _ => Within.pure _

theorem createChildren_within {parent : RunRow} {owning : SessionRow} {spec : Agents.AgentSpec}
    {policy : Agents.DelegationPolicy} {readable : String → Option Uuid}
    (requests : List (DelegationRequest × Uuid × Uuid)) :
    Within R (createChildren env parentRunId parent owning spec policy readable requests) := by
  induction requests with
  | nil => exact Within.pure _
  | cons r rest ih => exact Within.bind (createChild_within hR hjoins) fun _ => Within.bind ih fun _ => Within.pure _

theorem delegateChildren_within {requests : List (DelegationRequest × Uuid × Uuid)} :
    Within R (delegateChildren env parentRunId requests) := by
  refine Within.bind Within.get fun s => ?_
  split
  · exact Within.pure _
  refine Within.ite (fun _ => Within.pure _) fun _ => ?_
  split
  · split
    · exact Within.pure _
    · split
      · exact Within.pure _
      · exact Within.bind (createChildren_within hR hjoins _) fun _ => Within.pure _
  · exact Within.pure _

end Admissions

theorem deliverChildResults_within (hmarks : Marks env R) {parent : RunRow} {children : List Uuid} :
    Within R (deliverChildResults env parentRunId parent children) := by
  refine Within.bind Within.get fun s => ?_
  refine Within.bind (Within.forEach _ fun _ _ => hR.grants _ _) fun _ => ?_
  exact Within.bind (Within.forEach _ fun _ _ => hmarks _) fun _ => hR.message _ _ _

end Around

section Rows
variable (hR : Rows env R)
include hR

theorem renewLease_within {cmd : RenewLeaseCommand} : Within R (renewLease env cmd) := by
  refine Within.bind Within.get fun s => ?_
  split
  · exact Within.pure _
  split
  · exact Within.pure _
  · exact Within.bind (hR.lease _) fun _ => Within.pure _

theorem applySignal_within {cmd : ApplySignalCommand} : Within R (applySignal env cmd) := by
  refine Within.bind (Within.fetch _ _) fun run => Within.bind (Within.require _ _) fun _ => ?_
  refine Within.bind (Within.fetch _ _) fun _ => Within.bind (Within.require _ _) fun _ => ?_
  refine Within.bind (hR.decides _ _ _) fun _ => Within.bind (hR.row _ _ fun r => ?_) fun _ => ?_
  · split <;> exact ⟨⟨rfl, rfl, rfl, rfl, rfl, rfl⟩, rfl, rfl, rfl⟩
  · exact Within.bind (Within.fetch _ _) fun _ => Within.onlyIf fun _ => hR.lease _

theorem controlRun_within {canControl : Bool} {signal : RunSignal} {callerId : Uuid}
    {version : Nat} : Within R (controlRun env canControl workspaceId runId signal callerId version) :=
  Within.bind (Within.require _ _) fun _ => applySignal_within hR

omit [Std.Refl R] in
theorem endSlice_within {cmd : RecordSliceCommand} {signal : RunSignal} : Within R (endSlice env cmd signal) := by
  refine Within.bind (hR.decides _ _ _) fun _ => Within.bind (hR.row _ _ fun r => ?_) fun _ => hR.lease _
  unfold heldOff
  split
  · split <;> exact ⟨⟨rfl, rfl, rfl, rfl, rfl, rfl⟩, rfl, rfl, rfl⟩
  · exact .of_row r

section Slices
variable (hbills : Bills R)
include hbills

theorem reserveOutsideCall_within {leaseId : Uuid} {sending : Interruption.InFlightRound}
    {newKey : Uuid} : Within R (reserveOutsideCall env workspaceId runId leaseId sending newKey) := by
  refine Within.bind (chargeToolCall_within hbills) fun charged => Within.ite (fun _ => ?_) fun _ => Within.pure _
  refine Within.bind (Within.fetch _ _) fun run => Within.bind (takeKey_within hR.mints) fun taken => ?_
  exact Within.bind (hR.row _ _ fun _ => ⟨⟨rfl, rfl, rfl, rfl, rfl, rfl⟩, rfl, rfl, rfl⟩) fun _ => Within.pure _

theorem recordSlice_within {cmd : RecordSliceCommand} : Within R (recordSlice env cmd) := by
  refine Within.bind (Within.fetch _ _) fun run => Within.bind (Within.fetch _ _) fun _ => ?_
  refine Within.bind (Within.require _ _) fun _ => Within.bind (Within.fetch _ _) fun _ => ?_
  refine Within.bind (hR.row _ _ fun _ => ⟨⟨rfl, rfl, rfl, rfl, rfl, rfl⟩, rfl, rfl, rfl⟩) fun _ => ?_
  refine Within.bind (appendMessages_within hR.message) fun _ => Within.bind (consumeBudget_within hbills) fun _ => ?_
  split
  · exact hR.events _ _ _
  · exact endSlice_within hR

theorem recordRound_within {cmd : RecordSliceCommand} : Within R (recordRound env cmd) :=
  Within.bind (recordSlice_within hR hbills) fun _ => Within.onlyIf fun _ => applySignal_within hR

theorem commitCheckpoint_within {commit : CommitCheckpoint} : Within R (commitCheckpoint env commit) := by
  refine Within.bind (Within.fetch _ _) fun session => Within.ite (fun _ => Within.pure _) fun _ => ?_
  refine Within.bind (hR.mints _) fun _ => Within.bind (hR.session _ _ fun _ => ⟨rfl, rfl, rfl, rfl⟩) fun _ => ?_
  refine Within.bind (recordSlice_within hR hbills) fun _ => ?_
  exact Within.bind (hR.row _ _ fun _ => ⟨⟨rfl, rfl, rfl, rfl, rfl, rfl⟩, rfl, rfl, rfl⟩) fun _ => Within.pure _

end Slices

theorem sweepSignal_within {applies : RunRow → Bool} {signal : RunSignal} {args : SignalArgs} :
    Within R (sweepRun runId applies () fun _ _ => decideAndWrite env runId signal args) :=
  sweepRun_within fun _ _ => hR.decides _ _ _

theorem reclaimExpiredLease_within : Within R (reclaimExpiredLease env runId) :=
  sweepRun_within fun _ _ => Within.bind (hR.lease _) fun _ => hR.decides _ _ _

theorem tellInterruptedRound_within {run : RunRow} :
    Within R (tellInterruptedRound runId run) := by
  unfold tellInterruptedRound
  split
  · exact Within.pure _
  · refine Within.bind (Within.fetch _ _) fun told => Within.bind (appendMessages_within hR.message) fun _ => ?_
    exact Within.bind (hR.row _ _ fun _ => ⟨⟨rfl, rfl, rfl, rfl, rfl, rfl⟩, rfl, rfl, rfl⟩) fun _ => Within.pure _

theorem recoverInterrupted_within {maxAttempts : Nat} :
    Within R (recoverInterrupted env runId maxAttempts) := by
  refine sweepRun_within fun run session => Within.bind Within.get fun s => ?_
  split
  · exact Within.pure _
  refine Within.bind (Within.ite (fun _ => tellInterruptedRound_within hR) fun _ => Within.pure _) fun told => ?_
  refine Within.bind (Within.fetch _ _) fun current => Within.bind (hR.row _ _ fun r => ?_) fun _ => ?_
  · unfold attempted
    split <;> exact ⟨⟨rfl, rfl, rfl, rfl, rfl, rfl⟩, rfl, rfl, rfl⟩
  · exact Within.bind (hR.decides _ _ _) fun _ => Within.bind (Within.fetch _ _) fun _ => Within.pure _

theorem cancelChild_within {reason : String} : Within R (cancelChild env runId reason) :=
  sweepSignal_within hR

theorem wakeParent_within (hmarks : Marks env R) {parent : RunRow} {policy : WaitPolicy}
    {finished succeeded : List Uuid} : Within R (wakeParent env parentRunId parent policy finished succeeded) :=
  Within.bind (deliverChildResults_within hR.toAround hmarks) fun _ => Within.bind (hR.decides _ _ _) fun _ => Within.pure _

theorem settleChildWait_within (hmarks : Marks env R) : Within R (settleChildWait env parentRunId) := by
  refine sweepRun_within fun parent _ => Within.bind Within.get fun s => ?_
  refine Within.ite (fun _ => Within.pure _) fun _ => Within.ite (fun _ => ?_) fun _ => ?_
  · refine Within.bind (Within.forEach _ fun _ _ => cancelChild_within hR) fun _ => ?_
    exact Within.bind Within.get fun _ => wakeParent_within hR hmarks
  · exact Within.ite (fun _ => Within.pure _) fun _ => wakeParent_within hR hmarks

theorem cascadeCancelChildren_within :
    Within R (cascadeCancelChildren env parentRunId) := by
  refine Within.bind Within.get fun s => ?_
  split
  · exact Within.pure _
  · exact Within.forEach _ fun _ _ => cancelChild_within hR

end Rows

def admits : Op → Bool
  | .acceptRun .. | .deriveRetry .. | .delegateChildren .. => true
  | _ => false

def files : Op → Bool
  | .acceptRun .. | .deriveRetry .. => true
  | _ => false

def bills : Op → Bool
  | .acceptRun .. | .deriveRetry .. | .widenBudget .. | .reserveToolCall .. | .reserveOutsideCall .. => true
  | .recordSlice .. | .recordRound .. | .commitCheckpoint .. => true
  | _ => false

def marks : Op → Bool
  | .settleChildWait _ => true
  | _ => false

theorem op_within (hR : Rows env R) {op : Op} (hjoins : admits op = true → Joins env R) (hfiles : files op = true → Files R)
    (hbills : bills op = true → Bills R) (hmarks : marks op = true → Marks env R) : Within R (exec env op) := by
  cases op with
  | createSession => exact Within.bind (createSession_within hR.toAround) fun _ => Within.pure _
  | acceptRun =>
    exact Within.bind (acceptRun_within hR.toAround (hjoins rfl) (hfiles rfl) (hbills rfl)) fun _ => Within.pure _
  | deriveRetry =>
    exact Within.bind (deriveRetry_within hR.toAround (hjoins rfl) (hfiles rfl) (hbills rfl)) fun _ => Within.pure _
  | delegateChildren => exact Within.bind (delegateChildren_within hR.toAround (hjoins rfl)) fun _ => Within.pure _
  | claimHead => exact Within.bind (hR.claims _ _) fun _ => Within.pure _
  | applySignal => exact Within.bind (applySignal_within hR) fun _ => Within.pure _
  | controlRun => exact Within.bind (controlRun_within hR) fun _ => Within.pure _
  | widenBudget => exact Within.bind (widenBudget_within (hbills rfl)) fun _ => Within.pure _
  | renewLease => exact Within.bind (renewLease_within hR) fun _ => Within.pure _
  | reserveToolCall => exact Within.bind (chargeToolCall_within (hbills rfl)) fun _ => Within.pure _
  | reserveOutsideCall => exact Within.bind (reserveOutsideCall_within hR (hbills rfl)) fun _ => Within.pure _
  | recordSlice => exact Within.bind (recordSlice_within hR (hbills rfl)) fun _ => Within.pure _
  | recordRound => exact Within.bind (recordRound_within hR (hbills rfl)) fun _ => Within.pure _
  | commitCheckpoint => exact Within.bind (commitCheckpoint_within hR (hbills rfl)) fun _ => Within.pure _
  | reclaimExpiredLease => exact Within.bind (reclaimExpiredLease_within hR) fun _ => Within.pure _
  | recoverInterrupted => exact Within.bind (recoverInterrupted_within hR) fun _ => Within.pure _
  | wakeExternalWait => exact Within.bind (sweepSignal_within hR) fun _ => Within.pure _
  | timeOutExternalWait => exact Within.bind (sweepSignal_within hR) fun _ => Within.pure _
  | expireApproval => exact Within.bind (sweepSignal_within hR) fun _ => Within.pure _
  | cancelAgedCompatTimeout => exact Within.bind (sweepSignal_within hR) fun _ => Within.pure _
  | settleChildWait => exact Within.bind (settleChildWait_within hR (hmarks rfl)) fun _ => Within.pure _
  | cascadeCancelChildren => exact Within.bind (cascadeCancelChildren_within hR) fun _ => Within.pure _
  | repairSessionHead => exact Within.bind (hR.repairs _) fun _ => Within.pure _

section Closed
variable (hR : Closed R)
include hR

section Statements
omit [Std.Refl R] [IsTrans Store R]

theorem write_within {f : Store → Store} (hruns : ∀ s, (f s).runs = s.runs) (hsessions : ∀ s, (f s).sessions = s.sessions) :
    Within R (Tx.write f : StoreTx Unit) :=
  Within.write fun s => hR.aside s (f s) (hruns s) (hsessions s)

theorem modifyRun_within {f : RunRow → RunRow} (h : ∀ r : RunRow, r.InPlace (f r)) :
    Within R (modifyRun runId f) :=
  Within.write fun s => hR.run s runId f fun r _ => h r

theorem modifySession_within {f : SessionRow → SessionRow} (h : ∀ r : SessionRow, r.InPlace (f r)) :
    Within R (modifySession sessionId f) :=
  Within.write fun s => hR.session s sessionId f h

theorem grantArtifact_within {artifactId : Uuid} : Within R (grantArtifact artifactId runId) := by
  refine write_within hR (fun s => ?_) fun s => ?_ <;> split <;> rfl

end Statements

theorem mint_within {id : Uuid} : Within R (mint id) :=
  Within.bind Within.get fun _ => Within.bind (Within.require _ _) fun _ => write_within hR (fun _ => rfl) fun _ => rfl

theorem appendEvents_within {events : List ReservedEvent} :
    Within R (appendEvents env workspaceId runId events) := by
  refine Within.ite (fun _ => Within.pure _) fun _ => Within.bind (Within.fetch _ _) fun run => ?_
  refine Within.bind (modifyRun_within hR fun _ => ⟨rfl, rfl, rfl, rfl, rfl, rfl⟩) fun _ => ?_
  exact write_within hR (fun _ => rfl) fun _ => rfl

theorem appendMessage_within {message : CanonicalMessage} :
    Within R (appendMessage sessionId runId message) := by
  refine Within.bind (Within.fetch _ _) fun _ => Within.bind (write_within hR (fun _ => rfl) fun _ => rfl) fun _ => ?_
  exact modifySession_within hR fun _ => ⟨rfl, rfl, rfl, rfl⟩

theorem claimHead_within {cmd : ClaimRunCommand} {leaseId : Uuid} : Within R (claimHead env cmd leaseId) := by
  intro s _ _ h
  rcases claimHead_spec h with ⟨_, rfl⟩ | ⟨runId, run, _, d, _, _, _, _, _, _, _, hrun, _, _, hd, _,
    rfl, rfl, hev⟩
  · exact Std.Refl.refl _
  refine IsTrans.trans _ _ _ ?_ (appendEvents_within hR hev)
  obtain ⟨hqueued, hrunning⟩ := decide_leaseAcquired hd
  have hplace : ∀ r, s.runs.lookup runId = some r → r.InPlace (claimedRow d env.now r) := by
    intro _ hr
    cases hrun.symm.trans hr
    have hstatus : run.status = .queued := hqueued
    refine ⟨rfl, rfl, rfl, rfl, ?_, ?_⟩
    · simp [claimedRow, applyDecision, StateDecision.isTerminal, hrunning, RunState.isTerminal]
    · simp [claimedRow, applyDecision, hrunning, hstatus, RunState.isTerminal]
  have hmoved := hR.run s runId (claimedRow d env.now) hplace
  exact IsTrans.trans _ _ _ hmoved (hR.aside _ _ rfl rfl)

theorem closed_rows : Rows env R where
  mints _ := mint_within hR
  opens := hR.opens
  message _ _ _ := appendMessage_within hR
  events _ _ _ := appendEvents_within hR
  grants _ _ := grantArtifact_within hR
  row _ _ h := modifyRun_within hR fun r => (h r).toInPlace
  session _ _ := modifySession_within hR
  lease _ := write_within hR (fun _ => rfl) fun _ => rfl
  decides := hR.decides env
  claims _ _ := claimHead_within hR
  repairs := hR.repairs env

theorem exec_within (op : Op) : Within R (exec env op) := by
  refine op_within (closed_rows hR) (fun _ sessionId runId row hrow => ?_) (fun _ f => ?_) (fun _ f => ?_) fun _ runId => ?_
  · exact hR.joins sessionId runId row (by cases hrow <;> rfl)
  · exact write_within hR (fun _ => rfl) fun _ => rfl
  · exact write_within hR (fun _ => rfl) fun _ => rfl
  · exact modifyRun_within hR fun _ => ⟨rfl, rfl, rfl, rfl, rfl, rfl⟩

end Closed

end Operations
end TinyHermes.Runs
