import TinyHermes.Runs.Operations

/-! Idempotency records: the two requests that write them, and everything else, which leaves them as they are. -/
namespace TinyHermes.Runs.KeyRecords
open Lib Tx SqlRunStore Interruption

def recorded (s : Store) (scope : IdempotencyScope) : Option (String × Option Uuid) :=
  (s.records.lookup scope).map fun row => (row.requestFingerprint, row.runId)

theorem recorded_eq_none {s : Store} {scope : IdempotencyScope} : recorded s scope = none ↔ s.records.lookup scope = none := by
  rw [recorded, Option.map_eq_none_iff]

abbrev SameRecords : Store → Store → Prop := Same recorded

variable {sessionId : Uuid}

section Statements
variable {env : Env}

theorem SameRecords.of_records {s s' : Store} (h : s'.records = s.records) : SameRecords s s' := by
  funext scope
  rw [recorded, recorded, h]

theorem write_records {f : Store → Store} (h : ∀ s, (f s).records = s.records) :
    Within SameRecords (Tx.write f : StoreTx Unit) :=
  Within.write fun s => .of_records (h s)

variable {runId : Uuid}

theorem modifyRun_records {f : RunRow → RunRow} : Within SameRecords (modifyRun runId f) :=
  write_records fun _ => rfl

theorem modifySession_records {f : SessionRow → SessionRow} :
    Within SameRecords (modifySession sessionId f) :=
  write_records fun _ => rfl

theorem mint_records {id : Uuid} : Within SameRecords (mint id) :=
  Within.bind Within.get fun _ => Within.bind (Within.require _ _) fun _ => write_records fun _ => rfl

theorem insertSession_records {row : SessionRow} :
    Within SameRecords (insertSession sessionId row) :=
  Within.bind Within.get fun _ => Within.bind (Within.require _ _) fun _ => write_records fun _ => rfl

theorem joinSession_records {row : RunRow} :
    Within SameRecords (joinSession sessionId runId row) := by
  refine Within.bind (Within.fetch _ _) fun session => Within.bind (Within.require _ _) fun _ => ?_
  refine Within.bind ?_ fun _ => modifySession_records
  exact Within.bind Within.get fun _ => Within.bind (Within.require _ _) fun _ => write_records fun _ => rfl

theorem appendEvents_records {workspaceId : Uuid} {events : List ReservedEvent} :
    Within SameRecords (appendEvents env workspaceId runId events) := by
  refine Within.ite (fun _ => Within.pure _) fun _ => Within.bind (Within.fetch _ _) fun run => ?_
  exact Within.bind modifyRun_records fun _ => write_records fun _ => rfl

theorem appendMessage_records {message : CanonicalMessage} :
    Within SameRecords (appendMessage sessionId runId message) :=
  Within.bind (Within.fetch _ _) fun _ => Within.bind (write_records fun _ => rfl) fun _ => modifySession_records

theorem appendMessages_records {messages : List CanonicalMessage} :
    Within SameRecords (appendMessages sessionId runId messages) :=
  Within.forEach _ fun _ _ => appendMessage_records

theorem grantArtifact_records {artifactId : Uuid} : Within SameRecords (grantArtifact artifactId runId) := by
  apply write_records
  intro _
  split <;> rfl

theorem passHead_records {successor : Option Uuid} :
    Within SameRecords (passHead env sessionId runId successor) := by
  refine Within.bind modifySession_records fun _ => ?_
  refine Within.bind (Within.forEach _ fun _ _ => modifyRun_records) fun _ => ?_
  exact write_records fun _ => rfl

theorem terminalize_records : Within SameRecords (terminalize env runId) := by
  refine Within.bind (Within.fetch _ _) fun run => Within.bind Within.get fun s => ?_
  refine Within.bind modifyRun_records fun _ => Within.bind (Within.write fun s => ?_) fun _ => ?_
  · funext scope
    simp only [recorded, Table.lookup_mapRows, Option.map_map]
    congr 1
    funext row
    simp only [Function.comp_apply]
    split <;> rfl
  · refine Within.bind (Within.fetch _ _) fun session => Within.ite (fun _ => Within.pure _) fun _ => ?_
    exact Within.bind Within.get fun _ => passHead_records

theorem decideAndWrite_records {signal : RunSignal} {args : SignalArgs} :
    Within SameRecords (decideAndWrite env runId signal args) := by
  refine Within.bind (Within.fetch _ _) fun run => Within.bind (Within.fetch _ _) fun budget => ?_
  refine Within.bind (Within.lift _) fun d => Within.bind modifyRun_records fun _ => ?_
  exact Within.bind (Within.onlyIf fun _ => terminalize_records) fun _ => appendEvents_records

end Statements

section Operations
variable {env : Env}

theorem claimHead_records {cmd : ClaimRunCommand} {leaseId : Uuid} :
    Within SameRecords (claimHead env cmd leaseId) := by
  intro _ _ _ h
  rcases claimHead_spec h with ⟨_, rfl⟩ | ⟨_, _, _, _, _, _, _, _, _, _, _, _, _, _, _, _,
    rfl, rfl, hev⟩
  · exact Std.Refl.refl _
  · refine IsTrans.trans _ _ _ ?_ (appendEvents_records hev)
    exact SameRecords.of_records rfl

theorem repairSessionHead_records : Within SameRecords (repairSessionHead env sessionId) := by
  refine Within.bind (Within.fetch _ _) fun session => Within.bind Within.get fun s => ?_
  refine Within.ite (fun _ => Within.pure _) fun _ => ?_
  refine Within.bind (Within.forEach _ fun _ _ => modifyRun_records) fun _ => ?_
  refine Within.bind modifySession_records fun _ => ?_
  exact Within.bind (Within.forEach _ fun _ _ => appendEvents_records) fun _ => Within.pure _

theorem rows_records : Operations.Rows env SameRecords where
  mints _ := mint_records
  opens _ _ _ _ := insertSession_records
  message _ _ _ := appendMessage_records
  events _ _ _ := appendEvents_records
  grants _ _ := grantArtifact_records
  row _ _ _ := modifyRun_records
  session _ _ _ := modifySession_records
  lease _ := write_records fun _ => rfl
  decides _ _ _ := decideAndWrite_records
  claims _ _ := claimHead_records
  repairs _ := repairSessionHead_records

def submits : Op → Bool
  | .acceptRun _ _ | .deriveRetry _ _ => true
  | _ => false

theorem exec_records {op : Op} (hop : submits op = false) : Within SameRecords (exec env op) := by
  refine Operations.op_within rows_records (fun _ _ _ _ _ => joinSession_records) (fun hfiles => ?_)
    (fun _ _ => write_records fun _ => rfl) fun _ _ => modifyRun_records
  have hsame : Operations.files op = submits op := by cases op <;> rfl
  rw [hsame, hop] at hfiles
  cases hfiles

end Operations

end TinyHermes.Runs.KeyRecords
