import TinyHermes.Runs.SlicePolicy
import TinyHermes.Runs.Transactions

/-! The Worker's two ways of recording a round: in one transaction, or with the workspace revision the
round wrote and its signal afterwards. -/
namespace TinyHermes.Runs.Worker
open Lib SqlRunStore SlicePolicy

/-- What a round leaves to be recorded, whichever way it is. Its events tell of calls, the model and the
verdict; the limit has an event of its own. -/
structure Round where
  workspaceId : Uuid
  runId : Uuid
  leaseId : Uuid
  expectedStateVersion : Nat
  checkpoint : Checkpoint := {}
  replaySafe : Bool := true
  effectStatus : CheckpointEffectStatus := .none
  executedMs : Nat := 0
  modelCalls : Nat := 0
  tokens : Nat := 0
  cost : Option Cost := none
  appended : List CanonicalMessage := []
  events : List ReservedEvent := []
  no_limit : ∀ e ∈ events, e.eventType ≠ .runLimitReached

theorem no_events : ∀ e ∈ ([] : List ReservedEvent), e.eventType ≠ .runLimitReached := by simp

/-- `_slice_command`. -/
def sliceCommand (round : Round) (decision : SliceDecision) : RecordSliceCommand where
  workspaceId := round.workspaceId
  runId := round.runId
  leaseId := round.leaseId
  expectedStateVersion := round.expectedStateVersion
  signal := decision.signal
  pauseReason := decision.pauseReason
  limitReached := decision.limitReached
  limitValve := decision.limitValve
  waitKind := decision.waitKind
  waitSeconds := decision.waitSeconds
  waitPolicy := decision.waitPolicy
  retryAfterSeconds := decision.retryAfterSeconds
  checkpoint := round.checkpoint
  checkpointReplaySafe := round.replaySafe
  checkpointEffectStatus := round.effectStatus
  executedMs := round.executedMs
  modelCalls := round.modelCalls
  tokens := round.tokens
  cost := round.cost
  appended := round.appended
  events := round.events

/-- `_record`: the whole decision in one transaction. -/
def record (env : Env) (round : Round) (decision : SliceDecision) (s : Store) : Store :=
  Tx.commit (recordRound env (sliceCommand round decision)) s

/-- The decision `_checkpoint_round` commits the revision with: no signal yet. -/
def interim (decision : SliceDecision) : SliceDecision :=
  { signal := none, limitReached := decision.limitReached, limitValve := decision.limitValve }

def checkpointOf (round : Round) (decision : SliceDecision) (sessionId : Uuid) (base : Option Uuid) (revision : Uuid) :
    CommitCheckpoint where
  workspaceId := round.workspaceId
  sessionId := sessionId
  baseRevisionId := base
  revisionId := revision
  slice := sliceCommand round (interim decision)

/-- `_apply`: a signal in a transaction of its own, under no lease and no version. -/
def apply (env : Env) (round : Round) (signal : RunSignal) (pauseReason : Option PauseReason := none) : StoreTx Unit :=
  applySignal env { workspaceId := round.workspaceId, runId := round.runId, signal, pauseReason }

/-- `_dispose_after_commit`, once the sandbox is kept or gone: the round's real signal. A signal that is
refused leaves the commit as it is. -/
def disposeAfterCommit (env : Env) (round : Round) (decision : SliceDecision) (s : Store) : Store :=
  match decision.signal with
  | none => s
  | some signal =>
    match apply env round signal decision.pauseReason s with
    | .error _ => s
    | .ok (_, s') =>
      if signal = .safeCancelStarted then Tx.commit (apply env round .safeCancelFinished) s' else s'

end TinyHermes.Runs.Worker
