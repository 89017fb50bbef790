import Mathlib

/-! The vocabulary of `runs/domain/models.py`: states, signals, messages and the shared budget. -/
namespace TinyHermes.Runs

/-- Database ids. A `uuid4` draw is an explicit input of the operation that makes it. -/
abbrev Uuid := Nat

/-- UTC instants in microseconds, the resolution of `datetime`. -/
abbrev Time := Int

instance : Preorder Time := Int.instLinearOrder.toPreorder

def seconds (n : Int) : Int := n * 1000000

inductive RunState where
  | queued | running | waitingApproval | waitingExternal | paused
  | cancelling | interrupted | completed | failed | cancelled
  deriving DecidableEq, Repr

def RunState.isTerminal : RunState → Bool
  | .completed | .failed | .cancelled => true
  | _ => false

inductive PauseReason where
  | manual | limit | contextOverflow | toolBudgetExceeded | compatTimeout | operator | system
  | approvalExpired | approvalRejected | approvalUnavailable | externalTimeout
  deriving DecidableEq, Repr

inductive RunSignal where
  | leaseAcquired | sliceEnded | pauseRequested | resumeRequested | cancelRequested
  | safePauseReached | safeCancelStarted | safeCancelFinished
  | approvalRequested | approvalApproved | approvalPaused
  | externalWaitStarted | externalReady | externalPaused
  | completed | failed | interrupted | recoveryApproved | recoveryFailed | limitCleanupConfirmed
  deriving DecidableEq, Repr

inductive RunPurpose where
  | answer | compaction
  deriving DecidableEq, Repr

inductive SessionMode where
  | ephemeral | persistent
  deriving DecidableEq, Repr

inductive DeliveryMode where
  | chatCompletions
  deriving DecidableEq, Repr

inductive CallerType where
  | user | serviceAccount | endUser
  deriving DecidableEq, Repr

inductive CheckpointEffectStatus where
  | none | confirmed | unknown
  deriving DecidableEq, Repr

/-- Where a Run lands once its sandbox and volume are confirmed gone. -/
inductive WorkspaceCleanupTarget where
  | pausedLimit | queued | failedConflict
  deriving DecidableEq, Repr

inductive WaitPolicy where
  | all | any
  deriving DecidableEq, Repr

structure CallerIdentity where
  callerType : CallerType
  callerId : Uuid
  deriving DecidableEq, Repr

/-- Everything the state machine is allowed to look at. -/
structure RunStateView where
  state : RunState
  pauseRequested : Bool := false
  cancelRequested : Bool := false
  budgetAllowsExecution : Bool := true
  deriving DecidableEq, Repr

structure StateDecision where
  state : RunState
  signal : RunSignal
  pauseReason : Option PauseReason := none
  waitKind : Option String := none
  waitDeadlineAt : Option Time := none
  setPauseRequested : Bool := false
  setCancelRequested : Bool := false
  clearPauseRequest : Bool := false
  clearCancelRequest : Bool := false
  startsExecution : Bool := false
  deriving DecidableEq, Repr

def StateDecision.isTerminal (d : StateDecision) : Bool := d.state.isTerminal

/-- The model asking for a tool. `arguments` is the decoded object's JSON text. -/
structure ToolCallBlock where
  callId : String
  name : String
  arguments : String
  callId_ne : callId ≠ ""
  name_ne : name ≠ ""
  deriving DecidableEq

structure ToolResultBlock where
  callId : String
  output : String
  exitCode : Int
  failed : Bool
  callId_ne : callId ≠ ""
  deriving DecidableEq

inductive Block where
  | text (text : String)
  | reasoning (text : String)
  | image (reference mediaType : String)
  | file (reference name : String)
  | toolCall (call : ToolCallBlock)
  | toolResult (result : ToolResultBlock)
  deriving DecidableEq

inductive Role where
  | user | assistant | tool
  deriving DecidableEq, Repr

/-- One turn of a conversation. An empty turn cannot be built, as in `__post_init__`. -/
structure CanonicalMessage where
  role : Role
  blocks : List Block
  byPlatform : Bool := false
  blocks_ne : blocks ≠ []
  deriving DecidableEq

def Block.call? : Block → Option ToolCallBlock
  | .toolCall call => some call
  | _ => none

def Block.result? : Block → Option ToolResultBlock
  | .toolResult result => some result
  | _ => none

theorem text_alone_ne (text : String) : [Block.text text] ≠ [] := List.cons_ne_nil _ _

def CanonicalMessage.calls (m : CanonicalMessage) : List ToolCallBlock := m.blocks.filterMap Block.call?

def CanonicalMessage.results (m : CanonicalMessage) : List ToolResultBlock := m.blocks.filterMap Block.result?

def CanonicalMessage.text (m : CanonicalMessage) : String :=
  String.join (m.blocks.filterMap fun | .text t => some t | _ => none)

/-- The counters of one budget scope that the execution valve reads. -/
structure BudgetSummary where
  maxExecutionSeconds : Nat
  consumedExecutionMs : Nat
  elapsedDeadlineAt : Time
  maxModelCalls : Nat
  consumedModelCalls : Nat
  maxTokens : Option Nat
  consumedTokens : Nat
  deriving DecidableEq, Repr

def BudgetSummary.allowsExecution (b : BudgetSummary) (now : Time) : Bool :=
  if now ≥ b.elapsedDeadlineAt then false
  else if b.consumedModelCalls ≥ b.maxModelCalls then false
  else if b.consumedExecutionMs ≥ b.maxExecutionSeconds * 1000 then false
  else match b.maxTokens with
    | some cap => !decide (b.consumedTokens ≥ cap)
    | none => true

end TinyHermes.Runs
