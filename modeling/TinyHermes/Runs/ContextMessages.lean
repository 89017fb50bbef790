import TinyHermes.Runs.Models

/-! The messages one round is planned over, what they cost, and the ways the platform shortens them. -/
namespace TinyHermes.Runs.ContextBudget

/-- A value of a call's arguments: a string, or anything else as `str` shows it. -/
inductive Argument where
  | string (value : String)
  | other (shown : String)
  deriving DecidableEq

/-- A call with its arguments decoded, in the order they were written. -/
structure ToolCallBlock where
  callId : String
  name : String
  arguments : List (String × Argument)
  callId_ne : callId ≠ ""
  name_ne : name ≠ ""

theorem ToolCallBlock.fields_eq_iff {a b : ToolCallBlock} :
    (a.callId, a.name, a.arguments) = (b.callId, b.name, b.arguments) ↔ a = b := by
  cases a
  cases b
  simp

instance : DecidableEq ToolCallBlock := fun _ _ => decidable_of_iff _ ToolCallBlock.fields_eq_iff

inductive Block where
  | text (text : String)
  | reasoning (text : String)
  | image (reference mediaType : String)
  | file (reference name : String)
  | toolCall (call : ToolCallBlock)
  | toolResult (result : ToolResultBlock)
  deriving DecidableEq

def Block.call? : Block → Option ToolCallBlock
  | .toolCall call => some call
  | _ => none

def Block.result? : Block → Option ToolResultBlock
  | .toolResult result => some result
  | _ => none

structure CanonicalMessage where
  role : Role
  blocks : List Block
  byPlatform : Bool := false
  blocks_ne : blocks ≠ []
  deriving DecidableEq

namespace CanonicalMessage

def calls (m : CanonicalMessage) : List ToolCallBlock := m.blocks.filterMap Block.call?

def results (m : CanonicalMessage) : List ToolResultBlock := m.blocks.filterMap Block.result?

def mapBlocks (f : Block → Block) (m : CanonicalMessage) : CanonicalMessage where
  role := m.role
  blocks := m.blocks.map f
  byPlatform := m.byPlatform
  blocks_ne := by simpa using m.blocks_ne

end CanonicalMessage

structure StoredMessage where
  id : Uuid
  sequence : Nat
  message : CanonicalMessage

/-- How one endpoint counts: `estimate_tokens` with its tokenizer, and `str` of a call's arguments. -/
structure Estimator where
  tokens : String → Nat
  shown : List (String × Argument) → String

/-- `MESSAGE_OVERHEAD_TOKENS`. -/
def messageOverhead : Int := 4

def imageTokens : Int := 384

/-- `RETAINED_TAIL_TOKENS`. -/
def retainedTail : Int := 20000

/-- `TOOL_RESULT_MAX_CHARS`, `TOOL_RESULT_HEAD_CHARS`, `TOOL_RESULT_TAIL_CHARS`. -/
def toolResultMax : Nat := 30000

def toolResultHead : Nat := 20000

def toolResultTail : Nat := 5000

/-- `PRUNE_MIN_RESULT_CHARS`. -/
def pruneMinResult : Nat := 8000

/-- `PRUNE_HEAD_CHARS`. -/
def pruneHead : Nat := 1500

/-- `PRUNE_MIN_RECLAIM_TOKENS`. -/
def pruneMinReclaim : Int := 4096

/-- `MIN_COMPACTION_GAIN_TOKENS`. -/
def minCompactionGain : Int := 4096

def takeChars (n : Nat) (s : String) : String := String.ofList (s.toList.take n)

def lastChars (n : Nat) (s : String) : String := String.ofList (s.toList.drop (s.length - n))

section Estimates
variable (est : Estimator)

def blockEstimate : Block → Int
  | .text text | .reasoning text => est.tokens text
  | .toolCall call => est.tokens (call.name ++ est.shown call.arguments)
  | .toolResult result => est.tokens result.output
  | .file _ name => est.tokens name
  | .image _ _ => imageTokens

/-- `_message_estimate`. -/
def messageEstimate (m : CanonicalMessage) : Int := messageOverhead + (m.blocks.map (blockEstimate est)).sum

/-- `_estimate`. -/
def estimate (messages : List CanonicalMessage) : Int := (messages.map (messageEstimate est)).sum

def schemaEstimate (schemas : List String) : Int := (schemas.map fun s => (est.tokens s : Int)).sum

/-- `_arguments_estimate`: only the string values are counted, as only they are cut. -/
def argumentsEstimate (call : ToolCallBlock) : Int :=
  (call.arguments.map fun e => match e.2 with
    | .string value => (est.tokens value : Int)
    | .other _ => 0).sum

end Estimates

section Shortened

/-- A cleared tool result: the same call, its head, and how much went. -/
def stub (head : Nat) (fullLength : Option Nat) (block : ToolResultBlock) : ToolResultBlock :=
  { block with
    output := takeChars head block.output ++
      s!"\n[…trimmed by the platform: {fullLength.getD block.output.length} characters in full, kept in the session transcript under call_id {block.callId}.]" }

/-- Its beginning and its end, with one line for what is between. -/
def capped (block : ToolResultBlock) : ToolResultBlock :=
  { block with
    output := takeChars toolResultHead block.output ++
      s!"\n[…{block.output.length - toolResultHead - toolResultTail} characters omitted by the platform: {block.output.length} characters in full, kept in the session transcript under call_id {block.callId}.]\n" ++
      lastChars toolResultTail block.output }

def backReference (callId : String) (block : ToolResultBlock) : ToolResultBlock :=
  { block with output := s!"[identical to the output of call_id {callId}, which appears later in this request.]" }

def truncatedValue (callId : String) : Argument → Argument
  | .string value =>
    if value.length > pruneMinResult then
      .string (takeChars pruneMinResult value ++
        s!"[…truncated by the platform: {value.length} characters in full, kept in the session transcript under call_id {callId}.]")
    else .string value
  | .other shown => .other shown

def Argument.isLong : Argument → Bool
  | .string value => value.length > pruneMinResult
  | .other _ => false

/-- `_truncated_arguments`: the values are cut, the keys stay. -/
def truncatedArguments (block : ToolCallBlock) : Option ToolCallBlock :=
  if block.arguments.any fun e => e.2.isLong then
    some { block with arguments := block.arguments.map fun e => (e.1, truncatedValue block.callId e.2) }
  else none

end Shortened

def historyCalls (history : List StoredMessage) : List ToolCallBlock := history.flatMap fun item => item.message.calls

def historyResults (history : List StoredMessage) : List ToolResultBlock := history.flatMap fun item => item.message.results

/-- `_tool_names`: the name of the tool a call id asked for, by the latest call of that id. -/
def toolNames (history : List StoredMessage) (callId : String) : Option String :=
  ((historyCalls history).reverse.find? fun call => call.callId = callId).map (·.name)

/-- `full_lengths`. -/
def fullLengths (history : List StoredMessage) (callId : String) : Option Nat :=
  ((historyResults history).reverse.find? fun result => result.callId = callId).map (·.output.length)

/-- What shortening reads of the round: the tools' names, the tools it leaves alone, and the full lengths. -/
structure Trimming where
  names : String → Option String
  untrimmed : List String
  fullLengths : String → Option Nat

def Trimming.exempt (t : Trimming) (callId : String) : Bool := (t.names callId).any fun name => name ∈ t.untrimmed

structure Replacement where
  block : Block
  freed : Int
  callId : String

structure Tally where
  freed : Int := 0
  references : List String := []

def Tally.add (t : Tally) (r : Replacement) : Tally where
  freed := t.freed + r.freed
  references := t.references ++ [r.callId]

/-- One pass over a message: the blocks that `f` replaces, replaced. -/
def rewriteBlocks (f : Block → Option Replacement) (m : CanonicalMessage) : CanonicalMessage :=
  m.mapBlocks fun b => ((f b).map (·.block)).getD b

def tallyBlocks (f : Block → Option Replacement) (m : CanonicalMessage) (t : Tally) : Tally :=
  (m.blocks.filterMap f).foldl Tally.add t

/-- `_cap_message`. -/
def capMessage (t : Trimming) (m : CanonicalMessage) : CanonicalMessage :=
  if m.role ≠ .tool then m
  else m.mapBlocks fun
    | .toolResult result =>
      if result.output.length > toolResultMax ∧ t.exempt result.callId = false then .toolResult (capped result)
      else .toolResult result
    | b => b

section Passes
variable (est : Estimator)

def replaceResult (result shorter : ToolResultBlock) : Option Replacement :=
  if shorter.output.length < result.output.length then
    some
      { block := .toolResult shorter
        freed := est.tokens result.output - est.tokens shorter.output
        callId := result.callId }
  else none

/-- `kept_outputs`: the first call in the retained tail that gave this very output. -/
def keptOutputs (tail : List CanonicalMessage) (output : String) : Option String :=
  ((tail.flatMap CanonicalMessage.results).find? fun result => result.output ≠ "" && result.output = output).map (·.callId)

/-- The first pass: an old copy of what the retained tail has word for word refers to it. -/
def dedupe (tail : List CanonicalMessage) : Block → Option Replacement
  | .toolResult result => (keptOutputs tail result.output).bind fun callId => replaceResult est result (backReference callId result)
  | _ => none

/-- The second pass: a large old result keeps its head. -/
def prune (t : Trimming) : Block → Option Replacement
  | .toolResult result =>
    if result.output.length > pruneMinResult ∧ t.exempt result.callId = false then
      replaceResult est result (stub pruneHead (t.fullLengths result.callId) result)
    else none
  | _ => none

/-- The third pass: large arguments of old calls are cut. -/
def shortenCall : Block → Option Replacement
  | .toolCall call => (truncatedArguments call).map fun shortened =>
    { block := .toolCall shortened
      freed := argumentsEstimate est call - argumentsEstimate est shortened
      callId := call.callId }
  | _ => none

/-- One pass of `_clean` over the messages before `stop`. -/
def cleanPass (role : Role) (f : Block → Option Replacement) (stop : Nat) (messages : List CanonicalMessage) :
    List CanonicalMessage :=
  (messages.take stop).map (fun m => if m.role = role then rewriteBlocks f m else m) ++ messages.drop stop

def tallyPass (role : Role) (f : Block → Option Replacement) (stop : Nat) (messages : List CanonicalMessage) (t : Tally) :
    Tally :=
  (messages.take stop).foldl (fun t m => if m.role = role then tallyBlocks f m t else t) t

/-- `_clean`: the messages after its three passes, and what they freed. -/
def clean (t : Trimming) (stop : Nat) (messages : List CanonicalMessage) : List CanonicalMessage × Tally :=
  let first := cleanPass .tool (dedupe est (messages.drop stop)) stop messages
  let second := cleanPass .tool (prune est t) stop first
  let third := cleanPass .assistant (shortenCall est) stop second
  (third,
    tallyPass .assistant (shortenCall est) stop second
      (tallyPass .tool (prune est t) stop first
        (tallyPass .tool (dedupe est (messages.drop stop)) stop messages {})))

def rescueBlock (t : Trimming) (exemptPass : Bool) : Block → Option Replacement
  | .toolResult result =>
    if t.exempt result.callId = exemptPass then
      replaceResult est result (stub 0 (t.fullLengths result.callId) result)
    else none
  | _ => none

/-- One pass of `_rescue`, oldest first, until the round fits. -/
def rescuePass (t : Trimming) (exemptPass : Bool) (spent allowance : Int) :
    List CanonicalMessage → Tally → List CanonicalMessage × Tally
  | [], tally => ([], tally)
  | m :: rest, tally =>
    if spent - tally.freed ≤ allowance then (m :: rest, tally)
    else if m.role ≠ .tool then
      let (rest, tally) := rescuePass t exemptPass spent allowance rest tally
      (m :: rest, tally)
    else
      let (rest, after) := rescuePass t exemptPass spent allowance rest (tallyBlocks (rescueBlock est t exemptPass) m tally)
      (rewriteBlocks (rescueBlock est t exemptPass) m :: rest, after)

end Passes

end TinyHermes.Runs.ContextBudget
