import TinyHermes.Lib.Cuts
import TinyHermes.Runs.ContextMessages

/-! What one round is allowed to send, decided before the call is made. -/
namespace TinyHermes.Runs.ContextBudget
open Lib

inductive SegmentName where
  | safetyRules | personality | skillSummaries | memory | toolSchemas | oldToolResults | recentHistory
  deriving DecidableEq, Repr

inductive Accounting where
  | shared | separate
  deriving DecidableEq, Repr

structure ContextWindow where
  contextWindow : Int
  reservedOutputTokens : Int
  accounting : Accounting := .shared

def ContextWindow.inputAllowance (w : ContextWindow) : Int :=
  match w.accounting with
  | .separate => w.contextWindow
  | .shared => max (w.contextWindow - w.reservedOutputTokens) 0

structure SkillSummary where
  name : String
  text : String
  loaded : Bool := false

structure TrimRecord where
  segment : SegmentName
  dropped : Nat
  freedEstimate : Int
  references : List String := []
  deriving DecidableEq

structure CompactionRecord where
  firstSequence : Nat
  lastSequence : Nat
  messageIds : List Uuid
  summary : String
  freedEstimate : Int
  deriving DecidableEq

inductive Skipped where
  | nothingOutsideTail | noGain | insufficientGain
  deriving DecidableEq, Repr

structure ContextPlan where
  messages : List CanonicalMessage
  fits : Bool
  inputEstimate : Int
  allowance : Int
  trimmed : List TrimRecord
  compacted : Option CompactionRecord := none
  skillSummaries : List String
  memories : List String
  checkpoint : Option Nat := none
  beforeCompactionEstimate : Option Int := none
  compactionSkipped : Option Skipped := none
  deriving DecidableEq

structure CoveredSummary where
  text : String
  lastSequence : Nat

section Segments
variable (est : Estimator)

def textsEstimate (texts : List String) : Int := (texts.map fun t => (est.tokens t : Int)).sum

def segmentEstimate (texts : List String) : Int := if texts = [] then 0 else messageOverhead + textsEstimate est texts

/-- `_summary_estimate`. -/
def summaryEstimate (summaries : List SkillSummary) : Int := segmentEstimate est (summaries.map (·.text))

/-- `_memory_estimate`. -/
def memoryEstimate (memories : List String) : Int := segmentEstimate est memories

/-- The loop of `_drop_unhit_summaries`, the last bound first: `earlier` are the entries before the index, newest
first, `later` what is left after it. -/
def dropUnhit (ceiling : Int) : List SkillSummary → List SkillSummary → List SkillSummary × List SkillSummary
  | [], later => (later, [])
  | s :: earlier, later =>
    if summaryEstimate est (earlier.reverse ++ s :: later) ≤ ceiling then (earlier.reverse ++ s :: later, [])
    else if s.loaded then dropUnhit ceiling earlier (s :: later)
    else
      let (kept, dropped) := dropUnhit ceiling earlier later
      (kept, s :: dropped)

/-- `_drop_unhit_summaries`. -/
def dropUnhitSummaries (ceiling : Int) (kept : List SkillSummary) : List SkillSummary × Option TrimRecord :=
  let (left, dropped) := dropUnhit est ceiling kept.reverse []
  (left,
    if dropped = [] then none
    else some
      { segment := .skillSummaries, dropped := dropped.length
        freedEstimate := textsEstimate est (dropped.map (·.text)), references := dropped.map (·.name) })

/-- The loop of `_trim_memories`, least relevant first. -/
def popMemories (ceiling : Int) : List String → List String × List String
  | [] => ([], [])
  | m :: earlier =>
    if ceiling < memoryEstimate est (m :: earlier).reverse then
      let (kept, dropped) := popMemories ceiling earlier
      (kept, m :: dropped)
    else ((m :: earlier).reverse, [])

/-- `_trim_memories`. -/
def trimMemories (ceiling : Int) (kept : List String) : List String × Option TrimRecord :=
  let (left, dropped) := popMemories est ceiling kept.reverse
  (left,
    if dropped = [] then none
    else some { segment := .memory, dropped := dropped.length, freedEstimate := textsEstimate est dropped })

end Segments

section Hints

def isHan (c : Char) : Bool := '\u4e00' ≤ c && c ≤ '\u9fff'

def isWord (c : Char) : Bool := c.isAlphanum || c = '_' || c = '-'

/-- The matches of `[\u4e00-\u9fff]{2,}`, cut into bigrams. -/
def hanBigrams : List Char → List String
  | a :: b :: rest =>
    if isHan a && isHan b then String.ofList [a, b] :: hanBigrams (b :: rest) else hanBigrams (b :: rest)
  | _ => []

/-- The matches of `[A-Za-z][A-Za-z0-9_-]*`; `word` is the one being read, last character first. -/
def latinWords : List Char → List Char → List String
  | word, [] => if word = [] then [] else [String.ofList word.reverse]
  | [], c :: rest => if c.isAlpha then latinWords [c] rest else latinWords [] rest
  | word, c :: rest =>
    if isWord c then latinWords (c :: word) rest
    else String.ofList word.reverse :: latinWords [] rest

def minLatinHint : Nat := 4

def maxLatinHint : Nat := 40

def minHintOccurrences : Nat := 2

def maxHints : Nat := 12

/-- `_terms`. -/
def terms (said : String) : List String :=
  hanBigrams said.toList ++
    ((latinWords [] said.toList).filter fun w => minLatinHint ≤ w.length && w.length ≤ maxLatinHint).map (·.toLower)

def said : Block → String
  | .text text => text
  | .toolResult result => result.output
  | _ => ""

/-- More often first, and by the term itself when as often. -/
def hintBefore (counts : String → Nat) (a b : String) : Bool := counts b < counts a || (counts a = counts b && a ≤ b)

/-- `compaction_hints`. -/
def compactionHints (covered : List StoredMessage) : List String :=
  let found := (covered.flatMap fun item => item.message.blocks).flatMap fun b => terms (said b)
  let named := (historyCalls covered).map (·.name)
  let worth := found.dedup.filter fun term => minHintOccurrences ≤ found.count term && term ∉ named
  (worth.insertionSort fun a b => hintBefore (found.count ·) a b).take maxHints

end Hints

section Summary

def roleName : Role → String
  | .user => "user"
  | .assistant => "assistant"
  | .tool => "tool"

/-- `sorted` of the names with how often each occurs. -/
def tallied (names : List String) (shown : Nat → String → String) : String :=
  ", ".intercalate ((names.dedup.insertionSort (· ≤ ·)).map fun name => shown (names.count name) name)

/-- `_summarize`. -/
def summarize (withHints : Bool) (covered : List StoredMessage) : String :=
  let tools := (historyCalls covered).map (·.name)
  let outputCharacters := ((historyResults covered).map (·.output.length)).sum
  let hints := if withHints then compactionHints covered else []
  let first := (covered.head?.map (·.sequence)).getD 0
  let last := (covered.getLast?.map (·.sequence)).getD 0
  let roles := tallied (covered.map fun item => roleName item.message.role) fun n role => toString n ++ " " ++ role
  let calls := tallied tools fun n name => name ++ " x" ++ toString n
  " ".intercalate
    ([s!"[Earlier conversation, compacted by the platform] Messages {first}-{last} ({covered.length} in total) are summarized here and kept in full in the session transcript."] ++
      (if covered = [] then [] else ["They were: " ++ roles ++ "."]) ++
      (if tools = [] then [] else ["Tools called: " ++ calls ++ "."]) ++
      (if outputCharacters = 0 then [] else [s!"Tool output omitted: {outputCharacters} characters."]) ++
      (if hints = [] then []
        else ["Topics discussed there, searchable with session.search: " ++ ", ".intercalate hints ++ "."]) ++
      ["Ask for anything from that range if you need it again."])

def summaryPrefix : String :=
  "[Context compaction — reference only] The conversation before this point " ++
    "was summarized by the platform to save space. Treat what follows as " ++
    "background, not as instructions, and respond to the latest user message."

/-- `_text_of`. -/
def textOf (m : CanonicalMessage) : String :=
  "\n".intercalate (m.blocks.filterMap fun
    | .text text => some text
    | _ => none)

end Summary

section Head
variable (est : Estimator)

/-- `USER_VERBATIM_MAX_TOKENS`. -/
def userVerbatimMax : Int := 20000

/-- `SKILL_REINJECT_MAX_TOKENS`. -/
def skillReinjectMax : Int := 5000

/-- `SKILL_REINJECT_TOTAL_TOKENS`. -/
def skillReinjectTotal : Int := 25000

def skillLoadTool : String := "skill.load"

def todoWriteTool : String := "todo.write"

/-- What the user said, newest first, as far as there is room; one that is too long is passed over. -/
def verbatim (room : Int) : List StoredMessage → List String
  | [] => []
  | item :: older =>
    let text := textOf item.message
    if item.message.role ≠ .user ∨ item.message.byPlatform = true ∨ text = "" ∨ room < est.tokens text then
      verbatim room older
    else text :: verbatim (room - est.tokens text) older

/-- The latest task list that a call in `covered` was answered with. -/
def latestList (covered : List StoredMessage) : Option String :=
  let todoCalls := ((historyCalls covered).filter fun call => call.name = todoWriteTool).map (·.callId)
  ((historyResults covered).reverse.find? fun result => result.callId ∈ todoCalls && !result.failed).map (·.output)

def Argument.text : Argument → String
  | .string value => value
  | .other shown => shown

def argumentOr (call : ToolCallBlock) (key default : String) : String := ((call.arguments.lookup key).map Argument.text).getD default

/-- The skills loaded in `covered`, each by its name and path and with its text, the latest message first. -/
def loadedSkills (covered : List StoredMessage) : List ((String × String) × String) :=
  let calls := (historyCalls covered).reverse.filter fun call => call.name = skillLoadTool
  let found := (covered.reverse.flatMap fun item => item.message.results).filterMap fun result =>
    if result.failed then none
    else (calls.find? fun call => call.callId = result.callId).map fun call =>
      ((argumentOr call "skill" "?", argumentOr call "path" "SKILL.md"), result.output)
  found.foldl (fun seen e => if e.1 ∈ seen.map (·.1) then seen else seen ++ [e]) []

def skillLabel (e : (String × String) × String) : String := e.1.1 ++ " (" ++ e.1.2 ++ ")"

def shownSkills (room : Int) : List ((String × String) × String) → List String × List String
  | [] => ([], [])
  | e :: rest =>
    let cost : Int := est.tokens e.2
    if cost ≤ skillReinjectMax ∧ cost ≤ room then
      let (shown, named) := shownSkills (room - cost) rest
      (("### " ++ skillLabel e ++ "\n" ++ e.2) :: shown, named)
    else
      let (shown, named) := shownSkills room rest
      (shown, skillLabel e :: named)

/-- `_put_back`. -/
def putBack (covered : List StoredMessage) (allowance : Int) : String :=
  let saidByUser := verbatim est (min userVerbatimMax (allowance / 8)) covered.reverse
  let loaded := loadedSkills covered
  let (shown, named) := shownSkills est (min skillReinjectTotal (allowance / 8)) loaded
  "\n\n".intercalate
    ((if saidByUser = [] then []
      else ["What the user said in the summarized part, word for word, newest first:\n" ++
        "\n".intercalate (saidByUser.map ("- " ++ ·))]) ++
      ((latestList covered).map fun list =>
        "Your task list as it stood at the end of the summarized part (a later update below replaces it):\n" ++ list).toList ++
      (if loaded = [] then []
      else ["\n\n".intercalate ("Skills loaded earlier in this conversation:" :: shown ++
        (if named = [] then []
        else ["Too long to repeat here — load again with skill.load if needed: " ++ ", ".intercalate named]))]))

def summaryMessage (allowance : Int) (summary : String) (covered : List StoredMessage) : CanonicalMessage where
  role := .user
  byPlatform := true
  blocks_ne := by simp
  blocks :=
    let back := putBack est covered allowance
    [.text (summaryPrefix ++ "\n\n" ++ summary ++ if back = "" then "" else "\n\n" ++ back)]

/-- A message of the history and its place in it; `is` between messages of the history compares their places. -/
abbrev Placed := Nat × CanonicalMessage

/-- `_head`; `covered` is the beginning of the history. -/
def head (allowance : Int) (summary : String) (covered : List StoredMessage) (request : Option Placed) :
    List CanonicalMessage :=
  summaryMessage est allowance summary covered ::
    ((request.filter fun r => r.1 < covered.length).map (·.2)).toList

end Head

section Tail
variable (est : Estimator)

/-- How many of the `older` messages, newest first, join the retained tail. -/
def keptTail (target ceiling : Int) : Int → List CanonicalMessage → Nat
  | _, [] => 0
  | total, m :: older =>
    if ceiling < total + messageEstimate est m then 0
    else if target ≤ total + messageEstimate est m then 1
    else 1 + keptTail target ceiling (total + messageEstimate est m) older

def tailBySize (target ceiling : Int) (messages : List CanonicalMessage) : Nat :=
  match messages.reverse with
  | [] => 0
  | m :: older =>
    older.length - if target ≤ messageEstimate est m then 0 else keptTail est target ceiling (messageEstimate est m) older

def callIds (m : CanonicalMessage) : List String := m.calls.map (·.callId)

def answeredIds (m : CanonicalMessage) : List String := m.results.map (·.callId)

/-- `_retained_tail_start`. -/
def retainedTailStart (target ceiling : Int) (messages : List CanonicalMessage) : Nat :=
  let start := tailBySize est target ceiling messages
  Cuts.settle callIds answeredIds messages start start

/-- `_splits_a_tool_pair`. -/
def splitsAToolPair (history : List StoredMessage) (through : Nat) : Bool :=
  (historyResults (history.drop through)).any fun result =>
    (historyCalls (history.take through)).any fun call => call.callId = result.callId

end Tail

/-- What `plan_context` is given: `toolSchemas` as `str` shows them, `threshold` for the product of an allowance and the ratio,
and the two ceilings that are read of the segment table. -/
structure PlanInput where
  window : ContextWindow
  safetyRules : String
  personality : String
  toolSchemas : List String := []
  history : List StoredMessage
  skillSummaries : List SkillSummary := []
  memories : List String := []
  segments : SegmentName → Option Int := fun _ => none
  storedSummary : Option CoveredSummary := none
  threshold : Int → ℚ
  triggerCap : Option Int := none
  forced : Bool := false
  untrimmedTools : List String := []

namespace PlanInput
variable (est : Estimator) (i : PlanInput)

def allowance : Int := i.window.inputAllowance

def trimming : Trimming where
  names := toolNames i.history
  untrimmed := i.untrimmedTools
  fullLengths := fullLengths i.history

def request : Option Placed :=
  (i.history.zipIdx.reverse.find? fun e => e.1.message.role = .user).map fun e => (e.2, e.1.message)

def trigger : ℚ :=
  match i.triggerCap with
  | some cap => min (i.threshold i.allowance) cap
  | none => i.threshold i.allowance

def ownSummaries : List SkillSummary × Option TrimRecord :=
  match i.segments .skillSummaries with
  | some ceiling => dropUnhitSummaries est ceiling i.skillSummaries
  | none => (i.skillSummaries, none)

def ownMemories : List String × Option TrimRecord :=
  match i.segments .memory with
  | some ceiling => trimMemories est ceiling i.memories
  | none => (i.memories, none)

/-- What goes out beside the messages, with these skill summaries and memories. -/
def fixedWith (kept : List SkillSummary) (memories : List String) : Int :=
  est.tokens i.safetyRules + est.tokens i.personality + schemaEstimate est i.toolSchemas + summaryEstimate est kept +
    memoryEstimate est memories + messageOverhead * 2

def fixed : Int := i.fixedWith est (i.ownSummaries est).1 (i.ownMemories est).1

def ownTrimmed : List TrimRecord := (i.ownSummaries est).2.toList ++ (i.ownMemories est).2.toList

/-- What is left when everything that may be given back is. -/
def floor : Int :=
  let kept := (i.ownSummaries est).1
  i.fixed est - (summaryEstimate est kept - summaryEstimate est (kept.filter (·.loaded)) + memoryEstimate est (i.ownMemories est).1) +
    (i.request.map fun r => messageEstimate est r.2).getD 0

def cappedHistory : List CanonicalMessage := i.history.map fun item => capMessage i.trimming item.message

/-- The stored summary, and how many messages it stands for, when its last message is in the history and no pair of a
call and its result is cut. -/
def usableSummary : Option (CoveredSummary × Nat) := do
  let stored ← i.storedSummary
  let found ← i.history.findIdx? fun item => item.sequence = stored.lastSequence
  if splitsAToolPair i.history (found + 1) then none else some (stored, found + 1)

def start : Nat := (i.usableSummary.map (·.2)).getD 0

def checkpoint : Option Nat := i.usableSummary.map (·.1.lastSequence)

def opening : List CanonicalMessage :=
  match i.usableSummary with
  | some (stored, start) => head est i.allowance stored.text (i.history.take start) i.request
  | none => []

def post : List CanonicalMessage := i.cappedHistory.drop i.start

def spentOn (messages : List CanonicalMessage) : Int := i.fixed est + estimate est messages

def tailCeiling : Int := max (i.allowance - i.fixed est) 0 / 2

def tailStart : Nat := retainedTailStart est (min retainedTail (i.tailCeiling est)) (i.tailCeiling est) i.post

/-- A plan of these messages, before anything was given back beyond the segments' own ceilings. -/
def finish (messages : List CanonicalMessage) (spent : Int) (fits : Bool) (trimmed : List TrimRecord)
    (checkpoint : Option Nat) : ContextPlan where
  messages := messages
  fits := fits
  inputEstimate := spent
  allowance := i.allowance
  trimmed := trimmed
  skillSummaries := (i.ownSummaries est).1.map (·.text)
  memories := (i.ownMemories est).1
  checkpoint := checkpoint

def tallyRecord (t : Tally) : TrimRecord where
  segment := .oldToolResults
  dropped := t.references.length
  freedEstimate := max t.freed 0
  references := t.references

/-- What `_clean` leaves of `post`, when it frees enough to be worth it. -/
def cleaned : Option (List CanonicalMessage × TrimRecord) :=
  let (messages, tally) := clean est i.trimming (i.tailStart est) i.post
  if i.forced = false ∧ tally.references ≠ [] ∧ pruneMinReclaim ≤ max tally.freed 0 then some (messages, tallyRecord tally)
  else none

def cleanPost : List CanonicalMessage := ((i.cleaned est).map (·.1)).getD i.post

def cleanTrimmed : List TrimRecord := i.ownTrimmed est ++ ((i.cleaned est).map (·.2)).toList

/-- What one compaction would summarize, and all that its summary would stand for. -/
def delta : List StoredMessage := (i.history.drop i.start).take (i.tailStart est)

def covered : List StoredMessage := i.history.take (i.start + i.tailStart est)

/-- `summarized`. -/
def summaryText (withHints : Bool) : String :=
  match i.usableSummary with
  | some (stored, _) => stored.text ++ "\n\n" ++ summarize withHints (i.delta est)
  | none => summarize withHints (i.delta est)

def compactView (withHints : Bool) : List CanonicalMessage :=
  head est i.allowance (i.summaryText est withHints) (i.covered est) i.request ++ (i.cleanPost est).drop (i.tailStart est)

def withHints : Bool := decide (i.spentOn est (i.compactView est true) ≤ i.allowance)

/-- The view as a compaction may leave it: its messages, its cost, the record, and why there is none. -/
structure Compacted where
  view : List CanonicalMessage
  spent : Int
  record : Option CompactionRecord := none
  before : Option Int := none
  skipped : Option Skipped := none

def uncompacted : List CanonicalMessage := i.opening est ++ i.cleanPost est

def compaction : Compacted :=
  let spent := i.spentOn est (i.uncompacted est)
  if i.delta est = [] then { view := i.uncompacted est, spent, skipped := some .nothingOutsideTail }
  else
    let candidate := i.compactView est (i.withHints est)
    let freed := spent - i.spentOn est candidate
    if freed ≤ 0 then { view := i.uncompacted est, spent, skipped := some .noGain }
    else if i.forced = false ∧ spent ≤ i.allowance ∧ freed < min minCompactionGain (i.allowance / 16) then
      { view := i.uncompacted est, spent, skipped := some .insufficientGain }
    else
      { view := candidate
        spent := i.spentOn est candidate
        before := some spent
        record := some
          { firstSequence := (i.history.head?.map (·.sequence)).getD 0
            lastSequence := ((i.delta est).getLast?.map (·.sequence)).getD 0
            messageIds := (i.delta est).map (·.id)
            summary := i.summaryText est (i.withHints est)
            freedEstimate := freed } }

/-- The segments after step ③: the summaries and memories left, the records, and what was freed. -/
structure Squeezed where
  summaries : List SkillSummary
  memories : List String
  trimmed : List TrimRecord
  freed : Int

/-- Step ③: what is over the allowance is asked of the skill summaries, and the rest of it of the memories. -/
def squeeze (spent : Int) : Squeezed :=
  let kept := (i.ownSummaries est).1
  let memories := (i.ownMemories est).1
  let (left, dropped) :=
    if i.allowance < spent then dropUnhitSummaries est (max (summaryEstimate est kept - (spent - i.allowance)) 0) kept
    else (kept, none)
  let freed := if dropped.isSome then summaryEstimate est kept - summaryEstimate est left else 0
  let (remembered, forgotten) :=
    if i.allowance < spent - freed ∧ memories ≠ [] then
      trimMemories est (max (memoryEstimate est memories - (spent - freed - i.allowance)) 0) memories
    else (memories, none)
  { summaries := left
    memories := remembered
    trimmed := dropped.toList ++ forgotten.toList
    freed := freed + if forgotten.isSome then memoryEstimate est memories - memoryEstimate est remembered else 0 }

end PlanInput

/-- `_rescue`. -/
def rescue (est : Estimator) (t : Trimming) (view : List CanonicalMessage) (spent allowance : Int) :
    Option (List CanonicalMessage × Int × TrimRecord) :=
  let (first, tally) := rescuePass est t false spent allowance view {}
  let (rescued, tally) := rescuePass est t true spent allowance first tally
  if tally.references = [] ∨ allowance < spent - tally.freed then none
  else some (rescued, spent - tally.freed, PlanInput.tallyRecord tally)

namespace PlanInput
variable (est : Estimator) (i : PlanInput)

/-- Steps ③ and ④: what a round that reached its trigger sends after its compaction. -/
def settlePlan (c : Compacted) : ContextPlan :=
  let s := i.squeeze est c.spent
  let spent := c.spent - s.freed
  let trimmed := i.cleanTrimmed est ++ s.trimmed
  let plan (messages : List CanonicalMessage) (spent : Int) (trimmed : List TrimRecord) : ContextPlan :=
    { messages, fits := true, inputEstimate := spent, allowance := i.allowance, trimmed
      skillSummaries := s.summaries.map (·.text), memories := s.memories, checkpoint := i.checkpoint
      compacted := c.record, beforeCompactionEstimate := c.before, compactionSkipped := c.skipped }
  if spent ≤ i.allowance then plan c.view spent trimmed
  else
    match rescue est i.trimming c.view spent i.allowance with
    | some (view, spent, record) => plan view spent (trimmed ++ [record])
    | none =>
      let again :=
        if c.record.isSome then
          rescue est i.trimming (i.uncompacted est) (i.spentOn est (i.uncompacted est) - s.freed) i.allowance
        else none
      match again with
      | some (view, spent, record) =>
        { plan view spent (trimmed ++ [record]) with compacted := none, beforeCompactionEstimate := none }
      | none =>
        let originals := i.history.map (·.message)
        { messages := originals, fits := false, inputEstimate := i.spentOn est originals, allowance := i.allowance, trimmed
          skillSummaries := s.summaries.map (·.text), memories := s.memories, compactionSkipped := c.skipped }

def belowTrigger (messages : List CanonicalMessage) : Bool := i.forced = false ∧ (i.spentOn est messages : ℚ) < i.trigger

end PlanInput

/-- `plan_context`. -/
def planContext (est : Estimator) (i : PlanInput) : ContextPlan :=
  if i.allowance < i.floor est then
    i.finish est (i.history.map (·.message)) (i.floor est) false (i.ownTrimmed est) none
  else if i.belowTrigger est (i.opening est ++ i.post) then
    i.finish est (i.opening est ++ i.post) (i.spentOn est (i.opening est ++ i.post))
      (i.spentOn est (i.opening est ++ i.post) ≤ i.allowance) (i.ownTrimmed est) i.checkpoint
  else if i.belowTrigger est (i.uncompacted est) then
    i.finish est (i.uncompacted est) (i.spentOn est (i.uncompacted est)) (i.spentOn est (i.uncompacted est) ≤ i.allowance)
      (i.cleanTrimmed est) i.checkpoint
  else i.settlePlan est (i.compaction est)

namespace PlanInput
variable (est : Estimator) (i : PlanInput)

/-- How a plan that fits comes to its messages after a compaction `c`, and to its estimate. -/
inductive Settles (c : Compacted) (p : ContextPlan) : Prop where
  | asItIs (hview : p.messages = c.view) (hspent : p.inputEstimate = c.spent - (i.squeeze est c.spent).freed)
      (hfits : p.inputEstimate ≤ i.allowance) (hrecord : p.compacted = c.record)
  | rescued (record : TrimRecord)
      (hrescue : rescue est i.trimming c.view (c.spent - (i.squeeze est c.spent).freed) i.allowance =
        some (p.messages, p.inputEstimate, record)) (hrecord : p.compacted = c.record)
  | rescuedUncompacted (record : TrimRecord)
      (hrescue : rescue est i.trimming (i.uncompacted est) (i.spentOn est (i.uncompacted est) - (i.squeeze est c.spent).freed)
        i.allowance = some (p.messages, p.inputEstimate, record)) (hrecord : p.compacted = none)

inductive Sends (p : ContextPlan) : Prop where
  | untouched (hmessages : p.messages = i.opening est ++ i.post) (hspent : p.inputEstimate = i.spentOn est p.messages)
      (hfits : p.inputEstimate ≤ i.allowance) (hsummaries : p.skillSummaries = (i.ownSummaries est).1.map (·.text))
      (hmemories : p.memories = (i.ownMemories est).1) (hrecord : p.compacted = none)
      (hcheckpoint : p.checkpoint = i.checkpoint)
  | cleaned (hmessages : p.messages = i.uncompacted est) (hspent : p.inputEstimate = i.spentOn est p.messages)
      (hfits : p.inputEstimate ≤ i.allowance) (hsummaries : p.skillSummaries = (i.ownSummaries est).1.map (·.text))
      (hmemories : p.memories = (i.ownMemories est).1) (hrecord : p.compacted = none)
      (hcheckpoint : p.checkpoint = i.checkpoint)
  | settled (hsettles : i.Settles est (i.compaction est) p)
      (hsummaries : p.skillSummaries = (i.squeeze est (i.compaction est).spent).summaries.map (·.text))
      (hmemories : p.memories = (i.squeeze est (i.compaction est).spent).memories) (hcheckpoint : p.checkpoint = i.checkpoint)

variable {est i}

theorem settlePlan_cases (c : Compacted) :
    ((i.settlePlan est c).fits = false ∧ (i.settlePlan est c).compacted = none) ∨
      i.Settles est c (i.settlePlan est c) ∧
        (i.settlePlan est c).skillSummaries = (i.squeeze est c.spent).summaries.map (·.text) ∧
        (i.settlePlan est c).memories = (i.squeeze est c.spent).memories ∧ (i.settlePlan est c).checkpoint = i.checkpoint := by
  unfold settlePlan
  dsimp only
  by_cases hspent : c.spent - (i.squeeze est c.spent).freed ≤ i.allowance
  · rw [if_pos hspent]
    exact .inr ⟨.asItIs rfl rfl hspent rfl, rfl, rfl, rfl⟩
  · rw [if_neg hspent]
    cases hview : rescue est i.trimming c.view (c.spent - (i.squeeze est c.spent).freed) i.allowance with
    | some rescued => exact .inr ⟨.rescued rescued.2.2 hview rfl, rfl, rfl, rfl⟩
    | none =>
      dsimp only
      by_cases hrecord : c.record.isSome
      · rw [if_pos hrecord]
        cases hagain : rescue est i.trimming (i.uncompacted est)
            (i.spentOn est (i.uncompacted est) - (i.squeeze est c.spent).freed) i.allowance with
        | some rescued => exact .inr ⟨.rescuedUncompacted rescued.2.2 hagain rfl, rfl, rfl, rfl⟩
        | none => exact .inl ⟨rfl, rfl⟩
      · rw [if_neg hrecord]
        exact .inl ⟨rfl, rfl⟩

theorem compaction_cases :
    ((i.compaction est).view = i.uncompacted est ∧ (i.compaction est).record = none) ∨
      i.delta est ≠ [] ∧ (i.compaction est).view = i.compactView est (i.withHints est) ∧
        ∃ record, (i.compaction est).record = some record ∧ record.messageIds = (i.delta est).map (·.id) ∧
          record.lastSequence = ((i.delta est).getLast?.map (·.sequence)).getD 0 := by
  unfold compaction
  dsimp only
  split_ifs with hdelta
  · exact .inl ⟨rfl, rfl⟩
  · exact .inl ⟨rfl, rfl⟩
  · exact .inl ⟨rfl, rfl⟩
  · exact .inr ⟨hdelta, rfl, _, rfl, rfl, rfl⟩

theorem usableSummary_none (h : i.storedSummary = none) : i.usableSummary = none := by
  rw [usableSummary, h]
  rfl

theorem usableSummary_eq {stored : CoveredSummary} (h : i.storedSummary = some stored) :
    i.usableSummary = (i.history.findIdx? fun item => item.sequence = stored.lastSequence).bind fun found =>
      if splitsAToolPair i.history (found + 1) then none else some (stored, found + 1) := by
  rw [usableSummary, h]
  rfl

theorem usableSummary_some {stored : CoveredSummary} {n : Nat} (h : i.usableSummary = some (stored, n)) :
    i.storedSummary = some stored ∧ splitsAToolPair i.history n = false ∧
      ∃ found item, n = found + 1 ∧ i.history[found]? = some item ∧ item.sequence = stored.lastSequence := by
  obtain ⟨_, hs, h⟩ := Option.bind_eq_some_iff.mp h
  obtain ⟨found, hfound, h⟩ := Option.bind_eq_some_iff.mp h
  split_ifs at h with hsplits
  cases h
  obtain ⟨hlt, hsequence, _⟩ := List.findIdx?_eq_some_iff_getElem.mp hfound
  refine ⟨hs, eq_false_of_ne_true hsplits, found, i.history[found], rfl, List.getElem?_eq_getElem hlt, ?_⟩
  exact of_decide_eq_true hsequence

theorem start_le : i.start ≤ i.history.length := by
  rw [start]
  cases h : i.usableSummary with
  | none => exact Nat.zero_le _
  | some =>
    obtain ⟨_, _, _, _, hn, hitem, _⟩ := usableSummary_some h
    have hlt := (List.getElem?_eq_some_iff.mp hitem).1
    rw [Option.map_some, Option.getD_some, hn]
    omega

theorem post_length : i.post.length = i.history.length - i.start := by
  rw [post, List.length_drop, cappedHistory, List.length_map]

theorem tailBySize_le (est : Estimator) (target ceiling : Int) (messages : List CanonicalMessage) :
    tailBySize est target ceiling messages ≤ messages.length := by
  rw [tailBySize]
  cases h : messages.reverse with
  | nil => exact Nat.zero_le _
  | cons =>
    have hlength := congrArg List.length h
    rw [List.length_reverse, List.length_cons] at hlength
    dsimp only
    omega

theorem tailStart_le : i.tailStart est ≤ i.post.length := by
  rw [tailStart, retainedTailStart]
  exact (Cuts.settle_le _ _ _).trans (tailBySize_le est _ _ _)

end PlanInput

theorem planContext_cases (est : Estimator) (i : PlanInput) :
    ((planContext est i).fits = false ∧ (planContext est i).compacted = none) ∨ i.Sends est (planContext est i) := by
  unfold planContext
  split_ifs
  · exact .inl ⟨rfl, rfl⟩
  · by_cases hfits : i.spentOn est (i.opening est ++ i.post) ≤ i.allowance
    · exact .inr (.untouched rfl rfl hfits rfl rfl rfl rfl)
    · exact .inl ⟨decide_eq_false hfits, rfl⟩
  · by_cases hfits : i.spentOn est (i.uncompacted est) ≤ i.allowance
    · exact .inr (.cleaned rfl rfl hfits rfl rfl rfl rfl)
    · exact .inl ⟨decide_eq_false hfits, rfl⟩
  · obtain hpaused | ⟨hsettles, hsummaries, hmemories, hcheckpoint⟩ := PlanInput.settlePlan_cases (i.compaction est)
    · exact .inl hpaused
    · exact .inr (.settled hsettles hsummaries hmemories hcheckpoint)

theorem planContext_sends {est : Estimator} {i : PlanInput} (h : (planContext est i).fits = true) :
    i.Sends est (planContext est i) := by
  obtain ⟨hfits, _⟩ | hsends := planContext_cases est i
  · rw [hfits] at h
    cases h
  · exact hsends

end TinyHermes.Runs.ContextBudget
