import TinyHermes.Lib.Documents
import TinyHermes.Runs.Models

/-! Messages and lost rounds as they are stored: the documents they are written to, and what is read back. -/
namespace TinyHermes.Runs.MessageDocuments
open Lib Lib.Documents

structure ToolCallBlock where
  callId : String
  name : String
  arguments : Document
  callId_ne : callId ≠ ""
  name_ne : name ≠ ""

inductive Block where
  | text (text : String)
  | reasoning (text : String)
  | image (reference mediaType : String)
  | file (reference name : String)
  | toolCall (call : ToolCallBlock)
  | toolResult (result : ToolResultBlock)

structure CanonicalMessage where
  role : Role
  blocks : List Block
  byPlatform : Bool := false
  blocks_ne : blocks ≠ []

inductive ReadError where
  | value (text : String)
  | key (name : String)
  | notADict
  deriving DecidableEq, Repr

/-- `str` of a value that is not a string, and `int` of one that is not an integer. -/
structure Builtins where
  shown : Json → String
  counted : Json → Except ReadError Int

def Builtins.str (py : Builtins) : Json → String
  | .string text => text
  | value => py.shown value

def Builtins.int (py : Builtins) : Json → Except ReadError Int
  | .int value => .ok value
  | .bool value => .ok (if value then 1 else 0)
  | value => py.counted value

section Written

def Role.word : Role → String
  | .user => "user"
  | .assistant => "assistant"
  | .tool => "tool"

def resultDocument (result : ToolResultBlock) : Document :=
  [("type", .string "tool_result"), ("call_id", .string result.callId), ("output", .string result.output),
    ("exit_code", .int result.exitCode), ("failed", .bool result.failed)]

def Block.document : Block → Document
  | .text words => [("type", .string "text"), ("text", .string words)]
  | .reasoning words => [("type", .string "reasoning"), ("text", .string words)]
  | .image reference mediaType =>
    [("type", .string "image"), ("reference", .string reference), ("media_type", .string mediaType)]
  | .file reference name => [("type", .string "file"), ("reference", .string reference), ("name", .string name)]
  | .toolCall call =>
    [("type", .string "tool_call"), ("call_id", .string call.callId), ("name", .string call.name),
      ("arguments", .object call.arguments)]
  | .toolResult result => resultDocument result

def CanonicalMessage.document (m : CanonicalMessage) : Document :=
  [("role", .string (Role.word m.role)), ("parts", .array (m.blocks.map fun b => .object b.document))] ++
    if m.byPlatform then [("author", .string "platform")] else []

end Written

section Read
variable (py : Builtins)

/-- `ToolCallBlock.__post_init__`. -/
def callBlock (callId name : String) (arguments : Document) : Except ReadError ToolCallBlock :=
  if hid : callId = "" then .error (.value "a tool call needs a call_id to be answered by")
  else if hname : name = "" then .error (.value "a tool call needs a name")
  else .ok ⟨callId, name, arguments, hid, hname⟩

/-- `ToolResultBlock.__post_init__`. -/
def resultBlock (callId output : String) (exitCode : Int) (failed : Bool) : Except ReadError ToolResultBlock :=
  if hid : callId = "" then .error (.value "a tool result needs the call_id it answers")
  else .ok ⟨callId, output, exitCode, failed, hid⟩

def textAt (part : Document) (key : String) : String := py.str (getOr part key (.string ""))

def argumentsOf : Json → Document
  | .object fields => fields
  | _ => []

/-- One turn of the loop of `message_from_document`; a block type it does not know is dropped. -/
def readBlock (part : Document) : Except ReadError (Option Block) :=
  let kind := getOr part "type" .null
  if kind.isText "text" then .ok (some (.text (textAt py part "text")))
  else if kind.isText "reasoning" then .ok (some (.reasoning (textAt py part "text")))
  else if kind.isText "image" then .ok (some (.image (textAt py part "reference") (textAt py part "media_type")))
  else if kind.isText "file" then .ok (some (.file (textAt py part "reference") (textAt py part "name")))
  else if kind.isText "tool_call" then do
    let call ← callBlock (textAt py part "call_id") (textAt py part "name") (argumentsOf (getOr part "arguments" .null))
    return some (.toolCall call)
  else if kind.isText "tool_result" then do
    let exitCode ← py.int ((getOr part "exit_code" .null).orElse (.int 0))
    let result ← resultBlock (textAt py part "call_id") (textAt py part "output") exitCode
      (getOr part "failed" .null).truthy
    return some (.toolResult result)
  else .ok none

def readPart : Json → Except ReadError (Option Block)
  | .object part => readBlock py part
  | _ => .ok none

def Role.read (word : String) : Role :=
  if word = "assistant" then .assistant else if word = "tool" then .tool else .user

def partsOf : Json → List Json
  | .array items => items
  | _ => []

def readable (blocks : List Block) : List Block := if blocks.isEmpty then [.text ""] else blocks

theorem readable_ne (blocks : List Block) : readable blocks ≠ [] := by
  unfold readable
  cases blocks <;> simp

/-- `message_from_document`. An author it does not recognise reads back as none. -/
def messageFromDocument (document : Document) : Except ReadError CanonicalMessage := do
  let blocks ← readParts (readPart py) (partsOf (getOr document "parts" .null))
  return {
    role := Role.read (py.str (getOr document "role" (.string "user")))
    blocks := readable blocks
    byPlatform := (getOr document "author" .null).isText "platform"
    blocks_ne := readable_ne blocks }

end Read

structure InFlightRound where
  assistant : CanonicalMessage
  finished : List ToolResultBlock
  callId : String
  idempotencyKey : Option String := none
  fingerprint : Option String := none

def InFlightRound.document (r : InFlightRound) : Document :=
  [("assistant", .object r.assistant.document), ("finished", .array (r.finished.map fun b => .object (resultDocument b))),
    ("call_id", .string r.callId), ("idempotency_key", .ofText r.idempotencyKey), ("fingerprint", .ofText r.fingerprint)]

section ReadRound
variable (py : Builtins)

/-- `document[key]`. -/
def required (document : Document) (key : String) : Except ReadError Json :=
  match document.lookup key with
  | some value => .ok value
  | none => .error (.key key)

/-- `None if value is None else str(value)`. -/
def optionalText : Json → Option String
  | .null => none
  | value => some (py.str value)

def resultOf : Block → Option ToolResultBlock
  | .toolResult result => some result
  | _ => none

/-- The answers that had come, by way of a tool message when there are any. -/
def finishedOf (parts : Json) : Except ReadError (List ToolResultBlock) :=
  if parts.truthy then do
    let m ← messageFromDocument py [("role", .string "tool"), ("parts", parts)]
    return m.blocks.filterMap resultOf
  else .ok []

def asMessage : Json → Except ReadError CanonicalMessage
  | .object fields => messageFromDocument py fields
  | _ => .error .notADict

/-- `InFlightRound.from_document`. -/
def InFlightRound.fromDocument (document : Document) : Except ReadError InFlightRound := do
  let finished ← finishedOf py ((getOr document "finished" .null).orElse (.array []))
  let assistant ← asMessage py (← required document "assistant")
  let callId ← required document "call_id"
  return {
    assistant
    finished
    callId := py.str callId
    idempotencyKey := optionalText py (getOr document "idempotency_key" .null)
    fingerprint := optionalText py (getOr document "fingerprint" .null) }

end ReadRound

section RoundTrip
variable (py : Builtins)

theorem callBlock_of (call : ToolCallBlock) : callBlock call.callId call.name call.arguments = .ok call := by
  rw [callBlock, dif_neg call.callId_ne, dif_neg call.name_ne]

theorem resultBlock_of (result : ToolResultBlock) :
    resultBlock result.callId result.output result.exitCode result.failed = .ok result := by
  rw [resultBlock, dif_neg result.callId_ne]

/-- `int(exit_code or 0)` of a number is that number, zero included. -/
theorem int_orElse_zero (n : Int) : py.int ((Json.int n).orElse (.int 0)) = .ok n := by
  by_cases h : n = 0
  · subst h
    rfl
  · rw [Json.orElse, if_pos (by simpa [Json.truthy] using h)]
    rfl

theorem readBlock_result (result : ToolResultBlock) :
    readBlock py (resultDocument result) = .ok (some (.toolResult result)) := by
  have hcode : getOr (resultDocument result) "exit_code" .null = .int result.exitCode := rfl
  have hread : resultBlock (textAt py (resultDocument result) "call_id") (textAt py (resultDocument result) "output")
      result.exitCode (getOr (resultDocument result) "failed" .null).truthy = .ok result := resultBlock_of result
  change (do
    let exitCode ← py.int ((getOr (resultDocument result) "exit_code" .null).orElse (.int 0))
    let read ← resultBlock (textAt py (resultDocument result) "call_id") (textAt py (resultDocument result) "output")
      exitCode (getOr (resultDocument result) "failed" .null).truthy
    return some (Block.toolResult read)) = _
  rw [hcode, int_orElse_zero]
  change (do
    let read ← resultBlock (textAt py (resultDocument result) "call_id") (textAt py (resultDocument result) "output")
      result.exitCode (getOr (resultDocument result) "failed" .null).truthy
    return some (Block.toolResult read)) = _
  rw [hread]
  rfl

theorem readBlock_call (call : ToolCallBlock) :
    readBlock py (Block.toolCall call).document = .ok (some (.toolCall call)) := by
  change (do
    let read ← callBlock call.callId call.name call.arguments
    return some (Block.toolCall read)) = _
  rw [callBlock_of]
  rfl

theorem readPart_document (b : Block) : readPart py (.object b.document) = .ok (some b) := by
  cases b with
  | text => rfl
  | reasoning => rfl
  | image => rfl
  | file => rfl
  | toolCall call => exact readBlock_call py call
  | toolResult result => exact readBlock_result py result

theorem readable_of_ne {blocks : List Block} (h : blocks ≠ []) : readable blocks = blocks := by
  cases blocks with
  | nil => exact absurd rfl h
  | cons => rfl

theorem messageFromDocument_document (m : CanonicalMessage) : messageFromDocument py m.document = .ok m := by
  obtain ⟨role, blocks, byPlatform, hne⟩ := m
  have hparts := readParts_written (readPart_document py) blocks
  cases byPlatform <;> cases role <;>
    simp [messageFromDocument, CanonicalMessage.document, getOr, List.lookup, partsOf, hparts, readable_of_ne hne,
      Role.word, Role.read, Builtins.str, Json.isText, bind, Except.bind, pure, Except.pure]

theorem filterMap_resultOf (results : List ToolResultBlock) :
    (results.map Block.toolResult).filterMap resultOf = results := by
  induction results with
  | nil => rfl
  | cons result rest ih =>
    rw [List.map_cons]
    exact congrArg (result :: ·) ih

theorem finishedOf_written (results : List ToolResultBlock) :
    finishedOf py ((Json.array (results.map fun b => .object (resultDocument b))).orElse (.array [])) = .ok results := by
  cases results with
  | nil => rfl
  | cons first rest =>
    have hm := messageFromDocument_document py
      { role := .tool, blocks := (first :: rest).map Block.toolResult, blocks_ne := by simp }
    have hdocument : CanonicalMessage.document
          { role := .tool, blocks := (first :: rest).map Block.toolResult, blocks_ne := by simp } =
        [("role", .string "tool"), ("parts", .array ((first :: rest).map fun b => .object (resultDocument b)))] := by
      simp [CanonicalMessage.document, Role.word, Block.document]
    rw [hdocument] at hm
    rw [Json.orElse, if_pos (by rfl), finishedOf, if_pos (by rfl), hm]
    exact congrArg Except.ok (filterMap_resultOf (first :: rest))

theorem optionalText_ofText (text : Option String) : optionalText py (.ofText text) = text := by cases text <;> rfl

theorem fromDocument_document (r : InFlightRound) : InFlightRound.fromDocument py r.document = .ok r := by
  obtain ⟨assistant, finished, _, idempotencyKey, fingerprint⟩ := r
  have hfinished := finishedOf_written py finished
  have hassistant := messageFromDocument_document py assistant
  have hkey := optionalText_ofText py idempotencyKey
  have hprint := optionalText_ofText py fingerprint
  simp only [InFlightRound.fromDocument, InFlightRound.document, getOr, required, List.lookup]
  simp [hfinished, asMessage, hassistant, hkey, hprint, Builtins.str, bind, Except.bind, pure, Except.pure]

end RoundTrip

/-- What was written of a message, or of a lost round, is read back as it was. -/
theorem documents_round_trip (py : Builtins) :
    (∀ m : CanonicalMessage, messageFromDocument py m.document = .ok m) ∧
      ∀ r : InFlightRound, InFlightRound.fromDocument py r.document = .ok r := by
  constructor
  · intro m
    exact messageFromDocument_document py m
  · intro r
    exact fromDocument_document py r

section Readable
variable (py : Builtins)

/-- A part that its kind can be made of: a call has an id and a name, a result an id and a code that `int` takes. -/
structure WellFormed (part : Document) : Prop where
  call : (getOr part "type" .null).isText "tool_call" = true → textAt py part "call_id" ≠ "" ∧ textAt py part "name" ≠ ""
  result : (getOr part "type" .null).isText "tool_result" = true → textAt py part "call_id" ≠ "" ∧
    ∃ code, py.int ((getOr part "exit_code" .null).orElse (.int 0)) = .ok code

theorem callBlock_ok_iff {callId name : String} {arguments : Document} :
    (∃ call, callBlock callId name arguments = .ok call) ↔ callId ≠ "" ∧ name ≠ "" := by
  unfold callBlock
  split_ifs with hid hname
  · simp [hid]
  · simp [hname]
  · exact ⟨fun _ => ⟨hid, hname⟩, fun _ => ⟨_, rfl⟩⟩

theorem resultBlock_ok_iff {callId output : String} {exitCode : Int} {failed : Bool} :
    (∃ result, resultBlock callId output exitCode failed = .ok result) ↔ callId ≠ "" := by
  unfold resultBlock
  split_ifs with hid
  · simp [hid]
  · exact ⟨fun _ => hid, fun _ => ⟨_, rfl⟩⟩

theorem isText_unique {value : Json} {word word' : String} (h : value.isText word = true) (hne : word ≠ word') :
    value.isText word' = false := by
  cases value with
  | string text =>
    have hword : text = word := of_decide_eq_true h
    exact decide_eq_false fun hword' => hne (hword.symm.trans hword')
  | _ => rfl

theorem readBlock_toolCall {part : Document} (h : (getOr part "type" .null).isText "tool_call" = true) :
    (∃ found, readBlock py part = .ok found) ↔ textAt py part "call_id" ≠ "" ∧ textAt py part "name" ≠ "" := by
  rw [readBlock, isText_unique h (by decide), isText_unique h (by decide), isText_unique h (by decide), isText_unique h (by decide), h,
    ← @callBlock_ok_iff _ _ (argumentsOf (getOr part "arguments" .null))]
  simp only [Bool.false_eq_true, if_false, if_true]
  cases callBlock (textAt py part "call_id") (textAt py part "name") (argumentsOf (getOr part "arguments" .null)) with
  | error => simp [bind, Except.bind]
  | ok => simp [bind, Except.bind, pure, Except.pure]

theorem readBlock_toolResult {part : Document} (h : (getOr part "type" .null).isText "tool_result" = true) :
    (∃ found, readBlock py part = .ok found) ↔ textAt py part "call_id" ≠ "" ∧
      ∃ code, py.int ((getOr part "exit_code" .null).orElse (.int 0)) = .ok code := by
  rw [readBlock, isText_unique h (by decide), isText_unique h (by decide), isText_unique h (by decide), isText_unique h (by decide),
    isText_unique h (by decide), h]
  simp only [Bool.false_eq_true, if_false, if_true]
  cases py.int ((getOr part "exit_code" .null).orElse (.int 0)) with
  | error => simp [bind, Except.bind]
  | ok code =>
    rw [← @resultBlock_ok_iff _ (textAt py part "output") code (getOr part "failed" .null).truthy]
    cases hresult : resultBlock (textAt py part "call_id") (textAt py part "output") code (getOr part "failed" .null).truthy with
    | error => simp [bind, Except.bind, hresult]
    | ok => simp [bind, Except.bind, pure, Except.pure, hresult]

theorem readBlock_ok_iff (part : Document) : (∃ found, readBlock py part = .ok found) ↔ WellFormed py part := by
  by_cases hcall : (getOr part "type" .null).isText "tool_call" = true
  · have hresult := isText_unique hcall (by decide : "tool_call" ≠ "tool_result")
    rw [readBlock_toolCall py hcall]
    refine ⟨fun h => ⟨fun _ => h, fun h' => ?_⟩, fun h => h.call hcall⟩
    rw [hresult] at h'
    cases h'
  · by_cases hresult : (getOr part "type" .null).isText "tool_result" = true
    · rw [readBlock_toolResult py hresult]
      exact ⟨fun h => ⟨fun h' => absurd h' hcall, fun _ => h⟩, fun h => h.result hresult⟩
    · refine ⟨fun _ => ⟨fun h => absurd h hcall, fun h => absurd h hresult⟩, fun _ => ?_⟩
      rw [readBlock]
      split_ifs
      · exact ⟨_, rfl⟩
      · exact ⟨_, rfl⟩
      · exact ⟨_, rfl⟩
      · exact ⟨_, rfl⟩
      · exact ⟨_, rfl⟩

/-- A row is read exactly where each of its parts, if it is a call or a result, is well formed. -/
theorem messageFromDocument_ok_iff (document : Document) : (∃ m, messageFromDocument py document = .ok m) ↔
    ∀ part, .object part ∈ partsOf (getOr document "parts" .null) → WellFormed py part := by
  have hread : (∃ m, messageFromDocument py document = .ok m) ↔
      ∃ blocks, readParts (readPart py) (partsOf (getOr document "parts" .null)) = .ok blocks := by
    rw [messageFromDocument]
    cases readParts (readPart py) (partsOf (getOr document "parts" .null)) with
    | error => simp [bind, Except.bind]
    | ok => simp [bind, Except.bind, pure, Except.pure]
  rw [hread, readParts_ok_iff]
  constructor
  · intro h part hpart
    exact (readBlock_ok_iff py part).mp (h (.object part) hpart)
  · intro h part hpart
    cases part with
    | object fields => exact (readBlock_ok_iff py fields).mpr (h fields hpart)
    | _ => exact ⟨none, rfl⟩

/-- A call without an id raises, whatever else its row holds. -/
theorem nameless_call_raises : ∃ document, ∀ py : Builtins,
    messageFromDocument py document = .error (.value "a tool call needs a call_id to be answered by") := by
  refine ⟨[("role", .string "assistant"), ("parts", .array [.object [("type", .string "text"), ("text", .string "so far")],
    .object [("type", .string "tool_call"), ("name", .string "shell"), ("arguments", .object [])]])], ?_⟩
  intro _
  rfl

end Readable

end TinyHermes.Runs.MessageDocuments
