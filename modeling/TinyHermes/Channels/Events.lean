import TinyHermes.Lib.Documents
import TinyHermes.Lib.Words

/-! One message of a chat: how it is stored while it waits, when it is a command, and what several of them are together. -/
namespace TinyHermes.Channels
open Lib

structure ChannelImage where
  messageId : String
  fileKey : String
  deriving DecidableEq

structure ChannelFile where
  messageId : String
  fileKey : String
  name : String
  deriving DecidableEq

structure ChannelEvent where
  channel : String
  channelEventId : String
  externalUserId : String
  text : String
  images : List ChannelImage := []
  files : List ChannelFile := []
  deriving DecidableEq

section Stored

inductive Unreadable where
  | missing (key : String)
  | notAList | notADocument
  deriving DecidableEq

/-- `_held_document`. -/
def heldDocument (event : ChannelEvent) : Document :=
  [("channel", .string event.channel),
    ("text", .string event.text),
    ("images", .array (event.images.map fun image =>
      .object [("message_id", .string image.messageId), ("file_key", .string image.fileKey)])),
    ("files", .array (event.files.map fun attached =>
      .object [("message_id", .string attached.messageId), ("file_key", .string attached.fileKey),
        ("name", .string attached.name)]))]

variable (shown : Json → String)

/-- `str(value)`; a text is itself. -/
def str : Json → String
  | .string text => text
  | value => shown value

/-- `entry[key]`. -/
def entryText (entry : Document) (key : String) : Except Unreadable String :=
  match entry.lookup key with
  | none => .error (.missing key)
  | some value => .ok (str shown value)

def readImage : Json → Except Unreadable (Option ChannelImage)
  | .object entry => do
    let messageId ← entryText shown entry "message_id"
    let fileKey ← entryText shown entry "file_key"
    return some { messageId, fileKey }
  | _ => .error .notADocument

def readFile : Json → Except Unreadable (Option ChannelFile)
  | .object entry => do
    let messageId ← entryText shown entry "message_id"
    let fileKey ← entryText shown entry "file_key"
    let name ← entryText shown entry "name"
    return some { messageId, fileKey, name }
  | _ => .error .notADocument

/-- `document.get(key, [])`. -/
def entriesOf (document : Document) (key : String) : Except Unreadable (List Json) :=
  match Documents.getOr document key (.array []) with
  | .array entries => .ok entries
  | _ => .error .notAList

/-- `_held_event`. -/
def heldEvent (document : Document) (channelEventId externalUserId : String) : Except Unreadable ChannelEvent := do
  let images ← entriesOf document "images"
  let files ← entriesOf document "files"
  let images ← Documents.readParts (readImage shown) images
  let files ← Documents.readParts (readFile shown) files
  return { channel := str shown (Documents.getOr document "channel" (.string "feishu"))
           channelEventId, externalUserId
           text := str shown (Documents.getOr document "text" (.string ""))
           images, files }

theorem heldEvent_heldDocument (event : ChannelEvent) :
    heldEvent shown (heldDocument event) event.channelEventId event.externalUserId = .ok event := by
  have himages : Documents.readParts (readImage shown) (event.images.map fun image =>
      .object [("message_id", .string image.messageId), ("file_key", .string image.fileKey)]) = .ok event.images :=
    Documents.readParts_written (fun _ => rfl) event.images
  have hfiles : Documents.readParts (readFile shown) (event.files.map fun attached =>
      .object [("message_id", .string attached.messageId), ("file_key", .string attached.fileKey),
        ("name", .string attached.name)]) = .ok event.files :=
    Documents.readParts_written (fun _ => rfl) event.files
  have hread : heldEvent shown (heldDocument event) event.channelEventId event.externalUserId =
      ((Documents.readParts (readImage shown) (event.images.map fun image =>
          .object [("message_id", .string image.messageId), ("file_key", .string image.fileKey)])).bind fun images =>
        (Documents.readParts (readFile shown) (event.files.map fun attached =>
          .object [("message_id", .string attached.messageId), ("file_key", .string attached.fileKey),
            ("name", .string attached.name)])).bind fun files =>
          .ok { event with images, files }) := rfl
  rw [hread, himages, hfiles]
  rfl

end Stored

section Commands
variable (lower : String → String)

inductive CommandName where
  | undo | new | compact
  deriving DecidableEq

structure ChatCommand where
  name : CommandName
  turns : Nat := 1
  deriving DecidableEq

/-- `_NAMES`. -/
def commandNames : List (String × CommandName) :=
  [("/undo", .undo), ("/new", .new), ("/reset", .new), ("/compact", .compact), ("/compress", .compact)]

/-- `word.isascii() and word.isdecimal()`. -/
def isDecimal (word : List Char) : Bool := !word.isEmpty && word.all Char.isDigit

/-- `int(word)`. -/
def decimal (word : List Char) : Nat := word.foldl (fun value digit => 10 * value + (digit.toNat - '0'.toNat)) 0

def CommandName.taking : CommandName → List (List Char) → Option ChatCommand
  | name, [] => some { name }
  | .undo, [turns] =>
    if !isDecimal turns || decimal turns < 1 then none else some { name := .undo, turns := decimal turns }
  | _, _ => none

def commandOf : List (List Char) → Option ChatCommand
  | [] => none
  | first :: rest => (commandNames.lookup (lower (String.ofList first))).bind fun name => name.taking rest

/-- `parse`. -/
def parse (text : String) (hasImages : Bool) : Option ChatCommand :=
  if hasImages then none else commandOf lower (Text.words (Text.stripChars text.toList))

/-- `bool(event.images or event.files)`. -/
def ChannelEvent.hasAttachments (event : ChannelEvent) : Bool := !event.images.isEmpty || !event.files.isEmpty

/-- `parse(event.text, has_images=bool(event.images or event.files))`. -/
def ChannelEvent.command (event : ChannelEvent) : Option ChatCommand := parse lower event.text event.hasAttachments

theorem commandOf_cons {first : List Char} {rest : List (List Char)} {command : ChatCommand}
    (h : commandOf lower (first :: rest) = some command) : commandOf lower [first] ≠ none ∧ rest.length ≤ 1 := by
  obtain ⟨name, hname, htaking⟩ := Option.bind_eq_some_iff.mp h
  have hfirst : commandOf lower [first] = some { name } := Option.bind_eq_some_iff.mpr ⟨name, hname, rfl⟩
  refine ⟨fun hnone => Option.some_ne_none _ (hfirst.symm.trans hnone), ?_⟩
  match rest, htaking with
  | [], _ => exact Nat.zero_le 1
  | [_], _ => exact Nat.le_refl 1
  | _ :: _ :: _, htaking => cases name <;> exact absurd htaking (by simp [CommandName.taking])

theorem commandOf_flatten {messages : List (List (List Char))} (h : ∀ message ∈ messages, commandOf lower message = none) :
    commandOf lower messages.flatten = none := by
  induction messages with
  | nil => rfl
  | cons message rest ih =>
    have hmessage := h message (List.mem_cons_self ..)
    match message, hmessage with
    | [], _ => exact ih fun message hmem => h message (List.mem_cons_of_mem _ hmem)
    | first :: others, hmessage =>
      cases hcommand : commandOf lower (first :: (others ++ rest.flatten)) with
      | none => exact hcommand
      | some command =>
        obtain ⟨hfirst, hlength⟩ := commandOf_cons lower hcommand
        rw [List.length_append] at hlength
        cases others with
        | nil => exact absurd hmessage hfirst
        | cons turns more =>
          -- The first message holds both words a command can have.
          rw [List.length_cons] at hlength
          obtain rfl : more = [] := List.eq_nil_of_length_eq_zero (by omega)
          have hrest : rest.flatten = [] := List.eq_nil_of_length_eq_zero (by omega)
          rw [hrest, List.append_nil, hmessage] at hcommand
          exact absurd hcommand (by simp)

end Commands

section Together

/-- `_files_only`. -/
def filesOnly (event : ChannelEvent) : Bool := Text.isBlank event.text && event.images.isEmpty

/-- The stripped texts of the batch that say something, a blank line between them. -/
def joinedText (batch : List ChannelEvent) : String :=
  String.ofList (['\n', '\n'].intercalate
    ((batch.map fun event => Text.stripChars event.text.toList).filter fun words => !words.isEmpty))

/-- `_together`. -/
def together (batch : List ChannelEvent) : Option ChannelEvent :=
  batch.getLast?.map fun last =>
    { channel := last.channel, channelEventId := last.channelEventId, externalUserId := last.externalUserId
      text := joinedText batch
      images := batch.flatMap ChannelEvent.images
      files := batch.flatMap ChannelEvent.files }

theorem words_joinedText (batch : List ChannelEvent) :
    Text.words (joinedText batch).toList = (batch.map fun event => Text.words event.text.toList).flatten := by
  have hblank : ∀ c ∈ ['\n', '\n'], Text.isSpace c := by
    intro c hc
    obtain rfl : c = '\n' := by simpa using hc
    rfl
  rw [joinedText, String.toList_ofList, Text.words_intercalate (by simp) hblank]
  induction batch with
  | nil => rfl
  | cons event batch ih =>
    rw [List.map_cons, List.map_cons, List.flatten_cons, ← ih, ← Text.words_stripChars event.text.toList]
    by_cases hblank : Text.stripChars event.text.toList = []
    · rw [List.filter_cons_of_neg (by simp [hblank]), hblank]
      rfl
    · rw [List.filter_cons_of_pos (by simpa using hblank)]
      exact List.flatMap_cons

theorem together_hasAttachments {batch : List ChannelEvent} {event : ChannelEvent} (h : together batch = some event) :
    event.hasAttachments = batch.any ChannelEvent.hasAttachments := by
  obtain ⟨_, -, rfl⟩ := Option.map_eq_some_iff.mp h
  clear h
  simp only [ChannelEvent.hasAttachments]
  induction batch with
  | nil => rfl
  | cons event batch ih =>
    rw [List.any_cons, ← ih]
    rcases hi : event.images <;> rcases hf : event.files <;> simp [ChannelEvent.hasAttachments, hi, hf]

theorem together_command (lower : String → String) {batch : List ChannelEvent} {event : ChannelEvent}
    (htogether : together batch = some event) (h : ∀ message ∈ batch, message.command lower = none) :
    event.command lower = none := by
  unfold ChannelEvent.command parse
  rw [together_hasAttachments htogether]
  cases hattached : batch.any ChannelEvent.hasAttachments with
  | true => rfl
  | false =>
    obtain ⟨_, -, rfl⟩ := Option.map_eq_some_iff.mp htogether
    rw [if_neg Bool.false_ne_true, Text.words_stripChars, words_joinedText]
    apply commandOf_flatten
    intro _ hwords
    obtain ⟨message, hmessage, rfl⟩ := List.mem_map.mp hwords
    have hnone := h message hmessage
    have hbare : message.hasAttachments = false := Bool.eq_false_iff.mpr (List.any_eq_false.mp hattached message hmessage)
    rwa [ChannelEvent.command, parse, hbare, if_neg Bool.false_ne_true, Text.words_stripChars] at hnone

end Together

end TinyHermes.Channels
