import TinyHermes.Channels.Events

/-! Which messages of a chat are commands, and which of them cannot be read. -/
namespace TinyHermes.Channels
open Lib Lib.Text

/-- `ValueError`: the number has more digits than Python converts. -/
inductive ValueError where
  | tooManyDigits
  deriving DecidableEq

/-- `sys.get_int_max_str_digits()`, as Python starts. -/
def maxStrDigits : Nat := 4300

section Parse
variable (limit : Nat) (lower : String → String)

/-- `int(word)` of ASCII digits; a limit of 0 is none. -/
def intOf (word : List Char) : Except ValueError Nat :=
  if limit ≠ 0 ∧ limit < word.length then .error .tooManyDigits else .ok (decimal word)

/-- The branches of `parse` after the name is known. -/
def CommandName.reading : CommandName → List (List Char) → Except ValueError (Option ChatCommand)
  | name, [] => .ok (some { name })
  | .undo, [turns] => do
    if !isDecimal turns then return none
    let value ← intOf limit turns
    return if value < 1 then none else some { name := .undo, turns := value }
  | _, _ => .ok none

/-- `parse`, with the error that `int` raises in it. -/
def parseOrRaise (text : String) (hasImages : Bool) : Except ValueError (Option ChatCommand) :=
  if hasImages then .ok none
  else match words (stripChars text.toList) with
    | [] => .ok none
    | first :: rest =>
      match commandNames.lookup (lower (String.ofList first)) with
      | none => .ok none
      | some name => name.reading limit rest

/-- What `accept` makes of a message: a command that is carried out now, or the event as it is, which is held. -/
def ChannelEvent.accepted (event : ChannelEvent) : Except ValueError (ChatCommand ⊕ ChannelEvent) := do
  match ← parseOrRaise limit lower event.text event.hasAttachments with
  | some command => return .inl command
  | none => return .inr event

end Parse

/-- `/undo` in some letter case, white space, and ASCII digits. -/
def UndoOf (text digits : List Char) : Prop :=
  ∃ verb blanks, text = verb ++ (blanks ++ digits) ∧ verb.map Char.toLower = "/undo".toList ∧
    blanks ≠ [] ∧ (∀ c ∈ blanks, isSpace c) ∧ isDecimal digits

/-- The grammar: one of the names in some letter case, or `/undo` with a positive number. -/
def Spoken (text : List Char) (command : ChatCommand) : Prop :=
  ((String.ofList (text.map Char.toLower), command.name) ∈ commandNames ∧ command.turns = 1) ∨
    ∃ digits, UndoOf text digits ∧ 1 ≤ decimal digits ∧ command = { name := .undo, turns := decimal digits }

/-- Lower case as Unicode has it for the letters of the names: only their ASCII letters and signs become such a text, the Kelvin
sign's `k` apart. -/
def AsciiCase (lower : String → String) : Prop :=
  ∀ text name : String, (∀ c ∈ name.toList, c = '/' ∨ c.isLower ∧ c ≠ 'k') →
    (lower text = name ↔ text.toList.map Char.toLower = name.toList)

def ChannelEvent.Understood (limit : Nat) (lower : String → String) (event : ChannelEvent) : Prop :=
  ∃ outcome, event.accepted limit lower = .ok outcome ∧
    (∀ command, outcome = .inl command ↔ event.hasAttachments = false ∧ Spoken (stripChars event.text.toList) command) ∧
    ((∃ command, outcome = .inl command) ∨ outcome = .inr event)

/-- An `/undo` with more digits than Python converts. -/
def ChannelEvent.TooLong (limit : Nat) (event : ChannelEvent) : Prop :=
  event.hasAttachments = false ∧ limit ≠ 0 ∧
    ∃ digits, UndoOf (stripChars event.text.toList) digits ∧ limit < digits.length

section Grammar
variable {limit : Nat} {lower : String → String}

theorem isSpace_of_letter {c : Char} (h : 48 ≤ c.toNat) (h' : c.toNat ≤ 122) : isSpace c = false := by
  simp only [isSpace, Bool.or_eq_false_iff, Bool.and_eq_false_iff, decide_eq_false_iff_not, beq_eq_false_iff_ne]
  omega

theorem isSpace_toLower {c : Char} (h : isSpace c.toLower = false) : isSpace c = false := by
  by_cases hupper : c.val ≥ 'A'.val ∧ c.val ≤ 'Z'.val
  · have hlow : 65 ≤ c.val.toNat := UInt32.le_iff_toNat_le.mp hupper.1
    have hhigh : c.val.toNat ≤ 90 := UInt32.le_iff_toNat_le.mp hupper.2
    exact isSpace_of_letter (by rw [Char.toNat]; omega) (by rw [Char.toNat]; omega)
  · rwa [Char.toLower, dif_neg hupper] at h

theorem isWord_of_toLower {word name : List Char} (hname : IsWord name) (h : word.map Char.toLower = name) : IsWord word := by
  subst h
  exact ⟨fun hnil => hname.1 (by rw [hnil, List.map_nil]), fun c hc => isSpace_toLower (hname.2 _ (List.mem_map_of_mem hc))⟩

theorem isWord_of_isDecimal {digits : List Char} (h : isDecimal digits) : IsWord digits := by
  rw [isDecimal, Bool.and_eq_true, Bool.not_eq_true', List.isEmpty_eq_false_iff, List.all_eq_true] at h
  refine ⟨h.1, fun c hc => ?_⟩
  have hdigit := h.2 c hc
  rw [Char.isDigit, Bool.and_eq_true, decide_eq_true_eq, decide_eq_true_eq] at hdigit
  have hlow : 48 ≤ c.val.toNat := UInt32.le_iff_toNat_le.mp hdigit.1
  have hhigh : c.val.toNat ≤ 57 := UInt32.le_iff_toNat_le.mp hdigit.2
  exact isSpace_of_letter (by rw [Char.toNat]; omega) (by rw [Char.toNat]; omega)

theorem name_letters : ∀ e ∈ commandNames, commandNames.lookup e.1 = some e.2 ∧
    (e.1.toList ≠ [] ∧ ∀ c ∈ e.1.toList, isSpace c = false) ∧ ∀ c ∈ e.1.toList, c = '/' ∨ c.isLower ∧ c ≠ 'k' := by
  simp [commandNames, List.lookup, isSpace, Char.isLower]

theorem lookup_eq_iff {key : String} {name : CommandName} :
    commandNames.lookup key = some name ↔ (key, name) ∈ commandNames := by
  constructor
  · intro h
    obtain ⟨_, _, hnames, _⟩ := List.lookup_eq_some_iff.mp h
    rw [hnames]
    exact List.mem_append_right _ List.mem_cons_self
  · exact fun h => (name_letters _ h).1

theorem eq_undo {key : String} (h : commandNames.lookup key = some .undo) : key = "/undo" := by
  simpa [commandNames] using lookup_eq_iff.mp h

theorem lookup_iff (hlower : AsciiCase lower) (word : List Char) (name : CommandName) :
    commandNames.lookup (lower (String.ofList word)) = some name ↔ (String.ofList (word.map Char.toLower), name) ∈ commandNames := by
  rw [lookup_eq_iff]
  have hname : ∀ text : String, (text, name) ∈ commandNames →
      (lower (String.ofList word) = text ↔ word.map Char.toLower = text.toList) := by
    intro text htext
    have hiff := hlower (String.ofList word) text (name_letters _ htext).2.2
    rwa [String.toList_ofList] at hiff
  constructor
  · intro h
    rwa [(hname _ h).mp rfl, String.ofList_toList]
  · intro h
    rwa [(hname _ h).mpr String.toList_ofList.symm]

theorem undoOf_iff (hlower : AsciiCase lower) {text digits : List Char} : UndoOf (stripChars text) digits ↔
    isDecimal digits ∧ ∃ verb, words text = [verb, digits] ∧ lower (String.ofList verb) = "/undo" := by
  obtain ⟨_, hword, hletters⟩ := name_letters ("/undo", .undo) List.mem_cons_self
  have hundo : ∀ verb : List Char, lower (String.ofList verb) = "/undo" ↔ verb.map Char.toLower = "/undo".toList := by
    intro verb
    have hiff := hlower (String.ofList verb) "/undo" hletters
    rwa [String.toList_ofList] at hiff
  constructor
  · rintro ⟨verb, blanks, htext, hverb, hne, hblanks, hdigits⟩
    exact ⟨hdigits, verb, words_eq_two_iff.mpr ⟨isWord_of_toLower hword hverb, isWord_of_isDecimal hdigits, blanks, hne, hblanks, htext⟩,
      (hundo verb).mpr hverb⟩
  · rintro ⟨hdigits, verb, hwords, hverb⟩
    obtain ⟨_, _, blanks, hne, hblanks, htext⟩ := words_eq_two_iff.mp hwords
    exact ⟨verb, blanks, htext, (hundo verb).mp hverb, hne, hblanks, hdigits⟩

theorem spoken_iff (hlower : AsciiCase lower) {text : List Char} {command : ChatCommand} :
    Spoken (stripChars text) command ↔
      (∃ word name, words text = [word] ∧ commandNames.lookup (lower (String.ofList word)) = some name ∧ command = { name }) ∨
        ∃ verb digits, words text = [verb, digits] ∧ lower (String.ofList verb) = "/undo" ∧ isDecimal digits ∧
          1 ≤ decimal digits ∧ command = { name := .undo, turns := decimal digits } := by
  constructor
  · rintro (⟨hname, hturns⟩ | ⟨digits, hundo, hpos, hcommand⟩)
    · have hword := (name_letters _ hname).2.1
      rw [String.toList_ofList] at hword
      refine .inl ⟨_, command.name, words_eq_one_iff.mpr ⟨isWord_of_toLower hword rfl, rfl⟩, (lookup_iff hlower _ _).mpr hname, ?_⟩
      rw [← hturns]
    · obtain ⟨hdigits, verb, hwords, hverb⟩ := (undoOf_iff hlower).mp hundo
      exact .inr ⟨verb, digits, hwords, hverb, hdigits, hpos, hcommand⟩
  · rintro (⟨word, name, hwords, hname, rfl⟩ | ⟨verb, digits, hwords, hverb, hdigits, hpos, hcommand⟩)
    · obtain ⟨_, rfl⟩ := words_eq_one_iff.mp hwords
      exact .inl ⟨(lookup_iff hlower _ _).mp hname, rfl⟩
    · exact .inr ⟨digits, (undoOf_iff hlower).mpr ⟨hdigits, verb, hwords, hverb⟩, hpos, hcommand⟩

/-- What `reading` makes of the words after a name, when their number is short enough. -/
theorem reading_eq (name : CommandName) {rest : List (List Char)}
    (hshort : ∀ digits, rest = [digits] → isDecimal digits → name = .undo → limit = 0 ∨ digits.length ≤ limit) :
    name.reading limit rest = .ok (name.taking rest) := by
  cases rest with
  | nil => cases name <;> rfl
  | cons turns more =>
    cases more with
    | cons => cases name <;> rfl
    | nil =>
      cases name with
      | new => rfl
      | compact => rfl
      | undo =>
        rw [CommandName.reading, CommandName.taking]
        cases hdigits : isDecimal turns with
        | false => rfl
        | true =>
          have hint : intOf limit turns = .ok (decimal turns) := by
            rw [intOf, if_neg]
            have hle := hshort turns rfl hdigits rfl
            omega
          simp only [hint, Bool.not_true, Bool.false_or, decide_eq_true_eq]
          rfl

/-- What `parse` makes of a text without attachments that is not too long. -/
theorem parse_spoken (hlower : AsciiCase lower) {text : String}
    (hshort : limit = 0 ∨ ∀ digits, UndoOf (stripChars text.toList) digits → digits.length ≤ limit) :
    parseOrRaise limit lower text false = .ok (parse lower text false) := by
  rw [parseOrRaise, parse, if_neg Bool.false_ne_true, if_neg Bool.false_ne_true, words_stripChars]
  cases hwords : words text.toList with
  | nil => rfl
  | cons first =>
    rw [commandOf]
    cases hname : commandNames.lookup (lower (String.ofList first)) with
    | none => simp only [hname, Option.bind_none]
    | some =>
      simp only [hname, Option.bind_some]
      apply reading_eq
      rintro digits rfl hdigits rfl
      exact hshort.imp_right fun h => h digits ((undoOf_iff hlower).mpr ⟨hdigits, first, hwords, eq_undo hname⟩)

theorem parse_iff (hlower : AsciiCase lower) {text : String} {command : ChatCommand} :
    parse lower text false = some command ↔ Spoken (stripChars text.toList) command := by
  rw [spoken_iff hlower, parse, if_neg Bool.false_ne_true, words_stripChars]
  constructor
  · intro h
    cases hwords : words text.toList with
    | nil =>
      rw [hwords] at h
      cases h
    | cons first rest =>
      rw [hwords] at h
      obtain ⟨name, hname, htaking⟩ := Option.bind_eq_some_iff.mp h
      cases rest with
      | nil => exact .inl ⟨first, name, rfl, hname, (Option.some.inj htaking).symm⟩
      | cons turns more =>
        cases more with
        | cons => cases name <;> cases htaking
        | nil =>
          cases name with
          | new => cases htaking
          | compact => cases htaking
          | undo =>
            rw [CommandName.taking] at htaking
            split_ifs at htaking with hrefused
            simp only [Bool.or_eq_true, Bool.not_eq_true', decide_eq_true_eq, not_or, Bool.not_eq_false, Nat.not_lt] at hrefused
            exact .inr ⟨first, turns, rfl, eq_undo hname, hrefused.1, hrefused.2, (Option.some.inj htaking).symm⟩
  · rintro (⟨word, name, hwords, hname, rfl⟩ | ⟨verb, digits, hwords, hverb, hdigits, hpos, rfl⟩)
    · rw [hwords, commandOf, hname]
      cases name <;> rfl
    · rw [hwords, commandOf, hverb, (name_letters ("/undo", .undo) List.mem_cons_self).1, Option.bind_some, CommandName.taking, if_neg]
      simp only [hdigits, Bool.not_true, Bool.false_or, decide_eq_true_eq]
      omega

theorem parse_raises (hlower : AsciiCase lower) {text : String} {digits : List Char} (hlimit : limit ≠ 0)
    (hundo : UndoOf (stripChars text.toList) digits) (hlong : limit < digits.length) :
    parseOrRaise limit lower text false = .error .tooManyDigits := by
  obtain ⟨hdigits, _, hwords, hverb⟩ := (undoOf_iff hlower).mp hundo
  have hlookup := (name_letters ("/undo", .undo) List.mem_cons_self).1
  rw [parseOrRaise, if_neg Bool.false_ne_true, words_stripChars, hwords]
  simp only [hverb, hlookup, CommandName.reading, hdigits, Bool.not_true, Bool.false_eq_true, if_false, intOf,
    if_pos (And.intro hlimit hlong)]
  rfl

/-- Every message is understood, unless it is an `/undo` with more digits than Python converts. -/
theorem understood_iff (limit : Nat) (hlower : AsciiCase lower) (event : ChannelEvent) :
    event.Understood limit lower ↔ ¬ event.TooLong limit := by
  cases hattached : event.hasAttachments with
  | true =>
    refine iff_of_true ⟨.inr event, ?_, ?_, .inr rfl⟩ ?_
    · rw [ChannelEvent.accepted, hattached]
      rfl
    · intro command
      exact iff_of_false (fun h => by cases h) fun h => absurd (hattached.symm.trans h.1) (by decide)
    · exact fun h => absurd (hattached.symm.trans h.1) (by decide)
  | false =>
    constructor
    · rintro ⟨_, haccepted, _⟩ ⟨_, hlimit, digits, hundo, hlong⟩
      rw [ChannelEvent.accepted, hattached, parse_raises hlower hlimit hundo hlong] at haccepted
      cases haccepted
    · intro h
      have hshort : limit = 0 ∨ ∀ digits, UndoOf (stripChars event.text.toList) digits → digits.length ≤ limit := by
        by_cases hlimit : limit = 0
        · exact .inl hlimit
        · exact .inr fun digits hundo => Nat.not_lt.mp fun hlong => h ⟨hattached, hlimit, digits, hundo, hlong⟩
      simp only [ChannelEvent.Understood, ChannelEvent.accepted, hattached, parse_spoken hlower hshort, ← parse_iff hlower, true_and]
      cases parse lower event.text false with
      | none => exact ⟨.inr event, rfl, fun command => iff_of_false (fun h => by cases h) (fun h => by cases h), .inr rfl⟩
      | some found =>
        refine ⟨.inl found, rfl, fun command => ?_, .inl ⟨found, rfl⟩⟩
        rw [Sum.inl.injEq, Option.some.injEq]

end Grammar

theorem asciiCase_toLower : AsciiCase fun text => String.ofList (text.toList.map Char.toLower) := by
  intro _ _ _
  constructor
  · intro h
    rw [← h, String.toList_ofList]
  · intro h
    dsimp only
    rw [h, String.ofList_toList]

/-- Messages of a chat, which differ in what they say. -/
def said (text : String) : ChannelEvent := { channel := "feishu", channelEventId := "1", externalUserId := "ou_1", text }

theorem undo_two_understood : (said "/UNDO 2").Understood maxStrDigits fun text => String.ofList (text.toList.map Char.toLower) := by
  refine (understood_iff maxStrDigits asciiCase_toLower (said "/UNDO 2")).mpr ?_
  rintro ⟨_, _, _, ⟨_, _, htext, _⟩, _⟩
  have hlength := congrArg List.length htext
  have hseven : (stripChars (said "/UNDO 2").text.toList).length = 7 := by simp [said, stripChars, isSpace]
  rw [List.length_append, List.length_append, hseven] at hlength
  have hlimit : maxStrDigits = 4300 := rfl
  omega

/-- `/undo` and so many nines. -/
def nines (n : Nat) : ChannelEvent := said (String.ofList ("/undo".toList ++ ([' '] ++ List.replicate n '9')))

theorem long_undo_raises : ¬ (nines 4301).Understood maxStrDigits fun text => String.ofList (text.toList.map Char.toLower) := by
  obtain ⟨_, hword, _⟩ := name_letters ("/undo", .undo) List.mem_cons_self
  have hdigits : isDecimal (List.replicate 4301 '9') := by
    simp only [isDecimal, List.isEmpty_replicate, List.all_replicate]
    rfl
  have hstrip : stripChars (nines 4301).text.toList = "/undo".toList ++ ([' '] ++ List.replicate 4301 '9') := by
    have hblanks := @stripChars_of_blanks [] ("/undo".toList ++ ([' '] ++ List.replicate 4301 '9')) [] (List.forall_mem_nil _)
      (List.forall_mem_nil _) (IsWord.head hword _)
    rw [List.append_nil, List.nil_append] at hblanks
    rw [nines, said, String.toList_ofList]
    apply hblanks
    rw [← List.append_assoc]
    exact (isWord_of_isDecimal hdigits).last _
  have hundo : UndoOf (stripChars (nines 4301).text.toList) (List.replicate 4301 '9') :=
    ⟨_, [' '], hstrip, by simp, List.cons_ne_nil _ _, by simp [isSpace], hdigits⟩
  have hraises := parse_raises asciiCase_toLower (show maxStrDigits ≠ 0 by decide) hundo (by
    rw [List.length_replicate]
    decide)
  rintro ⟨_, haccepted, _⟩
  rw [ChannelEvent.accepted, show (nines 4301).hasAttachments = false from rfl, hraises] at haccepted
  cases haccepted

end TinyHermes.Channels
