import Mathlib

/-! How a receiver of HTTP/1.1 finds the end of a request: the head, which way its body is framed, and the body. An octet is
read as the character of its number. -/
namespace TinyHermes.Lib.MessageFraming

section Lines

/-- The line before the first line end, and what comes after it. -/
def takeLine : List Char → Option (List Char × List Char)
  | [] => none
  | '\r' :: '\n' :: rest => some ([], rest)
  | c :: rest => (takeLine rest).map fun taken => (c :: taken.1, taken.2)

/-- The lines before the first empty one, and what comes after that. -/
def takeLines : Nat → List Char → Option (List (List Char) × List Char)
  | 0, _ => none
  | fuel + 1, stream => do
    let (line, rest) ← takeLine stream
    if line.isEmpty then return ([], rest)
    let (lines, left) ← takeLines fuel rest
    return (line :: lines, left)

def lineEnd : List Char := ['\r', '\n']

variable {line rest stream more left : List Char} {lines : List (List Char)} {fuel fuel' : Nat}

theorem takeLine_cons {c : Char} {tail : List Char} (h : ∀ later, c = '\r' → tail = '\n' :: later → False) :
    takeLine (c :: tail) = (takeLine tail).map fun taken => (c :: taken.1, taken.2) := takeLine.eq_3 c tail h

theorem takeLine_line (h : '\n' ∉ line) : takeLine (line ++ lineEnd ++ rest) = some (line, rest) := by
  induction line with
  | nil => rfl
  | cons c line ih =>
    rw [List.mem_cons, not_or] at h
    have hnext : takeLine (c :: (line ++ lineEnd ++ rest)) =
        (takeLine (line ++ lineEnd ++ rest)).map fun taken => (c :: taken.1, taken.2) := by
      apply takeLine_cons
      intro _ _ htail
      cases line with
      | nil => cases htail
      | cons =>
        obtain rfl := (List.cons.inj htail).1
        exact h.2 List.mem_cons_self
    rw [List.cons_append, List.cons_append, hnext, ih h.2]
    rfl

theorem takeLine_append (h : takeLine stream = some (line, rest)) (more : List Char) :
    takeLine (stream ++ more) = some (line, rest ++ more) := by
  induction stream using takeLine.induct generalizing line with
  | case1 => cases h
  | case2 =>
    cases h
    rfl
  | case3 c tail hnot ih =>
    rw [takeLine_cons hnot] at h
    obtain ⟨⟨_, _⟩, htaken, hpair⟩ := Option.map_eq_some_iff.mp h
    cases hpair
    have hkeep : ∀ tail', c = '\r' → tail ++ more = '\n' :: tail' → False := by
      intro _ hc htail
      cases tail with
      | nil => cases htaken
      | cons d tail =>
        obtain rfl := (List.cons.inj htail).1
        exact hnot tail hc rfl
    rw [List.cons_append, takeLine_cons hkeep, ih htaken]
    rfl

theorem takeLine_length (h : takeLine stream = some (line, rest)) : stream.length = line.length + rest.length + 2 := by
  induction stream using takeLine.induct generalizing line with
  | case1 => cases h
  | case2 =>
    cases h
    simp
  | case3 c tail hnot ih =>
    rw [takeLine_cons hnot] at h
    obtain ⟨⟨_, _⟩, htaken, hpair⟩ := Option.map_eq_some_iff.mp h
    cases hpair
    have hlength := ih htaken
    rw [List.length_cons, List.length_cons, hlength]
    dsimp only
    omega

theorem takeLines_cons (h : takeLine stream = some (line, rest)) (hline : line ≠ []) :
    takeLines (fuel + 1) stream = (takeLines fuel rest).map fun taken => (line :: taken.1, taken.2) := by
  rw [takeLines, h]
  cases hmore : takeLines fuel rest with
  | none => simp [hline, hmore]
  | some => simp [hline, hmore]

theorem takeLines_empty (h : takeLine stream = some ([], rest)) : takeLines (fuel + 1) stream = some ([], rest) := by
  rw [takeLines, h]
  rfl

theorem takeLines_succ (h : takeLines (fuel + 1) stream = some (lines, left)) :
    (lines = [] ∧ takeLine stream = some ([], left)) ∨ ∃ line rest later, takeLine stream = some (line, rest) ∧ line ≠ [] ∧
      takeLines fuel rest = some (later, left) ∧ lines = line :: later := by
  cases htaken : takeLine stream with
  | none => simp [takeLines, htaken] at h
  | some taken =>
    obtain ⟨line, rest⟩ := taken
    by_cases hline : line = []
    · rw [hline] at htaken
      rw [takeLines_empty htaken] at h
      cases h
      left
      rw [hline]
      exact ⟨rfl, rfl⟩
    · rw [takeLines_cons htaken hline] at h
      obtain ⟨⟨later, _⟩, hlater, hpair⟩ := Option.map_eq_some_iff.mp h
      cases hpair
      exact .inr ⟨line, rest, later, rfl, hline, hlater, rfl⟩

theorem takeLines_append (h : takeLines fuel stream = some (lines, left)) (hfuel : fuel ≤ fuel') (more : List Char) :
    takeLines fuel' (stream ++ more) = some (lines, left ++ more) := by
  induction fuel generalizing stream lines fuel' with
  | zero => cases h
  | succ fuel ih =>
    obtain ⟨fuel', rfl⟩ : ∃ n, fuel' = n + 1 := ⟨fuel' - 1, by omega⟩
    obtain ⟨rfl, hempty⟩ | ⟨_, _, _, hline, hne, hlater, rfl⟩ := takeLines_succ h
    · exact takeLines_empty (takeLine_append hempty more)
    · rw [takeLines_cons (takeLine_append hline more) hne, ih hlater (Nat.le_of_succ_le_succ hfuel)]
      rfl

theorem takeLines_joined (hlines : ∀ line ∈ lines, line ≠ [] ∧ '\n' ∉ line) (hfuel : lines.length < fuel) :
    takeLines fuel (lines.flatMap (· ++ lineEnd) ++ lineEnd ++ rest) = some (lines, rest) := by
  induction lines generalizing fuel with
  | nil =>
    obtain ⟨fuel, rfl⟩ : ∃ n, fuel = n + 1 := ⟨fuel - 1, by omega⟩
    exact takeLines_empty rfl
  | cons line lines ih =>
    obtain ⟨fuel, rfl⟩ : ∃ n, fuel = n + 1 := ⟨fuel - 1, by omega⟩
    obtain ⟨hne, hfeed⟩ := hlines line List.mem_cons_self
    have htaken : takeLine ((line :: lines).flatMap (· ++ lineEnd) ++ lineEnd ++ rest) =
        some (line, lines.flatMap (· ++ lineEnd) ++ lineEnd ++ rest) := by
      rw [List.flatMap_cons, List.append_assoc, List.append_assoc, List.append_assoc (lines.flatMap _)]
      exact takeLine_line hfeed
    rw [List.length_cons] at hfuel
    rw [takeLines_cons htaken hne, ih (fun l hl => hlines l (List.mem_cons_of_mem _ hl)) (by omega)]
    rfl

theorem takeLines_length (h : takeLines fuel stream = some (lines, left)) : left.length + 2 ≤ stream.length := by
  induction fuel generalizing stream lines with
  | zero => cases h
  | succ fuel ih =>
    obtain ⟨_, hempty⟩ | ⟨_, _, _, hline, _, hlater, _⟩ := takeLines_succ h
    · have hlength := takeLine_length hempty
      rw [List.length_nil] at hlength
      omega
    · have hlength := takeLine_length hline
      have hmore := ih hlater
      omega

end Lines

section Fields

def isTokenChar (c : Char) : Bool :=
  c.isAlphanum || "!#$%&*+-.^_|~".toList.contains c || c.toNat == 0x27 || c.toNat == 0x60

def isToken (text : List Char) : Bool := !text.isEmpty && text.all isTokenChar

/-- A character that may stand in a value. -/
def isValueChar (c : Char) : Bool := c != '\r' && c != '\n' && c.toNat != 0

def isBlank (c : Char) : Bool := c == ' ' || c == '\t'

def trim (text : List Char) : List Char := (text.dropWhile isBlank).rdropWhile isBlank

/-- A field line: a name, a colon and a value with blanks around it. -/
def fieldOf (line : List Char) : Option (List Char × List Char) :=
  let name := line.takeWhile (· != ':')
  match line.dropWhile (· != ':') with
  | [] => none
  | _ :: rest => if isToken name && rest.all isValueChar then some (name, trim rest) else none

section Pieces
variable {line name value rest text : List Char}

theorem isToken_all (h : isToken text = true) : text ≠ [] ∧ ∀ c ∈ text, isTokenChar c = true := by
  rw [isToken, Bool.and_eq_true, Bool.not_eq_true', List.isEmpty_eq_false_iff, List.all_eq_true] at h
  exact h

theorem isToken_not_mem {c : Char} (h : isToken text = true) (hc : isTokenChar c = false) : c ∉ text := by
  intro hmem
  rw [(isToken_all h).2 c hmem] at hc
  cases hc

theorem fieldOf_some (h : fieldOf line = some (name, value)) : ∃ rest, line = name ++ ':' :: rest ∧ isToken name = true ∧
    rest.all isValueChar = true ∧ value = trim rest := by
  rw [fieldOf] at h
  split at h
  · cases h
  · next c rest hdrop =>
    split_ifs at h with hfield
    cases h
    rw [Bool.and_eq_true] at hfield
    have hcolon : c = ':' := by
      have hhead := List.head?_dropWhile_not (· != ':') line
      rw [hdrop] at hhead
      simpa using hhead
    refine ⟨rest, ?_, hfield.1, hfield.2, rfl⟩
    rw [← hcolon, ← hdrop, hcolon]
    exact (List.takeWhile_append_dropWhile).symm

theorem fieldOf_line (hname : isToken name = true) (hrest : rest.all isValueChar = true) :
    fieldOf (name ++ ':' :: rest) = some (name, trim rest) := by
  have hkeep : ∀ c ∈ name, (c != ':') = true := by
    intro _ hc
    rw [bne_iff_ne]
    rintro rfl
    exact isToken_not_mem hname rfl hc
  rw [fieldOf, List.dropWhile_append_of_pos hkeep, List.takeWhile_append_of_pos hkeep]
  simp [hname, hrest]

end Pieces

def valuesOf (name : String) (fields : List (List Char × List Char)) : List (List Char) :=
  (fields.filter fun field => field.1.map Char.toLower == name.toList).map (·.2)

def members (values : List (List Char)) : List (List Char) := (values.flatMap (·.splitOn ',')).map trim

def decimal (text : List Char) : Option Nat :=
  if !text.isEmpty && text.all (·.isDigit) then some (text.foldl (fun n c => n * 10 + (c.toNat - '0'.toNat)) 0) else none

end Fields

inductive Framing where
  | length (octets : Nat)
  | chunked
  deriving DecidableEq, Repr

/-- The length that all members give, none of which gives any without a member. -/
def givenLength : List (List Char) → Option Nat
  | [] => some 0
  | first :: rest => if rest.all fun other => decimal other == decimal first then decimal first else none

/-- Which way the body of a request is framed, if a receiver can tell at all. -/
def framing (version : List Char) (fields : List (List Char × List Char)) : Option Framing :=
  let codings := ((members (valuesOf "transfer-encoding" fields)).map (·.map Char.toLower)).filter (!·.isEmpty)
  if (valuesOf "transfer-encoding" fields).isEmpty then (givenLength (members (valuesOf "content-length" fields))).map .length
  else if version = "HTTP/1.0".toList then none
  else if codings.getLast? = some "chunked".toList ∧ "chunked".toList ∉ codings.dropLast then some .chunked
  else none

section Body

def hexDigit (c : Char) : Option Nat :=
  if c.isDigit then some (c.toNat - '0'.toNat)
  else if 'a' ≤ c ∧ c ≤ 'f' then some (c.toNat - 'a'.toNat + 10)
  else if 'A' ≤ c ∧ c ≤ 'F' then some (c.toNat - 'A'.toNat + 10)
  else none

def chunkSize (line : List Char) : Option Nat :=
  let digits := line.takeWhile fun c => (hexDigit c).isSome
  let extensions := (line.dropWhile fun c => (hexDigit c).isSome).dropWhile isBlank
  if digits.isEmpty || !(extensions.isEmpty || extensions.head? == some ';') || !extensions.all isValueChar then none
  else some (digits.foldl (fun n c => n * 16 + (hexDigit c).getD 0) 0)

/-- The content of a chunked body, with its trailer, and what comes after it. -/
def takeChunked : Nat → List Char → Option (List Char × List Char)
  | 0, _ => none
  | fuel + 1, stream => do
    let (line, rest) ← takeLine stream
    let size ← chunkSize line
    if size = 0 then
      let (trailer, left) ← takeLines (rest.length + 1) rest
      if trailer.all (fun line => (fieldOf line).isSome) then return ([], left) else none
    else
      if rest.length < size then none
      else
        let (line, rest') ← takeLine (rest.drop size)
        if !line.isEmpty then none
        else
          let (content, left) ← takeChunked fuel rest'
          return (rest.take size ++ content, left)

def takeBody (stream : List Char) : Framing → Option (List Char × List Char)
  | .length octets => if stream.length < octets then none else some (stream.take octets, stream.drop octets)
  | .chunked => takeChunked (stream.length + 1) stream

variable {stream content left : List Char} {fuel : Nat}

/-- A chunked body is longer than its content. -/
theorem takeChunked_length (h : takeChunked fuel stream = some (content, left)) :
    content.length + left.length < stream.length := by
  induction fuel generalizing stream content with
  | zero => cases h
  | succ fuel ih =>
    rw [takeChunked] at h
    obtain ⟨⟨_, _⟩, hline, h⟩ := Option.bind_eq_some_iff.mp h
    obtain ⟨_, _, h⟩ := Option.bind_eq_some_iff.mp h
    have hlength := takeLine_length hline
    dsimp only at h
    split_ifs at h with hlast hshort
    · obtain ⟨⟨_, back⟩, htrailer, h⟩ := Option.bind_eq_some_iff.mp h
      have htrailerLength := takeLines_length htrailer
      dsimp only at h
      split_ifs at h
      cases h
      rw [List.length_nil]
      omega
    · obtain ⟨⟨_, _⟩, hafter, h⟩ := Option.bind_eq_some_iff.mp h
      have hafterLength := takeLine_length hafter
      dsimp only at h
      split_ifs at h
      obtain ⟨⟨_, _⟩, hmore, h⟩ := Option.bind_eq_some_iff.mp h
      cases h
      have hmoreLength := ih hmore
      dsimp only at hmoreLength ⊢
      rw [List.length_drop] at hafterLength
      rw [List.length_append, List.length_take]
      omega

end Body

section Messages

def isVisible (c : Char) : Bool := decide (0x21 ≤ c.toNat) && decide (c.toNat ≤ 0x7E)

def isVersion : List Char → Bool
  | ['H', 'T', 'T', 'P', '/', major, '.', minor] => major.isDigit && minor.isDigit
  | _ => false

/-- A request line: a method, a target and a version with single spaces between them. -/
def requestLineOf (line : List Char) : Option (List Char × List Char × List Char) :=
  match line.splitOn ' ' with
  | [method, target, version] =>
    if isToken method && !target.isEmpty && target.all isVisible && isVersion version then some (method, target, version) else none
  | _ => none

theorem isVersion_chars {version : List Char} (h : isVersion version = true) : ' ' ∉ version ∧ '\n' ∉ version ∧ version ≠ [] := by
  unfold isVersion at h
  split at h
  · next major minor =>
    rw [Bool.and_eq_true] at h
    refine ⟨?_, ?_, List.cons_ne_nil _ _⟩ <;>
    · simp only [List.mem_cons, List.not_mem_nil, or_false, not_or]
      refine ⟨by decide, by decide, by decide, by decide, by decide, ?_, by decide, ?_⟩
      · rintro rfl
        cases h.1
      · rintro rfl
        cases h.2
  · cases h

theorem requestLineOf_some {line method target version : List Char} :
    requestLineOf line = some (method, target, version) ↔ line = method ++ ' ' :: (target ++ ' ' :: version) ∧
      isToken method = true ∧ target ≠ [] ∧ (∀ c ∈ target, isVisible c = true) ∧ isVersion version = true := by
  have hjoined : [' '].intercalate [method, target, version] = method ++ ' ' :: (target ++ ' ' :: version) := by
    simp [List.intercalate]
  constructor
  · intro h
    rw [requestLineOf] at h
    split at h
    · next hparts =>
      split_ifs at h with hsound
      cases h
      rw [← hjoined, ← hparts, List.intercalate_splitOn ' ']
      simpa [and_assoc, List.isEmpty_iff] using hsound
    · cases h
  · rintro ⟨rfl, hmethod, htarget, hvisible, hversion⟩
    have hparts : (method ++ ' ' :: (target ++ ' ' :: version)).splitOn ' ' = [method, target, version] := by
      rw [← hjoined]
      apply List.splitOn_intercalate
      · simp only [List.mem_cons, List.not_mem_nil, or_false]
        rintro part (rfl | rfl | rfl)
        · exact isToken_not_mem hmethod rfl
        · intro hspace
          cases hvisible ' ' hspace
        · exact (isVersion_chars hversion).1
      · simp
    rw [requestLineOf, hparts]
    have hvisible' : target.all isVisible = true := List.all_eq_true.mpr hvisible
    simp [hmethod, htarget, hvisible', hversion]

structure Message where
  method : List Char
  target : List Char
  version : List Char
  fields : List (List Char × List Char)
  body : List Char
  deriving DecidableEq

/-- The head that lines make. -/
def headOf : List (List Char) → Option Message
  | [] => none
  | first :: rest => do
    let (method, target, version) ← requestLineOf first
    let fields ← rest.mapM fieldOf
    return { method, target, version, fields, body := [] }

/-- The request that a stream begins with, and what comes after it. -/
def readMessage (stream : List Char) : Option (Message × List Char) := do
  let (lines, rest) ← takeLines (stream.length + 1) stream
  let head ← headOf lines
  let how ← framing head.version head.fields
  let (body, left) ← takeBody rest how
  return ({ head with body }, left)

variable {stream body left : List Char} {lines : List (List Char)} {m : Message}

theorem readMessage_head (hlines : takeLines (stream.length + 1) stream = some (lines, [])) :
    readMessage (stream ++ body) = some (m, left) ↔ ∃ head how, headOf lines = some head ∧
      framing head.version head.fields = some how ∧ takeBody body how = some (m.body, left) ∧ m = { head with body := m.body } := by
  have hbound : stream.length + 1 ≤ (stream ++ body).length + 1 := by
    rw [List.length_append]
    omega
  rw [readMessage, takeLines_append hlines hbound body, List.nil_append, Option.bind_eq_bind, Option.bind_some]
  constructor
  · intro h
    obtain ⟨head, hhead, h⟩ := Option.bind_eq_some_iff.mp h
    obtain ⟨how, hhow, h⟩ := Option.bind_eq_some_iff.mp h
    obtain ⟨⟨_, _⟩, htaken, h⟩ := Option.bind_eq_some_iff.mp h
    cases h
    exact ⟨head, how, hhead, hhow, htaken, rfl⟩
  · rintro ⟨_, _, hhead, hhow, htaken, hm⟩
    simp only [Option.bind_eq_bind, Option.bind_some, hhead, hhow, htaken]
    rw [← hm]
    rfl

end Messages

end TinyHermes.Lib.MessageFraming
