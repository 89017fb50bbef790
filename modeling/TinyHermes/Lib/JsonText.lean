import TinyHermes.Lib.Documents
import TinyHermes.Lib.Utf8

/-! JSON as text: what `json.dumps` writes with `ensure_ascii=False`, `sort_keys=True` and no blanks, and what `json.loads` reads,
lone surrogates apart. -/
namespace TinyHermes.Lib.JsonText

section Writing

/-- `ESCAPE_DCT`. -/
def escaped (c : Char) : List Char :=
  if c = '"' then ['\\', '"']
  else if c = '\\' then ['\\', '\\']
  else if c = '\n' then ['\\', 'n']
  else if c = '\r' then ['\\', 'r']
  else if c = '\t' then ['\\', 't']
  else if c = '\x08' then ['\\', 'b']
  else if c = '\x0c' then ['\\', 'f']
  else if c.toNat < 32 then ['\\', 'u', '0', '0', (c.toNat / 16).digitChar, (c.toNat % 16).digitChar]
  else [c]

def writeString (text : String) : List Char := '"' :: (text.toList.flatMap escaped ++ ['"'])

def writeInt : Int → List Char
  | .ofNat n => Nat.toDigits 10 n
  | .negSucc n => '-' :: Nat.toDigits 10 (n + 1)

def commas (parts : List (List Char)) : List Char := [','].intercalate parts

def writeField (field : String × List Char) : List Char := writeString field.1 ++ ':' :: field.2

/-- By their keys. -/
def sortedFields (fields : List (String × List Char)) : List (String × List Char) :=
  fields.insertionSort fun f g => f.1 ≤ g.1

variable (floatText : ℚ → List Char)

mutual

/-- `json.dumps`; `floatText` is `float.__repr__`. -/
def write : Json → List Char
  | .null => "null".toList
  | .bool true => "true".toList
  | .bool false => "false".toList
  | .int value => writeInt value
  | .float value => floatText value
  | .string value => writeString value
  | .array items => '[' :: (commas (writeItems items) ++ [']'])
  | .object fields => '\x7b' :: (commas ((sortedFields (writeFields fields)).map writeField) ++ ['\x7d'])

def writeItems : List Json → List (List Char)
  | [] => []
  | item :: rest => write item :: writeItems rest

def writeFields : Document → List (String × List Char)
  | [] => []
  | (key, value) :: rest => (key, write value) :: writeFields rest

end

theorem writeItems_eq (items : List Json) : writeItems floatText items = items.map (write floatText) := by
  induction items with
  | nil => rfl
  | cons item rest ih =>
    have hitems : writeItems floatText (item :: rest) = write floatText item :: writeItems floatText rest := rfl
    rw [hitems, ih, List.map_cons]

theorem writeFields_eq (fields : Document) :
    writeFields floatText fields = fields.map fun f => (f.1, write floatText f.2) := by
  induction fields with
  | nil => rfl
  | cons field rest ih =>
    have hfields : writeFields floatText (field :: rest) = (field.1, write floatText field.2) :: writeFields floatText rest := rfl
    rw [hfields, ih, List.map_cons]

theorem write_int (value : Int) : write floatText (.int value) = writeInt value := rfl

theorem write_string (value : String) : write floatText (.string value) = writeString value := rfl

theorem write_array (items : List Json) :
    write floatText (.array items) = '[' :: (commas (items.map (write floatText)) ++ [']']) := by
  rw [← writeItems_eq]
  rfl

theorem write_sorted (fields : Document) : write floatText (.object fields) =
    '\x7b' :: (commas ((sortedFields (fields.map fun f => (f.1, write floatText f.2))).map writeField) ++ ['\x7d']) := by
  rw [← writeFields_eq]
  rfl

end Writing

variable {c : Char}

section Reading

/-- `[ \t\n\r]*`. -/
def skipSpace (cs : List Char) : List Char := cs.dropWhile fun c => c ∈ [' ', '\t', '\n', '\r']

def hexValue (c : Char) : Option Nat :=
  if c.isDigit then some (c.toNat - 48)
  else if 'a' ≤ c ∧ c ≤ 'f' then some (c.toNat - 87)
  else if 'A' ≤ c ∧ c ≤ 'F' then some (c.toNat - 55)
  else none

def hex4 : List Char → Option (Nat × List Char)
  | a :: b :: c :: d :: rest => do
    let a ← hexValue a
    let b ← hexValue b
    let c ← hexValue c
    let d ← hexValue d
    return (((a * 16 + b) * 16 + c) * 16 + d, rest)
  | _ => none

/-- What follows `\u`: four digits, or the eight of a pair of surrogates. -/
def unicodeEscape (cs : List Char) : Option (Char × List Char) := do
  let (high, rest) ← hex4 cs
  if 0xd800 ≤ high ∧ high < 0xdc00 then
    match rest with
    | '\\' :: 'u' :: later => do
      let (low, rest) ← hex4 later
      if 0xdc00 ≤ low ∧ low < 0xe000 then return (Char.ofNat (0x10000 + (high - 0xd800) * 1024 + (low - 0xdc00)), rest)
      else none
    | _ => none
  else if 0xdc00 ≤ high ∧ high < 0xe000 then none
  else return (Char.ofNat high, rest)

/-- `BACKSLASH`. -/
def backslash : List (Char × Char) :=
  [('"', '"'), ('\\', '\\'), ('/', '/'), ('b', '\x08'), ('f', '\x0c'), ('n', '\n'), ('r', '\r'), ('t', '\t')]

def unescape : List Char → Option (Char × List Char)
  | [] => none
  | c :: rest => if c = 'u' then unicodeEscape rest else (backslash.lookup c).map fun char => (char, rest)

/-- A string behind its first quote, which is at most as long as the fuel. -/
def scanString : Nat → List Char → Option (List Char × List Char)
  | 0, _ => none
  | _ + 1, [] => none
  | fuel + 1, c :: rest =>
    if c = '"' then some ([], rest)
    else if c = '\\' then do
      let (char, rest) ← unescape rest
      let (chars, rest) ← scanString fuel rest
      return (char :: chars, rest)
    else if c.toNat < 32 then none
    else do
      let (chars, rest) ← scanString fuel rest
      return (c :: chars, rest)

/-- `0|[1-9]\d*`. -/
def wholePart (cs : List Char) : List Char :=
  if cs.head? = some '0' then ['0'] else cs.takeWhile Char.isDigit

/-- `(\.\d+)?`. -/
def fractionPart : List Char → List Char
  | '.' :: rest => if rest.takeWhile Char.isDigit = [] then [] else '.' :: rest.takeWhile Char.isDigit
  | _ => []

/-- `([eE][-+]?\d+)?`. -/
def exponentPart : List Char → List Char
  | [] => []
  | c :: rest =>
    if c ≠ 'e' ∧ c ≠ 'E' then []
    else
      let sign := rest.take 1 |>.filter fun c => c = '-' ∨ c = '+'
      let digits := (rest.drop sign.length).takeWhile Char.isDigit
      if digits = [] then [] else c :: sign ++ digits

/-- `int` of the digits of a number. -/
def intOf (negative : Bool) (digits : List Char) : Int :=
  if negative then -(Nat.ofDigitChars 10 digits 0 : Int) else Nat.ofDigitChars 10 digits 0

/-- A number behind its sign. `floatOf` is `float`, of the text of a number or of the name of one that is none. -/
def scanUnsigned (floatOf : List Char → Json) (negative : Bool) (cs : List Char) : Option (Json × List Char) :=
  let whole := wholePart cs
  let fraction := fractionPart (cs.drop whole.length)
  let exponent := exponentPart (cs.drop (whole ++ fraction).length)
  if whole = [] then none
  else some (if fraction = [] ∧ exponent = [] then .int (intOf negative whole)
      else floatOf ((if negative then ['-'] else []) ++ whole ++ fraction ++ exponent),
    cs.drop (whole ++ fraction ++ exponent).length)

def scanNumber (floatOf : List Char → Json) (cs : List Char) : Option (Json × List Char) :=
  if cs.head? = some '-' then scanUnsigned floatOf true cs.tail else scanUnsigned floatOf false cs

/-- The values that are names. -/
def constants (floatOf : List Char → Json) : List (List Char × Json) :=
  [("null".toList, .null), ("true".toList, .bool true), ("false".toList, .bool false),
    ("NaN".toList, floatOf "NaN".toList), ("Infinity".toList, floatOf "Infinity".toList),
    ("-Infinity".toList, floatOf "-Infinity".toList)]

def scanConstant (floatOf : List Char → Json) (cs : List Char) : Option (Json × List Char) :=
  (constants floatOf).findSome? fun name => (name.1.isPrefixOf? cs).map fun rest => (name.2, rest)

/-- `dict`: a key that comes again keeps its place and takes the new value. -/
def setField (document : Document) (field : String × Json) : Document :=
  if document.any fun f => f.1 = field.1 then document.map fun f => if f.1 = field.1 then field else f
  else document ++ [field]

def dict (fields : List (String × Json)) : Document := fields.foldl setField []

section Values
variable (floatOf : List Char → Json)

mutual

/-- `scan_once`. -/
def scanValue : Nat → List Char → Option (Json × List Char)
  | 0, _ => none
  | _ + 1, [] => none
  | fuel + 1, c :: rest =>
    if c = '"' then do
      let (chars, rest) ← scanString (rest.length + 1) rest
      return (.string (String.ofList chars), rest)
    else if c = '\x7b' then
      if (skipSpace rest).head? = some '\x7d' then return (.object [], (skipSpace rest).tail)
      else do
        let (fields, rest) ← scanFields fuel (skipSpace rest)
        return (.object (dict fields), rest)
    else if c = '[' then
      if (skipSpace rest).head? = some ']' then return (.array [], (skipSpace rest).tail)
      else do
        let (items, rest) ← scanItems fuel (skipSpace rest)
        return (.array items, rest)
    else (scanNumber floatOf (c :: rest)).or (scanConstant floatOf (c :: rest))

def scanItems : Nat → List Char → Option (List Json × List Char)
  | 0, _ => none
  | fuel + 1, cs => do
    let (item, rest) ← scanValue fuel cs
    if (skipSpace rest).head? = some ']' then return ([item], (skipSpace rest).tail)
    else if (skipSpace rest).head? = some ',' then do
      let (items, rest) ← scanItems fuel (skipSpace (skipSpace rest).tail)
      return (item :: items, rest)
    else none

def scanFields : Nat → List Char → Option (List (String × Json) × List Char)
  | 0, _ => none
  | _ + 1, [] => none
  | fuel + 1, quote :: rest =>
    if quote ≠ '"' then none
    else do
      let (key, rest) ← scanString (rest.length + 1) rest
      if (skipSpace rest).head? ≠ some ':' then none
      else do
        let (value, rest) ← scanValue fuel (skipSpace (skipSpace rest).tail)
        if (skipSpace rest).head? = some '\x7d' then return ([(String.ofList key, value)], (skipSpace rest).tail)
        else if (skipSpace rest).head? = some ',' then do
          let (fields, rest) ← scanFields fuel (skipSpace (skipSpace rest).tail)
          return ((String.ofList key, value) :: fields, rest)
        else none

end

theorem scanValue_string (fuel : Nat) (rest : List Char) : scanValue floatOf (fuel + 1) ('"' :: rest) =
    (scanString (rest.length + 1) rest).bind fun read => some (.string (String.ofList read.1), read.2) := rfl

theorem scanValue_object (fuel : Nat) (rest : List Char) : scanValue floatOf (fuel + 1) ('\x7b' :: rest) =
    if (skipSpace rest).head? = some '\x7d' then some (.object [], (skipSpace rest).tail)
    else (scanFields floatOf fuel (skipSpace rest)).bind fun read => some (.object (dict read.1), read.2) := rfl

theorem scanValue_array (fuel : Nat) (rest : List Char) : scanValue floatOf (fuel + 1) ('[' :: rest) =
    if (skipSpace rest).head? = some ']' then some (.array [], (skipSpace rest).tail)
    else (scanItems floatOf fuel (skipSpace rest)).bind fun read => some (.array read.1, read.2) := rfl

theorem scanValue_other (hstring : c ≠ '"') (hobject : c ≠ '\x7b') (harray : c ≠ '[') (fuel : Nat) (rest : List Char) :
    scanValue floatOf (fuel + 1) (c :: rest) = (scanNumber floatOf (c :: rest)).or (scanConstant floatOf (c :: rest)) :=
  (if_neg hstring).trans ((if_neg hobject).trans (if_neg harray))

/-- `json.loads` of a text. -/
def loads (text : List Char) : Option Json := do
  let (value, rest) ← scanValue floatOf (text.length + 1) (skipSpace text)
  if skipSpace rest = [] then return value else none

end Values

end Reading

variable {rest : List Char}

section Strings

theorem hexValue_digitChar : ∀ n < 16, hexValue n.digitChar = some n := by decide

theorem hex4_written {n : Nat} (hn : n < 32) (rest : List Char) :
    hex4 ('0' :: '0' :: (n / 16).digitChar :: (n % 16).digitChar :: rest) = some (n, rest) := by
  have hzero : hexValue '0' = some 0 := hexValue_digitChar 0 (by decide)
  rw [hex4, hzero, hexValue_digitChar (n / 16) (by omega), hexValue_digitChar (n % 16) (by omega)]
  change some (_, rest) = _
  congr 2
  omega

theorem unicodeEscape_written (hc : c.toNat < 32) (rest : List Char) :
    unicodeEscape ('0' :: '0' :: (c.toNat / 16).digitChar :: (c.toNat % 16).digitChar :: rest) = some (c, rest) := by
  have hhigh : ¬ (0xd800 ≤ c.toNat ∧ c.toNat < 0xdc00) := by omega
  have hlow : ¬ (0xdc00 ≤ c.toNat ∧ c.toNat < 0xe000) := by omega
  rw [unicodeEscape, hex4_written hc]
  change (if 0xd800 ≤ c.toNat ∧ c.toNat < 0xdc00 then _ else if 0xdc00 ≤ c.toNat ∧ c.toNat < 0xe000 then _ else _) = _
  rw [if_neg hhigh, if_neg hlow, Char.ofNat_toNat]
  rfl

theorem scanString_plain (hquote : c ≠ '"') (hbackslash : c ≠ '\\') (hcontrol : ¬ c.toNat < 32) (fuel : Nat)
    (rest : List Char) :
    scanString (fuel + 1) (c :: rest) = (scanString fuel rest).map fun read => (c :: read.1, read.2) := by
  rw [scanString, if_neg hquote, if_neg hbackslash, if_neg hcontrol]
  cases scanString fuel rest <;> rfl

theorem scanString_escape {escape : List Char} (h : unescape (escape ++ rest) = some (c, rest)) (fuel : Nat) :
    scanString (fuel + 1) ('\\' :: escape ++ rest) = (scanString fuel rest).map fun read => (c :: read.1, read.2) := by
  rw [List.cons_append, scanString, if_neg (by decide), if_pos rfl, h]
  change (scanString fuel rest >>= fun read => some (c :: read.1, read.2)) = _
  cases scanString fuel rest <;> rfl

theorem scanString_escaped (c : Char) (fuel : Nat) (rest : List Char) :
    scanString (fuel + 1) (escaped c ++ rest) = (scanString fuel rest).map fun read => (c :: read.1, read.2) := by
  unfold escaped
  split_ifs with hquote hbackslash hnewline hreturn htab hbell hfeed hcontrol
  · subst hquote
    exact scanString_escape rfl fuel
  · subst hbackslash
    exact scanString_escape rfl fuel
  · subst hnewline
    exact scanString_escape rfl fuel
  · subst hreturn
    exact scanString_escape rfl fuel
  · subst htab
    exact scanString_escape rfl fuel
  · subst hbell
    exact scanString_escape rfl fuel
  · subst hfeed
    exact scanString_escape rfl fuel
  · have hread : unescape (['u', '0', '0', (c.toNat / 16).digitChar, (c.toNat % 16).digitChar] ++ rest) = some (c, rest) :=
      unicodeEscape_written hcontrol rest
    exact scanString_escape hread fuel
  · exact scanString_plain hquote hbackslash hcontrol fuel rest

theorem scanString_written (cs rest : List Char) {fuel : Nat} (hfuel : cs.length < fuel) :
    scanString fuel (cs.flatMap escaped ++ '"' :: rest) = some (cs, rest) := by
  induction cs generalizing fuel with
  | nil =>
    obtain ⟨fuel, rfl⟩ := Nat.exists_eq_add_of_lt hfuel
    rfl
  | cons c cs ih =>
    obtain ⟨fuel, rfl⟩ : ∃ n, fuel = n + 1 := ⟨fuel - 1, by omega⟩
    rw [List.length_cons, Nat.succ_lt_succ_iff] at hfuel
    rw [List.flatMap_cons, List.append_assoc, scanString_escaped, ih hfuel]
    rfl

theorem length_le_escaped (cs : List Char) : cs.length ≤ (cs.flatMap escaped).length := by
  induction cs with
  | nil => exact Nat.le_refl _
  | cons c =>
    have hone : 1 ≤ (escaped c).length := by
      unfold escaped
      split_ifs <;> exact Nat.succ_le_succ (Nat.zero_le _)
    rw [List.flatMap_cons, List.length_append, List.length_cons]
    omega

end Strings

section Numbers

/-- What follows a value inside of a document. -/
def Ends (rest : List Char) : Prop := ∀ c, rest.head? = some c → c = ',' ∨ c = ']' ∨ c = '\x7d'

theorem toDigits_head {n : Nat} (hn : 0 < n) : (Nat.toDigits 10 n).head? ≠ some '0' := by
  induction n using Nat.strong_induction_on with
  | _ n ih =>
    by_cases hlt : n < 10
    · rw [Nat.toDigits_of_lt_base hlt]
      interval_cases n <;> decide
    · rw [Nat.toDigits_of_base_le (by decide) (Nat.not_lt.mp hlt), List.head?_append_of_ne_nil _ Nat.toDigits_ne_nil]
      exact ih (n / 10) (by omega) (by omega)

theorem takeWhile_digits {digits : List Char} (hdigits : ∀ c ∈ digits, c.isDigit = true) (hrest : Ends rest) :
    (digits ++ rest).takeWhile Char.isDigit = digits := by
  rw [List.takeWhile_append_of_pos hdigits]
  cases rest with
  | nil => rw [List.takeWhile_nil, List.append_nil]
  | cons c =>
    have hc : ¬ c.isDigit = true := by
      rcases hrest c rfl with rfl | rfl | rfl <;> decide
    rw [List.takeWhile_cons_of_neg hc, List.append_nil]

theorem wholePart_written (n : Nat) (hrest : Ends rest) :
    wholePart (Nat.toDigits 10 n ++ rest) = Nat.toDigits 10 n := by
  rw [wholePart, List.head?_append_of_ne_nil _ Nat.toDigits_ne_nil]
  rcases Nat.eq_zero_or_pos n with rfl | hn
  · rfl
  · rw [if_neg (toDigits_head hn)]
    exact takeWhile_digits (fun c hc => Nat.isDigit_of_mem_toDigits (by decide) (by decide) hc) hrest

theorem fractionPart_end (hrest : Ends rest) : fractionPart rest = [] := by
  cases rest with
  | nil => rfl
  | cons c => rcases hrest c rfl with rfl | rfl | rfl <;> rfl

theorem exponentPart_end (hrest : Ends rest) : exponentPart rest = [] := by
  cases rest with
  | nil => rfl
  | cons c => rcases hrest c rfl with rfl | rfl | rfl <;> rfl

theorem scanUnsigned_written (floatOf : List Char → Json) (negative : Bool) (n : Nat) (hrest : Ends rest) :
    scanUnsigned floatOf negative (Nat.toDigits 10 n ++ rest) = some (.int (intOf negative (Nat.toDigits 10 n)), rest) := by
  have hfraction := fractionPart_end hrest
  have hexponent := exponentPart_end hrest
  rw [scanUnsigned, wholePart_written n hrest]
  simp [hfraction, hexponent, Nat.toDigits_ne_nil]

theorem scanNumber_written (floatOf : List Char → Json) (n : Int) (hrest : Ends rest) :
    scanNumber floatOf (writeInt n ++ rest) = some (.int n, rest) := by
  cases n with
  | ofNat n =>
    have hsign : (writeInt (.ofNat n) ++ rest).head? ≠ some '-' := by
      rw [writeInt, List.head?_append_of_ne_nil _ Nat.toDigits_ne_nil]
      intro hhead
      have hdigit := Nat.isDigit_of_mem_toDigits (by decide) (by decide) (List.mem_of_head? hhead)
      exact absurd hdigit (by decide)
    rw [scanNumber, if_neg hsign, writeInt, scanUnsigned_written floatOf false n hrest, intOf, if_neg Bool.false_ne_true,
      Nat.ofDigitChars_ten_toDigits]
    rfl
  | negSucc n =>
    have hsign : (writeInt (.negSucc n) ++ rest).head? = some '-' := rfl
    have htail : (writeInt (.negSucc n) ++ rest).tail = Nat.toDigits 10 (n + 1) ++ rest := rfl
    rw [scanNumber, if_pos hsign, htail, scanUnsigned_written floatOf true (n + 1) hrest, intOf, if_pos rfl, Nat.ofDigitChars_ten_toDigits]
    rfl

end Numbers

variable {fields : Document} {parts : List (List Char)}

section Values
variable (floatText : ℚ → List Char) (floatOf : List Char → Json)

/-- Values that are read as they were written: no floats, and every object in the order of its keys. -/
inductive Plain : Json → Prop where
  | null : Plain .null
  | bool (value : Bool) : Plain (.bool value)
  | int (value : Int) : Plain (.int value)
  | string (value : String) : Plain (.string value)
  | array {items : List Json} (h : ∀ item ∈ items, Plain item) : Plain (.array items)
  | object {fields : Document} (hkeys : fields.Pairwise fun f g => f.1 < g.1) (h : ∀ f ∈ fields, Plain f.2) : Plain (.object fields)

theorem sortedFields_eq {fields : List (String × List Char)} (h : fields.Pairwise fun f g => f.1 < g.1) :
    sortedFields fields = fields :=
  (h.imp fun hlt => le_of_lt hlt).insertionSort_eq

/-- Fields are written in the order of their keys, whatever order they came in. -/
theorem sortedFields_perm {fields sorted : List (String × List Char)} (hperm : fields.Perm sorted)
    (hsorted : sorted.Pairwise fun f g => f.1 < g.1) : sortedFields fields = sorted := by
  have hmem : ∀ f ∈ sorted, ∀ g ∈ sorted, f.1 ≤ g.1 → g.1 ≤ f.1 → f = g := by
    intro f hf g hg hle hle'
    have hnodup : (sorted.map (·.1)).Nodup := List.pairwise_map.mpr (hsorted.imp fun h => ne_of_lt h)
    exact List.inj_on_of_nodup_map hnodup hf hg (le_antisymm hle hle')
  have hsort := List.perm_insertionSort (fun f g : String × List Char => f.1 ≤ g.1) fields
  apply (hsort.trans hperm).eq_of_pairwise
  · intro f g hf hg hle hle'
    exact hmem f ((hsort.trans hperm).mem_iff.mp hf) g hg hle hle'
  · exact List.pairwise_insertionSort _ _
  · exact hsorted.imp fun h => le_of_lt h

theorem write_object_perm {sorted : Document} (hperm : fields.Perm sorted)
    (hkeys : (sorted.map (·.1)).Pairwise (· < ·)) : write floatText (.object fields) = write floatText (.object sorted) := by
  have hpairs : (sorted.map fun f => (f.1, write floatText f.2)).Pairwise fun f g => f.1 < g.1 :=
    List.pairwise_map.mpr (List.pairwise_map.mp hkeys)
  rw [write_sorted, write_sorted, sortedFields_perm (hperm.map _) hpairs, sortedFields_eq hpairs]

/-- The text of a value starts with a character that opens no blank and closes nothing. -/
def Opens (cs : List Char) : Prop :=
  ∃ c rest, cs = c :: rest ∧ c ∉ [' ', '\t', '\n', '\r'] ∧ c ≠ ']' ∧ c ≠ '\x7d'

theorem opens_cons (h : c ∉ [' ', '\t', '\n', '\r', ']', '\x7d']) : Opens (c :: rest) := by
  simp only [List.mem_cons, not_or] at h
  exact ⟨c, rest, rfl, by simp [h], h.2.2.2.2.1, h.2.2.2.2.2.1⟩

theorem Opens.skipSpace {cs : List Char} (h : Opens cs) (rest : List Char) : skipSpace (cs ++ rest) = cs ++ rest := by
  obtain ⟨_, _, rfl, hblank, _⟩ := h
  rw [List.cons_append, JsonText.skipSpace, List.dropWhile_cons_of_neg]
  simpa using hblank

theorem opens_write {v : Json} (h : Plain v) : Opens (write floatText v) := by
  cases h with
  | null => exact opens_cons (by decide)
  | bool value => cases value <;> exact opens_cons (by decide)
  | int value =>
    rw [write_int]
    cases value with
    | negSucc => exact opens_cons (by decide)
    | ofNat n =>
      cases hdigits : Nat.toDigits 10 n with
      | nil => exact absurd hdigits Nat.toDigits_ne_nil
      | cons c =>
        have hdigit : c.isDigit = true := by
          apply Nat.isDigit_of_mem_toDigits (b := 10) (n := n) (by decide) (by decide)
          rw [hdigits]
          exact List.mem_cons_self
        rw [writeInt, hdigits]
        apply opens_cons
        intro hmem
        revert hdigit
        simp only [List.mem_cons, List.not_mem_nil, or_false] at hmem
        rcases hmem with rfl | rfl | rfl | rfl | rfl | rfl <;> decide
  | string => exact opens_cons (by decide)
  | array => exact opens_cons (by decide)
  | object => exact opens_cons (by decide)

theorem skipSpace_cons (h : c ∉ [' ', '\t', '\n', '\r']) (rest : List Char) : skipSpace (c :: rest) = c :: rest := by
  rw [skipSpace, List.dropWhile_cons_of_neg]
  simpa using h

/-- `v` is read from its text, wherever the text stands. -/
def Reads (v : Json) : Prop :=
  ∀ fuel rest, (write floatText v).length ≤ fuel → Ends rest → scanValue floatOf fuel (write floatText v ++ rest) = some (v, rest)

theorem commas_cons {part : List Char} (h : parts ≠ []) :
    commas (part :: parts) = part ++ ',' :: commas parts := by
  rw [commas, List.intercalate_cons_of_ne_nil h, List.append_assoc]
  rfl

theorem opens_commas {part : List Char} (h : Opens part) (parts : List (List Char)) : Opens (commas (part :: parts)) := by
  obtain ⟨c, rest, rfl, hc⟩ := h
  cases parts with
  | nil => exact ⟨c, rest, List.intercalate_singleton, hc⟩
  | cons => exact ⟨c, _, commas_cons (List.cons_ne_nil _ _), hc⟩

variable {floatText floatOf}

theorem scanItems_last {item : Json} {cs : List Char} {fuel : Nat}
    (h : scanValue floatOf fuel cs = some (item, ']' :: rest)) : scanItems floatOf (fuel + 1) cs = some ([item], rest) := by
  rw [scanItems, h, Option.bind_eq_bind, Option.bind_some]
  dsimp only
  rw [skipSpace_cons (by decide), List.head?_cons, if_pos rfl]
  rfl

theorem scanItems_next {item : Json} {items : List Json} {cs more : List Char} {fuel : Nat}
    (h : scanValue floatOf fuel cs = some (item, ',' :: more)) (hmore : scanItems floatOf fuel (skipSpace more) = some (items, rest)) :
    scanItems floatOf (fuel + 1) cs = some (item :: items, rest) := by
  rw [scanItems, h, Option.bind_eq_bind, Option.bind_some]
  dsimp only
  rw [skipSpace_cons (by decide), List.head?_cons, if_neg (by decide), if_pos rfl, List.tail_cons, hmore]
  rfl

theorem scanItems_written {items : List Json} (hne : items ≠ []) (hplain : ∀ item ∈ items, Plain item)
    (hreads : ∀ item ∈ items, Reads floatText floatOf item) {fuel : Nat} (rest : List Char)
    (hfuel : (commas (items.map (write floatText))).length < fuel) :
    scanItems floatOf fuel (commas (items.map (write floatText)) ++ ']' :: rest) = some (items, rest) := by
  induction items generalizing fuel with
  | nil => exact absurd rfl hne
  | cons item items ih =>
    obtain ⟨fuel, rfl⟩ : ∃ n, fuel = n + 1 := ⟨fuel - 1, by omega⟩
    have hitem := hreads item List.mem_cons_self
    cases items with
    | nil =>
      have hone : commas ([item].map (write floatText)) = write floatText item := List.intercalate_singleton
      rw [hone] at hfuel ⊢
      apply scanItems_last
      exact hitem fuel _ (by omega) fun c hc => .inr (.inl (Option.some.inj hc).symm)
    | cons next later =>
      have hmap : (next :: later).map (write floatText) ≠ [] := by simp
      rw [List.map_cons, commas_cons hmap, List.length_append, List.length_cons] at hfuel
      rw [List.map_cons, commas_cons hmap, List.append_assoc, List.cons_append]
      apply scanItems_next (hitem fuel _ (by omega) fun c hc => .inl (Option.some.inj hc).symm)
      have hopens := opens_commas (opens_write floatText (hplain next (by simp))) (later.map (write floatText))
      rw [List.map_cons, hopens.skipSpace]
      exact ih (by simp) (fun i hi => hplain i (List.mem_cons_of_mem _ hi)) (fun i hi => hreads i (List.mem_cons_of_mem _ hi))
        (by rw [List.map_cons] at hfuel ⊢; omega)

theorem scanFields_field {key : String} {value : Json} {fuel : Nat} (hplain : Plain value)
    (h : scanValue floatOf fuel (write floatText value ++ rest) = some (value, rest)) :
    scanFields floatOf (fuel + 1) (writeField (key, write floatText value) ++ rest) =
      if (skipSpace rest).head? = some '\x7d' then some ([(key, value)], (skipSpace rest).tail)
      else if (skipSpace rest).head? = some ',' then
        (scanFields floatOf fuel (skipSpace (skipSpace rest).tail)).map fun read => ((key, value) :: read.1, read.2)
      else none := by
  have htext : writeField (key, write floatText value) ++ rest =
      '"' :: (key.toList.flatMap escaped ++ '"' :: ':' :: (write floatText value ++ rest)) := by
    simp [writeField, writeString]
  have hlength : key.toList.length < (key.toList.flatMap escaped ++ '"' :: ':' :: (write floatText value ++ rest)).length + 1 := by
    have := length_le_escaped key.toList
    rw [List.length_append]
    omega
  rw [htext, scanFields, if_neg (by decide), scanString_written _ _ hlength, Option.bind_eq_bind, Option.bind_some]
  dsimp only
  rw [skipSpace_cons (by decide), List.head?_cons, if_neg (by decide), List.tail_cons,
    (opens_write floatText hplain).skipSpace, h, Option.bind_eq_bind, Option.bind_some, String.ofList_toList]
  dsimp only
  cases scanFields floatOf fuel (skipSpace (skipSpace rest).tail) <;> rfl

theorem writeField_opens (field : String × List Char) : Opens (writeField field) := opens_cons (by decide)

theorem scanFields_written (hne : fields ≠ []) (hplain : ∀ f ∈ fields, Plain f.2)
    (hreads : ∀ f ∈ fields, Reads floatText floatOf f.2) {fuel : Nat} (rest : List Char)
    (hfuel : (commas (fields.map fun f => writeField (f.1, write floatText f.2))).length < fuel) :
    scanFields floatOf fuel (commas (fields.map fun f => writeField (f.1, write floatText f.2)) ++ '\x7d' :: rest) =
      some (fields, rest) := by
  induction fields generalizing fuel with
  | nil => exact absurd rfl hne
  | cons field fields ih =>
    obtain ⟨fuel, rfl⟩ : ∃ n, fuel = n + 1 := ⟨fuel - 1, by omega⟩
    obtain ⟨key, value⟩ := field
    have hvalue := hreads (key, value) List.mem_cons_self
    have hkey : (writeField (key, write floatText value)).length = (writeString key).length + ((write floatText value).length + 1) := by
      rw [writeField, List.length_append, List.length_cons]
    cases fields with
    | nil =>
      have hone : commas ([(key, value)].map fun f => writeField (f.1, write floatText f.2)) =
          writeField (key, write floatText value) := List.intercalate_singleton
      rw [hone] at hfuel ⊢
      have hend : Ends ('\x7d' :: rest) := fun c hc => .inr (.inr (Option.some.inj hc).symm)
      rw [scanFields_field (hplain _ List.mem_cons_self) (hvalue fuel _ (by dsimp only; omega) hend),
        skipSpace_cons (by decide), List.head?_cons, if_pos rfl]
      rfl
    | cons next later =>
      have hmap : ((next :: later).map fun f => writeField (f.1, write floatText f.2)) ≠ [] := by simp
      rw [List.map_cons, commas_cons hmap, List.length_append, List.length_cons] at hfuel
      rw [List.map_cons, commas_cons hmap, List.append_assoc, List.cons_append]
      have hopens := opens_commas (writeField_opens (next.1, write floatText next.2))
        (later.map fun f => writeField (f.1, write floatText f.2))
      have hmore := @ih (by simp) (fun f hf => hplain f (List.mem_cons_of_mem _ hf))
        (fun f hf => hreads f (List.mem_cons_of_mem _ hf)) fuel (by dsimp only at hfuel; omega)
      have hend : Ends (',' :: (commas ((next :: later).map fun f => writeField (f.1, write floatText f.2)) ++ '\x7d' :: rest)) :=
        fun c hc => .inl (Option.some.inj hc).symm
      rw [scanFields_field (hplain _ List.mem_cons_self) (hvalue fuel _ (by dsimp only at hfuel ⊢; omega) hend),
        skipSpace_cons (by decide), List.head?_cons, if_neg (by decide), if_pos rfl, List.tail_cons, List.map_cons,
        hopens.skipSpace]
      rw [List.map_cons] at hmore
      rw [hmore]
      rfl

theorem lookup_setField (document : Document) (key : String) (value : Json) :
    (setField document (key, value)).lookup key = some value := by
  rw [setField]
  induction document with
  | nil => simp
  | cons field rest ih =>
    by_cases hfield : field.1 = key
    · simp [hfield]
    · have hkey : (key == field.1) = false := beq_false_of_ne (Ne.symm hfield)
      simp only [List.any_cons, hfield, decide_false, Bool.false_or, List.map_cons, if_false, List.cons_append] at ih ⊢
      split_ifs at ih ⊢ <;> rw [List.lookup_cons, hkey] <;> exact ih

theorem lookup_setField_ne {key other : String} (h : other ≠ key) (document : Document) (value : Json) :
    (setField document (key, value)).lookup other = document.lookup other := by
  have hreplaced : ∀ fields : Document, (fields.map fun f => if f.1 = key then (key, value) else f).lookup other = fields.lookup other := by
    intro fields
    induction fields with
    | nil => rfl
    | cons field rest ih =>
      rw [List.map_cons, List.lookup_cons, List.lookup_cons, ih]
      by_cases hfield : field.1 = key
      · rw [if_pos hfield, hfield, beq_false_of_ne h]
      · rw [if_neg hfield]
  have hadded : ∀ fields : Document, (fields ++ [(key, value)]).lookup other = fields.lookup other := by
    intro fields
    induction fields with
    | nil => rw [List.nil_append, List.lookup_cons, beq_false_of_ne h]
    | cons field rest ih => rw [List.cons_append, List.lookup_cons, List.lookup_cons, ih]
  rw [setField]
  split_ifs
  · exact hreplaced document
  · exact hadded document

theorem foldl_setField {document : Document} (h : (document ++ fields).Pairwise fun f g => f.1 ≠ g.1) :
    fields.foldl setField document = document ++ fields := by
  induction fields generalizing document with
  | nil => rw [List.foldl_nil, List.append_nil]
  | cons field fields ih =>
    have hnew : (document.any fun f => f.1 = field.1) = false := by
      apply List.any_eq_false.mpr
      intro f hf
      rw [decide_eq_true_eq]
      exact (List.pairwise_append.mp h).2.2 f hf field List.mem_cons_self
    have hset : setField document field = document ++ [field] := by
      rw [setField, hnew, if_neg Bool.false_ne_true]
    rw [List.foldl_cons, hset, ih, List.append_assoc, List.singleton_append]
    rwa [List.append_assoc, List.singleton_append]

theorem dict_eq (h : fields.Pairwise fun f g => f.1 ≠ g.1) : dict fields = fields :=
  foldl_setField h

theorem reads_int (value : Int) : Reads floatText floatOf (.int value) := by
  intro fuel _ hfuel hrest
  have hnumber := scanNumber_written floatOf value hrest
  rw [write_int] at hfuel ⊢
  have hne : writeInt value ≠ [] := by
    cases value with
    | ofNat => exact Nat.toDigits_ne_nil
    | negSucc => exact List.cons_ne_nil _ _
  obtain ⟨c, _, hc⟩ := List.exists_cons_of_ne_nil hne
  have hstarts : c ≠ '"' ∧ c ≠ '\x7b' ∧ c ≠ '[' := by
    cases value with
    | ofNat n =>
      have hdigit : c.isDigit = true := by
        apply Nat.isDigit_of_mem_toDigits (b := 10) (n := n) (by decide) (by decide)
        change c ∈ writeInt (.ofNat n)
        rw [hc]
        exact List.mem_cons_self
      refine ⟨?_, ?_, ?_⟩ <;> rintro rfl <;> exact absurd hdigit (by decide)
    | negSucc =>
      obtain rfl : '-' = c := (List.cons.inj hc).1
      decide
  rw [hc] at hnumber hfuel ⊢
  obtain ⟨fuel, rfl⟩ : ∃ n, fuel = n + 1 := ⟨fuel - 1, by rw [List.length_cons] at hfuel; omega⟩
  rw [List.cons_append] at hnumber ⊢
  rw [scanValue_other floatOf hstarts.1 hstarts.2.1 hstarts.2.2, hnumber]
  rfl

theorem reads_string (value : String) : Reads floatText floatOf (.string value) := by
  intro fuel rest hfuel _
  rw [write_string, writeString] at hfuel ⊢
  obtain ⟨fuel, rfl⟩ : ∃ n, fuel = n + 1 := ⟨fuel - 1, by rw [List.length_cons] at hfuel; omega⟩
  have hlength : value.toList.length < (value.toList.flatMap escaped ++ '"' :: rest).length + 1 := by
    have := length_le_escaped value.toList
    rw [List.length_append]
    omega
  rw [List.cons_append, List.append_assoc, List.singleton_append, scanValue_string, scanString_written _ _ hlength,
    Option.bind_some, String.ofList_toList]

theorem reads_array {items : List Json} (hplain : ∀ item ∈ items, Plain item)
    (hreads : ∀ item ∈ items, Reads floatText floatOf item) : Reads floatText floatOf (.array items) := by
  intro fuel rest hfuel _
  rw [write_array] at hfuel ⊢
  rw [List.length_cons, List.length_append, List.length_singleton] at hfuel
  obtain ⟨fuel, rfl⟩ : ∃ n, fuel = n + 1 := ⟨fuel - 1, by omega⟩
  rw [List.cons_append, List.append_assoc, List.singleton_append, scanValue_array]
  cases items with
  | nil =>
    have hempty : commas ([].map (write floatText)) ++ ']' :: rest = ']' :: rest := rfl
    rw [hempty, skipSpace_cons (by decide), List.head?_cons, if_pos rfl]
    rfl
  | cons item items =>
    have hopens := opens_commas (opens_write floatText (hplain item List.mem_cons_self)) (items.map (write floatText))
    have hhead : (commas ((item :: items).map (write floatText)) ++ ']' :: rest).head? ≠ some ']' := by
      obtain ⟨_, _, hc, _, hclose, _⟩ := hopens
      rw [List.map_cons, hc]
      exact fun h => hclose (Option.some.inj h)
    rw [List.map_cons, hopens.skipSpace, ← List.map_cons, if_neg hhead,
      scanItems_written (by simp) hplain hreads rest (by omega), Option.bind_some]

theorem reads_object (hkeys : fields.Pairwise fun f g => f.1 < g.1) (hplain : ∀ f ∈ fields, Plain f.2)
    (hreads : ∀ f ∈ fields, Reads floatText floatOf f.2) : Reads floatText floatOf (.object fields) := by
  intro fuel rest hfuel _
  have hsorted : (sortedFields (fields.map fun f => (f.1, write floatText f.2))).map writeField =
      fields.map fun f => writeField (f.1, write floatText f.2) := by
    have hpairs : (fields.map fun f => (f.1, write floatText f.2)).Pairwise fun f g => f.1 < g.1 := List.pairwise_map.mpr hkeys
    rw [sortedFields_eq hpairs, List.map_map]
    rfl
  rw [write_sorted, hsorted] at hfuel ⊢
  rw [List.length_cons, List.length_append, List.length_singleton] at hfuel
  obtain ⟨fuel, rfl⟩ : ∃ n, fuel = n + 1 := ⟨fuel - 1, by omega⟩
  rw [List.cons_append, List.append_assoc, List.singleton_append, scanValue_object]
  cases fields with
  | nil =>
    have hempty : commas ([].map fun f : String × Json => writeField (f.1, write floatText f.2)) ++ '\x7d' :: rest =
        '\x7d' :: rest := rfl
    rw [hempty, skipSpace_cons (by decide), List.head?_cons, if_pos rfl]
    rfl
  | cons field fields =>
    have hopens := opens_commas (writeField_opens (field.1, write floatText field.2))
      (fields.map fun f => writeField (f.1, write floatText f.2))
    have hhead : (commas ((field :: fields).map fun f => writeField (f.1, write floatText f.2)) ++ '\x7d' :: rest).head? ≠
        some '\x7d' := by
      obtain ⟨_, _, hc, _, _, hclose⟩ := hopens
      rw [List.map_cons, hc]
      exact fun h => hclose (Option.some.inj h)
    have hread := scanFields_written (by simp) hplain hreads rest (Nat.lt_of_succ_lt_succ (by omega : _ < fuel + 1))
    rw [List.map_cons] at hhead hread ⊢
    rw [hopens.skipSpace, if_neg hhead, hread, Option.bind_some, dict_eq (hkeys.imp fun h => ne_of_lt h)]

theorem exists_fuel {v : Json} (h : Plain v) {fuel : Nat} (hfuel : (write floatText v).length ≤ fuel) : ∃ n, fuel = n + 1 := by
  obtain ⟨_, _, hc, _⟩ := opens_write floatText h
  rw [hc, List.length_cons] at hfuel
  exact ⟨fuel - 1, by omega⟩

variable (floatText floatOf)

theorem Plain.reads {v : Json} (h : Plain v) : Reads floatText floatOf v := by
  induction h with
  | null =>
    intro fuel rest hfuel _
    obtain ⟨fuel, rfl⟩ := exists_fuel Plain.null hfuel
    rfl
  | bool value =>
    intro fuel _ hfuel _
    obtain ⟨_, rfl⟩ := exists_fuel (Plain.bool value) hfuel
    cases value <;> rfl
  | int value => exact reads_int value
  | string value => exact reads_string value
  | array hplain ih => exact reads_array hplain ih
  | object hkeys hplain ih => exact reads_object hkeys hplain ih

theorem loads_write {v : Json} (h : Plain v) : loads floatOf (write floatText v) = some v := by
  have hread := h.reads floatText floatOf ((write floatText v).length + 1) [] (Nat.le_succ _)
    (fun c hc => nomatch hc)
  have hopens := (opens_write floatText h).skipSpace []
  rw [List.append_nil] at hread hopens
  rw [loads, hopens, hread]
  rfl

end Values

section Lengths
variable (floatText : ℚ → List Char)

/-- A character that is written as itself, in one octet. -/
def Literal (c : Char) : Prop := 32 ≤ c.toNat ∧ c.toNat < 128 ∧ c ≠ '"' ∧ c ≠ '\\'

instance : DecidablePred Literal := fun c =>
  inferInstanceAs (Decidable (32 ≤ c.toNat ∧ c.toNat < 128 ∧ c ≠ '"' ∧ c ≠ '\\'))

theorem Literal.escaped (h : Literal c) : escaped c = [c] := by
  obtain ⟨hcontrol, _, hquote, hbackslash⟩ := h
  have hnot : ∀ d : Char, d.toNat < 32 → c ≠ d := by
    rintro _ _ rfl
    omega
  rw [JsonText.escaped, if_neg hquote, if_neg hbackslash, if_neg (hnot _ (by decide)), if_neg (hnot _ (by decide)),
    if_neg (hnot _ (by decide)), if_neg (hnot _ (by decide)), if_neg (hnot _ (by decide)), if_neg (Nat.not_lt.mpr hcontrol)]

theorem writeString_literal {text : String} (h : ∀ c ∈ text.toList, Literal c) :
    writeString text = '"' :: (text.toList ++ ['"']) := by
  have hescaped : text.toList.flatMap escaped = text.toList.flatMap fun c => [c] :=
    List.flatMap_congr fun c hc => (h c hc).escaped
  rw [writeString, hescaped, List.flatMap_singleton']

theorem length_escaped_le (c : Char) : (escaped c).length ≤ 6 := by
  unfold escaped
  split_ifs <;> simp

theorem length_writeString_le (text : String) : (writeString text).length ≤ 6 * text.toList.length + 2 := by
  have hchars : ∀ cs : List Char, (cs.flatMap escaped).length ≤ 6 * cs.length := by
    intro cs
    induction cs with
    | nil => exact Nat.le_refl _
    | cons c =>
      have hone := length_escaped_le c
      rw [List.flatMap_cons, List.length_append, List.length_cons]
      omega
  have htext := hchars text.toList
  rw [writeString, List.length_cons, List.length_append, List.length_singleton]
  omega

theorem length_commas (h : parts ≠ []) :
    (commas parts).length + 1 = (parts.map fun part => part.length + 1).sum := by
  induction parts with
  | nil => exact absurd rfl h
  | cons part rest ih =>
    cases rest with
    | nil => rw [commas, List.intercalate_singleton, List.map_singleton, List.sum_singleton]
    | cons =>
      have hrest := ih (List.cons_ne_nil _ _)
      rw [commas_cons (List.cons_ne_nil _ _), List.map_cons, List.sum_cons, ← hrest, List.length_append, List.length_cons]
      omega

theorem mem_commas (h : c ∈ commas parts) : c = ',' ∨ ∃ part ∈ parts, c ∈ part := by
  induction parts with
  | nil => cases h
  | cons part rest ih =>
    cases rest with
    | nil =>
      rw [commas, List.intercalate_singleton] at h
      exact .inr ⟨part, List.mem_cons_self, h⟩
    | cons =>
      rw [commas_cons (List.cons_ne_nil _ _)] at h
      rcases List.mem_append.mp h with h | h
      · exact .inr ⟨part, List.mem_cons_self, h⟩
      · rcases List.mem_cons.mp h with rfl | h
        · exact .inl rfl
        · obtain h | ⟨other, hother, hc⟩ := ih h
          · exact .inl h
          · exact .inr ⟨other, List.mem_cons_of_mem _ hother, hc⟩

theorem write_object (h : (fields.map (·.1)).Pairwise (· < ·)) : write floatText (.object fields) =
    '\x7b' :: (commas (fields.map fun f => writeField (f.1, write floatText f.2)) ++ ['\x7d']) := by
  have hpairs : (fields.map fun f => (f.1, write floatText f.2)).Pairwise fun f g => f.1 < g.1 :=
    List.pairwise_map.mpr (List.pairwise_map.mp h)
  rw [write_sorted, sortedFields_eq hpairs, List.map_map]
  rfl

theorem length_writeInt_le {value : Int} {k : Nat} (hnonneg : 0 ≤ value) (hk : 0 < k) (h : value < 10 ^ k) :
    (writeInt value).length ≤ k := by
  obtain ⟨n, rfl⟩ := Int.eq_ofNat_of_zero_le hnonneg
  exact Nat.toDigits_length 10 n k hk (by exact_mod_cast h)

theorem length_commas_le {limit : Nat} (h : ∀ part ∈ parts, part.length ≤ limit) :
    (commas parts).length ≤ (limit + 1) * parts.length := by
  cases parts with
  | nil => exact Nat.le_refl _
  | cons part rest =>
    have hcommas := length_commas (List.cons_ne_nil part rest)
    have hsum : ((part :: rest).map fun part => part.length + 1).sum ≤ (part :: rest).length • (limit + 1) := by
      rw [← List.length_map (fun part : List Char => part.length + 1)]
      apply List.sum_le_card_nsmul
      intro _ hn
      obtain ⟨part, hpart, rfl⟩ := List.mem_map.mp hn
      exact Nat.succ_le_succ (h part hpart)
    rw [smul_eq_mul, mul_comm] at hsum
    omega

theorem length_field_le {name : String} {value : List Char} {limit : Nat} (hname : name.toList.length ≤ 14) (hvalue : value.length ≤ limit) :
    (writeField (name, value)).length ≤ limit + 87 := by
  have hwritten := length_writeString_le name
  rw [writeField, List.length_append, List.length_cons]
  dsimp only
  omega

end Lengths
section Bytes

inductive Encoding where
  | utf8 | utf8Sig | utf16 | utf16Be | utf16Le | utf32 | utf32Be | utf32Le
  deriving DecidableEq, Repr

/-- `json.detect_encoding`: by the byte order mark, or by where the first octets are zero. -/
def detectEncoding (octets : List UInt8) : Encoding :=
  if [0x00, 0x00, 0xfe, 0xff].isPrefixOf octets || [0xff, 0xfe, 0x00, 0x00].isPrefixOf octets then .utf32
  else if [0xfe, 0xff].isPrefixOf octets || [0xff, 0xfe].isPrefixOf octets then .utf16
  else if [0xef, 0xbb, 0xbf].isPrefixOf octets then .utf8Sig
  else match octets with
    | a :: b :: c :: d :: _ =>
      if a = 0 then if b ≠ 0 then .utf16Be else .utf32Be
      else if b = 0 then if c ≠ 0 ∨ d ≠ 0 then .utf16Le else .utf32Le
      else .utf8
    | [a, b] => if a = 0 then .utf16Be else if b = 0 then .utf16Le else .utf8
    | _ => .utf8

/-- `json.loads` of bytes; `decodeOther` is `bytes.decode` for the other encodings. -/
def loadsBytes (decodeOther : Encoding → List UInt8 → Option (List Char)) (floatOf : List Char → Json) (octets : List UInt8) :
    Option Json := do
  let text ← if detectEncoding octets = .utf8 then Utf8.decode octets else decodeOther (detectEncoding octets) octets
  loads floatOf text

theorem detectEncoding_utf8 {a b : UInt8} (ha : a ≠ 0) (ha' : a < 0x80) (hb : b ≠ 0) (rest : List UInt8) :
    detectEncoding (a :: b :: rest) = .utf8 := by
  have hmark : ∀ m : UInt8, 0x80 ≤ m → (m == a) = false := by
    intro _ hm
    apply beq_false_of_ne
    rintro rfl
    exact absurd ha' (UInt8.not_lt.mpr hm)
  have hzero : ((0 : UInt8) == a) = false := beq_false_of_ne ha.symm
  have hmarks : ((0xff : UInt8) == a) = false ∧ ((0xfe : UInt8) == a) = false ∧ ((0xef : UInt8) == a) = false :=
    ⟨hmark _ (by decide), hmark _ (by decide), hmark _ (by decide)⟩
  unfold detectEncoding
  simp only [List.isPrefixOf, hzero, hmarks, Bool.false_and, Bool.or_false, Bool.false_eq_true, if_false]
  cases rest with
  | nil => simp only [if_neg ha, if_neg hb]
  | cons c rest =>
    cases rest with
    | nil => rfl
    | cons => simp only [if_neg ha, if_neg hb]

/-- A document that starts with two characters of ASCII is read from its bytes. -/
theorem loadsBytes_encode (decodeOther : Encoding → List UInt8 → Option (List Char)) (floatOf : List Char → Json)
    {d : Char} (hc : 0 < c.toNat ∧ c.toNat < 128) (hd : 0 < d.toNat ∧ d.toNat < 128) :
    loadsBytes decodeOther floatOf (Utf8.encode (c :: d :: rest)) = loads floatOf (c :: d :: rest) := by
  have hsplit : Utf8.encode (c :: d :: rest) = UInt8.ofNat c.toNat :: UInt8.ofNat d.toNat :: Utf8.encode rest := by
    have htwo : Utf8.encode [c, d] = [UInt8.ofNat c.toNat, UInt8.ofNat d.toNat] := by
      apply Utf8.encode_ascii
      intro _ he
      simp only [List.mem_cons, List.not_mem_nil, or_false] at he
      rcases he with rfl | rfl
      · exact hc.2
      · exact hd.2
    have happend := Utf8.encode_append [c, d] rest
    rwa [htwo] at happend
  have hoctet : ∀ n : Nat, 0 < n → n < 128 → UInt8.ofNat n ≠ 0 ∧ UInt8.ofNat n < 0x80 := by
    intro n _ hlt
    have htoNat : (UInt8.ofNat n).toNat = n := UInt8.toNat_ofNat_of_lt' (Nat.lt_trans hlt (by decide))
    constructor
    · intro hzero
      rw [hzero] at htoNat
      have : (0 : Nat) = n := htoNat
      omega
    · rw [UInt8.lt_iff_toNat_lt, htoNat]
      exact hlt
  have hutf8 : detectEncoding (Utf8.encode (c :: d :: rest)) = .utf8 := by
    rw [hsplit]
    exact detectEncoding_utf8 (hoctet _ hc.1 hc.2).1 (hoctet _ hc.1 hc.2).2 (hoctet _ hd.1 hd.2).1 _
  rw [loadsBytes, if_pos hutf8, Utf8.decode_encode]
  rfl

end Bytes

end TinyHermes.Lib.JsonText
