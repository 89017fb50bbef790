import TinyHermes.Egress.ForwardedHead
import TinyHermes.Lib.MessageFraming

/-! Whether the body that is copied behind a forwarded head is still the body of that request. -/
namespace TinyHermes.Egress
open Lib Outbound MessageFraming

/-- The head ends at its first empty line, as `readuntil` cuts it from the connection. -/
def IsHead (head : List UInt8) : Prop :=
  ∃ lines, takeLines ((decodeLatin head).length + 1) (decodeLatin head) = some (lines, [])

section Characters
variable {c : Char} {text : List Char}

theorem isTokenChar_ascii (h : isTokenChar c = true) : c.toNat < 128 := by
  simp only [isTokenChar, Bool.or_eq_true, beq_iff_eq, List.contains_iff_mem] at h
  obtain ((h | h) | h) | h := h
  · simp only [Char.isAlphanum, Char.isAlpha, Char.isUpper, Char.isLower, Char.isDigit, Bool.or_eq_true, Bool.and_eq_true,
      decide_eq_true_eq] at h
    change c.val.toNat < 128
    simp only [ge_iff_le, UInt32.le_iff_toNat_le] at h
    rcases h with (⟨_, h⟩ | ⟨_, h⟩) | ⟨_, h⟩ <;> exact Nat.lt_of_le_of_lt h (by decide)
  · have hsigns : ∀ d ∈ "!#$%&*+-.^_|~".toList, d.toNat < 128 := by
      rw [show "!#$%&*+-.^_|~".toList = ['!', '#', '$', '%', '&', '*', '+', '-', '.', '^', '_', '|', '~'] from rfl]
      simp
    exact hsigns c h
  · omega
  · omega

theorem ascii_token : ∀ n < 128, isTokenChar (Char.ofNat n) = true →
    Text.isSpace (Char.ofNat n) = false ∧ lowerLatin (Char.ofNat n) = (Char.ofNat n).toLower ∧
      upperLatin (Char.ofNat n) ≠ [] ∧ (upperLatin (Char.ofNat n)).all isTokenChar = true := by
  decide

theorem token_char (h : isTokenChar c = true) : Text.isSpace c = false ∧ lowerLatin c = c.toLower ∧ upperLatin c ≠ [] ∧
    (upperLatin c).all isTokenChar = true := by
  have hascii := ascii_token c.toNat (isTokenChar_ascii h)
  rw [Char.ofNat_toNat] at hascii
  exact hascii h

theorem upper_token (h : isToken text = true) : isToken (upper text) = true := by
  obtain ⟨hne, hall⟩ := isToken_all h
  rw [isToken, Bool.and_eq_true, Bool.not_eq_true', List.isEmpty_eq_false_iff, List.all_eq_true]
  constructor
  · obtain ⟨c, _, rfl⟩ := List.exists_cons_of_ne_nil hne
    rw [upper, List.flatMap_cons]
    exact List.append_ne_nil_of_left_ne_nil (token_char (hall c List.mem_cons_self)).2.2.1 _
  · intro e he
    obtain ⟨c, hc, he⟩ := List.mem_flatMap.mp he
    exact List.all_eq_true.mp (token_char (hall c hc)).2.2.2 e he

theorem lower_token {w : HeadReading} (h : isToken text = true) : w.lower text = text.map Char.toLower := by
  obtain ⟨_, hall⟩ := isToken_all h
  rw [w.lower_latin]
  · exact List.map_congr_left fun c hc => (token_char (hall c hc)).2.1
  · intro c hc
    have hascii := isTokenChar_ascii (hall c hc)
    omega

theorem strip_token (h : isToken text = true) : Text.stripChars text = text := by
  obtain ⟨_, hall⟩ := isToken_all h
  have hfront : text.dropWhile Text.isSpace = text := by
    cases text with
    | nil => rfl
    | cons c => rw [List.dropWhile_cons_of_neg (by simp [(token_char (hall c List.mem_cons_self)).1])]
  rw [stripChars_eq, hfront, List.rdropWhile_eq_self_iff]
  intro hne
  simp [(token_char (hall _ (List.getLast_mem hne))).1]

end Characters

section Blanks
variable {text : List Char}

theorem blank_space {c : Char} (h : isBlank c = true) : Text.isSpace c = true := by
  rw [isBlank, Bool.or_eq_true, beq_iff_eq, beq_iff_eq] at h
  obtain rfl | rfl := h <;> decide

theorem dropWhile_twice {p q : Char → Bool} (h : ∀ c, p c = true → q c = true) (text : List Char) :
    (text.dropWhile p).dropWhile q = text.dropWhile q := by
  induction text with
  | nil => rfl
  | cons c text ih =>
    by_cases hc : p c = true
    · rw [List.dropWhile_cons_of_pos hc, List.dropWhile_cons_of_pos (h c hc), ih]
    · rw [List.dropWhile_cons_of_neg hc]

theorem dropWhile_rdropWhile {p q : Char → Bool} (h : ∀ c, p c = true → q c = true) (text : List Char) :
    ((text.rdropWhile p).dropWhile q).rdropWhile q = (text.dropWhile q).rdropWhile q := by
  induction text using List.reverseRecOn with
  | nil => rfl
  | append_singleton text c ih =>
    by_cases hc : p c = true
    · rw [List.rdropWhile_concat_pos _ _ _ hc, ih]
      by_cases hall : ∀ d ∈ text, q d = true
      · have hfront : text.dropWhile q = [] := List.dropWhile_eq_nil_iff.mpr hall
        have hfront' : (text ++ [c]).dropWhile q = [] := by
          rw [List.dropWhile_eq_nil_iff]
          intro d hd
          obtain hd | hd := List.mem_append.mp hd
          · exact hall d hd
          · rw [List.mem_singleton.mp hd]
            exact h c hc
        rw [hfront, hfront']
      · have hfront : text.dropWhile q ≠ [] := fun hnil => hall (List.dropWhile_eq_nil_iff.mp hnil)
        rw [List.dropWhile_append, if_neg (by simpa using hfront), List.rdropWhile_concat_pos _ _ _ (h c hc)]
    · rw [List.rdropWhile_concat_neg _ _ _ hc]

theorem strip_trim (text : List Char) : Text.stripChars (trim text) = Text.stripChars text := by
  rw [stripChars_eq, stripChars_eq, trim, dropWhile_rdropWhile fun _ => blank_space, dropWhile_twice fun _ => blank_space]

theorem trim_stripped (h : Text.stripChars text = text) : trim text = text := by
  rw [stripChars_eq] at h
  have hsuffix := List.dropWhile_suffix Text.isSpace (l := text)
  have hlead := List.rdropWhile_prefix Text.isSpace (text.dropWhile Text.isSpace)
  have hfront : text.dropWhile Text.isSpace = text := by
    apply hsuffix.eq_of_length
    have hle := hlead.length_le
    rw [h] at hle
    exact Nat.le_antisymm hsuffix.length_le hle
  rw [hfront] at h
  have hfront' : text.dropWhile isBlank = text := by
    rw [List.dropWhile_eq_self_iff] at hfront ⊢
    exact fun hpos hblank => hfront hpos (blank_space hblank)
  rw [trim, hfront', List.rdropWhile_eq_self_iff]
  rw [List.rdropWhile_eq_self_iff] at h
  exact fun hne hblank => h hne (blank_space hblank)

theorem dropWhile_agree {p q : Char → Bool} (h : ∀ c ∈ text, p c = q c) : text.dropWhile p = text.dropWhile q := by
  induction text with
  | nil => rfl
  | cons c text ih =>
    rw [List.dropWhile_cons, List.dropWhile_cons, h c List.mem_cons_self, ih fun d hd => h d (List.mem_cons_of_mem _ hd)]

theorem strip_trimmed (hspaces : ∀ c ∈ text, Text.isSpace c = true → isBlank c = true) (h : trim text = text) :
    Text.stripChars text = text := by
  have hagree : ∀ c ∈ text, Text.isSpace c = isBlank c := by
    intro c hc
    apply Bool.eq_iff_iff.mpr
    exact ⟨hspaces c hc, blank_space⟩
  have hback : ∀ c ∈ (text.dropWhile isBlank).reverse, Text.isSpace c = isBlank c := by
    intro c hc
    exact hagree c ((List.dropWhile_suffix isBlank).subset (List.mem_reverse.mp hc))
  rw [stripChars_eq, dropWhile_agree hagree, List.rdropWhile, dropWhile_agree hback]
  exact h

theorem mem_trim {c : Char} (hc : c ∈ text) (hblank : isBlank c = false) : c ∈ trim text := by
  have hkept : ∀ {t : List Char}, c ∈ t → c ∈ t.dropWhile isBlank := by
    intro t ht
    rw [← List.takeWhile_append_dropWhile (p := isBlank) (l := t)] at ht
    obtain hdropped | hkept := List.mem_append.mp ht
    · rw [List.mem_takeWhile_imp hdropped] at hblank
      cases hblank
    · exact hkept
  rw [trim, List.rdropWhile, List.mem_reverse]
  exact hkept (List.mem_reverse.mpr (hkept hc))

end Blanks

/-- A field as `_headers` keeps it. -/
def keptField (field : List Char × List Char) : List Char × List Char := (field.1, Text.stripChars field.2)

section Heads
variable {stream line rest : List Char} {lines : List (List Char)} {fields : List (List Char × List Char)} {fuel : Nat}

theorem splitLines_taken (h : takeLine stream = some (line, rest)) : splitLines stream = line :: splitLines rest := by
  induction stream using takeLine.induct generalizing line with
  | case1 => cases h
  | case2 =>
    cases h
    rfl
  | case3 c tail hnot ih =>
    rw [takeLine_cons hnot] at h
    obtain ⟨⟨_, _⟩, htaken, hpair⟩ := Option.map_eq_some_iff.mp h
    cases hpair
    rw [splitLines.eq_3 c tail hnot, ih htaken]
    rfl

theorem splitLines_lines (h : takeLines fuel stream = some (lines, [])) : splitLines stream = lines ++ [[], []] := by
  induction fuel generalizing stream lines with
  | zero => cases h
  | succ fuel ih =>
    obtain ⟨rfl, hempty⟩ | ⟨_, _, _, hline, _, hlater, rfl⟩ := takeLines_succ h
    · rw [splitLines_taken hempty]
      rfl
    · rw [splitLines_taken hline, ih hlater]
      rfl

theorem headers_fields (h : lines.mapM fieldOf = some fields) (rest : List (List Char)) :
    headers (lines ++ [] :: rest) = .ok (fields.map keptField) := by
  induction lines generalizing fields with
  | nil =>
    cases h
    rfl
  | cons line lines ih =>
    rw [List.mapM_cons] at h
    obtain ⟨⟨name, _⟩, hfield, h⟩ := Option.bind_eq_some_iff.mp h
    obtain ⟨_, hlater, h⟩ := Option.bind_eq_some_iff.mp h
    cases h
    obtain ⟨_, rfl, hname, _, rfl⟩ := fieldOf_some hfield
    have hcolon : ':' ∉ name := isToken_not_mem hname rfl
    rw [List.cons_append, headers, if_neg (by simp), partition_line hcolon]
    dsimp only
    rw [ih hlater, strip_token hname, List.map_cons, keptField, strip_trim]
    rfl

theorem decodeLatin_append (left right : List UInt8) : decodeLatin (left ++ right) = decodeLatin left ++ decodeLatin right :=
  List.map_append

end Heads

/-- What a receiver makes sure of when it reads a field. -/
structure FieldSound (field : List Char × List Char) : Prop where
  name : isToken field.1 = true
  value : field.2.all isValueChar = true
  trimmed : trim field.2 = field.2

/-- How the proxy reads a head whose body a receiver finds the end of. -/
structure Read (head : List UInt8) (r : ProxyRequest) (m : Message) : Prop where
  method : isToken r.method = true
  path : r.path ≠ [] ∧ ∀ c ∈ r.path, isVisible c = true
  version : r.version = m.version ∧ isVersion r.version = true
  headers : r.headers = m.fields.map keptField
  names : ∀ field ∈ m.fields, FieldSound field

section Reading
variable {w : HeadReading} {head : List UInt8} {r : ProxyRequest} {m : Message} {lines : List (List Char)}

theorem mapM_fields {lines : List (List Char)} {fields : List (List Char × List Char)} (h : lines.mapM fieldOf = some fields) :
    ∀ field ∈ fields, FieldSound field := by
  induction lines generalizing fields with
  | nil =>
    cases h
    exact fun field hfield => absurd hfield List.not_mem_nil
  | cons line lines ih =>
    rw [List.mapM_cons] at h
    obtain ⟨⟨_, _⟩, hfirst, h⟩ := Option.bind_eq_some_iff.mp h
    obtain ⟨_, hlater, h⟩ := Option.bind_eq_some_iff.mp h
    cases h
    obtain ⟨text, _, hname, hchars, rfl⟩ := fieldOf_some hfirst
    intro field hfield
    obtain rfl | hfield := List.mem_cons.mp hfield
    · refine ⟨hname, ?_, cut_twice isBlank text⟩
      rw [List.all_eq_true] at hchars ⊢
      intro c hc
      have hinside := (List.rdropWhile_prefix isBlank _).subset hc
      exact hchars c ((List.dropWhile_suffix isBlank).subset hinside)
    · exact ih hlater field hfield

theorem parseHead_read (hparse : parseHead w head = .ok r) (htunnel : r.tunnel = false)
    (hlines : takeLines ((decodeLatin head).length + 1) (decodeLatin head) = some (lines, []))
    (hhead : headOf lines = some m) : Read head r m := by
  have hread := parseHead_rewrites hparse htunnel
  have hsplit := splitLines_lines hlines
  cases lines with
  | nil => cases hhead
  | cons =>
    rw [headOf] at hhead
    obtain ⟨⟨method, target, version⟩, hfirst, hhead⟩ := Option.bind_eq_some_iff.mp hhead
    obtain ⟨_, hfields, hhead⟩ := Option.bind_eq_some_iff.mp hhead
    cases hhead
    obtain ⟨hline, hmethod, _, hvisible, hversion⟩ := requestLineOf_some.mp hfirst
    have hrequest : requestLine head = method ++ ' ' :: (target ++ ' ' :: version) := by
      rw [requestLine, hsplit, ← hline]
      rfl
    have hspace : ' ' ∉ target := by
      intro hmem
      cases hvisible ' ' hmem
    have hpieces : partition ' ' (requestLine head) = (method, true, target ++ ' ' :: version) := by
      rw [hrequest, partition_line (isToken_not_mem hmethod rfl)]
    have hmore : partition ' ' (target ++ ' ' :: version) = (target, true, version) := partition_line hspace
    constructor
    · rw [hread.method, hpieces]
      exact upper_token hmethod
    · refine ⟨hread.path_ne, ?_⟩
      intro c hc
      obtain hsign | ⟨hinside, _⟩ := hread.path c hc
      · obtain rfl | rfl := hsign <;> rfl
      · rw [hpieces, hmore] at hinside
        exact hvisible c hinside
    · rw [hread.version, hpieces, hmore]
      exact ⟨rfl, hversion⟩
    · have hheaders := hread.headers
      rw [hsplit, List.cons_append, List.tail_cons, headers_fields hfields] at hheaders
      exact (Except.ok.inj hheaders).symm
    · exact mapM_fields hfields

end Reading

section Sending
variable {w : HeadReading} {head : List UInt8} {r : ProxyRequest} {m : Message}

theorem joined_lines {lines : List (List Char)} (hne : lines ≠ []) :
    "\r\n".toList.intercalate lines ++ "\r\n\r\n".toList = lines.flatMap (· ++ lineEnd) ++ lineEnd := by
  induction lines with
  | nil => exact absurd rfl hne
  | cons line lines ih =>
    cases lines with
    | nil =>
      rw [List.intercalate_singleton, List.flatMap_singleton, List.append_assoc]
      rfl
    | cons =>
      rw [List.intercalate_cons_of_ne_nil (by simp), List.append_assoc, List.append_assoc, ih (by simp)]
      simp only [List.flatMap_cons, List.append_assoc]
      rfl

theorem length_lines (lines : List (List Char)) : lines.length ≤ (lines.flatMap (· ++ lineEnd)).length := by
  induction lines with
  | nil => exact Nat.zero_le _
  | cons =>
    have hend : lineEnd.length = 2 := rfl
    rw [List.flatMap_cons, List.length_append, List.length_append, List.length_cons, hend]
    omega

theorem fieldOf_kept {field : List Char × List Char} (h : FieldSound field) :
    fieldOf ((keptField field).1 ++ ": ".toList ++ (keptField field).2) = some (keptField field) := by
  have hvalue : (' ' :: (keptField field).2).all isValueChar = true := by
    rw [List.all_cons, Bool.and_eq_true]
    refine ⟨rfl, ?_⟩
    rw [List.all_eq_true]
    intro c hc
    exact List.all_eq_true.mp h.value c ((stripChars_inside field.2).subset hc)
  have hline : (keptField field).1 ++ ": ".toList ++ (keptField field).2 = field.1 ++ ':' :: ' ' :: (keptField field).2 := by
    rw [List.append_assoc]
    rfl
  have htrim : trim (' ' :: (keptField field).2) = (keptField field).2 := trim_stripped (stripChars_idempotent field.2)
  rw [hline, fieldOf_line h.name hvalue, htrim]
  rfl

theorem mapM_lines {hs : List (List Char × List Char)} (line : List Char × List Char → List Char)
    (h : ∀ field ∈ hs, fieldOf (line field) = some field) : (hs.map line).mapM fieldOf = some hs := by
  induction hs with
  | nil => rfl
  | cons field hs ih =>
    rw [List.map_cons, List.mapM_cons, h field List.mem_cons_self, ih fun f hf => h f (List.mem_cons_of_mem _ hf)]
    rfl

def sentHead (w : HeadReading) (r : ProxyRequest) : Message where
  method := r.method
  target := r.path
  version := r.version
  fields := r.carried w ++ [closing]
  body := []

theorem Read.carried_sound (h : Read head r m) : ∀ kept ∈ r.carried w, ∃ field ∈ m.fields, FieldSound field ∧ keptField field = kept := by
  intro _ hkept
  have hmem := (List.mem_filter.mp hkept).1
  rw [h.headers] at hmem
  obtain ⟨field, hfield, hsame⟩ := List.mem_map.mp hmem
  exact ⟨field, hfield, h.names field hfield, hsame⟩

theorem Read.headOf (h : Read head r m) : headOf (r.forwardedLines w) = some (sentHead w r) := by
  have hfirst : requestLineOf (r.method ++ ' ' :: r.path ++ ' ' :: r.version) = some (r.method, r.path, r.version) := by
    apply requestLineOf_some.mpr
    refine ⟨by simp, h.method, h.path.1, h.path.2, h.version.2⟩
  have hfields : ((r.carried w).map (fun h => h.1 ++ ": ".toList ++ h.2) ++ ["Connection: close".toList]).mapM fieldOf =
      some (r.carried w ++ [closing]) := by
    have hall : ∀ kept ∈ r.carried w ++ [closing], fieldOf (kept.1 ++ ": ".toList ++ kept.2) = some kept := by
      intro kept hkept
      obtain hkept | hkept := List.mem_append.mp hkept
      · obtain ⟨_, _, hsound, rfl⟩ := h.carried_sound kept hkept
        exact fieldOf_kept hsound
      · rw [List.mem_singleton.mp hkept]
        decide
    have hmapped := mapM_lines (fun kept => kept.1 ++ ": ".toList ++ kept.2) hall
    rw [List.map_append] at hmapped
    exact hmapped
  rw [ProxyRequest.forwardedLines, List.cons_append, MessageFraming.headOf, hfirst]
  simp only [Option.bind_eq_bind, Option.bind_some, hfields]
  rfl

theorem value_no_feed {text : List Char} (h : text.all isValueChar = true) : '\n' ∉ text := by
  intro hmem
  cases List.all_eq_true.mp h '\n' hmem

theorem Read.lines_whole (h : Read head r m) : ∀ line ∈ r.forwardedLines w, line ≠ [] ∧ '\n' ∉ line := by
  intro _ hline
  rw [ProxyRequest.forwardedLines, List.mem_append, List.mem_cons, List.mem_map] at hline
  obtain (rfl | ⟨kept, hkept, rfl⟩) | hline := hline
  · have hpath : '\n' ∉ r.path := by
      intro hmem
      cases h.path.2 '\n' hmem
    have hmethod : '\n' ∉ r.method := isToken_not_mem h.method rfl
    have hversion := (isVersion_chars h.version.2).2.1
    refine ⟨by simp, ?_⟩
    simp [hmethod, hpath, hversion]
  · obtain ⟨field, _, hsound, rfl⟩ := h.carried_sound kept hkept
    have hname : '\n' ∉ field.1 := isToken_not_mem hsound.name rfl
    have hvalue : '\n' ∉ Text.stripChars field.2 := fun hmem =>
      value_no_feed hsound.value ((stripChars_inside field.2).subset hmem)
    refine ⟨by simp, ?_⟩
    simp [keptField, hname, hvalue]
  · rw [List.mem_singleton.mp hline]
    decide

theorem Read.sent (hread : Read head r m) (hforwards : Forwarded w head r) : ∃ sent, r.forwardedHead w = some sent ∧
    takeLines ((decodeLatin sent).length + 1) (decodeLatin sent) = some (r.forwardedLines w, []) := by
  have hlatin : Latin r.method := by
    intro c hc
    have hascii := isTokenChar_ascii ((isToken_all hread.method).2 c hc)
    omega
  have hend : Latin "\r\n\r\n".toList := latin_of_all rfl
  obtain ⟨sent, hsent, hdecoded⟩ := encode_latin ((latin_joined (hforwards.lines_latin (w := w) hlatin)).append hend)
  refine ⟨sent, hsent, ?_⟩
  have hne : r.forwardedLines w ≠ [] := by simp [ProxyRequest.forwardedLines]
  have hjoined := joined_lines hne
  have hlength := length_lines (r.forwardedLines w)
  rw [hdecoded, hjoined]
  have htaken : takeLines (((r.forwardedLines w).flatMap (· ++ lineEnd) ++ lineEnd).length + 1)
      ((r.forwardedLines w).flatMap (· ++ lineEnd) ++ lineEnd ++ []) = some (r.forwardedLines w, []) := by
    apply takeLines_joined hread.lines_whole
    rw [List.length_append]
    omega
  rw [List.append_nil] at htaken
  exact htaken

end Sending

section Framed
variable {w : HeadReading} {head body : List UInt8} {r : ProxyRequest} {m : Message}

theorem decimal_digits {text : List Char} (h : (decimal text).isSome = true) : ∀ c ∈ text, c.isDigit = true := by
  rw [decimal] at h
  split_ifs at h with hdigits
  · rw [Bool.and_eq_true, List.all_eq_true] at hdigits
    exact hdigits.2
  · cases h

theorem givenLength_members {parts : List (List Char)} {n : Nat} (h : givenLength parts = some n) :
    ∀ part ∈ parts, (decimal part).isSome = true := by
  cases parts with
  | nil => exact fun part hpart => absurd hpart List.not_mem_nil
  | cons =>
    rw [givenLength] at h
    split_ifs at h with hsame
    intro part hpart
    obtain rfl | hpart := List.mem_cons.mp hpart
    · rw [h]
      rfl
    · rw [beq_iff_eq.mp (List.all_eq_true.mp hsame part hpart), h]
      rfl

theorem digit_not_space {c : Char} (h : c.isDigit = true) : Text.isSpace c = false := by
  have htoken : isTokenChar c = true := by
    rw [isTokenChar, Char.isAlphanum, h]
    simp
  exact (token_char htoken).1

theorem strip_length {value : List Char} (htrimmed : trim value = value)
    (hmembers : ∀ part ∈ value.splitOn ',', (decimal (trim part)).isSome = true) : Text.stripChars value = value := by
  apply strip_trimmed _ htrimmed
  intro c hc hspace
  obtain rfl | ⟨part, hpart, hc⟩ := mem_splitOn ',' hc
  · cases hspace
  · by_contra hblank
    have hdigit := decimal_digits (hmembers part hpart) c (mem_trim hc (Bool.not_eq_true _ ▸ hblank))
    rw [digit_not_space hdigit] at hspace
    cases hspace

theorem Read.lower_name (h : Read head r m) {field : List Char × List Char} (hfield : field ∈ m.fields) :
    w.lower (keptField field).1 = field.1.map Char.toLower :=
  lower_token (h.names field hfield).name

theorem Read.no_coding (h : Read head r m) : valuesOf "transfer-encoding" (sentHead w r).fields = [] := by
  rw [valuesOf, List.map_eq_nil_iff, List.filter_eq_nil_iff]
  intro kept hkept hname
  rw [beq_iff_eq] at hname
  obtain hkept | hkept := List.mem_append.mp hkept
  · obtain ⟨field, hfield, _, rfl⟩ := h.carried_sound kept hkept
    have hstripped : stripped w (keptField field).1 = true := by
      rw [stripped, h.lower_name hfield]
      have hlower : field.1.map Char.toLower = "transfer-encoding".toList := hname
      rw [hlower]
      decide
    have hkeeps := (List.mem_filter.mp hkept).2
    rw [hstripped] at hkeeps
    cases hkeeps
  · rw [List.mem_singleton.mp hkept] at hname
    revert hname
    decide

theorem Read.lengths (h : Read head r m) : valuesOf "content-length" (sentHead w r).fields =
    (valuesOf "content-length" m.fields).map Text.stripChars := by
  have hclosing : [closing].filter (fun field => field.1.map Char.toLower == "content-length".toList) = [] := by decide
  rw [valuesOf, valuesOf, sentHead, List.filter_append, hclosing, List.append_nil, ProxyRequest.carried, List.filter_filter,
    h.headers, List.filter_map, List.map_map, List.map_map]
  congr 1
  apply List.filter_congr
  intro field hfield
  dsimp only [Function.comp_apply]
  rw [stripped, h.lower_name hfield]
  have hname : (keptField field).1 = field.1 := rfl
  rw [hname]
  by_cases hlength : field.1.map Char.toLower = "content-length".toList
  · rw [hlength]
    decide
  · rw [beq_false_of_ne hlength, Bool.false_and]

theorem Read.coding (h : Read head r m) :
    r.header w "Transfer-Encoding" = none ↔ valuesOf "transfer-encoding" m.fields = [] := by
  have hname : w.lower "Transfer-Encoding".toList = "transfer-encoding".toList := by
    rw [lower_token (by decide)]
    decide
  rw [ProxyRequest.header, Option.map_eq_none_iff, List.find?_eq_none, valuesOf, List.map_eq_nil_iff, List.filter_eq_nil_iff,
    h.headers, List.forall_mem_map, hname]
  constructor
  · intro hnone field hfield
    rw [← h.lower_name (w := w) hfield]
    exact hnone field hfield
  · intro hnone field hfield
    rw [h.lower_name hfield]
    exact hnone field hfield

theorem Read.framing (h : Read head r m) {how : Framing} (hcoding : valuesOf "transfer-encoding" m.fields = [])
    (hhow : framing m.version m.fields = some how) : framing (sentHead w r).version (sentHead w r).fields = some how := by
  have hlengths : (valuesOf "content-length" m.fields).map Text.stripChars = valuesOf "content-length" m.fields := by
    rw [MessageFraming.framing, hcoding] at hhow
    obtain ⟨_, hn, _⟩ := Option.map_eq_some_iff.mp hhow
    have hmembers := givenLength_members hn
    refine (List.map_congr_left ?_).trans (List.map_id _)
    intro _ hvalue
    obtain ⟨field, hfield, rfl⟩ := List.mem_map.mp hvalue
    apply strip_length (h.names field (List.mem_filter.mp hfield).1).trimmed
    intro _ hpart
    exact hmembers _ (List.mem_map_of_mem (List.mem_flatMap.mpr ⟨field.2, hvalue, hpart⟩))
  rw [MessageFraming.framing, hcoding] at hhow
  rw [MessageFraming.framing, h.no_coding, h.lengths, hlengths]
  exact hhow

/-- A body that a receiver finds the end of behind the head of a request is found behind the head that is sent on, as the same body
of the one request, if and only if the head names no coding for it. -/
theorem forwarded_body_iff (hparse : parseHead w head = .ok r) (htunnel : r.tunnel = false) (hcut : IsHead head)
    (hframed : readMessage (decodeLatin (head ++ body)) = some (m, [])) :
    (∃ sent m', r.forwardedHead w = some sent ∧ readMessage (decodeLatin (sent ++ body)) = some (m', []) ∧
      m'.method = r.method ∧ m'.target = r.path ∧ m'.version = r.version ∧ m'.fields = r.carried w ++ [closing] ∧
      m'.body = m.body) ↔ r.header w "Transfer-Encoding" = none := by
  obtain ⟨_, hlines⟩ := hcut
  rw [decodeLatin_append, readMessage_head hlines] at hframed
  obtain ⟨_, how, hhead, hhow, hbody, _⟩ := hframed
  have hread := parseHead_read hparse htunnel hlines hhead
  obtain ⟨sent, hsent, hsentLines⟩ := hread.sent (parseHead_forwards hparse htunnel)
  rw [hread.coding]
  constructor
  · rintro ⟨_, _, hsent', hmessage, _, _, _, _, hsame⟩
    rw [hsent] at hsent'
    cases hsent'
    rw [decodeLatin_append, readMessage_head hsentLines, hread.headOf] at hmessage
    obtain ⟨_, _, hhead', hhow', hbody', _⟩ := hmessage
    cases hhead'
    by_contra hcoding
    -- the coded body is longer than its content, and the receiver of what is sent takes it as it is
    have hchunked : how = .chunked := by
      rw [MessageFraming.framing, if_neg (by simpa using hcoding)] at hhow
      split_ifs at hhow
      exact (Option.some.inj hhow).symm
    rw [MessageFraming.framing, hread.no_coding] at hhow'
    obtain ⟨octets, _, rfl⟩ := Option.map_eq_some_iff.mp hhow'
    rw [takeBody] at hbody'
    split_ifs at hbody' with hshort
    obtain ⟨htake, hdrop⟩ := Prod.mk.inj (Option.some.inj hbody')
    rw [hchunked, takeBody] at hbody
    have hlonger := takeChunked_length hbody
    have hall := List.take_append_drop octets (decodeLatin body)
    rw [htake, hdrop, List.append_nil, hsame] at hall
    rw [← hall] at hlonger
    simp at hlonger
  · intro hcoding
    refine ⟨sent, { sentHead w r with body := m.body }, hsent, ?_, rfl, rfl, rfl, rfl, rfl⟩
    rw [decodeLatin_append, readMessage_head hsentLines]
    refine ⟨sentHead w r, how, hread.headOf, ?_, hbody, rfl⟩
    exact hread.framing hcoding hhow

def postHead (line : String) : List UInt8 := bytesOf ("POST http://a.b/ HTTP/1.1\r\n" ++ line ++ "\r\n\r\n")

def postRequest (name value : String) : ProxyRequest :=
  ⟨"POST".toList, "http".toList, "a.b".toList, 80, "/".toList, "HTTP/1.1".toList, [(name.toList, value.toList)]⟩

def postMessage (name value : String) : Message :=
  ⟨"POST".toList, "http://a.b/".toList, "HTTP/1.1".toList, [(name.toList, value.toList)], "x".toList⟩

theorem length_body_kept : readMessage (decodeLatin (postHead "Content-Length: 1" ++ bytesOf "x")) =
    some (postMessage "Content-Length" "1", []) ∧
    ∃ sent m', (postRequest "Content-Length" "1").forwardedHead plainHeads = some sent ∧
      readMessage (decodeLatin (sent ++ bytesOf "x")) = some (m', []) ∧ m'.method = "POST".toList ∧ m'.body = "x".toList := by
  have hparse : parseHead plainHeads (postHead "Content-Length: 1") = .ok (postRequest "Content-Length" "1") := by decide
  have hcut : IsHead (postHead "Content-Length: 1") :=
    ⟨["POST http://a.b/ HTTP/1.1".toList, "Content-Length: 1".toList], by decide⟩
  have hframed : readMessage (decodeLatin (postHead "Content-Length: 1" ++ bytesOf "x")) =
      some (postMessage "Content-Length" "1", []) := by decide
  obtain ⟨sent, m', hsent, hmessage, hmethod, _, _, _, hbody⟩ :=
    (forwarded_body_iff hparse (by decide) hcut hframed).mpr (by decide)
  exact ⟨hframed, sent, m', hsent, hmessage, hmethod, hbody⟩

theorem chunked_body_lost : IsHead (postHead "Transfer-Encoding: chunked") ∧
    parseHead plainHeads (postHead "Transfer-Encoding: chunked") = .ok (postRequest "Transfer-Encoding" "chunked") ∧
    readMessage (decodeLatin (postHead "Transfer-Encoding: chunked" ++ bytesOf "1\r\nx\r\n0\r\n\r\n")) =
      some (postMessage "Transfer-Encoding" "chunked", []) ∧
    ¬ ∃ sent m', (postRequest "Transfer-Encoding" "chunked").forwardedHead plainHeads = some sent ∧
      readMessage (decodeLatin (sent ++ bytesOf "1\r\nx\r\n0\r\n\r\n")) = some (m', []) ∧ m'.body = "x".toList := by
  refine ⟨⟨["POST http://a.b/ HTTP/1.1".toList, "Transfer-Encoding: chunked".toList], by decide⟩, by decide,
    by decide, ?_⟩
  rintro ⟨_, _, hsent, hmessage, _⟩
  have hhead : (postRequest "Transfer-Encoding" "chunked").forwardedHead plainHeads =
      some (bytesOf "POST / HTTP/1.1\r\nConnection: close\r\n\r\n") := by decide
  rw [hhead] at hsent
  cases hsent
  have hleft : (readMessage (decodeLatin (bytesOf "POST / HTTP/1.1\r\nConnection: close\r\n\r\n" ++
      bytesOf "1\r\nx\r\n0\r\n\r\n"))).map Prod.snd = some "1\r\nx\r\n0\r\n\r\n".toList := by decide
  rw [hmessage] at hleft
  have hnothing : ([] : List Char) = "1\r\nx\r\n0\r\n\r\n".toList := Option.some.inj hleft
  revert hnothing
  decide

end Framed

end TinyHermes.Egress
