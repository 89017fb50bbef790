import TinyHermes.Egress.ForwardedHead
import TinyHermes.Egress.Proxy
import TinyHermes.Tools.OpenApi

/-! The path of an HTTP tool's request: where it stays on the operation that it is made for. -/
namespace TinyHermes.Tools
open Lib Lib.Templates
open Egress (HeadReading urlsplit partition partition_fst_leads)

section Quoting

def isEncodedChar (c : Char) : Bool := c.isAlphanum || c == '-' || c == '.' || c == '_' || c == '~' || c == '%'

theorem hexDigit_encoded : ∀ n < 16, isEncodedChar (hexDigit n) = true := by decide

theorem octet_toNat (b : UInt8) : (Char.ofNat b.toNat).toNat = b.toNat := by
  have hlt := b.toNat_lt
  have hvalid : b.toNat.isValidChar := .inl (by omega)
  rw [Char.ofNat, dif_pos hvalid]
  rfl

theorem unreserved_iff (b : UInt8) : isUnreserved b = true ↔ (0x30 ≤ b.toNat ∧ b.toNat ≤ 0x39) ∨ (0x41 ≤ b.toNat ∧ b.toNat ≤ 0x5A) ∨
    (0x61 ≤ b.toNat ∧ b.toNat ≤ 0x7A) ∨ b.toNat = 0x2D ∨ b.toNat = 0x2E ∨ b.toNat = 0x5F ∨ b.toNat = 0x7E := by
  simp only [isUnreserved, Bool.or_eq_true, Bool.and_eq_true, decide_eq_true_eq, beq_iff_eq, UInt8.le_iff_toNat_le,
    ← UInt8.toNat_inj, or_assoc]
  rfl

theorem isEncodedChar_iff (c : Char) : isEncodedChar c = true ↔ (0x30 ≤ c.toNat ∧ c.toNat ≤ 0x39) ∨ (0x41 ≤ c.toNat ∧ c.toNat ≤ 0x5A) ∨
    (0x61 ≤ c.toNat ∧ c.toNat ≤ 0x7A) ∨ c.toNat = 0x2D ∨ c.toNat = 0x2E ∨ c.toNat = 0x5F ∨ c.toNat = 0x7E ∨ c.toNat = 0x25 := by
  simp only [isEncodedChar, Char.isAlphanum, Char.isAlpha, Char.isUpper, Char.isLower, Char.isDigit, Bool.or_eq_true,
    Bool.and_eq_true, decide_eq_true_eq, ge_iff_le, UInt32.le_iff_toNat_le, beq_iff_eq, ← Char.toNat_inj]
  have hsame : c.val.toNat = c.toNat := rfl
  have hliterals : 'A'.val.toNat = 65 ∧ 'Z'.val.toNat = 90 ∧ 'a'.val.toNat = 97 ∧ 'z'.val.toNat = 122 ∧ '0'.val.toNat = 48 ∧
      '9'.val.toNat = 57 ∧ '-'.toNat = 45 ∧ '.'.toNat = 46 ∧ '_'.toNat = 95 ∧ '~'.toNat = 126 ∧ '%'.toNat = 37 := by decide
  omega

theorem unreserved_encoded {b : UInt8} (h : isUnreserved b = true) : isEncodedChar (Char.ofNat b.toNat) = true := by
  rw [isEncodedChar_iff, octet_toNat]
  have hranges := (unreserved_iff b).mp h
  omega

theorem quoteByte_encoded (b : UInt8) : ∀ c ∈ quoteByte b, isEncodedChar c = true := by
  intro _ hc
  rw [quoteByte] at hc
  split_ifs at hc with hunreserved
  · exact List.mem_singleton.mp hc ▸ unreserved_encoded hunreserved
  · have hlt := b.toNat_lt
    rcases List.mem_cons.mp hc with rfl | hc
    · rfl
    · rcases List.mem_cons.mp hc with rfl | hc
      · exact hexDigit_encoded _ (by omega)
      · exact List.mem_singleton.mp hc ▸ hexDigit_encoded _ (by omega)

theorem quote_encoded (text : List Char) : ∀ c ∈ quote text, isEncodedChar c = true := by
  intro c hc
  obtain ⟨b, _, hc⟩ := List.mem_flatMap.mp hc
  exact quoteByte_encoded b c hc

theorem not_mem_quote {c : Char} (hc : isEncodedChar c = false) (text : List Char) : c ∉ quote text := by
  intro hmem
  rw [quote_encoded text c hmem] at hc
  cases hc

theorem quoteByte_dot {b : UInt8} {rest later : List Char} (h : quoteByte b ++ rest = '.' :: later) : b = 0x2E := by
  rw [quoteByte] at h
  split_ifs at h with hunreserved
  · have hdot := congrArg Char.toNat (List.cons.inj h).1
    rw [octet_toNat] at hdot
    exact UInt8.toNat_inj.mp hdot
  · exact absurd (List.cons.inj h).1 (by decide)

theorem flatMap_dots {octets : List UInt8} {n : Nat} (h : octets.flatMap quoteByte = List.replicate n '.') :
    octets = List.replicate n 0x2E := by
  induction octets generalizing n with
  | nil =>
    cases n with
    | zero => rfl
    | succ => cases h
  | cons b rest ih =>
    cases n with
    | zero =>
      rw [List.flatMap_cons, List.replicate_zero, List.append_eq_nil_iff, quoteByte] at h
      split_ifs at h <;> cases h.1
    | succ n =>
      rw [List.flatMap_cons, List.replicate_succ] at h
      obtain rfl := quoteByte_dot h
      have hrest : rest.flatMap quoteByte = List.replicate n '.' := (List.cons.inj h).2
      rw [ih hrest, List.replicate_succ]

theorem quote_dots {text : List Char} {n : Nat} : quote text = List.replicate n '.' ↔ text = List.replicate n '.' := by
  have hdots : ∀ n, Utf8.encode (List.replicate n '.') = List.replicate n 0x2E := by
    intro n
    induction n with
    | zero => rfl
    | succ n ih =>
      rw [List.replicate_succ, List.replicate_succ, ← ih]
      rfl
  constructor
  · intro h
    exact Utf8.encode_injective ((flatMap_dots h).trans (hdots n).symm)
  · rintro rfl
    have hencode : (List.replicate n '.').flatMap String.utf8EncodeChar = List.replicate n 0x2E := hdots n
    rw [quote, hencode]
    clear hdots hencode
    induction n with
    | zero => rfl
    | succ n ih =>
      rw [List.replicate_succ, List.replicate_succ, List.flatMap_cons, ih]
      rfl

theorem isDots_quote (text : List Char) : isDots (quote text) = isDots text := by
  have hone : quote text = ['.'] ↔ text = ['.'] := @quote_dots text 1
  have htwo : quote text = ['.', '.'] ↔ text = ['.', '.'] := @quote_dots text 2
  rw [Bool.eq_iff_iff, isDots, isDots, Bool.or_eq_true, Bool.or_eq_true, beq_iff_eq, beq_iff_eq, beq_iff_eq, beq_iff_eq, hone, htwo]

theorem quote_eq_nil (text : List Char) : quote text = [] ↔ text = [] := @quote_dots text 0

end Quoting

section Replacing
variable {name value : List Char}

theorem replaceFrom_skip (old new : List Char) (k : Nat) (text : List Char) :
    replaceFrom old new k text = replaceFrom old new 0 (text.drop k) := by
  induction k generalizing text with
  | zero => rfl
  | succ k ih =>
    cases text with
    | nil => rfl
    | cons c rest => exact ih rest

theorem replaceFrom_pass {c : Char} {rest : List Char} (old new : List Char) (h : old.isPrefixOf (c :: rest) = false) :
    replaceFrom old new 0 (c :: rest) = c :: replaceFrom old new 0 rest := by
  rw [replaceFrom, h, if_neg Bool.false_ne_true]

theorem replaceFrom_found {old new after : List Char} (hold : old ≠ []) :
    replaceFrom old new 0 (old ++ after) = new ++ replaceFrom old new 0 after := by
  cases old with
  | nil => exact absurd rfl hold
  | cons a old =>
    have hstarts : (a :: old).isPrefixOf (a :: (old ++ after)) = true := List.isPrefixOf_iff_prefix.mpr (List.prefix_append (a :: old) after)
    rw [List.cons_append, replaceFrom, hstarts, if_pos rfl, replaceFrom_skip]
    simp

theorem replaceFrom_before {before : List Char} (h : ∀ c ∈ before, isBrace c = false) (after : List Char) :
    replaceFrom (written name) value 0 (before ++ after) = before ++ replaceFrom (written name) value 0 after := by
  induction before with
  | nil => rfl
  | cons c rest ih =>
    obtain ⟨hc, hrest⟩ := List.forall_mem_cons.mp h
    have hstarts : (written name).isPrefixOf (c :: (rest ++ after)) = false := by
      rw [Bool.eq_false_iff]
      intro hleads
      have hsame := (List.cons_prefix_cons.mp (List.isPrefixOf_iff_prefix.mp hleads)).1
      rw [← hsame] at hc
      cases hc
    rw [List.cons_append, replaceFrom_pass _ _ hstarts, ih hrest]
    rfl

theorem first_brace {before before' after after' : List Char} {a b : Char} (h : ∀ c ∈ before, isBrace c = false)
    (h' : ∀ c ∈ before', isBrace c = false) (ha : isBrace a = true) (hb : isBrace b = true)
    (hsame : before ++ a :: after = before' ++ b :: after') : before = before' ∧ a = b := by
  induction before generalizing before' with
  | nil =>
    cases before' with
    | nil => exact ⟨rfl, (List.cons.inj hsame).1⟩
    | cons c =>
      have hc := h' c List.mem_cons_self
      rw [← (List.cons.inj hsame).1, ha] at hc
      cases hc
  | cons c rest ih =>
    obtain ⟨hc, hrest⟩ := List.forall_mem_cons.mp h
    cases before' with
    | nil =>
      rw [(List.cons.inj hsame).1, hb] at hc
      cases hc
    | cons =>
      obtain ⟨rfl, htail⟩ := List.cons.inj hsame
      obtain ⟨rfl, hab⟩ := ih hrest (List.forall_mem_cons.mp h').2 htail
      exact ⟨rfl, hab⟩

def only (name value : List Char) (asked : List Char) : Option (List Char) := if asked = name then some value else none

theorem replaceFrom_open {begun after : List Char} (hbegun : ∀ c ∈ begun, isBrace c = false)
    (h : ¬ ∃ later, name ++ '\x7d' :: later = begun ++ after) :
    replaceFrom (written name) value 0 ('\x7b' :: (begun ++ after)) =
      '\x7b' :: (begun ++ replaceFrom (written name) value 0 after) := by
  have hstarts : (written name).isPrefixOf ('\x7b' :: (begun ++ after)) = false := by
    rw [Bool.eq_false_iff]
    intro hleads
    obtain ⟨later, hlater⟩ := (List.cons_prefix_cons.mp (List.isPrefixOf_iff_prefix.mp hleads)).2
    rw [List.append_assoc] at hlater
    exact h ⟨later, hlater⟩
  rw [replaceFrom_pass _ _ hstarts, replaceFrom_before hbegun]

theorem piecesFrom_replaced (hname : ∀ c ∈ name, isBrace c = false) {begun : Option (List Char)} (text : List Char)
    (hbegun : ∀ b, begun = some b → ∀ c ∈ b, isBrace c = false) :
    replaceFrom (written name) value 0 (begun.elim [] ('\x7b' :: ·) ++ text) =
      filled written (assigned (only name value) (piecesFrom begun text)) := by
  induction text generalizing begun with
  | nil =>
    cases begun with
    | none => rfl
    | some begun =>
      have hnone : ¬ ∃ later, name ++ '\x7d' :: later = begun ++ [] := by
        rintro ⟨later, hlater⟩
        rw [List.append_nil] at hlater
        have hclose := hbegun begun rfl '\x7d' (hlater ▸ by simp)
        cases hclose
      have hend : piecesFrom (some begun) [] = ('\x7b' :: begun).map .plain := rfl
      rw [hend, assigned_plain, filled_plain, Option.elim_some, List.cons_append, replaceFrom_open (hbegun begun rfl) hnone]
      exact congrArg _ (List.append_nil begun)
  | cons c rest ih =>
    cases begun with
    | none =>
      by_cases hc : c = '\x7b'
      · subst hc
        exact @ih (some []) (by rintro _ ⟨⟩; exact List.forall_mem_nil _)
      · have hstarts : (written name).isPrefixOf (c :: rest) = false := by
          rw [Bool.eq_false_iff]
          intro hleads
          exact hc (List.cons_prefix_cons.mp (List.isPrefixOf_iff_prefix.mp hleads)).1.symm
        rw [piecesFrom_plain hc, assigned_cons, Piece.assign, List.singleton_append, filled_cons, ← @ih none named_none]
        exact replaceFrom_pass _ _ hstarts
    | some begun =>
      have hplain := hbegun begun rfl
      rw [Option.elim_some]
      rcases brace_cases c with rfl | rfl | hc
      · have hnone : ¬ ∃ later, name ++ '\x7d' :: later = begun ++ '\x7b' :: rest := by
          rintro ⟨later, hlater⟩
          exact absurd (first_brace hname hplain rfl rfl hlater).2 (by decide)
        have hrest := @ih (some []) (by rintro _ ⟨⟩; exact List.forall_mem_nil _)
        rw [piecesFrom_again, assigned_cons, assigned_append, assigned_plain, Piece.assign, List.singleton_append, filled_cons,
          filled_append, filled_plain, ← hrest, List.cons_append, replaceFrom_open hplain hnone]
        rfl
      · by_cases hsame : begun = name
        · subst hsame
          have hfound : '\x7b' :: begun ++ '\x7d' :: rest = written begun ++ rest := by
            rw [written, List.cons_append, List.cons_append, List.append_assoc]
            rfl
          have hne : written begun ≠ [] := List.cons_ne_nil _ _
          rw [hfound, replaceFrom_found hne, piecesFrom_close, assigned_cons, Piece.assign, only, if_pos rfl,
            Option.elim_some, filled_append, filled_plain, ← @ih none named_none]
          rfl
        · have hnone : ¬ ∃ later, name ++ '\x7d' :: later = begun ++ '\x7d' :: rest := by
            rintro ⟨_, hlater⟩
            exact hsame (first_brace hname hplain rfl rfl hlater).1.symm
          have hstarts : (written name).isPrefixOf ('\x7d' :: rest) = false := rfl
          rw [List.cons_append, replaceFrom_open hplain hnone, replaceFrom_pass _ _ hstarts, piecesFrom_close, assigned_cons,
            Piece.assign, only, if_neg hsame, Option.elim_none, List.singleton_append, filled_cons, ← @ih none named_none]
          simp [Piece.fill, written]
      · have hmore := @ih (some (begun ++ [c])) (by
          rintro _ ⟨⟩ d hd
          rcases List.mem_append.mp hd with hd | hd
          · exact hplain d hd
          · exact List.mem_singleton.mp hd ▸ hc)
        rw [piecesFrom_more hc, ← hmore, Option.elim_some]
        simp

theorem replaceFrom_written (hname : ∀ c ∈ name, isBrace c = false) (text : List Char) :
    replaceFrom (written name) value 0 text = filled written (assigned (only name value) (pieces text)) :=
  piecesFrom_replaced hname text named_none

end Replacing

variable {query : List (List Char × List Char)}

section Composing
variable (p : Spelling) {o : HttpOperation} {arguments : Document}

def InPath (o : HttpOperation) (name : List Char) : Prop := (declared o name).map (·.location) = some .path

instance (o : HttpOperation) (name : List Char) : Decidable (InPath o name) := inferInstanceAs (Decidable (_ = _))

def textGiven (arguments : Document) (name : List Char) : Option (List Char) :=
  (arguments.lookup (String.ofList name)).bind fun value => (rendered p (String.ofList name) value).toOption

def pathValue (o : HttpOperation) (arguments : Document) (name : List Char) : Option (List Char) :=
  if InPath o name then (textGiven p arguments name).map quote else none

variable {p}

theorem quote_unbraced (text : List Char) : ∀ c ∈ quote text, isBrace c = false := by
  intro _ hc
  rw [isBrace, Bool.or_eq_false_iff, beq_eq_false_iff_ne, beq_eq_false_iff_ne]
  constructor
  · rintro rfl
    exact not_mem_quote rfl text hc
  · rintro rfl
    exact not_mem_quote rfl text hc

theorem pathValue_unbraced (name value : List Char) (h : pathValue p o arguments name = some value) : ∀ c ∈ value, isBrace c = false := by
  rw [pathValue] at h
  split_ifs at h
  obtain ⟨text, _, rfl⟩ := Option.map_eq_some_iff.mp h
  exact quote_unbraced text

theorem place_ok {path : List Char} {key : String} {value : Json}
    {next : List Char × List (List Char × List Char)} (h : place p o (path, query) (key, value) = .ok next) :
    ∃ text, rendered p key value = .ok text ∧
      next.1 = if InPath o key.toList then replaceFrom (written key.toList) (quote text) 0 path else path := by
  rw [place] at h
  obtain ⟨text, htext, h⟩ := Fallible.bind_ok.mp h
  refine ⟨text, htext, ?_⟩
  dsimp only at h
  split at h
  · rename_i hin
    have hinside : InPath o key.toList := hin
    rw [if_pos hinside]
    exact (congrArg Prod.fst (Except.ok.inj h)).symm
  · rename_i hout
    have houtside : ¬ InPath o key.toList := hout
    rw [if_neg houtside]
    exact (congrArg Prod.fst (Except.ok.inj h)).symm

theorem textGiven_cons (key : String) (value : Json) (rest : Document) (name : List Char) : textGiven p ((key, value) :: rest) name =
    if name = key.toList then (rendered p key value).toOption else textGiven p rest name := by
  rw [textGiven, List.lookup_cons]
  by_cases hname : name = key.toList
  · subst hname
    rw [if_pos rfl, String.ofList_toList, beq_self_eq_true]
    rfl
  · have hkey : (String.ofList name == key) = false := by
      rw [beq_eq_false_iff_ne]
      rintro rfl
      exact hname String.toList_ofList.symm
    rw [if_neg hname, hkey]
    rfl

theorem pathValue_cons {key : String} {value : Json} {rest : Document} {text : List Char} (htext : rendered p key value = .ok text)
    (name : List Char) : pathValue p o ((key, value) :: rest) name =
      (if InPath o key.toList then only key.toList (quote text) name else none).or (pathValue p o rest name) := by
  rw [pathValue, pathValue, textGiven_cons, htext]
  by_cases hname : name = key.toList
  · subst hname
    rw [if_pos rfl]
    split_ifs
    · rw [only, if_pos rfl]
      rfl
    · rfl
  · rw [if_neg hname]
    have hnot : (if InPath o key.toList then only key.toList (quote text) name else none) = none := by
      split_ifs
      · exact if_neg hname
      · rfl
    rw [hnot, Option.none_or]

theorem placed_path {parts : List Piece} (hnamed : Named parts) (happart : Apart parts)
    (hkeys : ∀ argument ∈ arguments, ∀ c ∈ argument.1.toList, isBrace c = false)
    {placed : List Char × List (List Char × List Char)}
    (h : arguments.foldlM (place p o) (filled written parts, query) = .ok placed) :
    placed.1 = filled written (assigned (pathValue p o arguments) parts) := by
  induction arguments generalizing parts query with
  | nil =>
    have hnone : pathValue p o [] = fun _ => none := by
      funext name
      exact ite_self _
    rw [hnone, assigned_none, ← Except.ok.inj h]
  | cons argument rest ih =>
    obtain ⟨key, value⟩ := argument
    obtain ⟨hkey, hrest⟩ := List.forall_mem_cons.mp hkeys
    obtain ⟨next, hplace, h⟩ := Fallible.foldlM_cons_ok.mp h
    obtain ⟨text, htext, hpath⟩ := place_ok hplace
    have hvalues : pathValue p o ((key, value) :: rest) = fun name =>
        (if InPath o key.toList then only key.toList (quote text) name else none).or (pathValue p o rest name) := by
      funext name
      exact pathValue_cons htext name
    obtain ⟨_, _⟩ := next
    dsimp only at hpath
    by_cases hin : InPath o key.toList
    · have honly : ∀ name found, only key.toList (quote text) name = some found → ∀ c ∈ found, isBrace c = false := by
        intro _ _ hfound
        rw [only] at hfound
        split_ifs at hfound
        exact Option.some.inj hfound ▸ quote_unbraced text
      rw [if_pos hin, replaceFrom_written hkey, pieces_filled hnamed happart] at hpath
      subst hpath
      rw [ih hnamed.assigned (happart.assigned honly) hrest h, assigned_assigned, hvalues]
      simp only [if_pos hin]
    · rw [if_neg hin] at hpath
      subst hpath
      rw [ih hnamed happart hrest h, hvalues]
      simp only [if_neg hin, Option.none_or]

end Composing

section Staying
variable {p : Spelling} {name : List Char}

theorem argumentName_plain (h : isArgumentName name = true) :
    ∀ c ∈ name, c.isAlphanum = true ∨ c = '_' ∨ c = '.' ∨ c = '-' ∨ c = '\n' := by
  have hcut : ∀ (first : Char) (rest : List Char),
      ((first.isAlpha || first == '_') && rest.all fun d => d.isAlphanum || d == '_' || d == '.' || d == '-') = true →
      ∀ c ∈ first :: rest, c.isAlphanum = true ∨ c = '_' ∨ c = '.' ∨ c = '-' ∨ c = '\n' := by
    intro first rest htext c hc
    obtain ⟨hfirst, hrest⟩ := Bool.and_eq_true_iff.mp htext
    rcases List.mem_cons.mp hc with rfl | hc
    · rcases Bool.or_eq_true_iff.mp hfirst with halpha | hdash
      · exact .inl (by rw [Char.isAlphanum, halpha]; rfl)
      · exact .inr (.inl (beq_iff_eq.mp hdash))
    · have hone := List.all_eq_true.mp hrest c hc
      simp only [Bool.or_eq_true, beq_iff_eq] at hone
      tauto
  intro c hc
  rw [isArgumentName] at h
  by_cases hlast : name.getLast? = some '\n'
  · rw [hlast, beq_self_eq_true, if_pos rfl] at h
    have hwhole := List.dropLast_append_getLast? '\n' hlast
    rw [← hwhole] at hc
    rcases List.mem_append.mp hc with hc | hc
    · cases hfront : name.dropLast with
      | nil =>
        rw [hfront] at hc
        cases hc
      | cons first rest =>
        rw [hfront] at h hc
        exact hcut first rest h c hc
    · exact .inr (.inr (.inr (.inr (List.mem_singleton.mp hc))))
  · rw [if_neg (by simpa using hlast)] at h
    cases name with
    | nil => cases hc
    | cons first rest => exact hcut first rest h c hc

theorem not_mem_argumentName (h : isArgumentName name = true) {c : Char} (halphanum : c.isAlphanum = false)
    (hother : c ≠ '_' ∧ c ≠ '.' ∧ c ≠ '-' ∧ c ≠ '\n') : c ∉ name := by
  intro hc
  rcases argumentName_plain h c hc with hc | hc | hc | hc | hc
  · rw [halphanum] at hc
    cases hc
  · exact hother.1 hc
  · exact hother.2.1 hc
  · exact hother.2.2.1 hc
  · exact hother.2.2.2 hc

theorem argumentName_unbraced (h : isArgumentName name = true) : ∀ c ∈ name, isBrace c = false := by
  intro _ hc
  rw [isBrace, Bool.or_eq_false_iff, beq_eq_false_iff_ne, beq_eq_false_iff_ne]
  constructor
  · rintro rfl
    exact not_mem_argumentName h rfl (by decide) hc
  · rintro rfl
    exact not_mem_argumentName h rfl (by decide) hc

theorem composed_url {b : BoundOperation} {body : Option Json} {path : List Char}
    {plan : HttpRequestPlan} (h : composed p b body path query = .ok plan) :
    ∃ url, joined p b.baseUrl path = .ok url ∧ plan.url = if query.isEmpty then url else url ++ '?' :: urlencode query := by
  rw [composed] at h
  by_cases hbody : (body.isSome != b.operation.bodySchema.isSome) = true
  · rw [if_pos hbody] at h
    cases h
  · rw [if_neg hbody] at h
    obtain ⟨url, hurl, h⟩ := Fallible.bind_ok.mp h
    exact ⟨url, hurl, (congrArg HttpRequestPlan.url (Except.ok.inj h)).symm⟩

/-- What stands in a URL behind a beginning of it, up to the query or the fragment. -/
def pathBehind (start url : List Char) : List Char := (url.drop start.length).takeWhile fun c => c != '?' && c != '#'

def origin (parts : Egress.SplitResult) : List Char := parts.scheme ++ "://".toList ++ parts.netloc

def basePath (parts : Egress.SplitResult) : List Char := parts.path.rdropWhile (· == '/')

def unbodied (call : ToolCallBlock) : Document := call.arguments.filter (·.1 != "body")

structure AcceptedRequest (p : Spelling) where
  reading : DescriptionReading
  description : List Char
  document : OpenApiDocument
  parsed : parseDocument reading description = .ok document
  operation : DescribedOperation
  offered : operation ∈ document.operations
  binding : BoundOperation
  binds : binding.operation = operation.toHttp
  bound : List BoundOperation
  call : ToolCallBlock
  named : bound.find? (·.callName == call.name) = some binding
  plan : HttpRequestPlan
  accepted : httpCallOf p call bound = .ok plan

namespace AcceptedRequest
variable (a : AcceptedRequest p)

/-- The URL's path is the base path and the operation's, each hole filled with one segment that is neither empty nor dots, and the
removal of dot segments leaves it alone. -/
def Stays : Prop :=
  ∃ parts values, urlsplit p.toHeadReading a.binding.baseUrl = .ok parts ∧
    (∀ name ∈ holes a.operation.path, ∃ text, textGiven p a.call.arguments name = some text ∧ values name = quote text ∧
      values name ≠ [] ∧ isDots (values name) = false ∧ '/' ∉ values name) ∧
    (let own := filled values (pieces a.operation.path)
     origin parts <+: a.plan.url ∧ pathBehind (origin parts) a.plan.url = basePath parts ++ own ∧ holes own = [] ∧ '?' ∉ own ∧
      '#' ∉ own ∧ removeDotSegments (basePath parts ++ own) = basePath parts ++ own)

structure Fits : Prop where
  base : ∀ parts, urlsplit p.toHeadReading a.binding.baseUrl = .ok parts → ∀ segment ∈ (basePath parts).splitOn '/', isDots segment = false
  apart : Apart (pieces a.operation.path)
  undotted : ['.'] ∉ a.operation.path.splitOn '/'
  unqueried : '?' ∉ a.operation.path ∧ '#' ∉ a.operation.path
  given : ∀ name ∈ holes a.operation.path, InPath a.operation.toHttp name ∧
    ∃ text, textGiven p (unbodied a.call) name = some text ∧ text ≠ [] ∧ isDots text = false

variable {a}

theorem requestPlan_ok : requestPlan p a.binding a.call = .ok a.plan := by
  have haccepted := a.accepted
  rwa [httpCallOf_found a.named] at haccepted

theorem url_eq : ∃ parts placed later, urlsplit p.toHeadReading a.binding.baseUrl = .ok parts ∧
    (unbodied a.call).foldlM (place p a.operation.toHttp) (a.operation.path, []) = .ok placed ∧
    (∀ c, later.head? = some c → c = '?') ∧ a.plan.url = origin parts ++ (basePath parts ++ placed.1 ++ later) := by
  have haccepted := requestPlan_ok (a := a)
  rw [requestPlan] at haccepted
  dsimp only at haccepted
  split at haccepted
  · cases haccepted
  · rw [a.binds] at haccepted
    obtain ⟨placed, hplaced, hcomposed⟩ := Fallible.bind_ok.mp haccepted
    obtain ⟨url, hurl, hwhole⟩ := composed_url hcomposed
    rw [joined] at hurl
    split at hurl
    · cases hurl
    · rename_i parts hparts
      have hurl : url = origin parts ++ (basePath parts ++ placed.1) := by
        rw [← Except.ok.inj hurl, origin, basePath]
        simp only [List.append_assoc]
      refine ⟨parts, placed, if placed.2.isEmpty then [] else '?' :: urlencode placed.2, hparts, hplaced, ?_, ?_⟩
      · intro _ hc
        split_ifs at hc
        · cases hc
        · exact (Option.some.inj hc).symm
      · rw [hwhole, hurl]
        split_ifs
        · rw [List.append_nil]
        · simp only [List.append_assoc]

theorem names_plain {argument : String × Json} (h : argument ∈ unbodied a.call) : isArgumentName argument.1.toList = true := by
  have haccepted := requestPlan_ok (a := a)
  rw [requestPlan] at haccepted
  dsimp only at haccepted
  split at haccepted
  · cases haccepted
  · rename_i hnamed
    rw [misnamed] at hnamed
    split_ifs at hnamed
    simpa using List.find?_eq_none.mp hnamed argument.1 (List.mem_map_of_mem h)

end AcceptedRequest

theorem lookup_unbodied (document : Document) (key : String) :
    (document.filter (·.1 != "body")).lookup key = if key = "body" then none else document.lookup key := by
  induction document with
  | nil => exact (ite_self _).symm
  | cons field rest ih =>
    rw [List.filter_cons]
    by_cases hbody : field.1 = "body"
    · rw [if_neg (by simpa using hbody), ih, List.lookup_cons]
      split_ifs with hkey
      · rfl
      · rw [hbody, beq_false_of_ne hkey]
    · rw [if_pos (by simpa using hbody), List.lookup_cons, List.lookup_cons, ih]
      by_cases hfield : key = field.1
      · rw [hfield, beq_self_eq_true]
        exact (if_neg hbody).symm
      · rw [beq_false_of_ne hfield]

theorem not_mem_written {c : Char} (hbrace : isBrace c = false) (h : c ∉ name) : c ∉ written name := by
  intro hc
  rcases List.mem_cons.mp hc with rfl | hc
  · cases hbrace
  · rcases List.mem_append.mp hc with hc | hc
    · exact h hc
    · rw [List.mem_singleton.mp hc] at hbrace
      cases hbrace

theorem path_behind {start clean later : List Char} (hclean : '?' ∉ clean ∧ '#' ∉ clean)
    (hlater : ∀ c, later.head? = some c → c = '?') : pathBehind start (start ++ (clean ++ later)) = clean := by
  have hkeep : ∀ c ∈ clean, (c != '?' && c != '#') = true := by
    intro c hc
    rw [Bool.and_eq_true, bne_iff_ne, bne_iff_ne]
    constructor
    · rintro rfl
      exact hclean.1 hc
    · rintro rfl
      exact hclean.2 hc
  rw [pathBehind, List.drop_left, List.takeWhile_append_of_pos hkeep]
  cases later with
  | nil => rw [List.takeWhile_nil, List.append_nil]
  | cons c =>
    obtain rfl := hlater c rfl
    exact List.append_nil clean

theorem not_mem_partition (sep : Char) (text : List Char) : sep ∉ (partition sep text).1 := by
  intro hmem
  rw [partition] at hmem
  split at hmem
  · rename_i hnone
    have hall := List.dropWhile_eq_nil_iff.mp hnone sep hmem
    simp at hall
  · have hkept := List.mem_takeWhile_imp hmem
    simp at hkept

theorem basePath_plain {parts : Egress.SplitResult} {url : List Char} (h : urlsplit p.toHeadReading url = .ok parts) :
    '?' ∉ basePath parts ∧ '#' ∉ basePath parts := by
  have hpath : '?' ∉ parts.path ∧ '#' ∉ parts.path := by
    rw [urlsplit] at h
    dsimp only at h
    split_ifs at h <;> cases h <;>
      exact ⟨not_mem_partition _ _, fun hmem => not_mem_partition '#' _ ((partition_fst_leads '?' _).subset hmem)⟩
  have hinside : basePath parts ⊆ parts.path := (List.rdropWhile_prefix _ _).subset
  exact ⟨fun hmem => hpath.1 (hinside hmem), fun hmem => hpath.2 (hinside hmem)⟩

namespace AcceptedRequest
variable {a : AcceptedRequest p}

theorem checked (a : AcceptedRequest p) : Checked a.operation := parseDocument_checked a.parsed _ a.offered

theorem hole_plain (h : .hole name ∈ pieces a.operation.path) : isArgumentName name = true :=
  a.checked.variable (mem_holes.mpr h)

def fills (a : AcceptedRequest p) (name : List Char) : List Char :=
  (pathValue p a.operation.toHttp (unbodied a.call) name).getD (written name)

theorem mem_path {c : Char} (hbrace : isBrace c = false) (h : ∀ name, isArgumentName name = true → c ∉ name) :
    c ∈ a.operation.path ↔ .plain c ∈ pieces a.operation.path := by
  rw [← mem_filled fun name hname => not_mem_written hbrace (h name (hole_plain hname)), pieces_written]

theorem mem_fills {c : Char} (hbrace : isBrace c = false) (hencoded : isEncodedChar c = false)
    (h : ∀ name, isArgumentName name = true → c ∉ name) :
    c ∈ filled a.fills (pieces a.operation.path) ↔ c ∈ a.operation.path := by
  rw [mem_path hbrace h]
  refine mem_filled fun name hname hc => ?_
  have hwritten := not_mem_written hbrace (h name (hole_plain hname))
  rw [fills, pathValue] at hc
  split_ifs at hc
  · cases htext : textGiven p (unbodied a.call) name with
    | none =>
      rw [htext] at hc
      exact hwritten hc
    | some text =>
      rw [htext] at hc
      exact not_mem_quote hencoded text hc
  · exact hwritten hc

theorem slash_not_mem_name (name : List Char) (h : isArgumentName name = true) : '/' ∉ name :=
  not_mem_argumentName h rfl (by decide)

theorem query_not_mem_name (name : List Char) (h : isArgumentName name = true) : '?' ∉ name :=
  not_mem_argumentName h rfl (by decide)

theorem fragment_not_mem_name (name : List Char) (h : isArgumentName name = true) : '#' ∉ name :=
  not_mem_argumentName h rfl (by decide)

theorem path_splitOn (a : AcceptedRequest p) :
    a.operation.path.splitOn '/' = ((pieces a.operation.path).splitOn (.plain '/')).map (filled written) := by
  have hwritten : ∀ name, .hole name ∈ pieces a.operation.path → '/' ∉ written name := fun name hname =>
    not_mem_written rfl (slash_not_mem_name name (hole_plain hname))
  have hsplit := filled_splitOn hwritten
  rwa [pieces_written] at hsplit

theorem filled_rooted (a : AcceptedRequest p) (f : List Char → List Char) : ∃ rest, filled f (pieces a.operation.path) = '/' :: rest := by
  obtain ⟨rest, hrest⟩ := a.checked.rooted
  refine ⟨filled f (pieces rest), ?_⟩
  rw [hrest, pieces, piecesFrom_plain (by decide), filled_cons]
  rfl

theorem segment_hole {segment : List Piece} (hsegment : segment ∈ (pieces a.operation.path).splitOn (.plain '/'))
    (hname : .hole name ∈ segment) : .hole name ∈ pieces a.operation.path :=
  (Paths.mem_iff_mem_splitOn Piece.noConfusion).mpr ⟨segment, hsegment, hname⟩

theorem dots_filled {f : List Char → List Char}
    (hf : ∀ name, .hole name ∈ pieces a.operation.path → f name ≠ [] ∧ isDots (f name) = false ∧ '/' ∉ f name) :
    (∀ segment ∈ (filled f (pieces a.operation.path)).splitOn '/', isDots segment = false) ↔ ['.'] ∉ a.operation.path.splitOn '/' := by
  rw [filled_splitOn fun name hname => (hf name hname).2.2, List.forall_mem_map, path_splitOn]
  constructor
  · intro hnone hdot
    obtain ⟨segment, hsegment, hwritten⟩ := List.mem_map.mp hdot
    have hplain : ∀ name, .hole name ∉ segment := by
      intro name hname
      have hbrace : '\x7b' ∈ filled written segment := List.mem_flatMap.mpr ⟨_, hname, List.mem_cons_self⟩
      rw [hwritten] at hbrace
      cases List.mem_singleton.mp hbrace
    have hsame : filled f segment = filled written segment := filled_congr fun name hname => absurd hname (hplain name)
    have hone := hnone segment hsegment
    rw [hsame, hwritten] at hone
    cases hone
  · intro hdot segment hsegment
    rw [Bool.eq_false_iff]
    intro hdots
    have hplain := no_holes_of_isDots (fun name hname =>
      ⟨(hf name (segment_hole hsegment hname)).1, (hf name (segment_hole hsegment hname)).2.1⟩) hdots
    have hsame : filled f segment = filled written segment := filled_congr fun name hname => absurd hname (hplain name)
    have hmem : filled written segment ∈ ((pieces a.operation.path).splitOn (.plain '/')).map (filled written) :=
      List.mem_map_of_mem hsegment
    rw [hsame] at hdots
    rcases Bool.or_eq_true_iff.mp hdots with hone | htwo
    · rw [beq_iff_eq.mp hone] at hmem
      exact hdot hmem
    · rw [beq_iff_eq.mp htwo, ← path_splitOn] at hmem
      exact a.checked.untraversing hmem

theorem placed_fills (happart : Apart (pieces a.operation.path)) {placed : List Char × List (List Char × List Char)}
    (h : (unbodied a.call).foldlM (place p a.operation.toHttp) (a.operation.path, []) = .ok placed) :
    placed.1 = filled a.fills (pieces a.operation.path) ∧ ∀ name, .hole name ∈ pieces placed.1 ↔
      .hole name ∈ pieces a.operation.path ∧ pathValue p a.operation.toHttp (unbodied a.call) name = none := by
  have hkeys : ∀ argument ∈ unbodied a.call, ∀ c ∈ argument.1.toList, isBrace c = false := fun argument hargument =>
    argumentName_unbraced (names_plain hargument)
  rw [← pieces_written a.operation.path] at h
  have hplaced := placed_path (pieces_named _) happart hkeys h
  refine ⟨hplaced.trans (filled_assigned _ _ _), fun name => ?_⟩
  rw [hplaced, pieces_filled (pieces_named _).assigned (happart.assigned pathValue_unbraced), mem_assigned_hole]

theorem textGiven_unbodied {text : List Char} (h : textGiven p (unbodied a.call) name = some text) :
    textGiven p a.call.arguments name = some text := by
  rw [textGiven, unbodied, lookup_unbodied] at h
  split_ifs at h
  · cases h
  · exact h

theorem path_of_url {parts : Egress.SplitResult} (hparts : urlsplit p.toHeadReading a.binding.baseUrl = .ok parts)
    (happart : Apart (pieces a.operation.path)) (hunqueried : '?' ∉ a.operation.path ∧ '#' ∉ a.operation.path) :
    origin parts <+: a.plan.url ∧
      pathBehind (origin parts) a.plan.url = basePath parts ++ filled a.fills (pieces a.operation.path) ∧
      ∀ name, .hole name ∈ pieces (filled a.fills (pieces a.operation.path)) ↔
        .hole name ∈ pieces a.operation.path ∧ pathValue p a.operation.toHttp (unbodied a.call) name = none := by
  obtain ⟨_, placed, _, hparts', hplaced, hlater, hurl⟩ := url_eq (a := a)
  obtain rfl := Except.ok.inj (hparts.symm.trans hparts')
  obtain ⟨hpath, hholes⟩ := placed_fills happart hplaced
  have hbase := basePath_plain hparts
  have hclean : '?' ∉ basePath parts ++ placed.1 ∧ '#' ∉ basePath parts ++ placed.1 := by
    rw [List.mem_append, not_or, List.mem_append, not_or, hpath]
    exact ⟨⟨hbase.1, fun hmem => hunqueried.1 ((mem_fills rfl rfl query_not_mem_name).mp hmem)⟩,
      ⟨hbase.2, fun hmem => hunqueried.2 ((mem_fills rfl rfl fragment_not_mem_name).mp hmem)⟩⟩
  rw [hurl, path_behind hclean hlater, ← hpath]
  exact ⟨List.prefix_append _ _, rfl, hholes⟩

theorem Stays.fits (h : a.Stays) : a.Fits := by
  obtain ⟨_, values, hparts, hvalues, _, hpath, hnone, hquery, hfragment, hdots⟩ := h
  have happart := apart_of_no_holes hnone
  have hgiven : ∀ name, .hole name ∈ pieces a.operation.path → ∃ text, textGiven p a.call.arguments name = some text ∧
      values name = quote text ∧ values name ≠ [] ∧ isDots (values name) = false ∧ '/' ∉ values name := fun name hname =>
    hvalues name (mem_holes.mpr hname)
  have hunqueried : '?' ∉ a.operation.path ∧ '#' ∉ a.operation.path := by
    rw [mem_path rfl query_not_mem_name, mem_path rfl fragment_not_mem_name]
    exact ⟨fun hmem => hquery (List.mem_flatMap.mpr ⟨_, hmem, List.mem_singleton_self _⟩),
      fun hmem => hfragment (List.mem_flatMap.mpr ⟨_, hmem, List.mem_singleton_self _⟩)⟩
  obtain ⟨_, hurl, hholes⟩ := path_of_url hparts happart hunqueried
  have hsame : filled a.fills (pieces a.operation.path) = filled values (pieces a.operation.path) :=
    List.append_cancel_left (hurl.symm.trans hpath)
  obtain ⟨_, hrest⟩ := a.filled_rooted values
  rw [removeDotSegments_eq_iff, hrest, segments_append (isDots · = false) rfl, ← hrest] at hdots
  refine ⟨?_, happart, ?_, hunqueried, ?_⟩
  · intro _ hparts'
    obtain rfl := Except.ok.inj (hparts.symm.trans hparts')
    exact hdots.1
  · refine (dots_filled fun name hname => ?_).mp hdots.2
    obtain ⟨_, _, _, hne, hnodots, hslash⟩ := hgiven name hname
    exact ⟨hne, hnodots, hslash⟩
  · intro name hname
    have hhole := mem_holes.mp hname
    have hvalue : pathValue p a.operation.toHttp (unbodied a.call) name ≠ none := by
      intro hmissing
      have hleft := (hholes name).mpr ⟨hhole, hmissing⟩
      rw [hsame, ← mem_holes, hnone] at hleft
      cases hleft
    rw [pathValue] at hvalue
    split_ifs at hvalue with hin
    · refine ⟨hin, ?_⟩
      obtain ⟨text, htext⟩ := Option.ne_none_iff_exists'.mp (mt Option.map_eq_none_iff.mpr hvalue)
      obtain ⟨_, htext', hquote, hne, hnodots, _⟩ := hgiven name hhole
      cases (textGiven_unbodied htext).symm.trans htext'
      rw [hquote, isDots_quote] at hnodots
      rw [hquote, Ne, quote_eq_nil] at hne
      exact ⟨text, htext, hne, hnodots⟩
    · exact absurd rfl hvalue

theorem Fits.stays (h : a.Fits) : a.Stays := by
  obtain ⟨parts, _, _, hparts, _, _, _⟩ := url_eq (a := a)
  have hvalues : ∀ name, .hole name ∈ pieces a.operation.path → ∃ text, textGiven p a.call.arguments name = some text ∧
      pathValue p a.operation.toHttp (unbodied a.call) name = some (quote text) ∧ a.fills name = quote text ∧ a.fills name ≠ [] ∧
      isDots (a.fills name) = false ∧ '/' ∉ a.fills name := by
    intro name hname
    obtain ⟨hin, text, htext, hne, hnodots⟩ := h.given name (mem_holes.mpr hname)
    have hvalue : pathValue p a.operation.toHttp (unbodied a.call) name = some (quote text) := by
      rw [pathValue, if_pos hin, htext]
      rfl
    have hfills : a.fills name = quote text := by
      rw [fills, hvalue]
      rfl
    rw [hfills, Ne, quote_eq_nil, isDots_quote]
    exact ⟨text, textGiven_unbodied htext, hvalue, rfl, hne, hnodots, not_mem_quote rfl text⟩
  obtain ⟨hstart, hpath, hholes⟩ := path_of_url hparts h.apart h.unqueried
  refine ⟨parts, a.fills, hparts, fun name hname => ?_, hstart, hpath, ?_, ?_, ?_, ?_⟩
  · obtain ⟨text, htext, _, hrest⟩ := hvalues name (mem_holes.mp hname)
    exact ⟨text, htext, hrest⟩
  · refine List.eq_nil_iff_forall_not_mem.mpr fun name hname => ?_
    obtain ⟨hhole, hnone⟩ := (hholes name).mp (mem_holes.mp hname)
    obtain ⟨_, _, hvalue, _⟩ := hvalues name hhole
    rw [hvalue] at hnone
    cases hnone
  · exact fun hmem => h.unqueried.1 ((mem_fills rfl rfl query_not_mem_name).mp hmem)
  · exact fun hmem => h.unqueried.2 ((mem_fills rfl rfl fragment_not_mem_name).mp hmem)
  · obtain ⟨_, hrest⟩ := a.filled_rooted a.fills
    rw [removeDotSegments_eq_iff, hrest, segments_append (isDots · = false) rfl, ← hrest]
    refine ⟨h.base parts hparts, (dots_filled fun name hname => ?_).mpr h.undotted⟩
    obtain ⟨_, _, _, _, hfilled⟩ := hvalues name hname
    exact hfilled

/-- The request stays on its operation if and only if path and arguments are so. -/
theorem stays_iff (a : AcceptedRequest p) : a.Stays ↔ a.Fits := ⟨Stays.fits, Fits.stays⟩

end AcceptedRequest

def orders : Document :=
  [("info", .object []), ("openapi", .string "3"),
    ("paths", .object [("/o/{id}", .object [("get", .object [("operationId", .string "read"),
      ("parameters", .array [.object [("in", .string "path"), ("name", .string "id")]])])])])]

def plainReading : DescriptionReading where
  floatOf _ := .null
  shown _ := ""
  contentHash _ := ""

def readOrder : DescribedOperation where
  operationId := "read".toList
  method := "GET"
  path := "/o/{id}".toList
  summary := none
  parameters := [{ name := "id".toList, location := .path, required := true, schema := [("type", .string "string")], description := none }]
  bodySchema := none

theorem orders_plain : JsonText.Plain (.object orders) := by
  have hparameter : JsonText.Plain (.object [("in", .string "path"), ("name", .string "id")]) := by
    refine .object (by decide) fun field hfield => ?_
    rcases List.mem_pair.mp hfield with rfl | rfl
    · exact .string _
    · exact .string _
  have hget : JsonText.Plain (.object [("operationId", .string "read"),
      ("parameters", .array [.object [("in", .string "path"), ("name", .string "id")]])]) := by
    refine .object (by decide) fun field hfield => ?_
    rcases List.mem_pair.mp hfield with rfl | rfl
    · exact .string _
    · exact .array (List.forall_mem_singleton.mpr hparameter)
  have hpaths := JsonText.Plain.object (List.pairwise_singleton _ ("/o/{id}", _)) (List.forall_mem_singleton.mpr
    (JsonText.Plain.object (List.pairwise_singleton _ ("get", _)) (List.forall_mem_singleton.mpr hget)))
  refine .object (by decide) fun field hfield => ?_
  rcases List.mem_cons.mp hfield with rfl | hfield
  · exact .object List.Pairwise.nil (List.forall_mem_nil _)
  · rcases List.mem_pair.mp hfield with rfl | rfl
    · exact .string _
    · exact hpaths

set_option maxRecDepth 4000 in
theorem orders_short : (JsonText.write (fun _ => []) (.object orders)).length ≤ 1000 := by decide

theorem orders_parsed : parseDocument plainReading (JsonText.write (fun _ => []) (.object orders)) = .ok
    { title := "", version := "", operations := [readOrder], contentHash := "" } := by
  have hsize : ¬ maxDocumentBytes < (Utf8.encode (JsonText.write (fun _ => []) (.object orders))).length := by
    have hbytes := Utf8.length_encode_le (JsonText.write (fun _ => []) (.object orders))
    have hshort := orders_short
    rw [maxDocumentBytes]
    omega
  rw [parseDocument, if_neg hsize, JsonText.loads_write _ _ orders_plain]
  rfl

def plainSpelling : Spelling where
  toHeadReading := Egress.plainHeads
  floatText _ := ""
  dumps _ := ""
  digest _ := none

def readOrderBinding : BoundOperation where
  toolName := "shop".toList
  versionId := 1
  baseUrl := "https://a.b/v2".toList
  credentialRef := none
  operation := readOrder.toHttp

/-- The model asks for the order called `..`. -/
def upwardCall : ToolCallBlock where
  callId := "1"
  name := "http.shop.read".toList
  arguments := [("id", .string "..")]

def upwardPlan : HttpRequestPlan where
  method := "GET"
  url := "https://a.b/v2/o/..".toList
  body := none
  headers := []
  readOnly := true

theorem upwardCall_accepted : httpCallOf plainSpelling upwardCall [readOrderBinding] = .ok upwardPlan := by
  rfl

def upward : AcceptedRequest plainSpelling where
  reading := plainReading
  description := JsonText.write (fun _ => []) (.object orders)
  document := { title := "", version := "", operations := [readOrder], contentHash := "" }
  parsed := orders_parsed
  operation := readOrder
  offered := List.mem_singleton_self _
  binding := readOrderBinding
  binds := rfl
  bound := [readOrderBinding]
  call := upwardCall
  named := rfl
  plan := upwardPlan
  accepted := upwardCall_accepted

/-- Its request leaves the operation: without the dot segments it is one for all of `/v2/`. -/
theorem upward_leaves : removeDotSegments "/v2/o/..".toList = "/v2/".toList ∧ upward.plan.url = "https://a.b/v2/o/..".toList ∧
    ¬ upward.Stays := by
  refine ⟨by decide, rfl, fun hstays => ?_⟩
  obtain ⟨_, _, htext, _, hdots⟩ := hstays.fits.given "id".toList (by decide)
  cases htext
  cases hdots

end Staying

end TinyHermes.Tools
