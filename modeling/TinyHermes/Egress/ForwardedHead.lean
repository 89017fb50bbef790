import TinyHermes.Egress.Proxy

/-! What of a head that is sent on depends on who the caller is, and whether it names the target that was checked. -/
namespace TinyHermes.Egress
open Lib Outbound

variable {w : HeadReading}

section Pieces
variable {sep : Char} {text : List Char}

theorem partition_found (h : (partition sep text).2.1 = true) : sep ∉ (partition sep text).1 ∧
    text = (partition sep text).1 ++ sep :: (partition sep text).2.2 := by
  unfold partition at h ⊢
  split at h
  · cases h
  · next c rest hdrop =>
    dsimp only
    have hsep : c = sep := by
      have hhead := List.head?_dropWhile_not (· != sep) text
      rw [hdrop] at hhead
      simpa using hhead
    constructor
    · intro hmem
      have hkept := List.mem_takeWhile_imp hmem
      simp at hkept
    · rw [← hsep, ← hdrop, hsep]
      exact (List.takeWhile_append_dropWhile).symm

end Pieces

def Latin (text : List Char) : Prop := ∀ c ∈ text, c.toNat < 256

theorem Latin.sublist {text part : List Char} (h : Latin text) (hpart : part.Sublist text) : Latin part :=
  fun c hc => h c (hpart.subset hc)

theorem partition_line {sep : Char} {before rest : List Char} (h : sep ∉ before) :
    partition sep (before ++ sep :: rest) = (before, true, rest) := by
  have hkeep : ∀ c ∈ before, (c != sep) = true := by
    intro _ hc
    rw [bne_iff_ne]
    rintro rfl
    exact h hc
  rw [partition, List.dropWhile_append_of_pos hkeep, List.takeWhile_append_of_pos hkeep]
  simp

theorem partition_fst_leads (sep : Char) (text : List Char) : (partition sep text).1 <+: text := by
  unfold partition
  split
  · exact List.prefix_refl _
  · exact List.takeWhile_prefix _

theorem partition_rest_suffix (sep : Char) (text : List Char) : (partition sep text).2.2 <:+ text := by
  unfold partition
  split
  · exact List.nil_suffix
  · next c rest hdrop =>
    have hsuffix : (c :: rest) <:+ text := hdrop ▸ List.dropWhile_suffix _
    exact (List.suffix_cons c rest).trans hsuffix

theorem stripChars_inside (text : List Char) : Text.stripChars text <:+: text := by
  rw [stripChars_eq]
  exact (List.rdropWhile_prefix _ _).isInfix.trans (List.dropWhile_suffix _).isInfix

theorem latin_decode (head : List UInt8) : Latin (decodeLatin head) := by
  intro _ hc
  obtain ⟨b, _, rfl⟩ := List.mem_map.mp hc
  have hb := b.toNat_lt
  rw [Char.toNat_ofNat, if_pos]
  · exact hb
  · left
    omega

theorem cut_twice (p : Char → Bool) (text : List Char) :
    (((text.dropWhile p).rdropWhile p).dropWhile p).rdropWhile p = (text.dropWhile p).rdropWhile p := by
  generalize hfront : text.dropWhile p = front
  have hkept : (front.rdropWhile p).dropWhile p = front.rdropWhile p := by
    cases hback : front.rdropWhile p with
    | nil => rfl
    | cons =>
      -- what is left starts as the text does once nothing that is cut stands in front of it
      obtain ⟨_, htail⟩ := List.rdropWhile_prefix p front
      rw [hback] at htail
      have hhead := List.head?_dropWhile_not p text
      rw [hfront, ← htail] at hhead
      rw [List.dropWhile_cons_of_neg]
      simpa using hhead
  rw [hkept, List.rdropWhile_idempotent]

theorem stripChars_idempotent (text : List Char) : Text.stripChars (Text.stripChars text) = Text.stripChars text := by
  rw [stripChars_eq, stripChars_eq]
  exact cut_twice Text.isSpace text

section Lines

def Whole (line : List Char) : Prop := line.IsChain fun a b => a = '\r' → b ≠ '\n'

variable {line text rest : List Char} {lines : List (List Char)}

theorem Whole.part {part : List Char} (h : Whole line) (hpart : part <:+: line) : Whole part := h.infix hpart

theorem whole_of_no_return (h : '\r' ∉ text) : Whole text := by
  induction text with
  | nil => exact List.isChain_nil
  | cons c rest ih =>
    rw [List.mem_cons, not_or] at h
    refine List.isChain_cons.mpr ⟨?_, ih h.2⟩
    intro _ _ hc
    exact absurd hc.symm h.1

theorem Whole.joined {left right : List Char} (sep : Char) (hleft : Whole left) (hright : Whole right) (hreturn : sep ≠ '\r')
    (hfeed : sep ≠ '\n') : Whole (left ++ sep :: right) := by
  refine List.isChain_append.mpr ⟨hleft, List.isChain_cons.mpr ⟨?_, hright⟩, ?_⟩
  · intro _ _ hc
    exact absurd hc hreturn
  · intro _ _ _ hb _
    rw [List.head?_cons, Option.mem_some] at hb
    rw [← hb]
    exact hfeed

theorem splitLines_line (h : Whole line) : splitLines (line ++ '\r' :: '\n' :: rest) = line :: splitLines rest := by
  induction line with
  | nil => rfl
  | cons c line ih =>
    obtain ⟨hnext, hline⟩ := List.isChain_cons.mp h
    rw [List.cons_append, splitLines, ih hline]
    · rfl
    · intro _ hc htail
      cases line with
      | nil => cases htail
      | cons =>
        cases htail
        exact hnext '\n' rfl hc rfl

theorem splitLines_joined (hlines : ∀ line ∈ lines, Whole line) (hne : lines ≠ []) :
    splitLines ("\r\n".toList.intercalate lines ++ "\r\n\r\n".toList) = lines ++ [[], []] := by
  induction lines with
  | nil => exact absurd rfl hne
  | cons line lines ih =>
    have hline := hlines line List.mem_cons_self
    cases lines with
    | nil =>
      rw [List.intercalate_singleton]
      exact (splitLines_line hline).trans rfl
    | cons =>
      have hrest := ih (fun l hl => hlines l (List.mem_cons_of_mem _ hl)) (List.cons_ne_nil _ _)
      rw [List.intercalate_cons_cons, List.append_assoc, List.append_assoc]
      exact (splitLines_line hline).trans (congrArg (line :: ·) hrest)

theorem splitLines_mem (text : List Char) : (∀ first, (splitLines text).head? = some first → first <+: text) ∧
    ∀ line ∈ splitLines text, line <:+: text ∧ Whole line := by
  fun_induction splitLines text with
  | case1 =>
    refine ⟨fun first h => ?_, fun line h => ?_⟩
    · cases h
      exact List.prefix_refl _
    · rw [List.mem_singleton.mp h]
      exact ⟨List.infix_refl _, List.isChain_nil⟩
  | case2 rest ih =>
    refine ⟨fun first h => ?_, fun line h => ?_⟩
    · cases h
      exact List.nil_prefix
    · obtain rfl | h := List.mem_cons.mp h
      · exact ⟨List.nil_infix, List.isChain_nil⟩
      · obtain ⟨hinside, hwhole⟩ := ih.2 line h
        exact ⟨hinside.trans ((List.suffix_cons _ _).trans (List.suffix_cons _ _)).isInfix, hwhole⟩
  | case3 c rest hnot ih =>
    cases hlines : splitLines rest with
    | nil => simp
    | cons first =>
      rw [hlines] at ih
      have hfirst := ih.1 first rfl
      have hcons : c :: first <+: c :: rest := List.cons_prefix_cons.mpr ⟨rfl, hfirst⟩
      refine ⟨fun line h => ?_, fun line h => ?_⟩
      · cases h
        exact hcons
      · obtain rfl | h := List.mem_cons.mp h
        · refine ⟨hcons.isInfix, List.isChain_cons.mpr ⟨?_, (ih.2 first List.mem_cons_self).2⟩⟩
          -- a return in front of a feed would have ended the line
          intro _ hd hreturn hfeed
          obtain ⟨_, rfl⟩ := hfirst
          cases first with
          | nil => cases hd
          | cons =>
            cases hd
            exact hnot _ hreturn (by rw [hfeed]; rfl)
        · obtain ⟨hinside, hwhole⟩ := ih.2 line (List.mem_cons_of_mem _ h)
          exact ⟨hinside.trans (List.suffix_cons _ _).isInfix, hwhole⟩

end Lines

section Latin
variable {text : List Char}

theorem encode_latin (h : Latin text) : ∃ bytes, encodeLatin text = some bytes ∧ decodeLatin bytes = text := by
  refine ⟨text.map fun c => UInt8.ofNat c.toNat, ?_, ?_⟩
  · rw [encodeLatin, if_pos]
    exact List.all_eq_true.mpr fun c hc => decide_eq_true (h c hc)
  · rw [decodeLatin, List.map_map]
    conv_rhs => rw [← List.map_id text]
    apply List.map_congr_left
    intro c hc
    have hsmall : c.toNat % 256 = c.toNat := Nat.mod_eq_of_lt (h c hc)
    rw [Function.comp_apply, UInt8.toNat_ofNat', hsmall, Char.ofNat_toNat, id]

theorem latin_of_all (h : text.all (·.toNat < 256) = true) : Latin text :=
  fun c hc => of_decide_eq_true (List.all_eq_true.mp h c hc)

theorem Latin.append {more : List Char} (h : Latin text) (hmore : Latin more) : Latin (text ++ more) := by
  intro c hc
  obtain hc | hc := List.mem_append.mp hc
  · exact h c hc
  · exact hmore c hc

theorem latin_joined {lines : List (List Char)} (h : ∀ line ∈ lines, Latin line) :
    Latin ("\r\n".toList.intercalate lines) := by
  induction lines with
  | nil => exact fun c hc => absurd hc List.not_mem_nil
  | cons line lines ih =>
    have hline := h line List.mem_cons_self
    have hlines := ih fun l hl => h l (List.mem_cons_of_mem _ hl)
    cases lines with
    | nil =>
      rw [List.intercalate_singleton]
      exact hline
    | cons =>
      have hend : Latin "\r\n".toList := latin_of_all rfl
      rw [List.intercalate_cons_cons]
      exact (hline.append hend).append hlines

theorem encode_none (h : ¬ Latin text) : encodeLatin text = none := by
  rw [encodeLatin, if_neg]
  exact fun hall => h (latin_of_all hall)

theorem upperLatin_mem {c e : Char} (h : e ∈ upperLatin c) : e = c ∨ 32 ≤ e.toNat := by
  unfold upperLatin at h
  dsimp only at h
  split_ifs at h with hletter
  · right
    rw [List.mem_singleton.mp h, Char.toNat_ofNat, if_pos]
    · simp at hletter
      omega
    · simp at hletter
      left
      omega
  all_goals simp at h
  · right
    rw [h]
    decide
  · right
    rw [h]
    decide
  · right
    rw [h]
    decide
  · exact .inl h

theorem upperLatin_ne_nil (c : Char) : upperLatin c ≠ [] := by
  unfold upperLatin
  dsimp only
  split_ifs <;> exact List.cons_ne_nil _ _

theorem upperLatin_return {c : Char} (h : '\r' ∈ upperLatin c) : c = '\r' := by
  obtain hsame | hletter := upperLatin_mem h
  · exact hsame.symm
  · exact absurd hletter (by decide)

theorem upperLatin_feed {c : Char} (h : '\n' ∈ upperLatin c) : c = '\n' := by
  obtain hsame | hletter := upperLatin_mem h
  · exact hsame.symm
  · exact absurd hletter (by decide)

theorem Whole.uppercased (h : Whole text) : Whole (upper text) := by
  induction text with
  | nil => exact List.isChain_nil
  | cons c rest ih =>
    obtain ⟨hnext, hrest⟩ := List.isChain_cons.mp h
    have hone : Whole (upperLatin c) := by
      by_cases hreturn : '\r' ∈ upperLatin c
      · rw [upperLatin_return hreturn]
        exact List.isChain_singleton _
      · exact whole_of_no_return hreturn
    refine List.isChain_append.mpr ⟨hone, ih hrest, ?_⟩
    rintro _ ha _ hb rfl rfl
    have hc := upperLatin_return (List.mem_of_getLast? ha)
    cases rest with
    | nil => cases hb
    | cons d =>
      have hd : '\n' ∈ upperLatin d := by
        have hne := upperLatin_ne_nil d
        rw [List.map_cons, List.flatten_cons, List.head?_append_of_ne_nil _ hne] at hb
        exact List.mem_of_head? hb
      exact hnext d rfl hc (upperLatin_feed hd)

end Latin

section Heads
variable {head : List UInt8} {r : ProxyRequest} {lines : List (List Char)} {hs : List (List Char × List Char)}

def requestLine (head : List UInt8) : List Char := (splitLines (decodeLatin head)).headD []

theorem requestLine_inside : requestLine head <:+: decodeLatin head ∧ Whole (requestLine head) := by
  unfold requestLine
  cases hlines : splitLines (decodeLatin head) with
  | nil => exact ⟨List.nil_infix, List.isChain_nil⟩
  | cons =>
    apply (splitLines_mem (decodeLatin head)).2
    rw [hlines]
    exact List.mem_cons_self

/-- What is kept of a header: its name and value stand in its line, without blanks around them and no colon in the name. -/
structure Header (line : List Char) (h : List Char × List Char) : Prop where
  key : h.1 <:+: line
  value : h.2 <:+: line
  keyStripped : Text.stripChars h.1 = h.1
  valueStripped : Text.stripChars h.2 = h.2
  separator : ':' ∉ h.1

theorem headers_mem (hread : headers lines = .ok hs) : ∀ h ∈ hs, ∃ line ∈ lines, Header line h := by
  induction lines generalizing hs with
  | nil =>
    cases hread
    exact fun h hh => absurd hh List.not_mem_nil
  | cons line lines ih =>
    rw [headers] at hread
    split_ifs at hread with hempty
    · cases hread
      exact fun h hh => absurd hh List.not_mem_nil
    · cases hparts : partition ':' line with
      | mk key more =>
        obtain ⟨found, value⟩ := more
        rw [hparts] at hread
        cases found with
        | false => cases hread
        | true =>
          obtain ⟨_, hrest, hread⟩ := Fallible.bind_ok.mp hread
          cases hread
          have hkey : Text.stripChars key <:+: line := by
            have hbefore := partition_fst_leads ':' line
            rw [hparts] at hbefore
            exact (stripChars_inside key).trans hbefore.isInfix
          have hvalue : Text.stripChars value <:+: line := by
            have hbehind := partition_rest_suffix ':' line
            rw [hparts] at hbehind
            exact (stripChars_inside value).trans hbehind.isInfix
          have hcolon : ':' ∉ Text.stripChars key := by
            have hfound : ':' ∉ (partition ':' line).1 ∧ line = (partition ':' line).1 ++ ':' :: (partition ':' line).2.2 :=
              partition_found (by rw [hparts])
            rw [hparts] at hfound
            exact fun hmem => hfound.1 ((stripChars_inside key).subset hmem)
          intro h hh
          obtain rfl | hh := List.mem_cons.mp hh
          · exact ⟨line, List.mem_cons_self, hkey, hvalue, stripChars_idempotent key, stripChars_idempotent value, hcolon⟩
          · obtain ⟨line', hline', hheader⟩ := ih hrest h hh
            exact ⟨line', List.mem_cons_of_mem _ hline', hheader⟩

def headerLine (h : List Char × List Char) : List Char := h.1 ++ ": ".toList ++ h.2

theorem headers_sent (rest : List (List Char)) (hs : List (List Char × List Char))
    (hheaders : ∀ h ∈ hs, ∃ line, Header line h) : headers (hs.map headerLine ++ [] :: rest) = .ok hs := by
  induction hs with
  | nil => rfl
  | cons h hs ih =>
    obtain ⟨_, hheader⟩ := hheaders h List.mem_cons_self
    have hrest := ih fun h' hh' => hheaders h' (List.mem_cons_of_mem _ hh')
    have hline : headerLine h = h.1 ++ ':' :: ' ' :: h.2 := by
      rw [headerLine, List.append_assoc]
      rfl
    have hvalue : Text.stripChars (' ' :: h.2) = h.2 := hheader.valueStripped
    rw [List.map_cons, List.cons_append, headers, hline, if_neg, partition_line hheader.separator]
    · dsimp only
      rw [hrest, hheader.keyStripped, hvalue]
      rfl
    · simp

/-- What `parse_head` reads of a request that is no tunnel. -/
structure Forwarded (w : HeadReading) (head : List UInt8) (r : ProxyRequest) : Prop where
  headers : headers (splitLines (decodeLatin head)).tail = .ok r.headers
  method : ∃ method, method <:+: requestLine head ∧ r.method = upper method
  version : r.version <:+: requestLine head
  path : ∀ c ∈ r.path, c ≠ '\r' ∧ c.toNat < 256

theorem splitScheme_sublist (url : List Char) : (splitScheme url).2.Sublist url := by
  unfold splitScheme
  cases hparts : partition ':' url with
  | mk before more =>
    obtain ⟨found, _⟩ := more
    cases found with
    | false => exact List.Sublist.refl _
    | true =>
      dsimp only
      split_ifs
      · have hbehind := partition_rest_suffix ':' url
        rw [hparts] at hbehind
        exact hbehind.sublist
      · exact List.Sublist.refl _

theorem urlsplit_sublist {url : List Char} {split : SplitResult} (h : urlsplit w url = .ok split) :
    ∃ clean : List Char, clean.Sublist url ∧ '\r' ∉ clean ∧ split.path.Sublist clean ∧ split.query.Sublist clean := by
  refine ⟨(url.dropWhile (·.toNat ≤ 0x20)).filter fun c => c != '\t' && c != '\r' && c != '\n', ?_, ?_, ?_⟩
  · exact List.filter_sublist.trans (List.dropWhile_suffix _).sublist
  · intro hmem
    have hkept := (List.mem_filter.mp hmem).2
    simp at hkept
  · unfold urlsplit at h
    dsimp only at h
    generalize (url.dropWhile (·.toNat ≤ 0x20)).filter (fun c => c != '\t' && c != '\r' && c != '\n') = clean at h ⊢
    have hbehind := splitScheme_sublist clean
    generalize splitScheme clean = parts at h hbehind
    split_ifs at h
    · cases h
      have hbefore := (partition_fst_leads '#' (parts.2.drop (2 + ((parts.2.drop 2).takeWhile fun c => c != '/' && c != '?' && c != '#').length))).sublist.trans ((List.drop_sublist _ _).trans hbehind)
      exact ⟨(partition_fst_leads '?' _).sublist.trans hbefore, (partition_rest_suffix '?' _).sublist.trans hbefore⟩
    · cases h
      have hbefore := (partition_fst_leads '#' parts.2).sublist.trans hbehind
      exact ⟨(partition_fst_leads '?' _).sublist.trans hbefore, (partition_rest_suffix '?' _).sublist.trans hbefore⟩

theorem originForm_mem {split : SplitResult} {c : Char}
    (h : c ∈ (if split.query.isEmpty then (if split.path.isEmpty then ['/'] else split.path)
      else (if split.path.isEmpty then ['/'] else split.path) ++ '?' :: split.query)) :
    (c = '/' ∨ c = '?') ∨ c ∈ split.path ∨ c ∈ split.query := by
  have hpath : c ∈ (if split.path.isEmpty then ['/'] else split.path) → c = '/' ∨ c ∈ split.path := by
    split_ifs
    · exact fun hc => .inl (List.mem_singleton.mp hc)
    · exact .inr
  by_cases hquery : split.query.isEmpty = true
  · rw [if_pos hquery] at h
    obtain hslash | hc := hpath h
    · exact .inl (.inl hslash)
    · exact .inr (.inl hc)
  · rw [if_neg hquery] at h
    obtain hc | hc := List.mem_append.mp h
    · obtain hslash | hc := hpath hc
      · exact .inl (.inl hslash)
      · exact .inr (.inl hc)
    · obtain hmark | hc := List.mem_cons.mp hc
      · exact .inl (.inr hmark)
      · exact .inr (.inr hc)

/-- The pieces of the first line that `parse_head` takes a request that is no tunnel from. -/
structure Rewritten (head : List UInt8) (r : ProxyRequest) : Prop where
  headers : headers (splitLines (decodeLatin head)).tail = .ok r.headers
  method : r.method = upper (partition ' ' (requestLine head)).1
  version : r.version = (partition ' ' (partition ' ' (requestLine head)).2.2).2.2
  path_ne : r.path ≠ []
  path : ∀ c ∈ r.path, (c = '/' ∨ c = '?') ∨ (c ∈ (partition ' ' (partition ' ' (requestLine head)).2.2).1 ∧ c ≠ '\r')

theorem parseHead_rewrites (hparse : parseHead w head = .ok r) (htunnel : r.tunnel = false) : Rewritten head r := by
  simp only [parseHead, bind, Except.bind, pure, Except.pure, throw, throwThe, MonadExceptOf.throw] at hparse
  split_ifs at hparse with hempty hline hconnect
  all_goals
    cases hheaders : headers (splitLines (decodeLatin head)).tail with
    | error =>
      rw [hheaders] at hparse
      cases hparse
    | ok => ?_
    rw [hheaders] at hparse
    dsimp only at hparse
    split at hparse
    · cases hparse
  · cases hparse
    cases htunnel
  · next split hsplit =>
    by_cases hnone : (split.scheme.isEmpty || split.netloc.isEmpty) = true
    · rw [if_pos hnone] at hparse
      cases hparse
    · rw [if_neg hnone] at hparse
      split at hparse
      · cases hparse
      · cases hparse
        obtain ⟨clean, hclean, hreturn, hpath, hquery⟩ := urlsplit_sublist hsplit
        refine ⟨hheaders, rfl, rfl, ?_, ?_⟩
        · dsimp only
          split_ifs with hnoQuery hnoPath
          · exact List.cons_ne_nil _ _
          · rintro hnil
            exact hnoPath (List.isEmpty_iff.mpr hnil)
          · simp
          · simp
        · intro c hc
          obtain hsign | hc := originForm_mem hc
          · exact .inl hsign
          · have hinside : c ∈ clean := hc.elim (hpath.subset ·) (hquery.subset ·)
            refine .inr ⟨hclean.subset hinside, ?_⟩
            rintro rfl
            exact hreturn hinside

theorem parseHead_forwards (hparse : parseHead w head = .ok r) (htunnel : r.tunnel = false) : Forwarded w head r := by
  have hread := parseHead_rewrites hparse htunnel
  have hbehind := partition_rest_suffix ' ' (requestLine head)
  have htarget := partition_fst_leads ' ' (partition ' ' (requestLine head)).2.2
  have hversion := (partition_rest_suffix ' ' (partition ' ' (requestLine head)).2.2).trans hbehind
  have hlatin := (latin_decode head).sublist requestLine_inside.1.sublist
  refine ⟨hread.headers, ⟨_, (partition_fst_leads ' ' (requestLine head)).isInfix, hread.method⟩, ?_, ?_⟩
  · rw [hread.version]
    exact hversion.isInfix
  · intro c hc
    obtain hsign | ⟨hinside, hreturn⟩ := hread.path c hc
    · obtain rfl | rfl := hsign <;> decide
    · exact ⟨hreturn, hlatin.sublist (htarget.sublist.trans hbehind.sublist) c hinside⟩

/-- The header that `forwarded_head` ends with. -/
def closing : List Char × List Char := ("Connection".toList, "close".toList)

theorem closing_header : Header (headerLine closing) closing where
  key := ⟨[], ": close".toList, rfl⟩
  value := ⟨"Connection: ".toList, [], rfl⟩
  keyStripped := rfl
  valueStripped := rfl
  separator := by decide

theorem Header.whole {line : List Char} {h : List Char × List Char} (hheader : Header line h) (hwhole : Whole line) :
    Whole (headerLine h) := by
  have hvalue : Whole (' ' :: h.2) := (Whole.joined ' ' List.isChain_nil (hwhole.part hheader.value) (by decide) (by decide))
  have hline := (hwhole.part hheader.key).joined ':' hvalue (by decide) (by decide)
  rw [headerLine, List.append_assoc]
  exact hline

theorem Header.latin {line : List Char} {h : List Char × List Char} (hheader : Header line h) (hlatin : Latin line) :
    Latin (headerLine h) := by
  intro c hc
  obtain hc | hvalue := List.mem_append.mp hc
  · obtain hkey | hbetween := List.mem_append.mp hc
    · exact hlatin c (hheader.key.subset hkey)
    · obtain rfl | hc := List.mem_cons.mp hbetween
      · decide
      · rw [List.mem_singleton.mp hc]
        decide
  · exact hlatin c (hheader.value.subset hvalue)

section Sent
variable (hread : Forwarded w head r)
include hread

theorem Forwarded.carried_line : ∀ h ∈ r.carried w, ∃ line, Header line h ∧ Whole line ∧ Latin line := by
  intro h hh
  obtain ⟨line, hline, hheader⟩ := headers_mem hread.headers h (List.mem_filter.mp hh).1
  obtain ⟨hinside, hwhole⟩ := (splitLines_mem (decodeLatin head)).2 line (List.mem_of_mem_tail hline)
  exact ⟨line, hheader, hwhole, (latin_decode head).sublist hinside.sublist⟩

theorem Forwarded.firstLine_whole : Whole (r.method ++ ' ' :: r.path ++ ' ' :: r.version) := by
  obtain ⟨method, hinside, hupper⟩ := hread.method
  have hmethod : Whole r.method := by
    rw [hupper]
    exact (requestLine_inside.2.part hinside).uppercased
  have hpath : Whole r.path := whole_of_no_return fun hmem => (hread.path _ hmem).1 rfl
  exact (hmethod.joined ' ' hpath (by decide) (by decide)).joined ' ' (requestLine_inside.2.part hread.version) (by decide)
    (by decide)

theorem Forwarded.lines_whole : ∀ line ∈ r.forwardedLines w, Whole line := by
  intro line hline
  obtain hline | hlast := List.mem_append.mp hline
  · obtain rfl | hheader := List.mem_cons.mp hline
    · exact hread.firstLine_whole
    · obtain ⟨h, hh, rfl⟩ := List.mem_map.mp hheader
      obtain ⟨_, hheader, hwhole, _⟩ := hread.carried_line h hh
      exact hheader.whole hwhole
  · rw [List.mem_singleton.mp hlast]
    exact whole_of_no_return (by decide)

theorem Forwarded.lines_latin (hlatin : Latin r.method) : ∀ line ∈ r.forwardedLines w, Latin line := by
  have hspace : Latin [' '] := latin_of_all rfl
  have hversion := ((latin_decode head).sublist requestLine_inside.1.sublist).sublist hread.version.sublist
  have hpath : Latin r.path := fun c hc => (hread.path c hc).2
  intro line hline
  obtain hline | hlast := List.mem_append.mp hline
  · obtain rfl | hheader := List.mem_cons.mp hline
    · exact (hlatin.append (hspace.append hpath)).append (hspace.append hversion)
    · obtain ⟨h, hh, rfl⟩ := List.mem_map.mp hheader
      obtain ⟨_, hheader, _, hline⟩ := hread.carried_line h hh
      exact hheader.latin hline
  · rw [List.mem_singleton.mp hlast]
    exact latin_of_all rfl

theorem Forwarded.sent (hlatin : Latin r.method) : ∃ sent, r.forwardedHead w = some sent ∧
    Egress.headers (splitLines (decodeLatin sent)).tail = .ok (r.carried w ++ [closing]) := by
  have hend : Latin "\r\n\r\n".toList := latin_of_all rfl
  have htext := (latin_joined (hread.lines_latin (w := w) hlatin)).append hend
  obtain ⟨sent, hsent, hdecoded⟩ := encode_latin htext
  refine ⟨sent, hsent, ?_⟩
  have hsplit := splitLines_joined (hread.lines_whole (w := w)) (by simp [ProxyRequest.forwardedLines])
  rw [hdecoded, hsplit]
  have hheaders : ∀ h ∈ r.carried w ++ [closing], ∃ line, Header line h := by
    intro h hh
    obtain hh | hh := List.mem_append.mp hh
    · obtain ⟨line, hheader, _⟩ := hread.carried_line h hh
      exact ⟨line, hheader⟩
    · rw [List.mem_singleton.mp hh]
      exact ⟨_, closing_header⟩
  have hback := headers_sent [[]] _ hheaders
  rw [List.map_append] at hback
  exact hback

end Sent

/-- The headers that tell the proxy who calls and which layers are claimed. -/
def callerHeader (w : HeadReading) (key : List Char) : Bool :=
  w.lower key == w.lower "Proxy-Authorization".toList || w.lower key == w.lower scopeHeader.toList

/-- Two heads that differ only in what they tell the proxy of the caller. -/
structure SameApart (w : HeadReading) (r₁ r₂ : ProxyRequest) : Prop where
  method : r₁.method = r₂.method
  scheme : r₁.scheme = r₂.scheme
  host : r₁.host = r₂.host
  port : r₁.port = r₂.port
  path : r₁.path = r₂.path
  version : r₁.version = r₂.version
  headers : r₁.headers.filter (fun h => !callerHeader w h.1) = r₂.headers.filter fun h => !callerHeader w h.1

def HostsNamed (w : HeadReading) (r : ProxyRequest) (hs : List (List Char × List Char)) : Prop :=
  ∀ h ∈ hs, w.lower h.1 = "host".toList → authority w h.2 (defaultPort r.scheme) = .ok (r.host, r.port)

def SentHostsNamed (w : HeadReading) (r : ProxyRequest) : Prop :=
  ∀ sent hs, r.forwardedHead w = some sent → headers (splitLines (decodeLatin sent)).tail = .ok hs → HostsNamed w r hs

end Heads

section Revealed
variable {head₁ head₂ : List UInt8} {r₁ r₂ : ProxyRequest}

theorem carried_host {r : ProxyRequest} {h : List Char × List Char} (hhost : w.lower h.1 = "host".toList) :
    h ∈ r.carried w ↔ h ∈ r.headers := by
  have hkept : (!stripped w h.1) = true := by
    rw [stripped, hhost]
    decide
  rw [ProxyRequest.carried, List.mem_filter]
  exact ⟨And.left, fun hmem => ⟨hmem, hkept⟩⟩

theorem closing_not_host : w.lower closing.1 ≠ "host".toList := by
  rw [w.lower_latin _ (latin_of_all rfl)]
  decide

theorem unsent_head {r : ProxyRequest} (h : ¬ Latin r.method) : r.forwardedHead w = none := by
  apply encode_none
  intro htext
  apply h
  intro _ hc
  apply htext
  rw [ProxyRequest.forwardedLines, List.cons_append, List.intercalate_cons_of_ne_nil (by simp)]
  simp [hc]

/-- Two heads that differ only in what they tell of the caller are sent on alike, and with no other Host than the target that was
checked, if and only if nothing can be sent at all or they carry the same headers, each Host of which names that target. -/
theorem forwarded_reveals_iff (h₁ : parseHead w head₁ = .ok r₁) (h₂ : parseHead w head₂ = .ok r₂) (htunnel : r₁.tunnel = false)
    (hsame : SameApart w r₁ r₂) :
    (r₁.forwardedHead w = r₂.forwardedHead w ∧ SentHostsNamed w r₁) ↔
      ¬ Latin r₁.method ∨ (r₁.carried w = r₂.carried w ∧ HostsNamed w r₁ r₁.headers) := by
  have hfirst : r₁.method ++ ' ' :: r₁.path ++ ' ' :: r₁.version = r₂.method ++ ' ' :: r₂.path ++ ' ' :: r₂.version := by
    rw [hsame.method, hsame.path, hsame.version]
  have htunnel₂ : r₂.tunnel = false := by
    rw [ProxyRequest.tunnel, ← hsame.method]
    exact htunnel
  have hread₁ := parseHead_forwards h₁ htunnel
  have hread₂ := parseHead_forwards h₂ htunnel₂
  by_cases hlatin : Latin r₁.method
  · obtain ⟨sent₁, hsent₁, hback₁⟩ := hread₁.sent (w := w) hlatin
    obtain ⟨_, hsent₂, hback₂⟩ := hread₂.sent (w := w) (hsame.method ▸ hlatin)
    have hequal : r₁.forwardedHead w = r₂.forwardedHead w ↔ r₁.carried w = r₂.carried w := by
      constructor
      · intro hbytes
        rw [hsent₁, hsent₂] at hbytes
        rw [Option.some.inj hbytes, hback₂] at hback₁
        exact (List.append_cancel_right (Except.ok.inj hback₁)).symm
      · intro hcarried
        rw [ProxyRequest.forwardedHead, ProxyRequest.forwardedHead, ProxyRequest.forwardedLines, ProxyRequest.forwardedLines,
          hfirst, hcarried]
    have hhosts : SentHostsNamed w r₁ ↔ HostsNamed w r₁ r₁.headers := by
      constructor
      · intro hnamed h hh hhost
        exact hnamed sent₁ _ hsent₁ hback₁ h (List.mem_append_left _ ((carried_host hhost).mpr hh)) hhost
      · intro hnamed sent hs hsent hback h hh hhost
        rw [hsent₁] at hsent
        rw [← Option.some.inj hsent, hback₁] at hback
        rw [← Except.ok.inj hback] at hh
        obtain hh | hh := List.mem_append.mp hh
        · exact hnamed h ((carried_host hhost).mp hh) hhost
        · rw [List.mem_singleton.mp hh] at hhost
          exact absurd hhost closing_not_host
    rw [hequal, hhosts, or_iff_right (not_not_intro hlatin)]
  · refine iff_of_true ⟨?_, ?_⟩ (.inl hlatin)
    · rw [unsent_head hlatin, unsent_head (hsame.method ▸ hlatin)]
    · intro _ _ hsent
      rw [unsent_head hlatin] at hsent
      cases hsent

def oneHostHead (line : String) : List UInt8 := bytesOf ("GET http://a.b/ HTTP/1.1\r\n" ++ line ++ "\r\n\r\n")

def oneHostRequest (name value : String) : ProxyRequest :=
  ⟨"GET".toList, "http".toList, "a.b".toList, 80, "/".toList, "HTTP/1.1".toList, [(name.toList, value.toList)]⟩

/-- The token of a caller is not sent on. -/
theorem token_not_revealed : (oneHostRequest "Proxy-Authorization" "Bearer t").forwardedHead plainHeads =
    (oneHostRequest "Proxy-Authorization" "Bearer u").forwardedHead plainHeads := by
  have h₁ : parseHead plainHeads (oneHostHead "Proxy-Authorization: Bearer t") =
      .ok (oneHostRequest "Proxy-Authorization" "Bearer t") := by decide
  have h₂ : parseHead plainHeads (oneHostHead "Proxy-Authorization: Bearer u") =
      .ok (oneHostRequest "Proxy-Authorization" "Bearer u") := by decide
  have hsame : SameApart plainHeads (oneHostRequest "Proxy-Authorization" "Bearer t")
      (oneHostRequest "Proxy-Authorization" "Bearer u") := ⟨rfl, rfl, rfl, rfl, rfl, rfl, by decide⟩
  refine ((forwarded_reveals_iff h₁ h₂ (by decide) hsame).mpr (.inr ⟨by decide, ?_⟩)).1
  intro _ hh hhost
  rw [List.mem_singleton.mp hh] at hhost
  exact absurd hhost (by decide)

/-- The layers of a caller are sent on to the target, and so is a Host that is not the target. -/
theorem layers_revealed :
    (∃ r₁ r₂, parseHead plainHeads (oneHostHead "X-Tiny-Hermes-Scope: run=1") = .ok r₁ ∧
      parseHead plainHeads (oneHostHead "X-Tiny-Hermes-Scope: run=2") = .ok r₂ ∧ r₁.tunnel = false ∧
      SameApart plainHeads r₁ r₂ ∧ r₁.forwardedHead plainHeads ≠ r₂.forwardedHead plainHeads) ∧
    ∃ r, parseHead plainHeads (oneHostHead "Host: c.d") = .ok r ∧ r.tunnel = false ∧
      ¬ SentHostsNamed plainHeads r := by
  constructor
  · refine ⟨oneHostRequest "X-Tiny-Hermes-Scope" "run=1", oneHostRequest "X-Tiny-Hermes-Scope" "run=2", ?_, ?_, ?_, ?_, ?_⟩
    · decide
    · decide
    · decide
    · exact ⟨rfl, rfl, rfl, rfl, rfl, rfl, by decide⟩
    · decide
  · refine ⟨oneHostRequest "Host" "c.d", by decide, by decide, ?_⟩
    intro hnamed
    have hread : headers (splitLines (decodeLatin (bytesOf "GET / HTTP/1.1\r\nHost: c.d\r\nConnection: close\r\n\r\n"))).tail =
        .ok [("Host".toList, "c.d".toList), closing] := by decide
    have hother := hnamed _ _ (by decide) hread ("Host".toList, "c.d".toList) List.mem_cons_self (by decide)
    revert hother
    decide

end Revealed

end TinyHermes.Egress
