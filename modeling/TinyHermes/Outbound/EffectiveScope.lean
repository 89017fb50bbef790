import TinyHermes.Outbound.Scope

/-! When the layers together approve exactly what each of them does. -/
namespace TinyHermes.Outbound
open Lib

variable {p : Reading} {e e' : ScopeEntry} {text : List Char}

def ScopeEntry.Valid (p : Reading) (e : ScopeEntry) : Prop := parseEntry p e.text = .ok e

instance : Decidable (e.Valid p) := inferInstanceAs (Decidable (parseEntry p e.text = .ok e))

theorem ScopeEntry.Valid.unique (h : e.Valid p) (h' : e'.Valid p) (htext : e.text = e'.text) : e = e' := by
  unfold ScopeEntry.Valid at h h'
  rw [htext, h'] at h
  exact (Except.ok.inj h).symm

section Texts

theorem stripChars_eq (cs : List Char) : Text.stripChars cs = (cs.dropWhile Text.isSpace).rdropWhile Text.isSpace := rfl

theorem rstripDots_eq (cs : List Char) : rstripDots cs = cs.rdropWhile (· == '.') := rfl

theorem stripChars_sublist (cs : List Char) : (Text.stripChars cs).Sublist cs := by
  rw [stripChars_eq]
  exact (List.rdropWhile_prefix _ _).sublist.trans (List.dropWhile_suffix _).sublist

theorem rstripDots_sublist (cs : List Char) : (rstripDots cs).Sublist cs := by
  rw [rstripDots_eq]
  exact (List.rdropWhile_prefix _ _).sublist

theorem rdropWhile_suffix {q : Char → Bool} {cs ds : List Char} (h : cs.rdropWhile q = cs) (hsuffix : ds <:+ cs) :
    ds.rdropWhile q = ds := by
  rw [List.rdropWhile_eq_self_iff] at h ⊢
  intro hne
  rw [hsuffix.getLast hne]
  exact h (hsuffix.ne_nil hne)

/-- A character that `str.lower` leaves as it is. -/
def Plain (c : Char) : Prop := c.toNat < 256 ∧ lowerLatin c = c

theorem lower_plain {cs : List Char} (h : ∀ c ∈ cs, Plain c) : p.lower cs = cs := by
  rw [p.lower_latin cs fun c hc => (h c hc).1, List.map_congr_left fun c hc => (h c hc).2]
  exact List.map_id' cs

def HostChar (c : Char) : Prop := isLabelChar c = true ∨ c = '-' ∨ c = '.' ∨ c = '*' ∨ c = '\n'

theorem HostChar.plain {c : Char} (h : HostChar c) : Plain c := by
  obtain h | rfl | rfl | rfl | rfl := h
  · simp only [isLabelChar, Bool.or_eq_true, Bool.and_eq_true, decide_eq_true_eq] at h
    constructor
    · omega
    · rw [lowerLatin, if_neg]
      simp only [Bool.or_eq_true, Bool.and_eq_true, decide_eq_true_eq]
      omega
  all_goals exact ⟨by decide, by decide⟩

theorem isPlainLabel_chars {label : List Char} (h : isPlainLabel label = true) : ∀ c ∈ label, HostChar c := by
  intro c hc
  rw [isPlainLabel, Bool.and_eq_true, List.all_eq_true] at h
  have hkind := h.2 c hc
  rw [Bool.or_eq_true, beq_iff_eq] at hkind
  exact hkind.imp_right .inl

theorem isLabel_chars {label : List Char} (h : isLabel label = true) : ∀ c ∈ label, HostChar c := by
  rw [isLabel, Bool.or_eq_true, Bool.and_eq_true, beq_iff_eq] at h
  obtain h | ⟨hlast, h⟩ := h
  · exact isPlainLabel_chars h
  · intro c hc
    rw [← List.dropLast_append_getLast? '\n' hlast] at hc
    obtain hc | hc := List.mem_append.mp hc
    · exact isPlainLabel_chars h c hc
    · rw [List.mem_singleton.mp hc]
      simp [HostChar]

theorem mem_splitOn (sep : Char) {c : Char} {cs : List Char} (h : c ∈ cs) : c = sep ∨ ∃ part ∈ cs.splitOn sep, c ∈ part := by
  induction cs with
  | nil => cases h
  | cons d cs ih =>
    rw [List.splitOn_cons_eq_if_modifyHead]
    by_cases hsep : (d == sep) = true
    · rw [if_pos hsep]
      obtain rfl | h := List.mem_cons.mp h
      · exact .inl (beq_iff_eq.mp hsep)
      · exact (ih h).imp_right fun ⟨part, hpart, hc⟩ => ⟨part, List.mem_cons_of_mem _ hpart, hc⟩
    · rw [if_neg hsep]
      cases hsplit : cs.splitOn sep with
      | nil => exact absurd hsplit (List.splitOn_ne_nil sep cs)
      | cons =>
        rw [hsplit] at ih
        rw [List.modifyHead_cons]
        obtain rfl | h := List.mem_cons.mp h
        · exact .inr ⟨_, List.mem_cons_self, List.mem_cons_self⟩
        · obtain hsame | ⟨part, hpart, hc⟩ := ih h
          · exact .inl hsame
          · obtain rfl | hpart := List.mem_cons.mp hpart
            · exact .inr ⟨_, List.mem_cons_self, List.mem_cons_of_mem _ hc⟩
            · exact .inr ⟨part, List.mem_cons_of_mem _ hpart, hc⟩

theorem splitOn_chars {host : List Char} (h : ∀ label ∈ host.splitOn '.', ∀ c ∈ label, HostChar c) :
    ∀ c ∈ host, HostChar c := by
  intro c hc
  obtain rfl | ⟨label, hlabel, hc⟩ := mem_splitOn '.' hc
  · simp [HostChar]
  · exact h label hlabel c hc

end Texts

section Hosts
variable {host : List Char}

theorem parseHost_ok (h : parseHost host = .ok e) : e.network = none ∧ e.text = host ∧
    (e.wildcard = true → ∃ rest, host = '*' :: '.' :: rest) ∧
    ∀ label ∈ (if e.wildcard then (host.splitOn '.').tail else host.splitOn '.'), isLabel label = true := by
  rw [parseHost] at h
  generalize hlabels : (if "*.".toList.isPrefixOf host then (host.splitOn '.').tail else host.splitOn '.') = labels at h
  split at h
  · cases h
  split at h
  · cases h
  next hgood =>
    cases h
    refine ⟨rfl, rfl, ?_, ?_⟩
    · intro hwildcard
      obtain ⟨rest, hrest⟩ := List.isPrefixOf_iff_prefix.mp hwildcard
      exact ⟨rest, hrest.symm⟩
    · intro label hlabel
      rw [hlabels] at hlabel
      rw [Bool.or_eq_true, not_or] at hgood
      by_contra hnot
      apply hgood.2
      rw [List.any_eq_true]
      exact ⟨label, hlabel, by simpa using hnot⟩

theorem splitOn_wildcard (rest : List Char) : ('*' :: '.' :: rest).splitOn '.' = ['*'] :: rest.splitOn '.' :=
  List.splitOn_append_cons_self_of_not_mem (by simp : '.' ∉ ['*']) rest

theorem parseHost_chars (h : parseHost host = .ok e) : ∀ c ∈ host, HostChar c := by
  obtain ⟨_, _, hstar, hlabels⟩ := parseHost_ok h
  apply splitOn_chars
  intro label hlabel
  cases hkind : e.wildcard with
  | false =>
    rw [hkind] at hlabels
    exact isLabel_chars (hlabels label hlabel)
  | true =>
    rw [hkind, if_pos rfl] at hlabels
    obtain ⟨_, rfl⟩ := hstar hkind
    rw [splitOn_wildcard] at hlabel hlabels
    obtain rfl | hlabel := List.mem_cons.mp hlabel
    · intro _ hc
      rw [List.mem_singleton.mp hc]
      simp [HostChar]
    · exact isLabel_chars (hlabels label hlabel)

theorem parseEntry_ok (h : parseEntry p text = .ok e) : e.network.isSome = true ∨
    parseHost (cleanHost p (p.lower (Text.stripChars text))) = .ok e := by
  rw [parseEntry] at h
  split at h
  · cases h
  split at h
  · split at h
    · cases h
    · cases h
      exact .inl rfl
  split at h
  · cases h
  split at h
  · cases h
  exact .inr h

end Hosts

structure HostText (e : ScopeEntry) : Prop where
  plain : ∀ c ∈ e.text, Plain c
  stripped : Text.stripChars e.text = e.text
  dotless : rstripDots e.text = e.text
  wildcard : e.wildcard = true → ∃ rest, e.text = '*' :: '.' :: rest

theorem ScopeEntry.Valid.hostText (h : e.Valid p) (hhost : e.network = none) : HostText e := by
  obtain hnetwork | hparsed := parseEntry_ok h
  · rw [hhost] at hnetwork
    cases hnetwork
  obtain ⟨_, htext, hstar, _⟩ := parseHost_ok hparsed
  have hplain : ∀ c ∈ e.text, Plain c := by
    intro c hc
    rw [htext] at hc
    exact (parseHost_chars hparsed c hc).plain
  rw [← htext] at hstar
  -- what is read back is no longer than the text at any point, so nothing was taken off it
  have hstrip := stripChars_sublist e.text
  have hplain' : ∀ c ∈ Text.stripChars e.text, Plain c := fun c hc => hplain c (hstrip.subset hc)
  have hagain := stripChars_sublist (Text.stripChars e.text)
  rw [cleanHost, lower_plain hplain', lower_plain fun c hc => hplain' c (hagain.subset hc)] at htext
  have hdots := rstripDots_sublist (Text.stripChars (Text.stripChars e.text))
  have hlength := congrArg List.length htext
  have hstripped : Text.stripChars e.text = e.text := by
    apply hstrip.eq_of_length
    have h₁ := hstrip.length_le
    have h₂ := hagain.length_le
    have h₃ := hdots.length_le
    omega
  rw [hstripped, hstripped] at htext
  exact ⟨hplain, hstripped, htext.symm, hstar⟩

theorem head_not_space {c : Char} {cs : List Char} (h : ∀ label ∈ (c :: cs).splitOn '.', isLabel label = true) :
    Text.isSpace c = false := by
  rw [List.splitOn_cons_eq_if_modifyHead] at h
  by_cases hdot : (c == '.') = true
  · rw [if_pos hdot] at h
    exact absurd (h [] List.mem_cons_self) (by decide)
  rw [if_neg hdot] at h
  cases hsplit : cs.splitOn '.' with
  | nil => exact absurd hsplit (List.splitOn_ne_nil '.' cs)
  | cons first =>
    rw [hsplit, List.modifyHead_cons] at h
    have hlabel := h _ List.mem_cons_self
    have hstarts : isLabelChar c = true := by
      rw [isLabel, Bool.or_eq_true, Bool.and_eq_true, isPlainLabel, isPlainLabel] at hlabel
      obtain hplain | ⟨_, hplain⟩ := hlabel
      · simp only [Bool.and_eq_true, List.head?_cons, Option.any_some] at hplain
        exact hplain.1.1
      · cases first with
        | nil => simp at hplain
        | cons =>
          simp only [Bool.and_eq_true, List.dropLast_cons_cons, List.head?_cons, Option.any_some] at hplain
          exact hplain.1.1
    simp only [isLabelChar, Bool.or_eq_true, Bool.and_eq_true, decide_eq_true_eq] at hstarts
    simp only [Text.isSpace, Bool.or_eq_false_iff, Bool.and_eq_false_iff, decide_eq_false_iff_not, beq_eq_false_iff_ne]
    omega

/-- A host that `parse_entry` returns reads back as itself unless it ends in a line break. -/
theorem parseEntry_valid (h : parseEntry p text = .ok e) (hhost : e.network = none) (hlast : e.text.getLast? ≠ some '\n') :
    e.Valid p := by
  obtain hnetwork | hparsed := parseEntry_ok h
  · rw [hhost] at hnetwork
    cases hnetwork
  obtain ⟨_, htext, hstar, hlabels⟩ := parseHost_ok hparsed
  have hchars := parseHost_chars hparsed
  have hdotless : rstripDots e.text = e.text := by
    rw [htext, cleanHost, rstripDots_eq, rstripDots_eq]
    exact List.rdropWhile_idempotent _ _
  rw [← htext] at hchars hlabels hstar hparsed
  have hend : e.text.rdropWhile Text.isSpace = e.text := by
    rw [List.rdropWhile_eq_self_iff]
    intro hne hspace
    have hkind := hchars _ (List.getLast_mem hne)
    rw [List.getLast?_eq_some_getLast hne] at hlast
    obtain hlabel | hother | hother | hother | hother := hkind
    · simp only [isLabelChar, Bool.or_eq_true, Bool.and_eq_true, decide_eq_true_eq] at hlabel
      simp only [Text.isSpace, Bool.or_eq_true, Bool.and_eq_true, decide_eq_true_eq, beq_iff_eq] at hspace
      omega
    · rw [hother] at hspace
      revert hspace
      decide
    · rw [hother] at hspace
      revert hspace
      decide
    · rw [hother] at hspace
      revert hspace
      decide
    · exact hlast (congrArg some hother)
  have hfront : e.text.dropWhile Text.isSpace = e.text := by
    cases hcs : e.text with
    | nil => rfl
    | cons c =>
      have hnot : Text.isSpace c = false := by
        cases hkind : e.wildcard with
        | true =>
          obtain ⟨rest, hrest⟩ := hstar hkind
          rw [hcs] at hrest
          cases hrest
          decide
        | false =>
          rw [hkind, hcs] at hlabels
          exact head_not_space hlabels
      rw [List.dropWhile_cons_of_neg (by simp [hnot])]
  have hstripped : Text.stripChars e.text = e.text := by
    rw [stripChars_eq, hfront, hend]
  have hlower : p.lower e.text = e.text := lower_plain fun c hc => (hchars c hc).plain
  have hclean : cleanHost p e.text = e.text := by
    rw [cleanHost, hstripped, hlower, hdotless]
  have hslash : e.text.contains '/' = false := by
    rw [List.contains_eq_mem, decide_eq_false_iff_not]
    intro hmem
    have hkind := hchars '/' hmem
    simp [HostChar, isLabelChar] at hkind
  have hcolon : e.text.contains ':' = false := by
    rw [List.contains_eq_mem, decide_eq_false_iff_not]
    intro hmem
    have hkind := hchars ':' hmem
    simp [HostChar, isLabelChar] at hkind
  have hnonempty : e.text.isEmpty = false := by
    cases hcs : e.text with
    | nil =>
      cases hkind : e.wildcard with
      | true =>
        obtain ⟨_, hrest⟩ := hstar hkind
        rw [hcs] at hrest
        cases hrest
      | false =>
        rw [hkind, hcs] at hlabels
        exact absurd (hlabels [] List.mem_cons_self) (by decide)
    | cons => rfl
  rw [ScopeEntry.Valid, parseEntry, hstripped, hlower]
  simp only [hnonempty, hslash, hcolon, hclean, Bool.false_and, Bool.false_eq_true, if_false]
  exact hparsed

theorem HostText.cleanHost_suffix (h : HostText e) {cs : List Char} (hsuffix : cs <:+ e.text) : cleanHost p cs <:+ cs := by
  have hspaces : e.text.rdropWhile Text.isSpace = e.text := by
    have hlength := congrArg List.length h.stripped
    rw [stripChars_eq] at hlength
    have h₁ := (List.dropWhile_suffix Text.isSpace (l := e.text)).sublist
    have h₂ := (List.rdropWhile_prefix Text.isSpace (e.text.dropWhile Text.isSpace)).sublist
    have hfront : e.text.dropWhile Text.isSpace = e.text := by
      apply h₁.eq_of_length
      have h₃ := h₁.length_le
      have h₄ := h₂.length_le
      omega
    have hstripped := h.stripped
    rw [stripChars_eq, hfront] at hstripped
    exact hstripped
  have hfront := List.dropWhile_suffix Text.isSpace (l := cs)
  have hstrip : Text.stripChars cs = cs.dropWhile Text.isSpace := by
    rw [stripChars_eq]
    exact rdropWhile_suffix hspaces (hfront.trans hsuffix)
  have hdots : rstripDots (cs.dropWhile Text.isSpace) = cs.dropWhile Text.isSpace :=
    rdropWhile_suffix h.dotless (hfront.trans hsuffix)
  have hplain : ∀ c ∈ cs.dropWhile Text.isSpace, Plain c := fun c hc =>
    h.plain c ((hfront.trans hsuffix).subset hc)
  rw [cleanHost, hstrip, lower_plain hplain, hdots]
  exact hfront

/-- What a connection may be asked for: a name, or an address. -/
inductive Approvable where
  | host (host : List Char)
  | address (address : Address)

def ScopeEntry.Approves (p : Reading) (e : ScopeEntry) : Approvable → Prop
  | .host host => e.matchesHost p host = true
  | .address a => e.matchesAddress a = true

def OutboundScope.Approves (p : Reading) (s : OutboundScope) (target : Approvable) : Prop :=
  Narrowing.Allows (ScopeEntry.Approves p) s.entries target

theorem OutboundScope.approves_host {s : OutboundScope} {host : List Char} :
    s.Approves p (.host host) ↔ s.allowsHost p host = true := by
  rw [OutboundScope.allowsHost, List.any_eq_true]
  rfl

theorem OutboundScope.approves_address {s : OutboundScope} {a : Address} :
    s.Approves p (.address a) ↔ s.allowsAddress a = true := by
  rw [OutboundScope.allowsAddress, List.any_eq_true]
  rfl

theorem contains_sound_host {host : List Char} (hvalid : e.Valid p) (hvalid' : e'.Valid p) (hnetwork : e.network = none)
    (hnetwork' : e'.network = none) (hcontains : e.contains p e' = true) (h : e'.matchesHost p host = true) :
    e.matchesHost p host = true := by
  have htext := hvalid.hostText hnetwork
  have htext' := hvalid'.hostText hnetwork'
  rw [ScopeEntry.contains, hnetwork, hnetwork'] at hcontains
  dsimp only at hcontains
  cases hkind : e.wildcard with
  | false =>
    rw [if_neg (by simp [hkind]), Bool.and_eq_true, beq_iff_eq] at hcontains
    rw [hvalid.unique hvalid' hcontains.1]
    exact h
  | true =>
    rw [if_pos hkind, Bool.or_eq_true, beq_iff_eq] at hcontains
    obtain hsame | hcovers := hcontains
    · rw [hvalid.unique hvalid' hsame]
      exact h
    obtain ⟨_, hrest⟩ := htext.wildcard hkind
    have hstars : lstripStars e'.text <:+ e'.text := List.dropWhile_suffix _
    rw [ScopeEntry.matchesHost, if_neg (by simp [hnetwork]), if_neg (by simp [hkind]), Bool.and_eq_true,
      List.isSuffixOf_iff_suffix] at hcovers ⊢
    have hinner := hcovers.1.trans (htext'.cleanHost_suffix hstars)
    rw [ScopeEntry.matchesHost, if_neg (by simp [hnetwork'])] at h
    have hsuffix : e.text.tail <:+ cleanHost p host := by
      cases hkind' : e'.wildcard with
      | false =>
        rw [if_pos (by simp [hkind']), beq_iff_eq] at h
        rw [h]
        exact hinner.trans hstars
      | true =>
        rw [if_neg (by simp [hkind']), Bool.and_eq_true, List.isSuffixOf_iff_suffix] at h
        obtain ⟨_, hrest'⟩ := htext'.wildcard hkind'
        have htail : lstripStars e'.text <:+ e'.text.tail := by
          rw [hrest', lstripStars, List.dropWhile_cons_of_pos (by decide)]
          exact List.dropWhile_suffix _
        exact (hinner.trans htail).trans h.1
    refine ⟨hsuffix, ?_⟩
    rw [bne_iff_ne]
    intro hapex
    rw [hapex, hrest] at hsuffix
    have hlength := hsuffix.length_le
    simp at hlength

theorem contains_sound : Narrowing.SoundOn (ScopeEntry.contains p) (ScopeEntry.Approves p) (ScopeEntry.Valid p) := by
  intro e e' target hvalid hvalid' hcontains happroves
  cases hnetwork : e.network with
  | none =>
    cases hnetwork' : e'.network with
    | none =>
      cases target with
      | host => exact contains_sound_host hvalid hvalid' hnetwork hnetwork' hcontains happroves
      | address =>
        rw [ScopeEntry.Approves, ScopeEntry.matchesAddress, hnetwork'] at happroves
        cases happroves
    | some =>
      rw [ScopeEntry.contains, hnetwork, hnetwork'] at hcontains
      cases hcontains
  | some =>
    cases hnetwork' : e'.network with
    | none =>
      rw [ScopeEntry.contains, hnetwork, hnetwork'] at hcontains
      cases hcontains
    | some =>
      rw [ScopeEntry.contains, hnetwork, hnetwork'] at hcontains
      dsimp only at hcontains
      rw [Bool.and_eq_true, beq_iff_eq] at hcontains
      cases target with
      | host =>
        rw [ScopeEntry.Approves, ScopeEntry.matchesHost, hnetwork'] at happroves
        cases happroves
      | address =>
        rw [ScopeEntry.Approves, ScopeEntry.matchesAddress, hnetwork', Option.any_some, Network.holds, Bool.and_eq_true,
          beq_iff_eq] at happroves
        rw [ScopeEntry.Approves, ScopeEntry.matchesAddress, hnetwork, Option.any_some, Network.holds, Bool.and_eq_true,
          beq_iff_eq]
        exact ⟨happroves.1.trans hcontains.1.symm, Network.covers_sound hcontains.2 happroves.2⟩

section Intersection
variable {current : List ScopeEntry} {first : OutboundScope} {layers scopes : List OutboundScope} {target : Approvable}

theorem keep_eq (entry : ScopeEntry) (layer : List ScopeEntry) :
    keep p entry layer = Narrowing.narrowOne (ScopeEntry.contains p) layer entry := by
  induction layer with
  | nil => rfl
  | cons allowed rest ih =>
    rw [keep, Narrowing.narrowOne, List.find?_cons, Narrowing.nested]
    cases hinside : allowed.contains p entry with
    | true => simp [Narrowing.narrower, hinside]
    | false =>
      cases hcovers : entry.contains p allowed with
      | true => simp [Narrowing.narrower, hinside]
      | false => simpa [Narrowing.narrowOne] using ih

theorem narrow_eq (layer : List ScopeEntry) :
    narrow p current layer = Narrowing.narrow (ScopeEntry.contains p) current layer := by
  rw [narrow, Narrowing.narrow]
  congr
  funext entry
  exact keep_eq entry layer

theorem mem_of_mem_deduplicated {es : List ScopeEntry} (h : e ∈ deduplicated es) : e ∈ es := by
  induction es with
  | nil => exact h
  | cons first rest ih =>
    obtain rfl | h := List.mem_cons.mp h
    · exact List.mem_cons_self
    · exact List.mem_cons_of_mem _ (ih (List.mem_of_mem_filter h))

theorem mem_deduplicated {es : List ScopeEntry} (hvalid : ∀ e ∈ es, e.Valid p) : e ∈ deduplicated es ↔ e ∈ es := by
  constructor
  · exact mem_of_mem_deduplicated
  · intro h
    induction es with
    | nil => exact h
    | cons first rest ih =>
      rw [List.forall_mem_cons] at hvalid
      obtain rfl | h := List.mem_cons.mp h
      · exact List.mem_cons_self
      · by_cases htext : e.text = first.text
        · rw [(hvalid.2 e h).unique hvalid.1 htext]
          exact List.mem_cons_self
        · apply List.mem_cons_of_mem
          exact List.mem_filter.mpr ⟨ih hvalid.2 h, by simpa using htext⟩

/-- A layer all of whose entries are as they are stored. -/
def OutboundScope.Valid (p : Reading) (s : OutboundScope) : Prop := ∀ e ∈ s.entries, e.Valid p

theorem valid_layers (h : ∀ s ∈ first :: layers, s.Valid p) :
    ∀ layer ∈ first.entries :: layers.map (·.entries), ∀ e ∈ layer, e.Valid p := by
  rw [List.forall_mem_cons] at h ⊢
  refine ⟨h.1, ?_⟩
  rintro _ hlayer
  obtain ⟨s, hs, rfl⟩ := List.mem_map.mp hlayer
  exact h.2 s hs

theorem survivors_approves (hvalid : ∀ layer ∈ current :: layers.map (·.entries), ∀ e ∈ layer, e.Valid p) :
    (survivors p current layers).Approves p target ↔
      Narrowing.Allows (ScopeEntry.Approves p)
        (Narrowing.narrowAll (ScopeEntry.contains p) current (layers.map (·.entries))) target := by
  induction layers generalizing current with
  | nil =>
    have hmem : ∀ e, e ∈ deduplicated current ↔ e ∈ current := fun e => mem_deduplicated (hvalid current List.mem_cons_self)
    constructor
    · rintro ⟨e, he, happroves⟩
      exact ⟨e, (hmem e).mp he, happroves⟩
    · rintro ⟨e, he, happroves⟩
      exact ⟨e, (hmem e).mpr he, happroves⟩
  | cons layer rest ih =>
    rw [List.map_cons, List.forall_mem_cons, List.forall_mem_cons] at hvalid
    rw [survivors, narrow_eq, List.map_cons, Narrowing.narrowAll, List.foldl_cons, ← Narrowing.narrowAll]
    split_ifs with hempty
    · rw [List.isEmpty_iff.mp hempty, Narrowing.narrowAll_nil]
      exact Iff.rfl
    · apply ih
      rw [List.forall_mem_cons]
      exact ⟨Narrowing.narrow_of hvalid.1 hvalid.2.1, hvalid.2.2⟩

theorem intersect_approves (hvalid : ∀ s ∈ first :: layers, s.Valid p) :
    (intersect p (first :: layers)).Approves p target ↔
      Narrowing.Allows (ScopeEntry.Approves p)
        (Narrowing.narrowAll (ScopeEntry.contains p) first.entries (layers.map (·.entries))) target :=
  survivors_approves (valid_layers hvalid)

theorem all_layers_iff : (∀ layer ∈ first.entries :: layers.map (·.entries), Narrowing.Allows (ScopeEntry.Approves p) layer target) ↔
    ∀ s ∈ first :: layers, s.Approves p target := by
  rw [List.forall_mem_cons, List.forall_mem_cons, List.forall_mem_map]
  exact Iff.rfl

theorem intersect_sound (hvalid : ∀ s ∈ scopes, s.Valid p) (h : (intersect p scopes).Approves p target) :
    ∀ s ∈ scopes, s.Approves p target := by
  cases scopes with
  | nil =>
    intro _ hs
    cases hs
  | cons =>
    apply all_layers_iff.mp
    exact Narrowing.narrowAll_sound contains_sound (valid_layers hvalid) ((intersect_approves hvalid).mp h)

end Intersection

def hostsOnly : Reading where
  lower cs := cs.map lowerLatin
  lower_latin _ _ := rfl
  ipNetwork _ := none
  str _ := []

def hostLayer (hosts : List String) : OutboundScope := { entries := hosts.map fun host => { text := host.toList } }

end TinyHermes.Outbound
