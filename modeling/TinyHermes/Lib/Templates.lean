import TinyHermes.Lib.Paths

/-! Texts with holes in braces: what stands between the holes, what such a text becomes when they are filled, and the segments of
a path that it leaves. -/
namespace TinyHermes.Lib.Templates

/-- A part of a template: a character of its own, or a hole with a name. -/
inductive Piece where
  | plain (c : Char)
  | hole (name : List Char)
  deriving DecidableEq

def isBrace (c : Char) : Bool := c == '\x7b' || c == '\x7d'

/-- The pieces of a text. A hole is a pair of braces with none between; behind a brace that may open one, `begun` is what has come
since. -/
def piecesFrom : Option (List Char) → List Char → List Piece
  | none, [] => []
  | some begun, [] => .plain '\x7b' :: begun.map .plain
  | none, c :: rest => if c = '\x7b' then piecesFrom (some []) rest else .plain c :: piecesFrom none rest
  | some begun, c :: rest =>
    if c = '\x7b' then .plain '\x7b' :: (begun.map .plain ++ piecesFrom (some []) rest)
    else if c = '\x7d' then .hole begun :: piecesFrom none rest
    else piecesFrom (some (begun ++ [c])) rest

def pieces (text : List Char) : List Piece := piecesFrom none text

def Piece.name? : Piece → Option (List Char)
  | .plain _ => none
  | .hole name => some name

/-- The names of the holes, in the order of the text. -/
def holes (text : List Char) : List (List Char) := (pieces text).filterMap Piece.name?

def Piece.fill (f : List Char → List Char) : Piece → List Char
  | .plain c => [c]
  | .hole name => f name

/-- A template with its holes filled. -/
def filled (f : List Char → List Char) (parts : List Piece) : List Char := parts.flatMap (Piece.fill f)

/-- A hole as it is written. -/
def written (name : List Char) : List Char := '\x7b' :: (name ++ ['\x7d'])

variable {parts : List Piece}

section Pieces

theorem brace_cases (c : Char) : c = '\x7b' ∨ c = '\x7d' ∨ isBrace c = false := by
  rw [isBrace, Bool.or_eq_false_iff, beq_eq_false_iff_ne, beq_eq_false_iff_ne]
  tauto

theorem piecesFrom_start (rest : List Char) : piecesFrom none ('\x7b' :: rest) = piecesFrom (some []) rest := rfl

theorem piecesFrom_plain {c : Char} (h : c ≠ '\x7b') (rest : List Char) :
    piecesFrom none (c :: rest) = .plain c :: piecesFrom none rest := if_neg h

theorem piecesFrom_again (begun rest : List Char) :
    piecesFrom (some begun) ('\x7b' :: rest) = .plain '\x7b' :: (begun.map .plain ++ piecesFrom (some []) rest) := rfl

theorem piecesFrom_close (begun rest : List Char) :
    piecesFrom (some begun) ('\x7d' :: rest) = .hole begun :: piecesFrom none rest := rfl

theorem piecesFrom_more {c : Char} (h : isBrace c = false) (begun rest : List Char) :
    piecesFrom (some begun) (c :: rest) = piecesFrom (some (begun ++ [c])) rest := by
  obtain ⟨hopen, hclose⟩ := Bool.or_eq_false_iff.mp h
  exact (if_neg (ne_of_beq_false hopen)).trans (if_neg (ne_of_beq_false hclose))

theorem filled_append (f : List Char → List Char) (parts parts' : List Piece) :
    filled f (parts ++ parts') = filled f parts ++ filled f parts' := List.flatMap_append

theorem filled_cons (f : List Char → List Char) (part : Piece) (parts : List Piece) :
    filled f (part :: parts) = part.fill f ++ filled f parts := List.flatMap_cons

theorem filled_plain (f : List Char → List Char) (text : List Char) : filled f (text.map .plain) = text := by
  rw [filled, List.flatMap_map]
  exact List.flatMap_singleton' text

theorem piecesFrom_written (begun : Option (List Char)) (text : List Char) :
    filled written (piecesFrom begun text) = (begun.elim [] ('\x7b' :: ·)) ++ text := by
  induction text generalizing begun with
  | nil =>
    cases begun with
    | none => rfl
    | some begun =>
      have hend : piecesFrom (some begun) [] = .plain '\x7b' :: begun.map .plain := rfl
      rw [hend, filled_cons, filled_plain]
      exact (List.append_nil _).symm
  | cons c rest ih =>
    cases begun with
    | none =>
      by_cases hc : c = '\x7b'
      · subst hc
        rw [piecesFrom_start, ih]
        rfl
      · rw [piecesFrom_plain hc, filled_cons, ih]
        rfl
    | some =>
      rcases brace_cases c with rfl | rfl | hc
      · rw [piecesFrom_again, filled_cons, filled_append, filled_plain, ih]
        rfl
      · rw [piecesFrom_close, filled_cons, ih]
        simp [Piece.fill, written]
      · rw [piecesFrom_more hc, ih]
        simp

theorem pieces_written (text : List Char) : filled written (pieces text) = text := piecesFrom_written none text

def Named (parts : List Piece) : Prop := ∀ name, .hole name ∈ parts → ∀ c ∈ name, isBrace c = false

theorem named_none (name : List Char) (h : none = some name) : ∀ c ∈ name, isBrace c = false := by
  cases h

theorem piecesFrom_named {begun : Option (List Char)} (text : List Char) (h : ∀ name, begun = some name → ∀ c ∈ name, isBrace c = false) :
    Named (piecesFrom begun text) := by
  induction text generalizing begun with
  | nil =>
    intro name hname
    cases begun with
    | none => cases hname
    | some begun =>
      have hend : piecesFrom (some begun) [] = .plain '\x7b' :: begun.map .plain := rfl
      rw [hend] at hname
      simp at hname
  | cons c rest ih =>
    intro name hname
    cases begun with
    | none =>
      by_cases hc : c = '\x7b'
      · subst hc
        exact ih (by rintro _ ⟨⟩; simp) name hname
      · rw [piecesFrom_plain hc, List.mem_cons] at hname
        exact ih named_none name (hname.resolve_left Piece.noConfusion)
    | some begun =>
      rcases brace_cases c with rfl | rfl | hc
      · rw [piecesFrom_again] at hname
        have hrest : .hole name ∈ piecesFrom (some []) rest := by simpa using hname
        exact ih (by rintro _ ⟨⟩; simp) name hrest
      · rw [piecesFrom_close, List.mem_cons] at hname
        rcases hname with hsame | hname
        · exact h name (congrArg some (Piece.hole.inj hsame).symm)
        · exact ih named_none name hname
      · rw [piecesFrom_more hc] at hname
        refine ih ?_ name hname
        rintro _ ⟨⟩ d hd
        rcases List.mem_append.mp hd with hd | hd
        · exact h begun rfl d hd
        · exact List.mem_singleton.mp hd ▸ hc

theorem pieces_named (text : List Char) : Named (pieces text) := piecesFrom_named text named_none

/-- No brace that opens nothing stands before one that closes nothing. -/
def Apart (parts : List Piece) : Prop := parts.Pairwise fun a b => a = .plain '\x7b' → b ≠ .plain '\x7d'

theorem piecesFrom_name {name : List Char} (h : ∀ c ∈ name, isBrace c = false) (begun rest : List Char) :
    piecesFrom (some begun) (name ++ rest) = piecesFrom (some (begun ++ name)) rest := by
  induction name generalizing begun with
  | nil => rw [List.append_nil, List.nil_append]
  | cons c name ih =>
    obtain ⟨hc, hname⟩ := List.forall_mem_cons.mp h
    rw [List.cons_append, piecesFrom_more hc, ih hname, List.append_assoc]
    rfl

/-- Pieces that are written so are read so, as are those behind a brace that nothing closes. -/
theorem piecesFrom_filled (hnamed : Named parts) (happart : Apart parts) :
    piecesFrom none (filled written parts) = parts ∧ (.plain '\x7d' ∉ parts → ∀ begun,
      piecesFrom (some begun) (filled written parts) = .plain '\x7b' :: (begun.map .plain ++ parts)) := by
  induction parts with
  | nil => exact ⟨rfl, fun _ begun => by rw [List.append_nil]; rfl⟩
  | cons part rest ih =>
    obtain ⟨hfirst, hrest⟩ := List.pairwise_cons.mp happart
    obtain ⟨hplain, hbegun⟩ := ih (fun name hname => hnamed name (List.mem_cons_of_mem _ hname)) hrest
    rw [filled_cons]
    cases part with
    | plain c =>
      rcases brace_cases c with rfl | rfl | hc
      · have hnone : .plain '\x7d' ∉ rest := fun hmem => hfirst _ hmem rfl rfl
        refine ⟨hbegun hnone [], fun _ begun => ?_⟩
        rw [Piece.fill, List.singleton_append, piecesFrom_again, hbegun hnone]
        rfl
      · refine ⟨?_, fun hnot => absurd List.mem_cons_self hnot⟩
        rw [Piece.fill, List.singleton_append, piecesFrom_plain (by decide), hplain]
      · have hne : c ≠ '\x7b' := by
          rintro rfl
          cases hc
        refine ⟨?_, fun hnot begun => ?_⟩
        · rw [Piece.fill, List.singleton_append, piecesFrom_plain hne, hplain]
        · rw [Piece.fill, List.singleton_append, piecesFrom_more hc, hbegun (fun h => hnot (List.mem_cons_of_mem _ h))]
          simp
    | hole name =>
      have hname := hnamed name List.mem_cons_self
      have hread : ∀ begun, piecesFrom (some begun) (name ++ '\x7d' :: filled written rest) =
          .hole (begun ++ name) :: rest := fun begun => by
        rw [piecesFrom_name hname, piecesFrom_close, hplain]
      have hwritten : Piece.fill written (.hole name) ++ filled written rest = '\x7b' :: (name ++ '\x7d' :: filled written rest) := by
        simp [Piece.fill, written]
      rw [hwritten]
      refine ⟨hread [], fun _ begun => ?_⟩
      rw [piecesFrom_again, hread]
      rfl

theorem pieces_filled (hnamed : Named parts) (happart : Apart parts) : pieces (filled written parts) = parts :=
  (piecesFrom_filled hnamed happart).1

/-- A text without holes has none of the braces apart. -/
theorem piecesFrom_closed {begun : Option (List Char)} {text : List Char}
    (h : ∀ name, .hole name ∉ piecesFrom begun text) : (begun.isSome = true → '\x7d' ∉ text) ∧
      text.Pairwise fun a b => a = '\x7b' → b ≠ '\x7d' := by
  induction text generalizing begun with
  | nil => exact ⟨fun _ => List.not_mem_nil, List.Pairwise.nil⟩
  | cons c rest ih =>
    rw [List.pairwise_cons]
    cases begun with
    | none =>
      refine ⟨fun hsome => Bool.noConfusion hsome, ?_⟩
      by_cases hc : c = '\x7b'
      · subst hc
        obtain ⟨hnone, hrest⟩ := @ih (some []) h
        exact ⟨fun b hb _ hclose => hnone rfl (hclose ▸ hb), hrest⟩
      · rw [piecesFrom_plain hc] at h
        obtain ⟨_, hrest⟩ := @ih none fun name hname => h name (List.mem_cons_of_mem _ hname)
        exact ⟨fun b _ hopen => absurd hopen hc, hrest⟩
    | some begun =>
      rcases brace_cases c with rfl | rfl | hc
      · rw [piecesFrom_again] at h
        obtain ⟨hnone, hrest⟩ := @ih (some []) fun name hname => h name (by simp [hname])
        refine ⟨fun _ hmem => ?_, fun b hb _ hclose => hnone rfl (hclose ▸ hb), hrest⟩
        exact hnone rfl ((List.mem_cons.mp hmem).resolve_left (by decide))
      · rw [piecesFrom_close] at h
        exact absurd List.mem_cons_self (h begun)
      · rw [piecesFrom_more hc] at h
        obtain ⟨hnone, hrest⟩ := @ih (some (begun ++ [c])) h
        have hne : '\x7d' ≠ c := by
          rintro rfl
          cases hc
        have hne' : c ≠ '\x7b' := by
          rintro rfl
          cases hc
        exact ⟨fun _ hmem => hnone rfl ((List.mem_cons.mp hmem).resolve_left hne), fun b _ hopen => absurd hopen hne', hrest⟩

end Pieces

variable {f : List Char → List Char}

section Filling

/-- The holes that have a value filled with it, and the others left. -/
def Piece.assign (values : List Char → Option (List Char)) : Piece → List Piece
  | .plain c => [.plain c]
  | .hole name => (values name).elim [.hole name] (·.map .plain)

def assigned (values : List Char → Option (List Char)) (parts : List Piece) : List Piece := parts.flatMap (Piece.assign values)

theorem assigned_cons (values : List Char → Option (List Char)) (part : Piece) (parts : List Piece) :
    assigned values (part :: parts) = part.assign values ++ assigned values parts := List.flatMap_cons

theorem assigned_append (values : List Char → Option (List Char)) (parts parts' : List Piece) :
    assigned values (parts ++ parts') = assigned values parts ++ assigned values parts' := List.flatMap_append

theorem assigned_plain (values : List Char → Option (List Char)) (text : List Char) :
    assigned values (text.map .plain) = text.map .plain := by
  rw [assigned, List.flatMap_map]
  exact List.map_eq_flatMap.symm

theorem assigned_none (parts : List Piece) : assigned (fun _ => none) parts = parts := by
  have hone : ∀ part ∈ parts, Piece.assign (fun _ => none) part = [part] := by
    intro part _
    cases part <;> rfl
  rw [assigned, List.flatMap_congr hone, List.flatMap_singleton']

theorem filled_assigned (f : List Char → List Char) (values : List Char → Option (List Char)) (parts : List Piece) :
    filled f (assigned values parts) = filled (fun name => (values name).getD (f name)) parts := by
  rw [filled, assigned, List.flatMap_assoc, filled]
  refine List.flatMap_congr fun part _ => ?_
  cases part with
  | plain => rfl
  | hole name =>
    rw [Piece.assign, Piece.fill]
    cases values name with
    | none => simp [Piece.fill]
    | some value => exact filled_plain f value

theorem assigned_assigned (first second : List Char → Option (List Char)) (parts : List Piece) :
    assigned second (assigned first parts) = assigned (fun name => (first name).or (second name)) parts := by
  rw [assigned, assigned, List.flatMap_assoc, assigned]
  refine List.flatMap_congr fun part _ => ?_
  cases part with
  | plain => rfl
  | hole name =>
    rw [Piece.assign, Piece.assign]
    cases first name with
    | none => simp [Piece.assign]
    | some =>
      rw [Option.some_or, Option.elim_some, List.flatMap_map]
      exact List.map_eq_flatMap.symm

variable {values : List Char → Option (List Char)} {parts : List Piece}

theorem mem_assigned_hole {name : List Char} : .hole name ∈ assigned values parts ↔ .hole name ∈ parts ∧ values name = none := by
  rw [assigned, List.mem_flatMap]
  constructor
  · rintro ⟨part, hpart, hmem⟩
    cases part with
    | plain => cases List.mem_singleton.mp hmem
    | hole other =>
      rw [Piece.assign] at hmem
      cases hvalue : values other with
      | none =>
        rw [hvalue] at hmem
        cases List.mem_singleton.mp hmem
        exact ⟨hpart, hvalue⟩
      | some =>
        rw [hvalue] at hmem
        obtain ⟨_, _, h⟩ := List.mem_map.mp hmem
        cases h
  · rintro ⟨hpart, hvalue⟩
    refine ⟨_, hpart, ?_⟩
    rw [Piece.assign, hvalue]
    exact List.mem_singleton_self _

theorem Piece.of_mem_assign (hvalues : ∀ name value, values name = some value → ∀ c ∈ value, isBrace c = false) {part : Piece}
    {c : Char} (hc : isBrace c = true) (h : .plain c ∈ part.assign values) : part = .plain c := by
  cases part with
  | plain => exact (List.mem_singleton.mp h).symm
  | hole name =>
    rw [Piece.assign] at h
    cases hvalue : values name with
    | none =>
      rw [hvalue] at h
      cases List.mem_singleton.mp h
    | some value =>
      rw [hvalue] at h
      obtain ⟨_, hd, hsame⟩ := List.mem_map.mp h
      cases hsame
      rw [hvalues name value hvalue _ hd] at hc
      cases hc

theorem Apart.assigned (h : Apart parts) (hvalues : ∀ name value, values name = some value → ∀ c ∈ value, isBrace c = false) :
    Apart (assigned values parts) := by
  rw [Apart, Templates.assigned, List.pairwise_flatMap]
  constructor
  · intro part _
    refine List.pairwise_of_forall_mem_list ?_
    rintro a ha b hb rfl rfl
    cases (Piece.of_mem_assign hvalues rfl ha).symm.trans (Piece.of_mem_assign hvalues rfl hb)
  · refine h.imp_of_mem ?_
    rintro _ _ _ _ hapart _ ha _ hb rfl rfl
    exact hapart (Piece.of_mem_assign hvalues rfl ha) (Piece.of_mem_assign hvalues rfl hb)

theorem Named.assigned (h : Named parts) : Named (assigned values parts) := fun name hname =>
  h name (mem_assigned_hole.mp hname).1

theorem mem_holes {text name : List Char} : name ∈ holes text ↔ .hole name ∈ pieces text := by
  rw [holes, List.mem_filterMap]
  constructor
  · rintro ⟨part, hpart, hname⟩
    cases part with
    | plain => cases hname
    | hole => exact Option.some.inj hname ▸ hpart
  · exact fun h => ⟨_, h, rfl⟩

theorem mem_filled {c : Char} (h : ∀ name, .hole name ∈ parts → c ∉ f name) :
    c ∈ filled f parts ↔ .plain c ∈ parts := by
  rw [filled, List.mem_flatMap]
  constructor
  · rintro ⟨part, hpart, hc⟩
    cases part with
    | plain => exact List.mem_singleton.mp hc ▸ hpart
    | hole name => exact absurd hc (h name hpart)
  · exact fun hplain => ⟨_, hplain, List.mem_singleton_self c⟩

theorem apart_of_no_holes (h : holes (filled f parts) = []) : Apart parts := by
  have hnone : ∀ name, .hole name ∉ piecesFrom none (filled f parts) := by
    intro _ hname
    have hmem := mem_holes.mpr hname
    rw [h] at hmem
    cases hmem
  have htext := (piecesFrom_closed hnone).2
  rw [filled, List.pairwise_flatMap] at htext
  refine htext.2.imp fun hbetween => ?_
  rintro rfl rfl
  exact hbetween _ (List.mem_singleton_self _) _ (List.mem_singleton_self _) rfl rfl

end Filling

section Refilling
variable {values : List Char → Option (List Char)} {parts parts' : List Piece}

/-- A hole that has a value. -/
def Piece.isAssigned (values : List Char → Option (List Char)) : Piece → Bool
  | .plain _ => false
  | .hole name => (values name).isSome

/-- The second pieces are the first, but for written holes that are read as such. -/
inductive Formed : List Piece → List Piece → Prop where
  | nil : Formed [] []
  | same (part : Piece) {parts parts' : List Piece} : Formed parts parts' → Formed (part :: parts) (part :: parts')
  | formed (name : List Char) {parts parts' : List Piece} : Formed parts parts' →
      Formed ((written name).map .plain ++ parts) (.hole name :: parts')

theorem Formed.append (h : Formed parts parts') (before : List Piece) : Formed (before ++ parts) (before ++ parts') := by
  induction before with
  | nil => exact h
  | cons part before ih => exact .same part ih

theorem formed_piecesFrom (hnamed : Named parts) :
    Formed parts (piecesFrom none (filled written parts)) ∧ ∀ begun : List Char,
      Formed (.plain '\x7b' :: (begun.map .plain ++ parts)) (piecesFrom (some begun) (filled written parts)) := by
  induction parts with
  | nil =>
    refine ⟨.nil, fun begun => ?_⟩
    have hend : piecesFrom (some begun) (filled written []) = .plain '\x7b' :: begun.map .plain := rfl
    have hsame := (Formed.nil.append (begun.map .plain)).same (.plain '\x7b')
    rw [hend]
    rwa [List.append_nil] at hsame ⊢
  | cons part rest ih =>
    obtain ⟨hplain, hbegun⟩ := ih fun name hname => hnamed name (List.mem_cons_of_mem _ hname)
    rw [filled_cons]
    cases part with
    | plain c =>
      rw [Piece.fill, List.singleton_append]
      rcases brace_cases c with rfl | rfl | hc
      · refine ⟨hbegun [], fun begun => ?_⟩
        rw [piecesFrom_again]
        exact ((hbegun []).append (begun.map .plain)).same _
      · refine ⟨?_, fun begun => ?_⟩
        · rw [piecesFrom_plain (by decide)]
          exact hplain.same _
        · have hclosed : Piece.plain '\x7b' :: (begun.map .plain ++ .plain '\x7d' :: rest) = (written begun).map .plain ++ rest := by
            rw [written, List.map_cons, List.map_append, List.cons_append, List.append_assoc]
            rfl
          rw [piecesFrom_close, hclosed]
          exact hplain.formed begun
      · have hne : c ≠ '\x7b' := by
          rintro rfl
          cases hc
        refine ⟨?_, fun begun => ?_⟩
        · rw [piecesFrom_plain hne]
          exact hplain.same _
        · have hmore := hbegun (begun ++ [c])
          rw [List.map_append, List.append_assoc] at hmore
          rw [piecesFrom_more hc]
          exact hmore
    | hole name =>
      have hname := hnamed name List.mem_cons_self
      have hwritten : Piece.fill written (.hole name) ++ filled written rest = '\x7b' :: (name ++ '\x7d' :: filled written rest) := by
        simp [Piece.fill, written]
      have hread : piecesFrom (some []) (name ++ '\x7d' :: filled written rest) = .hole name :: piecesFrom none (filled written rest) := by
        rw [piecesFrom_name hname, piecesFrom_close, List.nil_append]
      rw [hwritten]
      refine ⟨?_, fun begun => ?_⟩
      · rw [piecesFrom_start, hread]
        exact hplain.same _
      · rw [piecesFrom_again, hread]
        exact ((hplain.same _).append (begun.map .plain)).same _

theorem formed_pieces (hnamed : Named parts) : Formed parts (pieces (filled written parts)) := (formed_piecesFrom hnamed).1

theorem countP_plain (text : List Char) : (text.map Piece.plain).countP (·.isAssigned values) = 0 := by
  rw [List.countP_eq_zero]
  rintro _ hpart
  obtain ⟨_, _, rfl⟩ := List.mem_map.mp hpart
  exact Bool.false_ne_true

theorem Formed.countP_add_le (h : Formed parts parts') {fewer more : List Char → Option (List Char)}
    (hmore : ∀ name, (fewer name).isSome = true → (more name).isSome = true) :
    parts'.countP (·.isAssigned fewer) + parts.countP (·.isAssigned more) ≤
      parts'.countP (·.isAssigned more) + parts.countP (·.isAssigned fewer) := by
  induction h with
  | nil => exact le_rfl
  | same =>
    rw [List.countP_cons, List.countP_cons, List.countP_cons, List.countP_cons]
    omega
  | formed name =>
    rw [List.countP_append, List.countP_append, countP_plain, countP_plain, List.countP_cons, List.countP_cons]
    have hone : (if Piece.isAssigned fewer (.hole name) = true then 1 else 0) ≤
        if Piece.isAssigned more (.hole name) = true then 1 else 0 := by
      split_ifs with hfewer hnot
      · exact le_rfl
      · exact absurd (hmore name hfewer) hnot
      · exact Nat.zero_le 1
      · exact le_rfl
    omega

theorem Formed.countP_le (h : Formed parts parts') (values : List Char → Option (List Char)) :
    parts.countP (·.isAssigned values) ≤ parts'.countP (·.isAssigned values) := by
  have hnone : ∀ parts : List Piece, parts.countP (·.isAssigned fun _ => none) = 0 := by
    refine fun parts => List.countP_eq_zero.mpr fun part _ => ?_
    cases part <;> exact Bool.false_ne_true
  have hle := @Formed.countP_add_le _ _ h (fun _ => none) values fun _ hsome => by cases hsome
  rw [hnone, hnone] at hle
  omega

theorem Formed.filled_assigned (h : Formed parts parts')
    (hsame : parts'.countP (·.isAssigned values) = parts.countP (·.isAssigned values)) :
    filled written (assigned values parts') = filled written (assigned values parts) := by
  induction h with
  | nil => rfl
  | same part _ ih =>
    rw [List.countP_cons, List.countP_cons] at hsame
    rw [assigned_cons, assigned_cons, filled_append, filled_append, ih (Nat.add_right_cancel hsame)]
  | formed name hformed ih =>
    have hle := hformed.countP_le values
    rw [List.countP_append, countP_plain, Nat.zero_add, List.countP_cons] at hsame
    have hnone : values name = none := by
      cases hvalue : values name with
      | none => rfl
      | some =>
        rw [if_pos (by rw [Piece.isAssigned, hvalue]; rfl)] at hsame
        omega
    rw [if_neg (by rw [Piece.isAssigned, hnone]; exact Bool.false_ne_true)] at hsame
    rw [assigned_append, assigned_plain, assigned_cons, Piece.assign, hnone, filled_append, filled_append, filled_plain, ih hsame]
    exact congrArg (· ++ _) (List.append_nil _)

/-- Each hole that is filled takes one opening brace away. -/
theorem count_filled_assigned (hnamed : Named parts) (hvalues : ∀ name value, values name = some value → ∀ c ∈ value, isBrace c = false) :
    (filled written (assigned values parts)).count '\x7b' + parts.countP (·.isAssigned values) =
      (filled written parts).count '\x7b' := by
  have hunbraced : ∀ {text : List Char}, (∀ c ∈ text, isBrace c = false) → text.count '\x7b' = 0 := by
    intro _ htext
    refine List.count_eq_zero.mpr fun hmem => ?_
    cases htext _ hmem
  induction parts with
  | nil => rfl
  | cons part rest ih =>
    have hrest := ih fun name hname => hnamed name (List.mem_cons_of_mem _ hname)
    rw [assigned_cons, filled_append, List.count_append, List.countP_cons, filled_cons, List.count_append, ← hrest]
    cases part with
    | plain c =>
      have hplain : filled written (Piece.assign values (.plain c)) = Piece.fill written (.plain c) := rfl
      have hnone : (Piece.plain c).isAssigned values = false := rfl
      rw [hplain, hnone, if_neg Bool.false_ne_true]
      omega
    | hole name =>
      have hwritten : (Piece.fill written (.hole name)).count '\x7b' = 1 := by
        rw [Piece.fill, written, List.count_cons_self, List.count_append, hunbraced (hnamed name List.mem_cons_self)]
        rfl
      rw [hwritten, Piece.assign, Piece.isAssigned]
      cases hvalue : values name with
      | none =>
        have hleft : (filled written [.hole name]).count '\x7b' = 1 := by
          rw [filled, List.flatMap_singleton, hwritten]
        rw [Option.elim_none, hleft, Option.isSome_none, if_neg Bool.false_ne_true]
        omega
      | some value =>
        rw [Option.elim_some, filled_plain, hunbraced (hvalues name value hvalue), Option.isSome_some, if_pos rfl]
        omega

theorem countP_assigned (first second : List Char → Option (List Char)) (parts : List Piece) :
    parts.countP (·.isAssigned fun name => (first name).or (second name)) =
      parts.countP (·.isAssigned first) + (assigned first parts).countP (·.isAssigned second) := by
  induction parts with
  | nil => rfl
  | cons part rest ih =>
    rw [List.countP_cons, List.countP_cons, ih, assigned_cons, List.countP_append]
    cases part with
    | plain c =>
      have hplain : (Piece.assign first (.plain c)).countP (·.isAssigned second) = 0 := rfl
      have hnone : ∀ values, (Piece.plain c).isAssigned values = false := fun _ => rfl
      rw [hplain, hnone, hnone, if_neg Bool.false_ne_true]
      omega
    | hole name =>
      rw [Piece.assign, Piece.isAssigned, Piece.isAssigned]
      cases first name with
      | none =>
        have hone : [Piece.hole name].countP (·.isAssigned second) = if (second name).isSome then 1 else 0 := by
          rw [List.countP_singleton, Piece.isAssigned]
        rw [Option.none_or, Option.elim_none, hone, Option.isSome_none, if_neg Bool.false_ne_true]
        omega
      | some =>
        rw [Option.some_or, Option.elim_some, countP_plain, Option.isSome_some, if_pos rfl]
        omega

/-- Assignments made one after the other. -/
def assignedAll (assignments : List (List Char → Option (List Char))) (parts : List Piece) : List Piece :=
  assignments.foldl (fun parts values => assigned values parts) parts

/-- Assignments made one after the other, the text read again for each. -/
def refilled (assignments : List (List Char → Option (List Char))) (text : List Char) : List Char :=
  assignments.foldl (fun text values => filled written (assigned values (pieces text))) text

/-- What the assignments before leave has, when it is written out and read again, no more holes for the next to fill. -/
def Undisturbed (assignments : List (List Char → Option (List Char))) (parts : List Piece) : Prop :=
  ∀ before values after, assignments = before ++ values :: after →
    (pieces (filled written (assignedAll before parts))).countP (·.isAssigned values) =
      (assignedAll before parts).countP (·.isAssigned values)

theorem undisturbed_cons (values : List Char → Option (List Char)) (rest : List (List Char → Option (List Char))) (parts : List Piece) :
    Undisturbed (values :: rest) parts ↔
      (pieces (filled written parts)).countP (·.isAssigned values) = parts.countP (·.isAssigned values) ∧
        Undisturbed rest (assigned values parts) := by
  constructor
  · intro h
    exact ⟨h [] values rest rfl, fun before next after hrest => h (values :: before) next after (congrArg _ hrest)⟩
  · rintro ⟨hfirst, hrest⟩ before next after hsplit
    cases before with
    | nil =>
      obtain ⟨rfl, _⟩ := List.cons.inj hsplit
      exact hfirst
    | cons value before =>
      obtain ⟨rfl, hlater⟩ := List.cons.inj hsplit
      exact hrest before next after hlater

/-- The first of several values. -/
def firstValue (assignments : List (List Char → Option (List Char))) (name : List Char) : Option (List Char) :=
  assignments.findSome? (· name)

theorem firstValue_cons (values : List Char → Option (List Char)) (rest : List (List Char → Option (List Char))) :
    firstValue (values :: rest) = fun name => (values name).or (firstValue rest name) := by
  funext name
  rw [firstValue, List.findSome?_cons]
  cases values name <;> rfl

variable {assignments : List (List Char → Option (List Char))}

theorem count_refilled_le (hvalues : ∀ values ∈ assignments, ∀ name value, values name = some value → ∀ c ∈ value, isBrace c = false)
    (text : List Char) : (refilled assignments text).count '\x7b' + (pieces text).countP (·.isAssigned (firstValue assignments)) ≤
      text.count '\x7b' := by
  induction assignments generalizing text with
  | nil =>
    have hnone : (pieces text).countP (·.isAssigned (firstValue [])) = 0 := by
      refine List.countP_eq_zero.mpr fun part _ => ?_
      cases part <;> exact Bool.false_ne_true
    rw [hnone]
    exact le_rfl
  | cons values rest ih =>
    obtain ⟨hfirst, hrest⟩ := List.forall_mem_cons.mp hvalues
    have hlater := ih hrest (filled written (assigned values (pieces text)))
    have hnamed : Named (assigned values (pieces text)) := (pieces_named text).assigned
    have hformed := (formed_pieces hnamed).countP_le (firstValue rest)
    have hstep := count_filled_assigned (pieces_named text) hfirst
    rw [pieces_written] at hstep
    have hrefilled : refilled (values :: rest) text = refilled rest (filled written (assigned values (pieces text))) := rfl
    rw [hrefilled, firstValue_cons, countP_assigned]
    omega

/-- Reading the text again for each assignment comes to the same if and only if none of them finds a hole that was not there. -/
theorem refilled_eq_iff (hvalues : ∀ values ∈ assignments, ∀ name value, values name = some value → ∀ c ∈ value, isBrace c = false)
    (hnamed : Named parts) : refilled assignments (filled written parts) = filled written (assigned (firstValue assignments) parts) ↔
      Undisturbed assignments parts := by
  induction assignments generalizing parts with
  | nil =>
    have hnone : assigned (firstValue []) parts = parts := assigned_none parts
    rw [hnone]
    exact iff_of_true rfl fun before values after h => by simp at h
  | cons values rest ih =>
    obtain ⟨_, hrest⟩ := List.forall_mem_cons.mp hvalues
    have hformed := formed_pieces hnamed
    rw [undisturbed_cons]
    by_cases hsame : (pieces (filled written parts)).countP (·.isAssigned values) = parts.countP (·.isAssigned values)
    · have hrefilled : refilled (values :: rest) (filled written parts) =
          refilled rest (filled written (assigned values (pieces (filled written parts)))) := rfl
      rw [and_iff_right hsame, hrefilled, hformed.filled_assigned hsame, firstValue_cons, ← assigned_assigned]
      exact ih hrest hnamed.assigned
    · -- a hole that was not there takes a brace away that nothing gives back
      refine iff_of_false (fun heq => ?_) fun h => hsame h.1
      have hread := count_refilled_le hvalues (filled written parts)
      have hunbraced : ∀ name value, firstValue (values :: rest) name = some value → ∀ c ∈ value, isBrace c = false := by
        intro name value hvalue
        obtain ⟨one, hone, hvalue⟩ := List.exists_of_findSome?_eq_some hvalue
        exact hvalues one hone name value hvalue
      have hfilled := count_filled_assigned hnamed hunbraced
      have hfewer := hformed.countP_le values
      have hmore := @Formed.countP_add_le _ _ hformed values (firstValue (values :: rest)) fun name hsome => by
        rw [firstValue_cons, Option.isSome_or, hsome]
        rfl
      rw [heq] at hread
      omega

end Refilling

section Segments

theorem splitOn_append {before : List Char} {sep : Char} (h : sep ∉ before) (after : List Char) :
    (before ++ after).splitOn sep = (after.splitOn sep).modifyHead (before ++ ·) := by
  induction before with
  | nil => exact (List.modifyHead_id ▸ rfl)
  | cons c rest ih =>
    rw [List.mem_cons, not_or] at h
    rw [List.cons_append, List.splitOn_cons_eq_if_modifyHead, if_neg (by simpa using Ne.symm h.1), ih h.2, List.modifyHead_modifyHead]
    rfl

theorem map_modifyHead (f : List Char → List Char) (part : Piece) (segments : List (List Piece)) :
    (segments.modifyHead (part :: ·)).map (filled f) = (segments.map (filled f)).modifyHead (part.fill f ++ ·) := by
  cases segments with
  | nil => rfl
  | cons => rw [List.modifyHead_cons, List.map_cons, List.map_cons, List.modifyHead_cons, filled_cons]

theorem filled_splitOn {sep : Char}
    (h : ∀ name, .hole name ∈ parts → sep ∉ f name) :
    (filled f parts).splitOn sep = (parts.splitOn (.plain sep)).map (filled f) := by
  induction parts with
  | nil => rfl
  | cons part rest ih =>
    have hrest := ih fun name hname => h name (List.mem_cons_of_mem _ hname)
    by_cases hsep : part = .plain sep
    · subst hsep
      rw [filled_cons, Piece.fill, List.singleton_append, List.splitOn_cons_eq_if_modifyHead, if_pos (beq_self_eq_true _),
        List.splitOn_cons_eq_if_modifyHead, if_pos (beq_self_eq_true _), hrest]
      rfl
    · have hpart : sep ∉ part.fill f := by
        cases part with
        | plain => exact fun hmem => hsep (congrArg Piece.plain (List.mem_singleton.mp hmem).symm)
        | hole name => exact h name List.mem_cons_self
      rw [filled_cons, splitOn_append hpart, hrest, List.splitOn_cons_eq_if_modifyHead, if_neg (by simpa using hsep), map_modifyHead]

/-- The removal of dot segments: a dot goes, two take along what stands before them, and the last leaves an empty segment. `kept`
is what was kept so far, from the last on. -/
def removeDots : List (List Char) → List (List Char) → List (List Char)
  | kept, [] => kept.reverse
  | kept, segment :: rest =>
    if segment = ['.'] then if rest.isEmpty then ([] :: kept).reverse else removeDots kept rest
    else if segment = ['.', '.'] then
      let kept := if kept.length ≤ 1 then kept else kept.tail
      if rest.isEmpty then ([] :: kept).reverse else removeDots kept rest
    else removeDots (segment :: kept) rest

def removeDotSegments (path : List Char) : List Char := ['/'].intercalate (removeDots [] (path.splitOn '/'))

def isDots (segment : List Char) : Bool := segment == ['.'] || segment == ['.', '.']

theorem removeDots_end (kept : List (List Char)) : removeDots kept [] = kept.reverse := rfl

theorem removeDots_keep {segment : List Char} (h : isDots segment = false) (kept rest : List (List Char)) :
    removeDots kept (segment :: rest) = removeDots (segment :: kept) rest := by
  obtain ⟨hone, htwo⟩ := Bool.or_eq_false_iff.mp h
  exact (if_neg (ne_of_beq_false hone)).trans (if_neg (ne_of_beq_false htwo))

theorem removeDots_drop {segment : List Char} (h : isDots segment = true) (kept rest : List (List Char)) :
    ∃ fewer, fewer ⊆ kept ∧ removeDots kept (segment :: rest) = if rest.isEmpty then ([] :: fewer).reverse else removeDots fewer rest := by
  rcases Bool.or_eq_true_iff.mp h with hone | htwo
  · exact ⟨kept, fun _ hmem => hmem, if_pos (beq_iff_eq.mp hone)⟩
  · obtain rfl := beq_iff_eq.mp htwo
    refine ⟨if kept.length ≤ 1 then kept else kept.tail, ?_, (if_neg (by decide)).trans (if_pos rfl)⟩
    split_ifs
    · exact fun _ hmem => hmem
    · exact List.tail_subset kept

theorem removeDots_none {kept segments : List (List Char)} (h : ∀ segment ∈ segments, isDots segment = false) :
    removeDots kept segments = kept.reverse ++ segments := by
  induction segments generalizing kept with
  | nil => rw [removeDots_end, List.append_nil]
  | cons segment rest ih =>
    obtain ⟨hsegment, hrest⟩ := List.forall_mem_cons.mp h
    rw [removeDots_keep hsegment, ih hrest, List.reverse_cons, List.append_assoc]
    rfl

theorem removeDots_mem {kept segments : List (List Char)} {segment : List Char} (h : segment ∈ removeDots kept segments) :
    segment ∈ kept ∨ segment = [] ∨ segment ∈ segments ∧ isDots segment = false := by
  induction segments generalizing kept with
  | nil => exact .inl (List.mem_reverse.mp h)
  | cons first rest ih =>
    cases hfirst : isDots first with
    | false =>
      rw [removeDots_keep hfirst] at h
      rcases ih h with hkept | hempty | ⟨hmem, hdots⟩
      · rcases List.mem_cons.mp hkept with rfl | hkept
        · exact .inr (.inr ⟨List.mem_cons_self, hfirst⟩)
        · exact .inl hkept
      · exact .inr (.inl hempty)
      · exact .inr (.inr ⟨List.mem_cons_of_mem _ hmem, hdots⟩)
    | true =>
      obtain ⟨_, hfewer, hdrop⟩ := removeDots_drop hfirst kept rest
      rw [hdrop] at h
      split_ifs at h
      · rcases List.mem_cons.mp (List.mem_reverse.mp h) with hempty | hkept
        · exact .inr (.inl hempty)
        · exact .inl (hfewer hkept)
      · rcases ih h with hkept | hempty | ⟨hmem, hdots⟩
        · exact .inl (hfewer hkept)
        · exact .inr (.inl hempty)
        · exact .inr (.inr ⟨List.mem_cons_of_mem _ hmem, hdots⟩)

theorem removeDotSegments_eq_iff (path : List Char) :
    removeDotSegments path = path ↔ ∀ segment ∈ path.splitOn '/', isDots segment = false := by
  constructor
  · intro h
    have hnone : ∀ segment ∈ removeDots [] (path.splitOn '/'), isDots segment = false ∧ '/' ∉ segment := by
      intro segment hsegment
      rcases removeDots_mem hsegment with hkept | rfl | ⟨hmem, hdots⟩
      · cases hkept
      · exact ⟨rfl, List.not_mem_nil⟩
      · exact ⟨hdots, Paths.sep_not_mem_splitOn hmem⟩
    rw [← h, removeDotSegments]
    by_cases hempty : removeDots [] (path.splitOn '/') = []
    · rw [hempty]
      decide
    · rw [List.splitOn_intercalate '/' (fun segment hsegment => (hnone segment hsegment).2) hempty]
      exact fun segment hsegment => (hnone segment hsegment).1
  · intro h
    rw [removeDotSegments, removeDots_none h]
    exact List.intercalate_splitOn '/'

theorem segments_append (P : List Char → Prop) (hempty : P []) (base rest : List Char) :
    (∀ segment ∈ (base ++ '/' :: rest).splitOn '/', P segment) ↔
      (∀ segment ∈ base.splitOn '/', P segment) ∧ ∀ segment ∈ ('/' :: rest).splitOn '/', P segment := by
  have hrest : ('/' :: rest).splitOn '/' = [] :: rest.splitOn '/' := List.splitOn_append_cons_self [] rest
  rw [List.splitOn_append_cons_self, List.forall_mem_append, hrest, List.forall_mem_cons, and_iff_right hempty]

theorem filled_congr {g : List Char → List Char} (h : ∀ name, .hole name ∈ parts → f name = g name) :
    filled f parts = filled g parts := by
  refine List.flatMap_congr fun part hpart => ?_
  cases part with
  | plain => rfl
  | hole name => exact h name hpart

theorem no_holes_of_isDots
    (hf : ∀ name, .hole name ∈ parts → f name ≠ [] ∧ isDots (f name) = false) (h : isDots (filled f parts) = true) (name : List Char) :
    .hole name ∉ parts := by
  intro hhole
  obtain ⟨hne, hdots⟩ := hf name hhole
  have hmem : f name ∈ parts.map (Piece.fill f) := List.mem_map_of_mem hhole
  have hinside : (f name).Sublist (filled f parts) := by
    rw [filled, List.flatMap_def]
    exact List.sublist_flatten_of_mem hmem
  obtain ⟨n, _, hfilled⟩ : ∃ n ≤ 2, filled f parts = List.replicate n '.' := by
    rcases Bool.or_eq_true_iff.mp h with hone | htwo
    · exact ⟨1, by decide, beq_iff_eq.mp hone⟩
    · exact ⟨2, by decide, beq_iff_eq.mp htwo⟩
  rw [hfilled] at hinside
  obtain ⟨k, _, hname⟩ := List.sublist_replicate_iff.mp hinside
  obtain rfl | rfl | rfl : k = 0 ∨ k = 1 ∨ k = 2 := by omega
  · exact hne hname
  · rw [hname] at hdots
    cases hdots
  · rw [hname] at hdots
    cases hdots

end Segments

end TinyHermes.Lib.Templates
