import TinyHermes.Lib.JsonText

/-! Trees of named and listed values as text: one text for all orders of an object's keys, and no text for two values. Leaves have
spellings of their own. -/
namespace TinyHermes.Lib.SortedText
open JsonText

inductive Nested (A : Type) where
  | atom (a : A)
  | text (value : String)
  | list (items : List (Nested A))
  | dict (entries : List (String × Nested A))

/-- How the leaves are spelled: no two alike, and with nothing that opens or closes a text, a list or an object. -/
structure Spelling (A : Type) where
  spell : A → List Char
  injective : Function.Injective spell
  ne : ∀ a, spell a ≠ []
  plain : ∀ a, ∀ c ∈ spell a, c ∉ ['"', '[', '\x7b', ',', ']', '\x7d']

variable {A : Type}

theorem Nested.ind {P : Nested A → Prop} (atom : ∀ a, P (.atom a)) (text : ∀ value, P (.text value))
    (list : ∀ items, (∀ i ∈ items, P i) → P (.list items)) (dict : ∀ entries, (∀ e ∈ entries, P e.2) → P (.dict entries)) :
    ∀ t, P t
  | .atom a => atom a
  | .text value => text value
  | .list items => list items fun i _ => Nested.ind atom text list dict i
  | .dict entries => dict entries fun e _ => Nested.ind atom text list dict e.2
termination_by t => sizeOf t
decreasing_by
  · rename_i hi
    have := List.sizeOf_lt_of_mem hi
    simp only [Nested.list.sizeOf_spec]
    omega
  · rename_i he
    obtain ⟨key, value⟩ := e
    have := List.sizeOf_lt_of_mem he
    simp only [Nested.dict.sizeOf_spec, Prod.mk.sizeOf_spec] at this ⊢
    omega

/-- No object has a key twice. -/
inductive Keyed : Nested A → Prop
  | atom (a : A) : Keyed (.atom a)
  | text (value : String) : Keyed (.text value)
  | list {items : List (Nested A)} (h : ∀ i ∈ items, Keyed i) : Keyed (.list items)
  | dict {entries : List (String × Nested A)} (hkeys : (entries.map (·.1)).Nodup) (h : ∀ e ∈ entries, Keyed e.2) : Keyed (.dict entries)

/-- The same value, whatever the order of the keys, here and at every depth. -/
inductive Same : Nested A → Nested A → Prop
  | atom (a : A) : Same (.atom a) (.atom a)
  | text (value : String) : Same (.text value) (.text value)
  | list {items others : List (Nested A)} (h : List.Forall₂ Same items others) : Same (.list items) (.list others)
  | dict {entries others moved : List (String × Nested A)} (hperm : moved.Perm others)
      (hkeys : entries.map (·.1) = moved.map (·.1)) (h : List.Forall₂ Same (entries.map (·.2)) (moved.map (·.2))) :
      Same (.dict entries) (.dict others)

/-- Two entries of one key and the same value. -/
def SameEntry (e f : String × Nested A) : Prop := e.1 = f.1 ∧ Same e.2 f.2

theorem forall₂_sameEntry {entries moved : List (String × Nested A)} : List.Forall₂ SameEntry entries moved ↔
    entries.map (·.1) = moved.map (·.1) ∧ List.Forall₂ Same (entries.map (·.2)) (moved.map (·.2)) := by
  induction entries generalizing moved with
  | nil =>
    constructor
    · rintro ⟨⟩
      exact ⟨rfl, .nil⟩
    · rintro ⟨hkeys, -⟩
      rw [List.map_eq_nil_iff.mp hkeys.symm]
      exact .nil
  | cons e entries ih =>
    constructor
    · rintro (_ | ⟨hentry, hrest⟩)
      obtain ⟨hkeys, hvalues⟩ := ih.mp hrest
      exact ⟨List.cons_eq_cons.mpr ⟨hentry.1, hkeys⟩, .cons hentry.2 hvalues⟩
    · rintro ⟨hkeys, hvalues⟩
      cases moved with
      | nil => cases hkeys
      | cons =>
        obtain ⟨hkey, hkeys⟩ := List.cons.inj hkeys
        obtain ⟨hvalue, hvalues⟩ := List.forall₂_cons.mp hvalues
        exact .cons ⟨hkey, hvalue⟩ (ih.mpr ⟨hkeys, hvalues⟩)

section Writing
variable (s : Spelling A)

mutual

def write : Nested A → List Char
  | .atom a => s.spell a
  | .text value => writeString value
  | .list items => '[' :: (commas (writeItems items) ++ [']'])
  | .dict entries => '\x7b' :: (commas ((sortedFields (writeEntries entries)).map writeField) ++ ['\x7d'])

def writeItems : List (Nested A) → List (List Char)
  | [] => []
  | item :: rest => write item :: writeItems rest

def writeEntries : List (String × Nested A) → List (String × List Char)
  | [] => []
  | (key, value) :: rest => (key, write value) :: writeEntries rest

end

theorem writeItems_eq (items : List (Nested A)) : writeItems s items = items.map (write s) := by
  induction items with
  | nil => rfl
  | cons item rest ih => rw [writeItems, ih, List.map_cons]

theorem writeEntries_eq (entries : List (String × Nested A)) : writeEntries s entries = entries.map fun e => (e.1, write s e.2) := by
  induction entries with
  | nil => rfl
  | cons entry rest ih => rw [writeEntries, ih, List.map_cons]

/-- By their keys, before they are written. -/
def sortedEntries (entries : List (String × Nested A)) : List (String × Nested A) := entries.insertionSort fun e f => e.1 ≤ f.1

def writeEntry (entry : String × Nested A) : List Char := writeField (entry.1, write s entry.2)

theorem write_dict (entries : List (String × Nested A)) :
    write s (.dict entries) = '\x7b' :: (commas ((sortedEntries entries).map (writeEntry s)) ++ ['\x7d']) := by
  have hsorted : (sortedEntries entries).map (fun e => (e.1, write s e.2)) = sortedFields (writeEntries s entries) := by
    rw [writeEntries_eq]
    exact List.map_insertionSort _ _ _ _ fun _ _ _ _ => Iff.rfl
  rw [write, ← hsorted, List.map_map]
  rfl

theorem write_list (items : List (Nested A)) : write s (.list items) = '[' :: (commas (items.map (write s)) ++ [']']) := by
  rw [write, writeItems_eq]

end Writing

section Reading

theorem append_inj_of_plain {p : Char → Bool} {xs ys r r' : List Char} (hxs : ∀ c ∈ xs, p c = true) (hys : ∀ c ∈ ys, p c = true)
    (hr : ∀ c, r.head? = some c → p c = false) (hr' : ∀ c, r'.head? = some c → p c = false) (h : xs ++ r = ys ++ r') :
    xs = ys ∧ r = r' := by
  have htake : ∀ {zs t : List Char}, (∀ c ∈ zs, p c = true) → (∀ c, t.head? = some c → p c = false) → (zs ++ t).takeWhile p = zs := by
    intro _ t hzs ht
    rw [List.takeWhile_append_of_pos hzs]
    cases t with
    | nil => rw [List.takeWhile_nil, List.append_nil]
    | cons c =>
      have hc := ht c rfl
      rw [List.takeWhile_cons_of_neg (by rw [hc]; exact Bool.false_ne_true), List.append_nil]
  have hsame : xs = ys := by rw [← htake hxs hr, h, htake hys hr']
  subst hsame
  exact ⟨rfl, List.append_cancel_left h⟩

theorem writeString_append (value : String) (r : List Char) :
    writeString value ++ r = '"' :: (value.toList.flatMap escaped ++ '"' :: r) := by
  rw [writeString, List.cons_append, List.append_assoc, List.singleton_append]

theorem writeString_read {value other : String} {r r' : List Char} (h : writeString value ++ r = writeString other ++ r') :
    value = other ∧ r = r' := by
  rw [writeString_append, writeString_append] at h
  have htail := (List.cons.inj h).2
  have hread := scanString_written value.toList r (Nat.lt_succ_of_le (Nat.le_max_left _ other.toList.length))
  have hread' := scanString_written other.toList r' (Nat.lt_succ_of_le (Nat.le_max_right value.toList.length _))
  rw [htail, hread'] at hread
  obtain ⟨hchars, hrest⟩ := Prod.mk.inj (Option.some.inj hread)
  exact ⟨(String.toList_inj.mp hchars).symm, hrest.symm⟩

/-- What stands behind the first of several texts. -/
def later : List (List Char) → List Char
  | [] => []
  | part :: parts => ',' :: commas (part :: parts)

theorem commas_later (part : List Char) (parts : List (List Char)) : commas (part :: parts) = part ++ later parts := by
  cases parts with
  | nil => exact List.intercalate_singleton.trans (List.append_nil part).symm
  | cons => exact commas_cons (List.cons_ne_nil _ _)

theorem later_ends {close : Char} (hclose : close = ']' ∨ close = '\x7d') (parts : List (List Char)) (r : List Char) :
    Ends (later parts ++ close :: r) := by
  intro c hc
  cases parts with
  | nil =>
    obtain rfl : close = c := Option.some.inj hc
    exact .inr hclose
  | cons =>
    obtain rfl : ',' = c := Option.some.inj hc
    exact .inl rfl

theorem commas_read {α β : Type} {R : α → β → Prop} {f : α → List Char} {g : β → List Char} {close : Char}
    (hclose : close = ']' ∨ close = '\x7d') {xs : List α} {ys : List β}
    (hread : ∀ x ∈ xs, ∀ y ∈ ys, ∀ r r', Ends r → Ends r' → f x ++ r = g y ++ r' → R x y ∧ r = r')
    (hf : ∀ x ∈ xs, ∃ c rest, f x = c :: rest ∧ c ≠ close) (hg : ∀ y ∈ ys, ∃ c rest, g y = c :: rest ∧ c ≠ close)
    {r r' : List Char} (h : commas (xs.map f) ++ close :: r = commas (ys.map g) ++ close :: r') :
    List.Forall₂ R xs ys ∧ r = r' := by
  have hcomma : close ≠ ',' := by rcases hclose with rfl | rfl <;> decide
  induction xs generalizing ys with
  | nil =>
    cases ys with
    | nil => exact ⟨.nil, (List.cons.inj h).2⟩
    | cons y =>
      obtain ⟨c, rest, hy, hne⟩ := hg y List.mem_cons_self
      rw [List.map_cons, commas_later, hy] at h
      exact absurd (List.cons.inj h).1.symm hne
  | cons x xs ih =>
    cases ys with
    | nil =>
      obtain ⟨c, rest, hx, hne⟩ := hf x List.mem_cons_self
      rw [List.map_cons, commas_later, hx] at h
      exact absurd (List.cons.inj h).1 hne
    | cons y ys =>
      rw [List.map_cons, List.map_cons, commas_later, commas_later, List.append_assoc, List.append_assoc] at h
      obtain ⟨hfirst, hrest⟩ := hread x List.mem_cons_self y List.mem_cons_self _ _ (later_ends hclose _ _) (later_ends hclose _ _) h
      have hread' : ∀ x ∈ xs, ∀ y ∈ ys, ∀ r r', Ends r → Ends r' → f x ++ r = g y ++ r' → R x y ∧ r = r' :=
        fun x hx y hy => hread x (List.mem_cons_of_mem _ hx) y (List.mem_cons_of_mem _ hy)
      have hf' : ∀ x ∈ xs, ∃ c rest, f x = c :: rest ∧ c ≠ close := fun x hx => hf x (List.mem_cons_of_mem _ hx)
      have hg' : ∀ y ∈ ys, ∃ c rest, g y = c :: rest ∧ c ≠ close := fun y hy => hg y (List.mem_cons_of_mem _ hy)
      cases xs with
      | nil =>
        cases ys with
        | nil => exact ⟨.cons hfirst .nil, (List.cons.inj hrest).2⟩
        | cons => exact absurd (List.cons.inj hrest).1 hcomma
      | cons =>
        cases ys with
        | nil => exact absurd (List.cons.inj hrest).1.symm hcomma
        | cons =>
          obtain ⟨hlater, hend⟩ := ih hread' hf' hg' (List.cons.inj hrest).2
          exact ⟨.cons hfirst hlater, hend⟩

variable (s : Spelling A)

inductive Kind where
  | atom | text | list | dict
  deriving DecidableEq

def Nested.kind : Nested A → Kind
  | .atom _ => .atom
  | .text _ => .text
  | .list _ => .list
  | .dict _ => .dict

/-- What kind of value a text of this first character is of. -/
def kindOf (c : Char) : Kind :=
  if c = '"' then .text else if c = '[' then .list else if c = '\x7b' then .dict else .atom

theorem write_head (v : Nested A) : ∃ c rest, write s v = c :: rest ∧ kindOf c = v.kind ∧ c ∉ [',', ']', '\x7d'] := by
  cases v with
  | atom a =>
    obtain ⟨c, rest, hspell⟩ := List.exists_cons_of_ne_nil (s.ne a)
    have hplain := s.plain a c (by rw [hspell]; exact List.mem_cons_self)
    simp only [List.mem_cons, List.not_mem_nil, or_false, not_or] at hplain ⊢
    obtain ⟨hquote, hbracket, hbrace, hcomma, hitems, hentries⟩ := hplain
    refine ⟨c, rest, by rw [write, hspell], ?_, hcomma, hitems, hentries⟩
    rw [kindOf, if_neg hquote, if_neg hbracket, if_neg hbrace]
    rfl
  | text => exact ⟨_, _, by rw [write, writeString], rfl, by decide⟩
  | list => exact ⟨_, _, by rw [write], rfl, by decide⟩
  | dict => exact ⟨_, _, by rw [write], rfl, by decide⟩

theorem kind_of_append {v w : Nested A} {r r' : List Char} (h : write s v ++ r = write s w ++ r') : v.kind = w.kind := by
  obtain ⟨_, _, hv, hkind, -⟩ := write_head s v
  obtain ⟨_, _, hw, hkind', -⟩ := write_head s w
  rw [hv, hw] at h
  rw [← hkind, ← hkind', (List.cons.inj h).1]

theorem write_starts {close : Char} (hclose : close = ']' ∨ close = '\x7d') (v : Nested A) : ∃ c rest, write s v = c :: rest ∧ c ≠ close := by
  obtain ⟨c, rest, hv, -, hplain⟩ := write_head s v
  refine ⟨c, rest, hv, ?_⟩
  rintro rfl
  rcases hclose with rfl | rfl <;> exact hplain (by decide)

theorem writeEntry_starts (e : String × Nested A) : ∃ c rest, writeEntry s e = c :: rest ∧ c ≠ '\x7d' := by
  rw [writeEntry, writeField, writeString, List.cons_append]
  exact ⟨_, _, rfl, by decide⟩

theorem writeEntry_read {e f : String × Nested A} {r r' : List Char} (hr : Ends r) (hr' : Ends r')
    (hvalue : ∀ r r', Ends r → Ends r' → write s e.2 ++ r = write s f.2 ++ r' → Same e.2 f.2 ∧ r = r')
    (h : writeEntry s e ++ r = writeEntry s f ++ r') : SameEntry e f ∧ r = r' := by
  rw [writeEntry, writeEntry, writeField, writeField, List.append_assoc, List.append_assoc, List.cons_append, List.cons_append] at h
  obtain ⟨hkey, hrest⟩ := writeString_read h
  obtain ⟨hsame, hend⟩ := hvalue r r' hr hr' (List.cons.inj hrest).2
  exact ⟨⟨hkey, hsame⟩, hend⟩

/-- Two texts that agree up to where what follows begins are texts of the same value. -/
theorem write_read (v : Nested A) : ∀ w r r', Ends r → Ends r' → write s v ++ r = write s w ++ r' → Same v w ∧ r = r' := by
  induction v using Nested.ind with
  | atom a =>
    intro w r r' hr hr' h
    have hkind := kind_of_append s h
    cases w with
    | atom b =>
      have hplain : ∀ a, ∀ c ∈ s.spell a, decide (c ∉ [',', ']', '\x7d']) = true := by
        intro a c hc
        have hnot := s.plain a c hc
        simp only [List.mem_cons, List.not_mem_nil, or_false, not_or] at hnot
        simp [hnot]
      have hends : ∀ {r : List Char}, Ends r → ∀ c, r.head? = some c → decide (c ∉ [',', ']', '\x7d']) = false := by
        intro r hr c hc
        rcases hr c hc with rfl | rfl | rfl <;> decide
      rw [write, write] at h
      obtain ⟨hspell, hend⟩ := append_inj_of_plain (hplain a) (hplain b) (hends hr) (hends hr') h
      obtain rfl := s.injective hspell
      exact ⟨.atom a, hend⟩
    | text | list | dict => cases hkind
  | text value =>
    intro w r r' hr hr' h
    have hkind := kind_of_append s h
    cases w with
    | text =>
      rw [write, write] at h
      obtain ⟨rfl, hend⟩ := writeString_read h
      exact ⟨.text value, hend⟩
    | atom | list | dict => cases hkind
  | list items ih =>
    intro w r r' hr hr' h
    have hkind := kind_of_append s h
    cases w with
    | list =>
      rw [write_list, write_list, List.cons_append, List.cons_append, List.append_assoc, List.append_assoc] at h
      obtain ⟨hsame, hend⟩ := commas_read (.inl rfl) (fun x hx y _ r r' hr hr' => ih x hx y r r' hr hr')
        (fun x _ => write_starts s (.inl rfl) x) (fun y _ => write_starts s (.inl rfl) y) (List.cons.inj h).2
      exact ⟨.list hsame, hend⟩
    | atom | text | dict => cases hkind
  | dict entries ih =>
    intro w r r' hr hr' h
    have hkind := kind_of_append s h
    cases w with
    | dict others =>
      rw [write_dict, write_dict, List.cons_append, List.cons_append, List.append_assoc, List.append_assoc] at h
      have hentries := List.perm_insertionSort (fun e f : String × Nested A => e.1 ≤ f.1) entries
      have hothers := List.perm_insertionSort (fun e f : String × Nested A => e.1 ≤ f.1) others
      obtain ⟨hsame, hend⟩ := @commas_read _ _ SameEntry _ _ _ (.inr rfl) (sortedEntries entries) (sortedEntries others)
        (fun e he f _ r r' hr hr' => writeEntry_read s hr hr' fun r r' hr hr' => ih e (hentries.mem_iff.mp he) f.2 r r' hr hr')
        (fun e _ => writeEntry_starts s e) (fun f _ => writeEntry_starts s f) _ _ (List.cons.inj h).2
      obtain ⟨_, hmoved, hperm⟩ := List.perm_comp_forall₂ hentries.symm hsame
      obtain ⟨hkeys, hvalues⟩ := forall₂_sameEntry.mp hmoved
      exact ⟨.dict (hperm.trans hothers) hkeys hvalues, hend⟩
    | atom | text | list => cases hkind

theorem map_eq_of_forall₂ {α β γ : Type} {R : α → β → Prop} {f : α → γ} {g : β → γ} {xs : List α} {ys : List β}
    (h : List.Forall₂ R xs ys) (hR : ∀ x ∈ xs, ∀ y ∈ ys, R x y → f x = g y) : xs.map f = ys.map g := by
  induction h with
  | nil => rfl
  | cons hxy _ ih =>
    rw [List.map_cons, List.map_cons, hR _ List.mem_cons_self _ List.mem_cons_self hxy,
      ih fun x hx y hy => hR x (List.mem_cons_of_mem _ hx) y (List.mem_cons_of_mem _ hy)]

theorem sortedFields_of_perm {fields others : List (String × List Char)} (hperm : fields.Perm others)
    (hkeys : (others.map (·.1)).Nodup) : sortedFields fields = sortedFields others := by
  have hsorted : (sortedFields others).Pairwise fun f g => f.1 < g.1 := by
    have hapart : (sortedFields others).Pairwise fun f g => f.1 ≠ g.1 := by
      rw [← List.pairwise_map (R := fun a b => a ≠ b)]
      exact ((List.perm_insertionSort _ others).map _).nodup_iff.mpr hkeys
    exact (List.pairwise_insertionSort (fun f g : String × List Char => f.1 ≤ g.1) others).imp₂ (fun _ _ hle hne => lt_of_le_of_ne hle hne) hapart
  exact sortedFields_perm (hperm.trans (List.perm_insertionSort _ others).symm) hsorted

/-- The order of the keys is not written. -/
theorem write_same (v : Nested A) : ∀ w, Keyed w → Same v w → write s v = write s w := by
  induction v using Nested.ind with
  | atom =>
    rintro w - ⟨⟩
    rfl
  | text =>
    rintro w - ⟨⟩
    rfl
  | list items ih =>
    intro w hw hsame
    cases hsame with
    | list hitems =>
      cases hw with
      | list hkeyed =>
        have htexts := map_eq_of_forall₂ hitems fun i hi o ho hsame => ih i hi o (hkeyed o ho) hsame
        rw [write_list, write_list, htexts]
  | dict entries ih =>
    intro _ hw hsame
    cases hsame with
    | @dict _ others moved hperm hkeys hvalues =>
      cases hw with
      | dict hnodup hkeyed =>
        have hmoved := forall₂_sameEntry.mpr ⟨hkeys, hvalues⟩
        have htexts : entries.map (fun e => (e.1, write s e.2)) = moved.map fun e => (e.1, write s e.2) := by
          refine map_eq_of_forall₂ hmoved fun e he f hf hentry => ?_
          rw [hentry.1, ih e he f.2 (hkeyed f (hperm.mem_iff.mp hf)) hentry.2]
        rw [write, write, writeEntries_eq, writeEntries_eq, htexts,
          sortedFields_of_perm (hperm.map fun e => (e.1, write s e.2)) (by rwa [List.map_map])]

theorem write_eq_iff {v w : Nested A} (hw : Keyed w) : write s v = write s w ↔ Same v w := by
  refine ⟨fun h => ?_, write_same s v w hw⟩
  have hnone : Ends [] := fun c hc => by cases hc
  exact (write_read s v w [] [] hnone hnone (by rw [h])).1

end Reading

end TinyHermes.Lib.SortedText
