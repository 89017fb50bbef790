import TinyHermes.Lib.Documents
import TinyHermes.Lib.Hex

/-! Records written to JSON documents field by field, some fields left out, and read again with defaults. -/
namespace TinyHermes.Lib

/-- A way of writing values of a kind, whose reading gives each of them back. -/
structure Codec (α : Type) where
  write : α → Json
  read : Json → Option α
  read_write : ∀ a, read (write a) = some a

namespace Codec
variable {α : Type}

def isNull : Json → Bool
  | .null => true
  | _ => false

def text : Codec String where
  write := .string
  read v := match v with
    | .string value => some value
    | _ => none
  read_write _ := rfl

def nat : Codec Nat where
  write n := .int n
  read v := match v with
    | .int value => if 0 ≤ value then some value.toNat else none
    | _ => none
  read_write n := if_pos (Int.natCast_nonneg n)

def bool : Codec Bool where
  write := .bool
  read v := match v with
    | .bool value => some value
    | _ => none
  read_write _ := rfl

/-- A number that may also be written as an integer. -/
def number : Codec ℚ where
  write := .float
  read v := match v with
    | .float value => some value
    | .int value => some value
    | _ => none
  read_write _ := rfl

/-- A value or `null`. -/
def optional (c : Codec α) (h : ∀ a, isNull (c.write a) = false) : Codec (Option α) where
  write a := a.elim .null c.write
  read v := if isNull v then some none else (c.read v).map some
  read_write a := by
    cases a with
    | none => rfl
    | some a =>
      rw [Option.elim_some, h a, if_neg Bool.false_ne_true, c.read_write]
      rfl

def list (c : Codec α) : Codec (List α) where
  write as := .array (as.map c.write)
  read v := match v with
    | .array items => items.mapM c.read
    | _ => none
  read_write as := by
    dsimp only
    induction as with
    | nil => rfl
    | cons a rest ih =>
      rw [List.map_cons, List.mapM_cons, c.read_write, ih]
      rfl

/-- One of several values, each with a name of its own. -/
def named (all : List α) (name : α → String) (h : ∀ a, all.find? (name · = name a) = some a) : Codec α where
  write a := .string (name a)
  read v := match v with
    | .string value => all.find? (name · = value)
    | _ => none
  read_write := h

end Codec

namespace Records
variable {α β ρ : Type}

/-- `extra="forbid"`. -/
def only (keys : List String) (document : Document) : Bool := document.all fun field => keys.contains field.1

def object (keys : List String) (read : Document → Option α) : Json → Option α
  | .object fields => if only keys fields then read fields else none
  | _ => none

/-- What stands at a key, or the default where nothing does. -/
def valueAt (c : Codec α) (default : Option α) : Option Json → Option α
  | none => default
  | some v => c.read v

theorem object_of_only {keys : List String} {read : Document → Option α} {fields : Document} (h : only keys fields = true) :
    object keys read (.object fields) = read fields := if_pos h

theorem only_of_keys {keys : List String} {document : Document} (h : ∀ field ∈ document, field.1 ∈ keys) : only keys document = true :=
  List.all_eq_true.mpr fun f hfield => List.contains_iff_mem.mpr (h f hfield)

theorem lookup_isSome {document : Document} {key : String} : (document.lookup key).isSome = true ↔ key ∈ document.map (·.1) := by
  rw [List.lookup_isSome_iff, List.mem_map]
  exact ⟨fun ⟨field, hfield, hkey⟩ => ⟨field, hfield, (beq_iff_eq.mp hkey).symm⟩,
    fun ⟨field, hfield, hkey⟩ => ⟨field, hfield, beq_iff_eq.mpr hkey.symm⟩⟩

/-- The fields of a record with their defaults: how they are written and read, and when what is found at the keys is read as the
fields of a record. -/
structure Fields (ρ : Type) where
  keys : List String
  write : ρ → Document
  read : Document → Option ρ
  fits : ρ → (String → Option Json) → Prop
  write_keys : ∀ r, (write r).map (·.1) = keys
  fits_congr : ∀ r found found', (∀ key ∈ keys, found key = found' key) → fits r found → fits r found'
  fits_write : ∀ r, fits r ((write r).lookup ·)
  read_fits : ∀ r document, fits r (document.lookup ·) → read document = some r

namespace Fields

def one (key : String) (c : Codec α) (default : Option α) : Fields α where
  keys := [key]
  write a := [(key, c.write a)]
  read document := valueAt c default (document.lookup key)
  fits a found := valueAt c default (found key) = some a
  write_keys _ := rfl
  fits_congr a _ _ hsame h := hsame key (List.mem_singleton_self key) ▸ h
  fits_write a := by
    dsimp only
    rw [List.lookup_cons_self]
    exact c.read_write a
  read_fits _ _ h := h

def both (f : Fields α) (g : Fields β) (hapart : ∀ key ∈ f.keys, key ∉ g.keys := by decide) : Fields (α × β) where
  keys := f.keys ++ g.keys
  write r := f.write r.1 ++ g.write r.2
  read document := do
    let a ← f.read document
    let b ← g.read document
    return (a, b)
  fits r found := f.fits r.1 found ∧ g.fits r.2 found
  write_keys r := by rw [List.map_append, f.write_keys, g.write_keys]
  fits_congr r found found' hsame h :=
    ⟨f.fits_congr r.1 found found' (fun key hkey => hsame key (List.mem_append_left _ hkey)) h.1,
      g.fits_congr r.2 found found' (fun key hkey => hsame key (List.mem_append_right _ hkey)) h.2⟩
  fits_write r := by
    constructor
    · refine f.fits_congr r.1 _ _ (fun key hkey => ?_) (f.fits_write r.1)
      have hsome : ((f.write r.1).lookup key).isSome = true := lookup_isSome.mpr (f.write_keys r.1 ▸ hkey)
      rw [List.lookup_append, Option.or_of_isSome hsome]
    · refine g.fits_congr r.2 _ _ (fun key hkey => ?_) (g.fits_write r.2)
      have hnone : (f.write r.1).lookup key = none := by
        rw [← Option.not_isSome_iff_eq_none, lookup_isSome, f.write_keys]
        exact fun hother => hapart key hother hkey
      rw [List.lookup_append, hnone, Option.none_or]
  read_fits r document h := by
    rw [f.read_fits r.1 document h.1, g.read_fits r.2 document h.2]
    rfl

/-- The fields of what is made of other values. -/
def as (f : Fields α) (make : α → ρ) (parts : ρ → α) (h : ∀ r, make (parts r) = r := by exact fun _ => rfl) : Fields ρ where
  keys := f.keys
  write r := f.write (parts r)
  read document := (f.read document).map make
  fits r := f.fits (parts r)
  write_keys r := f.write_keys (parts r)
  fits_congr r := f.fits_congr (parts r)
  fits_write r := f.fits_write (parts r)
  read_fits r document hfits := by
    rw [f.read_fits (parts r) document hfits, Option.map_some, h]

variable (f : Fields ρ)

def readObject : Json → Option ρ := object f.keys f.read

theorem readObject_fits {r : ρ} {document : Document} (hkeys : ∀ field ∈ document, field.1 ∈ f.keys) (h : f.fits r (document.lookup ·)) :
    f.readObject (.object document) = some r := (object_of_only (only_of_keys hkeys)).trans (f.read_fits r document h)

theorem mem_keys {r : ρ} : ∀ field ∈ f.write r, field.1 ∈ f.keys := fun _ hfield => f.write_keys r ▸ List.mem_map_of_mem hfield

theorem readObject_write (r : ρ) : f.readObject (.object (f.write r)) = some r := f.readObject_fits f.mem_keys (f.fits_write r)

def codec : Codec ρ where
  write r := .object (f.write r)
  read := f.readObject
  read_write := f.readObject_write

end Fields

section Popping

/-- `document.pop(key, None)` for each key whose value is such. -/
def popped (rules : List (String × (Json → Bool))) (document : Document) : Document :=
  document.filter fun field => !(rules.lookup field.1).any (· field.2)

def poppedWithin (rules : List (String × (Json → Bool))) : Json → Json
  | .object fields => .object (popped rules fields)
  | other => other

/-- The same within what stands at a key. -/
def poppedAt (key : String) (rules : List (String × (Json → Bool))) (document : Document) : Document :=
  document.map fun field => (field.1, if field.1 = key then poppedWithin rules field.2 else field.2)

variable {rules : List (String × (Json → Bool))} {document : Document} {key : String}

theorem lookup_popped (hkeys : (document.map (·.1)).Nodup) (rules : List (String × (Json → Bool))) (key : String) :
    (popped rules document).lookup key = (document.lookup key).filter fun v => !(rules.lookup key).any (· v) := by
  induction document with
  | nil => rfl
  | cons first rest ih =>
    obtain ⟨k, _⟩ := first
    rw [List.map_cons, List.nodup_cons] at hkeys
    have hrest := ih hkeys.2
    rw [popped] at hrest ⊢
    rw [List.filter_cons, List.lookup_cons]
    by_cases hkey : key = k
    · subst hkey
      have hlater : rest.lookup key = none := by
        rw [← Option.not_isSome_iff_eq_none, lookup_isSome]
        exact hkeys.1
      rw [beq_self_eq_true, Option.filter_some]
      split_ifs with hkeep
      · rw [List.lookup_cons, beq_self_eq_true]
      · rw [hrest, hlater, Option.filter_none]
    · rw [beq_false_of_ne hkey]
      split_ifs
      · rw [List.lookup_cons, beq_false_of_ne hkey]
        exact hrest
      · exact hrest

theorem filter_ruled {found : Option Json} {v : Json} {rule : Json → Bool} (hfound : found = some v) (hrule : rules.lookup key = some rule) :
    (found.filter fun v => !(rules.lookup key).any (· v)) = if rule v then none else some v := by
  rw [hfound, hrule, Option.filter_some]
  cases hv : rule v <;> simp [hv]

theorem lookup_poppedAt (at' : String) : (poppedAt at' rules document).lookup key = (document.lookup key).map fun v =>
    if key = at' then poppedWithin rules v else v := by
  induction document with
  | nil => rfl
  | cons first rest ih =>
    obtain ⟨k, _⟩ := first
    rw [poppedAt] at ih ⊢
    rw [List.map_cons, List.lookup_cons, List.lookup_cons, ih]
    by_cases hkey : key = k
    · rw [hkey, beq_self_eq_true]
      rfl
    · rw [beq_false_of_ne hkey]

theorem Fields.read_popped (f : Fields ρ) (hnodup : f.keys.Nodup) {r : ρ}
    (h : f.fits r fun key => ((f.write r).lookup key).filter fun v => !(rules.lookup key).any (· v)) :
    f.readObject (.object (popped rules (f.write r))) = some r := by
  refine f.readObject_fits (fun field hfield => f.mem_keys field (List.mem_of_mem_filter hfield)) ?_
  refine f.fits_congr r _ _ (fun key _ => ?_) h
  rw [lookup_popped (f.write_keys r ▸ hnodup)]

end Popping

end Records

namespace Hex

/-- The number that hexadecimal digits stand for. -/
def number (digits : List Char) : Nat := digits.foldl (fun n c => 16 * n + alphabet.idxOf c) 0

theorem idxOf_digitChar : ∀ n < 16, alphabet.idxOf n.digitChar = n := by decide

theorem number_digits {width n : Nat} (h : n < 16 ^ width) : number (digits width n) = n := by
  induction width generalizing n with
  | zero =>
    have hzero : n = 0 := by omega
    rw [hzero]
    rfl
  | succ width ih =>
    have hhigh : n / 16 < 16 ^ width := Nat.div_lt_of_lt_mul (by rwa [pow_succ'] at h)
    have hfold : number (digits width (n / 16) ++ [(n % 16).digitChar]) =
        16 * number (digits width (n / 16)) + alphabet.idxOf (n % 16).digitChar := List.foldl_append
    rw [digits, hfold, ih hhigh, idxOf_digitChar _ (Nat.mod_lt n (by decide))]
    omega

/-- `UUID(text)` of hexadecimal digits and hyphens. -/
def uuidOf (text : String) : Option Nat :=
  let hex := text.toList.filter (· ≠ '-')
  if hex.length = 32 ∧ hex.all (alphabet.contains ·) then some (number hex) else none

theorem uuidOf_uuidText {id : Nat} (h : id < 16 ^ 32) : uuidOf (uuidText id) = some id := by
  have hkept : ∀ cs : List Char, (∀ c ∈ cs, c ∈ digits 32 id) → cs.filter (· ≠ '-') = cs := by
    intro cs hcs
    refine List.filter_eq_self.mpr fun c hc => decide_eq_true ?_
    rintro rfl
    exact absurd (mem_alphabet (hcs _ hc)) (by decide)
  have hhex : (uuidText id).toList.filter (· ≠ '-') = digits 32 id := by
    have hdash : ∀ cs : List Char, ('-' :: cs).filter (· ≠ '-') = cs.filter (· ≠ '-') := fun _ => rfl
    rw [uuidText, String.toList_ofList]
    simp only [List.filter_append, hdash]
    rw [hkept _ fun _ hd => List.mem_of_mem_take hd, hkept _ fun _ hd => List.mem_of_mem_drop (List.mem_of_mem_take hd),
      hkept _ fun _ hd => List.mem_of_mem_drop (List.mem_of_mem_take hd),
      hkept _ fun _ hd => List.mem_of_mem_drop (List.mem_of_mem_take hd), hkept _ fun _ hd => List.mem_of_mem_drop hd]
    have hcut : ∀ n k, (digits 32 id).drop n = ((digits 32 id).drop n).take k ++ (digits 32 id).drop (n + k) := fun n k => by
      rw [← List.drop_drop, List.take_append_drop]
    rw [List.append_assoc, List.append_assoc, List.append_assoc, ← hcut 16 4, ← hcut 12 4, ← hcut 8 4, List.take_append_drop]
  have hall : (digits 32 id).all (alphabet.contains ·) = true :=
    List.all_eq_true.mpr fun _ hc => List.contains_iff_mem.mpr (mem_alphabet hc)
  rw [uuidOf, hhex, if_pos ⟨length_digits 32 id, hall⟩, number_digits h]

end Hex

/-- A UUID as the number that it is. -/
abbrev UUID := { id : Nat // id < 16 ^ 32 }

def Codec.uuid : Codec UUID where
  write id := .string (Hex.uuidText id.val)
  read v := match v with
    | .string value => (Hex.uuidOf value).bind fun id => if h : id < 16 ^ 32 then some ⟨id, h⟩ else none
    | _ => none
  read_write id := by
    dsimp only
    rw [Hex.uuidOf_uuidText id.property, Option.bind_some, dif_pos id.property]

end TinyHermes.Lib
