import TinyHermes.Lib.SortedText
import TinyHermes.Runs.ApprovalDecisions

/-! What an approval is bound to: the call it was given for, as a document and as the hash of that document's text. -/
namespace TinyHermes.Runs.ApprovalBinding
open Lib SortedText JsonText

/-- A `float`, as `json.dumps` spells it; no two spell alike. -/
structure FloatText where
  text : List Char
  shape : ∀ c ∈ text, c.isDigit = true ∨ c ∈ ['-', '+', '.', 'e', 'N', 'a', 'I', 'n', 'f', 'i', 't', 'y']
  inexact : ∃ c ∈ text, c ∈ ['.', 'e', 'N', 'I']

inductive Scalar where
  | null
  | bool (value : Bool)
  | int (value : Int)
  | float (value : FloatText)

abbrev Value := Nested Scalar

/-- A key of a nested mapping: a text, or anything else with what `str` makes of it. -/
inductive Key where
  | text (value : String)
  | other (shown : String)

def Key.shown : Key → String
  | .text value => value
  | .other shown => shown

/-- What an argument is in Python: a `list` and a `tuple` are one kind, and whatever has no stable spelling is `other`. -/
inductive Argument where
  | scalar (value : Scalar)
  | text (value : String)
  | mapping (entries : List (Key × Argument))
  | sequence (items : List Argument)
  | other

namespace Scalar

def spell : Scalar → List Char
  | .null => "null".toList
  | .bool true => "true".toList
  | .bool false => "false".toList
  | .int value => writeInt value
  | .float value => value.text

theorem writeInt_chars {n : Int} {c : Char} (h : c ∈ writeInt n) : c.isDigit = true ∨ c = '-' := by
  cases n with
  | ofNat => exact .inl (Nat.isDigit_of_mem_toDigits (by decide) (by decide) h)
  | negSucc =>
    rcases List.mem_cons.mp h with rfl | h
    · exact .inr rfl
    · exact .inl (Nat.isDigit_of_mem_toDigits (by decide) (by decide) h)

theorem writeInt_injective : Function.Injective writeInt := by
  intro n m h
  have hends : Ends [] := fun c hc => nomatch hc
  have hn := scanNumber_written (fun _ => .null) n hends
  have hm := scanNumber_written (fun _ => .null) m hends
  rw [h, hm] at hn
  exact (Json.int.inj (Prod.mk.inj (Option.some.inj hn)).1).symm

theorem spell_ne (a : Scalar) : spell a ≠ [] := by
  cases a with
  | null => decide
  | bool value => cases value <;> decide
  | int value =>
    cases value with
    | ofNat => exact Nat.toDigits_ne_nil
    | negSucc => exact List.cons_ne_nil _ _
  | float value =>
    obtain ⟨_, hc, -⟩ := value.inexact
    exact List.ne_nil_of_mem hc

def ofNumber : Scalar → Prop
  | .int _ | .float _ => True
  | _ => False

theorem spell_number {a : Scalar} (h : a.ofNumber) {c : Char} (hc : c ∈ spell a) :
    c.isDigit = true ∨ c ∈ ['-', '+', '.', 'e', 'N', 'a', 'I', 'n', 'f', 'i', 't', 'y'] := by
  cases a with
  | int =>
    rcases writeInt_chars hc with hdigit | rfl
    · exact .inl hdigit
    · exact .inr (by decide)
  | float value => exact value.shape c hc
  | null => cases h
  | bool => cases h

theorem spell_word {a : Scalar} (h : ¬ a.ofNumber) : 'u' ∈ spell a ∨ 'l' ∈ spell a := by
  cases a with
  | null => decide
  | bool value => cases value <;> decide
  | int => exact absurd trivial h
  | float => exact absurd trivial h

theorem word_ne_number {a b : Scalar} (ha : ¬ a.ofNumber) (hb : b.ofNumber) : spell a ≠ spell b := by
  intro heq
  rcases spell_word ha with hc | hc
  · exact absurd (spell_number hb (heq ▸ hc)) (by decide)
  · exact absurd (spell_number hb (heq ▸ hc)) (by decide)

theorem int_ne_float (n : Int) (f : FloatText) : writeInt n ≠ f.text := by
  intro heq
  obtain ⟨_, hc, hinexact⟩ := f.inexact
  rw [← heq] at hc
  rcases writeInt_chars hc with hdigit | rfl
  · simp only [List.mem_cons, List.not_mem_nil, or_false] at hinexact
    rcases hinexact with rfl | rfl | rfl | rfl <;> exact absurd hdigit (by decide)
  · exact absurd hinexact (by decide)

theorem FloatText.ext {f g : FloatText} (h : f.text = g.text) : f = g := by
  cases f
  cases g
  cases h
  rfl

theorem spell_injective : Function.Injective spell := by
  intro a b h
  by_cases ha : a.ofNumber
  · by_cases hb : b.ofNumber
    · cases a with
      | int n =>
        cases b with
        | int => exact congrArg int (writeInt_injective h)
        | float g => exact absurd h (int_ne_float n g)
        | null | bool => cases hb
      | float f =>
        cases b with
        | int m => exact absurd h.symm (int_ne_float m f)
        | float => exact congrArg float (FloatText.ext h)
        | null | bool => cases hb
      | null | bool => cases ha
    · exact absurd h.symm (word_ne_number hb ha)
  · by_cases hb : b.ofNumber
    · exact absurd h (word_ne_number ha hb)
    · cases a with
      | null =>
        cases b with
        | null => rfl
        | bool value => cases value <;> exact absurd h (by decide)
        | int | float => exact absurd trivial hb
      | bool value =>
        cases b with
        | null => cases value <;> exact absurd h (by decide)
        | bool other => cases value <;> cases other <;> first | rfl | exact absurd h (by decide)
        | int | float => exact absurd trivial hb
      | int | float => exact absurd trivial ha

theorem word_lower {a : Scalar} (h : ¬ a.ofNumber) : (spell a).all Char.isLower = true := by
  cases a with
  | null => rfl
  | bool value => cases value <;> rfl
  | int | float => exact absurd trivial h

theorem spell_plain (a : Scalar) (c : Char) (hc : c ∈ spell a) : c ∉ ['"', '[', '\x7b', ',', ']', '\x7d'] := by
  intro hclosing
  simp only [List.mem_cons, List.not_mem_nil, or_false] at hclosing
  by_cases ha : a.ofNumber
  · have hshape := spell_number ha hc
    rcases hclosing with rfl | rfl | rfl | rfl | rfl | rfl <;> exact absurd hshape (by decide)
  · have hlower := List.all_eq_true.mp (word_lower ha) c hc
    rcases hclosing with rfl | rfl | rfl | rfl | rfl | rfl <;> exact absurd hlower (by decide)

def spelling : Spelling Scalar where
  spell := spell
  injective := spell_injective
  ne := spell_ne
  plain := spell_plain

end Scalar

/-- `CallNotNormalizable`. -/
structure CallNotNormalizable where
  detail : String
  deriving DecidableEq, Repr

/-- `d[key] = value`: a key that is there keeps its place. -/
def setEntry (d : List (String × Value)) (entry : String × Value) : List (String × Value) :=
  if d.any fun e => e.1 = entry.1 then d.map fun e => if e.1 = entry.1 then entry else e else d ++ [entry]

def dictOf (entries : List (String × Value)) : List (String × Value) := entries.foldl setEntry []

mutual

/-- `_value`: one argument, in a spelling two runs will agree on. -/
def value (name : String) : Argument → Except CallNotNormalizable Value
  | .scalar a => .ok (.atom a)
  | .text words => .ok (.text words)
  | .mapping entries => do
    let nested ← valueEntries name entries
    return .dict (dictOf nested)
  | .sequence items => do
    let entries ← valueItems (name ++ "[]") items
    return .list entries
  | .other => .error { detail := name ++ " has no stable representation" }

def valueItems (name : String) : List Argument → Except CallNotNormalizable (List Value)
  | [] => .ok []
  | item :: rest => do
    let first ← value name item
    let later ← valueItems name rest
    return first :: later

def valueEntries (name : String) : List (Key × Argument) → Except CallNotNormalizable (List (String × Value))
  | [] => .ok []
  | (key, item) :: rest => do
    let first ← value (name ++ "." ++ key.shown) item
    let later ← valueEntries name rest
    return (key.shown, first) :: later

end

def valueArguments : List (String × Argument) → Except CallNotNormalizable (List (String × Value))
  | [] => .ok []
  | (name, item) :: rest => do
    let first ← value name item
    let later ← valueArguments rest
    return (name, first) :: later

def optional : Option String → Value
  | none => .atom .null
  | some words => .text words

structure NormalizedCall where
  document : Value
  contentHash : String

/-- What the hash is taken of: `json.dumps` of the document, in UTF-8. -/
def encoded (document : Value) : List UInt8 := Utf8.encode (write Scalar.spelling document)

def callDocument (tool : String) (arguments : List (String × Value)) (workingDirectory target requiredPermission : Option String) : Value :=
  .dict [("tool", .text tool), ("arguments", .dict arguments), ("working_directory", optional workingDirectory),
    ("target", optional target), ("required_permission", optional requiredPermission)]

def normalizeCall (sha256 : List UInt8 → String) (tool : String) (arguments : List (String × Argument))
    (workingDirectory target requiredPermission : Option String) : Except CallNotNormalizable NormalizedCall := do
  let normalized ← valueArguments arguments
  let document := callDocument tool (dictOf normalized) workingDirectory target requiredPermission
  return { document, contentHash := sha256 (encoded document) }

/-- The members of an approval that say whether it still covers a call. -/
structure Approval where
  status : ApprovalDecisions.ApprovalStatus
  contentHash : String
  expiresAt : Time

def isStillValid (approval : Approval) (call : NormalizedCall) (moment : Time) : Bool :=
  if approval.status ≠ .approved then false
  else if approval.expiresAt ≤ moment then false
  else approval.contentHash = call.contentHash

mutual

def argumentOf : Value → Argument
  | .atom a => .scalar a
  | .text words => .text words
  | .list items => .sequence (argumentItems items)
  | .dict entries => .mapping (argumentEntries entries)

def argumentItems : List Value → List Argument
  | [] => []
  | item :: rest => argumentOf item :: argumentItems rest

def argumentEntries : List (String × Value) → List (Key × Argument)
  | [] => []
  | (key, item) :: rest => (.text key, argumentOf item) :: argumentEntries rest

end

/-- A tool call whose arguments are JSON: at no depth does an object have a key twice. -/
structure ToolCall where
  tool : String
  arguments : List (String × Value)
  workingDirectory : Option String := none
  target : Option String := none
  requiredPermission : Option String := none
  keyed : Keyed (.dict arguments)

namespace ToolCall

def normalize (sha256 : List UInt8 → String) (c : ToolCall) : Except CallNotNormalizable NormalizedCall :=
  normalizeCall sha256 c.tool (c.arguments.map fun e => (e.1, argumentOf e.2)) c.workingDirectory c.target c.requiredPermission

def document (c : ToolCall) : Value := callDocument c.tool c.arguments c.workingDirectory c.target c.requiredPermission

/-- One call: the same tool, working directory, target and permission, and the same arguments up to the order of keys. -/
structure SameCall (c d : ToolCall) : Prop where
  tool : c.tool = d.tool
  workingDirectory : c.workingDirectory = d.workingDirectory
  target : c.target = d.target
  requiredPermission : c.requiredPermission = d.requiredPermission
  arguments : Same (.dict c.arguments) (.dict d.arguments)

end ToolCall

section Normalizing

theorem foldl_setEntry {d entries : List (String × Value)} (h : ((d ++ entries).map (·.1)).Nodup) :
    entries.foldl setEntry d = d ++ entries := by
  induction entries generalizing d with
  | nil => rw [List.foldl_nil, List.append_nil]
  | cons entry entries ih =>
    have hnew : (d.any fun e => e.1 = entry.1) = false := by
      rw [List.any_eq_false]
      intro e he
      rw [List.map_append, List.nodup_append] at h
      exact fun heq => h.2.2 e.1 (List.mem_map_of_mem he) entry.1 (List.mem_map_of_mem List.mem_cons_self) (of_decide_eq_true heq)
    have hset : setEntry d entry = d ++ [entry] := by rw [setEntry, hnew, if_neg Bool.false_ne_true]
    rw [List.foldl_cons, hset, ih, List.append_assoc, List.singleton_append]
    rwa [List.append_assoc, List.singleton_append]

theorem dictOf_eq {entries : List (String × Value)} (h : (entries.map (·.1)).Nodup) : dictOf entries = entries := foldl_setEntry h

theorem valueItems_of {items : List Value} {name : String} (h : ∀ i ∈ items, ∀ name, value name (argumentOf i) = .ok i) :
    valueItems name (argumentItems items) = .ok items := by
  induction items with
  | nil => rfl
  | cons item rest ih =>
    rw [argumentItems, valueItems, h item List.mem_cons_self, ih fun i hi => h i (List.mem_cons_of_mem _ hi)]
    rfl

theorem valueEntries_of {entries : List (String × Value)} {name : String}
    (h : ∀ e ∈ entries, ∀ name, value name (argumentOf e.2) = .ok e.2) : valueEntries name (argumentEntries entries) = .ok entries := by
  induction entries with
  | nil => rfl
  | cons entry rest ih =>
    rw [argumentEntries, valueEntries, h entry List.mem_cons_self, ih fun e he => h e (List.mem_cons_of_mem _ he)]
    rfl

theorem value_argumentOf (v : Value) (hv : Keyed v) : ∀ name, value name (argumentOf v) = .ok v := by
  induction v using Nested.ind with
  | atom => exact fun _ => rfl
  | text => exact fun _ => rfl
  | list items ih =>
    intro name
    cases hv with
    | list h =>
      rw [argumentOf, value, valueItems_of fun i hi => ih i hi (h i hi)]
      rfl
  | dict entries ih =>
    intro _
    cases hv with
    | dict hkeys h =>
      rw [argumentOf, value, valueEntries_of fun e he => ih e he (h e he)]
      change Except.ok (Nested.dict (dictOf entries)) = _
      rw [dictOf_eq hkeys]

theorem valueArguments_of {arguments : List (String × Value)} (h : ∀ e ∈ arguments, Keyed e.2) :
    valueArguments (arguments.map fun e => (e.1, argumentOf e.2)) = .ok arguments := by
  induction arguments with
  | nil => rfl
  | cons entry rest ih =>
    rw [List.map_cons, valueArguments, value_argumentOf entry.2 (h entry List.mem_cons_self),
      ih fun e he => h e (List.mem_cons_of_mem _ he)]
    rfl

theorem ToolCall.normalize_eq (sha256 : List UInt8 → String) (c : ToolCall) :
    c.normalize sha256 = .ok { document := c.document, contentHash := sha256 (encoded c.document) } := by
  obtain ⟨hkeys, hvalues⟩ : (c.arguments.map (·.1)).Nodup ∧ ∀ e ∈ c.arguments, Keyed e.2 := by
    cases c.keyed with
    | dict hkeys h => exact ⟨hkeys, h⟩
  rw [normalize, normalizeCall, valueArguments_of hvalues]
  change Except.ok _ = _
  rw [dictOf_eq hkeys]
  rfl

end Normalizing

section Binding

theorem eq_of_perm_of_keys {moved others : List (String × Value)} (hperm : moved.Perm others)
    (hkeys : moved.map (·.1) = others.map (·.1)) (hnodup : (others.map (·.1)).Nodup) : moved = others := by
  induction moved generalizing others with
  | nil => exact (List.map_eq_nil_iff.mp hkeys.symm).symm
  | cons e moved ih =>
    cases others with
    | nil => cases hkeys
    | cons f =>
      obtain ⟨hkey, hrest⟩ := List.cons.inj hkeys
      obtain rfl : e = f := List.inj_on_of_nodup_map hnodup (hperm.mem_iff.mp List.mem_cons_self) List.mem_cons_self hkey
      rw [ih (List.perm_cons e |>.mp hperm) hrest (List.nodup_cons.mp hnodup).2]

theorem same_text {a b : String} : Same (.text a : Value) (.text b) ↔ a = b := by
  constructor
  · intro h
    cases h
    rfl
  · rintro rfl
    exact .text a

theorem same_optional {a b : Option String} : Same (optional a) (optional b) ↔ a = b := by
  constructor
  · intro h
    cases a <;> cases b
    · rfl
    · cases h
    · cases h
    · exact congrArg some (same_text.mp h)
  · rintro rfl
    cases a
    · exact .atom _
    · exact same_text.mpr rfl

theorem documentKeys_nodup : ["tool", "arguments", "working_directory", "target", "required_permission"].Nodup := by decide

theorem same_document_iff (c d : ToolCall) : Same c.document d.document ↔ c.SameCall d := by
  constructor
  · intro h
    rw [ToolCall.document, ToolCall.document, callDocument, callDocument] at h
    cases h with
    | @dict _ _ moved hperm hkeys h =>
      obtain rfl := eq_of_perm_of_keys hperm hkeys.symm documentKeys_nodup
      simp only [List.map_cons, List.forall₂_cons] at h
      obtain ⟨htool, harguments, hdirectory, htarget, hpermission, -⟩ := h
      refine ⟨?_, same_optional.mp hdirectory, same_optional.mp htarget, same_optional.mp hpermission, harguments⟩
      exact same_text.mp htool
  · rintro ⟨htool, hdirectory, htarget, hpermission, harguments⟩
    refine .dict (List.Perm.refl _) rfl ?_
    exact .cons (same_text.mpr htool) (.cons harguments (.cons (same_optional.mpr hdirectory) (.cons (same_optional.mpr htarget)
      (.cons (same_optional.mpr hpermission) .nil))))

theorem document_keyed (c : ToolCall) : Keyed c.document := by
  refine .dict documentKeys_nodup fun e he => ?_
  have hoptional : ∀ words, Keyed (optional words) := by
    intro words
    cases words
    · exact .atom _
    · exact .text _
  simp only [List.mem_cons, List.not_mem_nil, or_false] at he
  rcases he with rfl | rfl | rfl | rfl | rfl
  · exact .text _
  · exact c.keyed
  · exact hoptional _
  · exact hoptional _
  · exact hoptional _

theorem encoded_eq_iff (c d : ToolCall) : encoded c.document = encoded d.document ↔ c.SameCall d := by
  rw [encoded, encoded, Utf8.encode_injective.eq_iff, write_eq_iff Scalar.spelling (document_keyed d), same_document_iff]

theorem isStillValid_hash {approval : Approval} {call : NormalizedCall} {moment : Time} (h : isStillValid approval call moment = true) :
    approval.contentHash = call.contentHash := by
  unfold isStillValid at h
  split at h
  · cases h
  · split at h
    · cases h
    · exact of_decide_eq_true h

/-- What is hashed of two calls is one text exactly when they are one call; so what an approval of the one covers is the other
only if it is the same call, or the hash does not tell the two texts apart. -/
theorem binding_canonical (sha256 : List UInt8 → String) (c d : ToolCall) :
    ∃ n m, c.normalize sha256 = .ok n ∧ d.normalize sha256 = .ok m ∧
      n.contentHash = sha256 (encoded n.document) ∧ m.contentHash = sha256 (encoded m.document) ∧
      (encoded n.document = encoded m.document ↔ c.SameCall d) ∧
      ∀ approval moment, approval.contentHash = n.contentHash → isStillValid approval m moment = true →
        c.SameCall d ∨ encoded n.document ≠ encoded m.document ∧ sha256 (encoded n.document) = sha256 (encoded m.document) := by
  refine ⟨_, _, c.normalize_eq sha256, d.normalize_eq sha256, rfl, rfl, encoded_eq_iff c d, ?_⟩
  intro _ _ hgiven hvalid
  by_cases hsame : c.SameCall d
  · exact .inl hsame
  · exact .inr ⟨fun heq => hsame ((encoded_eq_iff c d).mp heq), hgiven.symm.trans (isStillValid_hash hvalid)⟩

end Binding

end TinyHermes.Runs.ApprovalBinding
