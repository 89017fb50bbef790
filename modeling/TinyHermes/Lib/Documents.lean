import Mathlib

/-! JSON documents as Python holds them: what a reader asks of one, and how a list of parts that was written is read. -/
namespace TinyHermes.Lib

/-- A decoded JSON value. A `dict` keeps its keys in the order they were written. -/
inductive Json where
  | null
  | bool (value : Bool)
  | int (value : Int)
  | float (value : ℚ)
  | string (value : String)
  | array (items : List Json)
  | object (fields : List (String × Json))

/-- A `dict` of JSON values. -/
abbrev Document := List (String × Json)

namespace Json

/-- Python's `bool` of a value. -/
def truthy : Json → Bool
  | .null => false
  | .bool value => value
  | .int value => value ≠ 0
  | .float value => value ≠ 0
  | .string value => value ≠ ""
  | .array items => !items.isEmpty
  | .object fields => !fields.isEmpty

/-- `value == text`. -/
def isText (text : String) : Json → Bool
  | .string value => value = text
  | _ => false

/-- Python's `or`. -/
def orElse (value default : Json) : Json := if value.truthy then value else default

/-- `None` for an absent text. -/
def ofText : Option String → Json
  | none => .null
  | some text => .string text

end Json

namespace Documents

/-- `document.get(key, default)`. -/
def getOr (document : Document) (key : String) (default : Json) : Json := (document.lookup key).getD default

section Parts
variable {ε α : Type*}

/-- Reads a list of parts in order, leaving out those that `read` passes over. -/
def readParts (read : Json → Except ε (Option α)) : List Json → Except ε (List α)
  | [] => .ok []
  | part :: rest => do
    let first ← read part
    let later ← readParts read rest
    return first.toList ++ later

theorem readParts_written {read : Json → Except ε (Option α)} {write : α → Json}
    (h : ∀ a, read (write a) = .ok (some a)) (items : List α) : readParts read (items.map write) = .ok items := by
  induction items with
  | nil => rfl
  | cons a rest ih =>
    rw [List.map_cons, readParts, h, ih]
    rfl

theorem readParts_ok_iff {read : Json → Except ε (Option α)} {parts : List Json} :
    (∃ items, readParts read parts = .ok items) ↔ ∀ part ∈ parts, ∃ found, read part = .ok found := by
  induction parts with
  | nil => exact ⟨fun _ part hpart => absurd hpart List.not_mem_nil, fun _ => ⟨[], rfl⟩⟩
  | cons first rest ih =>
    rw [List.forall_mem_cons, ← ih, readParts]
    cases hfirst : read first with
    | error =>
      constructor
      · rintro ⟨items, h⟩
        cases h
      · rintro ⟨⟨found, h⟩, _⟩
        cases h
    | ok found =>
      cases hrest : readParts read rest with
      | error =>
        constructor
        · rintro ⟨items, h⟩
          cases h
        · rintro ⟨_, items, h⟩
          cases h
      | ok items => exact ⟨fun _ => ⟨⟨found, rfl⟩, items, rfl⟩, fun _ => ⟨_, rfl⟩⟩

end Parts

end Documents

end TinyHermes.Lib
