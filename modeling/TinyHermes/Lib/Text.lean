import Mathlib

/-! Python's `str.strip` on Lean strings. -/
namespace TinyHermes.Lib.Text

/-- The characters `str.isspace` accepts, which are the ones `str.strip` removes. -/
def isSpace (c : Char) : Bool :=
  let n := c.toNat
  (0x09 ≤ n && n ≤ 0x0D) || (0x1C ≤ n && n ≤ 0x20) || n == 0x85 || n == 0xA0 || n == 0x1680 ||
    (0x2000 ≤ n && n ≤ 0x200A) || n == 0x2028 || n == 0x2029 || n == 0x202F || n == 0x205F || n == 0x3000

def stripChars (cs : List Char) : List Char :=
  ((cs.dropWhile isSpace).reverse.dropWhile isSpace).reverse

def strip (s : String) : String := String.ofList (stripChars s.toList)

/-- `not s.strip()`. -/
def isBlank (s : String) : Bool := (stripChars s.toList).isEmpty

end TinyHermes.Lib.Text
