import TinyHermes.Lib.Text
import TinyHermes.Lib.Utf8

/-! Names for files a sender attaches. -/
namespace TinyHermes.Channels.InboxNames
open Lib Text

/-- `MAX_NAME`. -/
def maxName : Nat := 120

/-- `_UNSAFE`. -/
def isUnsafe (c : Char) : Bool := c.toNat ≤ 0x1F || c.toNat == 0x7F

def masked (c : Char) : Char := if isUnsafe c then '_' else c

/-- The last part of `rpartition(".")`. -/
def extensionOf (leaf : List Char) : List Char := leaf.rtakeWhile (· != '.')

/-- The first part of `rpartition(".")`. -/
def stemOf (leaf : List Char) : List Char := (leaf.rdropWhile (· != '.')).dropLast

def keepsExtension (leaf : List Char) : Bool :=
  leaf.contains '.' && 0 < (extensionOf leaf).length && (extensionOf leaf).length ≤ 10

def cut (leaf : List Char) : List Char :=
  if maxName < leaf.length then
    if keepsExtension leaf then (stemOf leaf).take (maxName - (extensionOf leaf).length - 1) ++ '.' :: extensionOf leaf
    else leaf.take maxName
  else leaf

section Sent

def isBlank (c : Char) : Bool := isSpace c && !isUnsafe c

end Sent

section Cutting
variable {leaf : List Char}

end Cutting

section Names
variable {given name : List Char} {c : Char}

end Names

end TinyHermes.Channels.InboxNames
