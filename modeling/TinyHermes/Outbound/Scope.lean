import TinyHermes.Lib.Fallible
import TinyHermes.Lib.Narrowing
import TinyHermes.Lib.Text

/-! What a layer approved, and what the layers approve together. -/
namespace TinyHermes.Outbound
open Lib

/-- `str.lower` of a character of Latin-1. -/
def lowerLatin (c : Char) : Char :=
  let n := c.toNat
  if (0x41 ≤ n && n ≤ 0x5A) || (0xC0 ≤ n && n ≤ 0xDE && n != 0xD7) then Char.ofNat (n + 0x20) else c

inductive Version where
  | v4 | v6
  deriving DecidableEq, Repr

def Version.width : Version → Nat
  | .v4 => 32
  | .v6 => 128

structure Address where
  version : Version
  value : Nat
  value_lt : value < 2 ^ version.width
  deriving DecidableEq

/-- A network, whose address has no bit set beyond the length of its mask. -/
structure Network where
  version : Version
  length : Nat
  address : Nat
  length_le : length ≤ version.width
  address_lt : address < 2 ^ version.width
  aligned : address % 2 ^ (version.width - length) = 0
  deriving DecidableEq

namespace Network

def size (n : Network) : Nat := 2 ^ (n.version.width - n.length)

/-- `address in network`, between the two of one version. -/
def has (n : Network) (value : Nat) : Bool := value / n.size * n.size == n.address

/-- `address.version == network.version and address in network`. -/
def holds (n : Network) (a : Address) : Bool := a.version == n.version && n.has a.value

/-- `other.subnet_of(network)`, between the two of one version. -/
def covers (n other : Network) : Bool :=
  decide (n.address ≤ other.address) && decide (other.address + other.size - 1 ≤ n.address + n.size - 1)

theorem size_pos (n : Network) : 0 < n.size := Nat.two_pow_pos _

theorem has_iff {n : Network} {value : Nat} : n.has value = true ↔ n.address ≤ value ∧ value < n.address + n.size := by
  have hpos := n.size_pos
  obtain ⟨block, hblock⟩ := Nat.dvd_of_mod_eq_zero n.aligned
  have haddress : n.address = block * n.size := by
    rw [Nat.mul_comm]
    exact hblock
  have hbounds := Nat.div_add_mod value n.size
  have hmod := Nat.mod_lt value hpos
  rw [has, beq_iff_eq, haddress]
  constructor
  · intro _
    rw [Nat.mul_comm] at hbounds
    omega
  · rintro ⟨hle, hlt⟩
    have hdiv : value / n.size = block := by
      apply Nat.div_eq_of_lt_le
      · exact hle
      · rw [Nat.succ_mul]
        exact hlt
    rw [hdiv]

theorem covers_sound {n other : Network} {value : Nat} (hcovers : n.covers other = true) (h : other.has value = true) :
    n.has value = true := by
  rw [covers, Bool.and_eq_true, decide_eq_true_eq, decide_eq_true_eq] at hcovers
  rw [has_iff] at h ⊢
  have hpos := n.size_pos
  have hpos' := other.size_pos
  omega

end Network

structure Reading where
  lower : List Char → List Char
  lower_latin : ∀ cs, (∀ c ∈ cs, c.toNat < 256) → lower cs = cs.map lowerLatin
  /-- `ip_network(text, strict=False)`. -/
  ipNetwork : List Char → Option Network
  str : Network → List Char

structure ScopeEntry where
  text : List Char
  network : Option Network := none
  wildcard : Bool := false
  deriving DecidableEq

/-- `str.rstrip(".")`. -/
def rstripDots (host : List Char) : List Char := (host.reverse.dropWhile (· == '.')).reverse

/-- `str.lstrip("*.")`. -/
def lstripStars (text : List Char) : List Char := text.dropWhile fun c => c == '*' || c == '.'

inductive ScopeEntryInvalid where
  | blank | notANetwork | looksLikeAUrl | namesAPort | tooWide | notAHost
  deriving DecidableEq, Repr

def minimumWildcardLabels : Nat := 2

/-- `[a-z0-9]`. -/
def isLabelChar (c : Char) : Bool :=
  let n := c.toNat
  (0x61 ≤ n && n ≤ 0x7A) || (0x30 ≤ n && n ≤ 0x39)

/-- What `_LABEL` matches up to the end of the text. -/
def isPlainLabel (label : List Char) : Bool :=
  label.head?.any isLabelChar && label.getLast?.any isLabelChar && label.all fun c => isLabelChar c || c == '-'

/-- `_LABEL.match`, whose `$` also stands before a line break at the end. -/
def isLabel (label : List Char) : Bool :=
  isPlainLabel label || (label.getLast? == some '\n' && isPlainLabel label.dropLast)

/-- The end of `parse_entry`, once the name is in one spelling. -/
def parseHost (host : List Char) : Except ScopeEntryInvalid ScopeEntry :=
  let wildcard := "*.".toList.isPrefixOf host
  let labels := if wildcard then (host.splitOn '.').tail else host.splitOn '.'
  if wildcard && labels.length < minimumWildcardLabels then .error .tooWide
  else if labels.isEmpty || labels.any (!isLabel ·) then .error .notAHost
  else .ok { text := host, wildcard := wildcard }

section Reading
variable (p : Reading)

/-- `_clean_host`. -/
def cleanHost (host : List Char) : List Char := rstripDots (p.lower (Text.stripChars host))

def ScopeEntry.matchesHost (e : ScopeEntry) (host : List Char) : Bool :=
  if e.network.isSome then false
  else if !e.wildcard then cleanHost p host == e.text
  else e.text.tail.isSuffixOf (cleanHost p host) && cleanHost p host != e.text.tail.tail

def ScopeEntry.matchesAddress (e : ScopeEntry) (a : Address) : Bool := e.network.any (·.holds a)

def ScopeEntry.contains (e other : ScopeEntry) : Bool :=
  match e.network, other.network with
  | some n, some m => n.version == m.version && n.covers m
  | some _, none | none, some _ => false
  | none, none =>
    if e.wildcard then e.text == other.text || e.matchesHost p (lstripStars other.text)
    else e.text == other.text && !other.wildcard

def parseEntry (text : List Char) : Except ScopeEntryInvalid ScopeEntry :=
  let cleaned := p.lower (Text.stripChars text)
  if cleaned.isEmpty then .error .blank
  else if cleaned.contains '/' && cleaned.head? != some '*' then
    match p.ipNetwork cleaned with
    | none => .error .notANetwork
    | some network => .ok { text := p.str network, network := some network }
  else if cleaned.contains '/' then .error .looksLikeAUrl
  else if cleaned.contains ':' then .error .namesAPort
  else parseHost (cleanHost p cleaned)

end Reading

structure OutboundScope where
  entries : List ScopeEntry := []
  deriving DecidableEq

namespace OutboundScope

def nothing : OutboundScope := {}

def empty (s : OutboundScope) : Bool := s.entries.isEmpty

end OutboundScope

/-- `_deduplicated`: the first entry of each text. -/
def deduplicated : List ScopeEntry → List ScopeEntry
  | [] => []
  | e :: rest => e :: (deduplicated rest).filter (·.text ≠ e.text)

section Reading
variable (p : Reading)

def OutboundScope.ofTexts (entries : List (List Char)) : Except ScopeEntryInvalid OutboundScope := do
  let parsed ← entries.mapM (parseEntry p)
  return { entries := deduplicated parsed }

def OutboundScope.allowsHost (s : OutboundScope) (host : List Char) : Bool := s.entries.any (·.matchesHost p host)

def OutboundScope.allowsAddress (s : OutboundScope) (a : Address) : Bool := s.entries.any (·.matchesAddress a)

/-- The entry that the inner loop of `_narrow` keeps. -/
def keep (entry : ScopeEntry) : List ScopeEntry → Option ScopeEntry
  | [] => none
  | allowed :: rest =>
    if allowed.contains p entry then some entry
    else if entry.contains p allowed then some allowed
    else keep entry rest

/-- `_narrow`. -/
def narrow (current limit : List ScopeEntry) : List ScopeEntry := current.filterMap (keep p · limit)

/-- The loop of `intersect` over the further layers. -/
def survivors (surviving : List ScopeEntry) : List OutboundScope → OutboundScope
  | [] => { entries := deduplicated surviving }
  | layer :: rest =>
    if (narrow p surviving layer.entries).isEmpty then .nothing
    else survivors (narrow p surviving layer.entries) rest

def intersect : List OutboundScope → OutboundScope
  | [] => .nothing
  | first :: rest => survivors p first.entries rest

end Reading

end TinyHermes.Outbound
