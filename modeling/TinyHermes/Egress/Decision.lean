import TinyHermes.Outbound.AddressPolicy
import TinyHermes.Outbound.EffectiveScope

/-! Whether one connection may be opened, decided without opening anything. -/
namespace TinyHermes.Egress
open Lib Outbound

inductive CallerKind where
  | platform | sandbox
  deriving DecidableEq, Repr

/-- Which layers a request asks to be measured against. -/
structure CallerClaim where
  kind : CallerKind
  workspaceId : Option Nat := none
  agentVersionId : Option Nat := none
  runId : Option Nat := none
  discoveryId : Option Nat := none
  deriving DecidableEq

structure ScopeLayers where
  platform : OutboundScope
  workspace : Option OutboundScope := none
  agent : Option OutboundScope := none
  run : Option OutboundScope := none
  deriving DecidableEq

def ScopeLayers.present (l : ScopeLayers) : List OutboundScope :=
  [some l.platform, l.workspace, l.agent, l.run].filterMap id

def ScopeLayers.effective (p : Reading) (l : ScopeLayers) : OutboundScope := intersect p l.present

structure Target where
  scheme : List Char
  host : List Char
  port : Nat

inductive ProxyRefusal where
  | unknownCaller | schemeNotAllowed | portNotAllowed | targetNotInScope | scopeEmpty | unresolved
  deriving DecidableEq, Repr

def ProxyRefusal.value : ProxyRefusal → String
  | .unknownCaller => "unknown_caller"
  | .schemeNotAllowed => "scheme_not_allowed"
  | .portNotAllowed => "port_not_allowed"
  | .targetNotInScope => "target_not_in_scope"
  | .scopeEmpty => "scope_empty"
  | .unresolved => "unresolved"

structure ProxyVerdict where
  allowed : Bool
  address : Option Address := none
  refusal : Option ProxyRefusal := none
  addressReason : Option RefusalReason := none
  deriving DecidableEq

def ProxyVerdict.reasonText (v : ProxyVerdict) : String :=
  if v.allowed then "allowed"
  else
    match v.addressReason, v.refusal with
    | some reason, _ => reason.value
    | none, some refusal => refusal.value
    | none, none => "refused"

def hasNetworkEntry (scope : OutboundScope) : Bool := scope.entries.any (·.network.isSome)

/-- Everything that can be decided before a name is resolved. -/
def checkRequest (p : Reading) (target : Target) (scope : OutboundScope) (ports : List Nat) : Option ProxyRefusal :=
  if scope.empty then some .scopeEmpty
  else if target.scheme ≠ "http".toList ∧ target.scheme ≠ "https".toList then some .schemeNotAllowed
  else if target.port ∉ ports then some .portNotAllowed
  else if !scope.allowsHost p target.host && !hasNetworkEntry scope then some .targetNotInScope
  else none

/-- `_inside`. -/
def inside (address : Option Address) (approved : List Network) : Bool := address.any (inApproved approved)

/-- The whole answer, given a resolution somebody else performed. -/
def decide (p : Reading) (k : Classification) (target : Target) (scope : OutboundScope) (addresses : List Address)
    (approved : List Network) (ports : List Nat) : ProxyVerdict :=
  match checkRequest p target scope ports with
  | some early => { allowed := false, refusal := some early }
  | none =>
    if addresses.isEmpty then { allowed := false, refusal := some .unresolved }
    else if !scope.allowsHost p target.host && !addresses.all scope.allowsAddress then
      { allowed := false, refusal := some .targetNotInScope }
    else
      let answer := verdict k addresses approved
      if !answer.allowed then { allowed := false, addressReason := answer.reason }
      else if target.scheme = "http".toList ∧ inside answer.address approved = false then
        { allowed := false, addressReason := some .plaintextNotApproved }
      else { allowed := true, address := answer.address }

variable {p : Reading} {k : Classification} {target : Target} {scope : OutboundScope} {addresses : List Address}
  {approved : List Network} {ports : List Nat} {a : Address}

structure Checked (p : Reading) (target : Target) (scope : OutboundScope) (ports : List Nat) : Prop where
  scheme : target.scheme = "http".toList ∨ target.scheme = "https".toList
  port : target.port ∈ ports
  named : scope.empty = false ∧ (scope.allowsHost p target.host = true ∨ hasNetworkEntry scope = true)

theorem checkRequest_none : checkRequest p target scope ports = none ↔ Checked p target scope ports := by
  rw [checkRequest]
  constructor
  · intro h
    split_ifs at h with hempty hscheme hport hscope
    refine ⟨?_, hport, by simpa using hempty, ?_⟩
    · by_contra hnot
      rw [not_or] at hnot
      exact hscheme hnot
    · by_contra hnot
      rw [not_or, Bool.not_eq_true, Bool.not_eq_true] at hnot
      exact hscope (by rw [hnot.1, hnot.2]; rfl)
  · rintro ⟨hscheme, hport, hempty, hnamed⟩
    rw [if_neg (by simp [hempty]), if_neg (by rintro ⟨h, h'⟩; exact hscheme.elim h h'), if_neg (not_not.mpr hport), if_neg]
    rw [Bool.and_eq_true, Bool.not_eq_true', Bool.not_eq_true']
    rintro ⟨h, h'⟩
    rw [h, h'] at hnamed
    simp at hnamed

/-- A connection that may be opened: the target is checked, the scope approves its name or every address, each address is let
through, and a plaintext one is in an approved network. -/
structure Allowed (p : Reading) (k : Classification) (target : Target) (scope : OutboundScope) (addresses : List Address)
    (approved : List Network) (ports : List Nat) : Prop where
  checked : Checked p target scope ports
  inScope : scope.allowsHost p target.host = true ∨ ∀ a ∈ addresses, scope.allowsAddress a = true
  opened : ∀ a ∈ addresses, Opened k approved a
  plaintext : target.scheme = "http".toList → inside addresses.head? approved = true

/-- `decide` allows a connection to the first address of a resolution, and only one of these. -/
theorem decide_allowed : (decide p k target scope addresses approved ports).allowed = true ↔
    addresses ≠ [] ∧ Allowed p k target scope addresses approved ports := by
  rw [decide]
  cases hcheck : checkRequest p target scope ports with
  | some =>
    dsimp only
    constructor
    · rintro ⟨⟩
    · rintro ⟨_, hallowed⟩
      rw [checkRequest_none.mpr hallowed.checked] at hcheck
      cases hcheck
  | none =>
    have hchecked := checkRequest_none.mp hcheck
    dsimp only
    by_cases hempty : addresses.isEmpty = true
    · rw [if_pos hempty]
      constructor
      · rintro ⟨⟩
      · rintro ⟨hne, _⟩
        exact absurd (List.isEmpty_iff.mp hempty) hne
    rw [if_neg hempty]
    have hne : addresses ≠ [] := fun h => hempty (List.isEmpty_iff.mpr h)
    by_cases hscope : (!scope.allowsHost p target.host && !addresses.all scope.allowsAddress) = true
    · rw [if_pos hscope]
      rw [Bool.and_eq_true, Bool.not_eq_true', Bool.not_eq_true', List.all_eq_false] at hscope
      constructor
      · rintro ⟨⟩
      · rintro ⟨_, hallowed⟩
        obtain ⟨a, ha, hnot⟩ := hscope.2
        obtain hhost | hall := hallowed.inScope
        · rw [hhost] at hscope
          cases hscope.1
        · exact absurd (hall a ha) hnot
    rw [if_neg hscope]
    have hscoped : scope.allowsHost p target.host = true ∨ ∀ a ∈ addresses, scope.allowsAddress a = true := by
      by_contra hnot
      rw [not_or, Bool.not_eq_true, ← List.all_eq_true, Bool.not_eq_true] at hnot
      exact hscope (by rw [hnot.1, hnot.2]; rfl)
    by_cases hverdict : (verdict k addresses approved).allowed = true
    · rw [if_neg (by simp [hverdict]), verdict_address hverdict]
      have hopened := (verdict_allowed.mp hverdict).2
      split_ifs with hplain
      · constructor
        · rintro ⟨⟩
        · rintro ⟨_, hallowed⟩
          rw [hallowed.plaintext hplain.1] at hplain
          cases hplain.2
      · refine ⟨fun _ => ⟨hne, hchecked, hscoped, hopened, ?_⟩, fun _ => rfl⟩
        intro hscheme
        by_contra hnot
        exact hplain ⟨hscheme, Bool.not_eq_true _ ▸ hnot⟩
    · rw [if_pos (by simp [hverdict])]
      constructor
      · rintro ⟨⟩
      · rintro ⟨_, hallowed⟩
        exact absurd (verdict_allowed.mpr ⟨hne, hallowed.opened⟩) hverdict

theorem decide_address (h : (decide p k target scope addresses approved ports).allowed = true) :
    (decide p k target scope addresses approved ports).address = addresses.head? := by
  obtain ⟨hne, hallowed⟩ := decide_allowed.mp h
  have hverdict := verdict_allowed.mpr ⟨hne, hallowed.opened⟩
  rw [decide] at h ⊢
  rw [checkRequest_none.mpr hallowed.checked] at h ⊢
  dsimp only at h ⊢
  split_ifs at h ⊢
  exact verdict_address hverdict

end TinyHermes.Egress
