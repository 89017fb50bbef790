import TinyHermes.Outbound.Scope

/-! Which addresses a connection may be opened to. -/
namespace TinyHermes.Outbound

/-- How `ipaddress` classifies addresses. -/
structure Classification where
  isLoopback : Address → Bool
  isLinkLocal : Address → Bool
  isUnspecified : Address → Bool
  isMulticast : Address → Bool
  isReserved : Address → Bool
  isPrivate : Address → Bool

inductive RefusalReason where
  | plaintextNotApproved | unresolved | loopback | linkLocal | carrierGradeNat | isPrivate | unspecified | multicast | reserved
  deriving DecidableEq, Repr

def RefusalReason.value : RefusalReason → String
  | .plaintextNotApproved => "plaintext_not_approved"
  | .unresolved => "unresolved"
  | .loopback => "loopback"
  | .linkLocal => "link_local"
  | .carrierGradeNat => "carrier_grade_nat"
  | .isPrivate => "private"
  | .unspecified => "unspecified"
  | .multicast => "multicast"
  | .reserved => "reserved"

structure AddressVerdict where
  allowed : Bool
  address : Option Address := none
  reason : Option RefusalReason := none

/-- `ip_network("100.64.0.0/10")`. -/
def carrierGradeNat : Network where
  version := .v4
  length := 10
  address := 0x64400000
  length_le := by decide
  address_lt := by decide
  aligned := by decide

/-- `_approved`. -/
def inApproved (approved : List Network) (a : Address) : Bool := approved.any (·.holds a)

section Verdict
variable (k : Classification)

/-- `_refusal`: the first class is the most specific one. -/
def refusal (a : Address) : Option RefusalReason :=
  if k.isLoopback a then some .loopback
  else if k.isLinkLocal a then some .linkLocal
  else if k.isUnspecified a then some .unspecified
  else if k.isMulticast a then some .multicast
  else if k.isReserved a then some .reserved
  else if carrierGradeNat.holds a then some .carrierGradeNat
  else if k.isPrivate a then some .isPrivate
  else none

/-- The loop of `verdict`: the reason of the first address that no approved network opens. -/
def firstForbidden (approved : List Network) : List Address → Option RefusalReason
  | [] => none
  | a :: rest =>
    match refusal k a with
    | none => firstForbidden approved rest
    | some reason =>
      if (reason = .isPrivate ∨ reason = .carrierGradeNat) ∧ inApproved approved a = true then firstForbidden approved rest
      else some reason

def verdict (addresses : List Address) (approved : List Network) : AddressVerdict :=
  if addresses.isEmpty then { allowed := false, reason := some .unresolved }
  else
    match firstForbidden k approved addresses with
    | some reason => { allowed := false, reason := some reason }
    | none => { allowed := true, address := addresses.head? }

end Verdict

variable {k : Classification} {approved : List Network} {addresses : List Address} {a : Address}

def Opened (k : Classification) (approved : List Network) (a : Address) : Prop :=
  refusal k a = none ∨
    ((refusal k a = some .isPrivate ∨ refusal k a = some .carrierGradeNat) ∧ inApproved approved a = true)

theorem firstForbidden_none : firstForbidden k approved addresses = none ↔ ∀ a ∈ addresses, Opened k approved a := by
  induction addresses with
  | nil => simp [firstForbidden]
  | cons a rest ih =>
    rw [List.forall_mem_cons, ← ih, firstForbidden, Opened]
    cases hrefusal : refusal k a with
    | none => simp
    | some =>
      dsimp only
      split_ifs with hopened
      · simp [hopened]
      · simp only [Option.some.injEq, false_or, false_iff, not_and]
        intro h
        exact absurd h hopened

theorem verdict_allowed : (verdict k addresses approved).allowed = true ↔
    addresses ≠ [] ∧ ∀ a ∈ addresses, Opened k approved a := by
  rw [← firstForbidden_none, verdict]
  cases addresses with
  | nil => simp
  | cons first rest =>
    rw [if_neg (by simp)]
    cases firstForbidden k approved (first :: rest) <;> simp

theorem verdict_address (h : (verdict k addresses approved).allowed = true) :
    (verdict k addresses approved).address = addresses.head? := by
  obtain ⟨hne, hopened⟩ := verdict_allowed.mp h
  rw [verdict, if_neg (by simp [hne]), firstForbidden_none.mpr hopened]

theorem Opened.not_local (h : Opened k approved a) : k.isLoopback a = false ∧ k.isLinkLocal a = false ∧
    k.isUnspecified a = false ∧ k.isMulticast a = false ∧ k.isReserved a = false := by
  rw [Opened, refusal] at h
  by_cases h₁ : k.isLoopback a = true
  · rw [if_pos h₁] at h
    simp at h
  rw [if_neg h₁] at h
  by_cases h₂ : k.isLinkLocal a = true
  · rw [if_pos h₂] at h
    simp at h
  rw [if_neg h₂] at h
  by_cases h₃ : k.isUnspecified a = true
  · rw [if_pos h₃] at h
    simp at h
  rw [if_neg h₃] at h
  by_cases h₄ : k.isMulticast a = true
  · rw [if_pos h₄] at h
    simp at h
  rw [if_neg h₄] at h
  by_cases h₅ : k.isReserved a = true
  · rw [if_pos h₅] at h
    simp at h
  rw [if_neg h₅] at h
  rw [Bool.not_eq_true] at h₁ h₂ h₃ h₄ h₅
  exact ⟨h₁, h₂, h₃, h₄, h₅⟩

theorem Opened.inApproved (h : Opened k approved a) (hrestricted : k.isPrivate a = true ∨ carrierGradeNat.holds a = true) :
    inApproved approved a = true := by
  obtain hnone | ⟨_, hin⟩ := h
  · rw [refusal] at hnone
    split_ifs at hnone with h₁ h₂ h₃ h₄ h₅ hcarrier hprivate
    simp [hcarrier, hprivate] at hrestricted
  · exact hin

end TinyHermes.Outbound
