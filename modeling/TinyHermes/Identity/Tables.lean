import TinyHermes.Identity.Oidc
import TinyHermes.Lib.Table
import TinyHermes.Lib.Transaction

/-! The rows of `identity/infrastructure/tables.py` that people sign in through. Each table is keyed
by the columns its unique constraint names. -/
namespace TinyHermes.Identity
open Lib
open Runs (Uuid Time)

inductive IdentityProvider where
  | localAccount | oidc
  deriving DecidableEq, Repr

inductive OidcProviderStatus where
  | active | disabled
  deriving DecidableEq, Repr

structure UserRow where
  status : String := "active"
  displayName : String
  isPlatformAdmin : Bool := false
  deriving DecidableEq, Repr

/-- `UniqueConstraint("provider", "subject")`. -/
structure IdentityKey where
  provider : IdentityProvider
  subject : String
  deriving DecidableEq, Repr

structure AuthIdentityRow where
  userId : Uuid
  passwordHash : Option String
  createdAt : Time
  deriving DecidableEq, Repr

structure AuthSessionRow where
  userId : Uuid
  csrfDigest : String
  expiresAt : Time
  revokedAt : Option Time := none
  deriving DecidableEq, Repr

structure OidcProviderRow where
  issuer : String
  clientId : String
  clientSecretRef : String
  discoveryUrl : String
  scopes : List String := []
  status : OidcProviderStatus := .active
  createdBy : Uuid
  deriving DecidableEq, Repr

structure OidcLoginStateRow where
  providerId : Uuid
  nonce : String
  codeVerifier : String
  redirectUri : String
  expiresAt : Time
  consumedAt : Option Time := none
  deriving DecidableEq, Repr

structure LoginFailureRow where
  subjectKey : String
  failedAt : Time
  deriving DecidableEq, Repr

structure Directory where
  users : Table Uuid UserRow := ∅
  identities : Table IdentityKey AuthIdentityRow := ∅
  /-- Keyed by `token_digest`. -/
  sessions : Table String AuthSessionRow := ∅
  providers : Table Uuid OidcProviderRow := ∅
  /-- Keyed by `state`. -/
  loginStates : Table String OidcLoginStateRow := ∅
  failures : List LoginFailureRow := []

/-- The deployment: its settings, and the functions of the libraries it is linked with. -/
structure Platform where
  bootstrapToken : String
  sessionTtlSeconds : Int
  /-- `str.lower`, over all of Unicode. -/
  lower : String → String
  /-- `sha256(text).hexdigest()`. -/
  sha256 : String → String
  verifyPassword : (password hash : String) → Bool

/-- What one request finds: the clock, the salted hash `pwdlib` would compute, and the outside. -/
structure Env where
  now : Time
  hashPassword : String → String
  outside : Outside

abbrev DirectoryTx := Tx Directory IdentityError

/-- What a `String(width)` column of PostgreSQL accepts. -/
def fits (width : Nat) (text : String) : Prop := text.length ≤ width ∧ '\x00' ∉ text.toList

instance (width : Nat) (text : String) : Decidable (fits width text) := by unfold fits; infer_instance

end TinyHermes.Identity
