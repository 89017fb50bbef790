import TinyHermes.Identity.Tables

/-! `MachineIdentityService.authenticate` over `SqlMachineIdentityStore`: the service account a presented API key
stands for. -/
namespace TinyHermes.Identity
open Lib
open Runs (Uuid Time)

inductive Role where
  | workspaceAdmin | developer | viewer
  deriving DecidableEq, Repr

inductive ServiceAccountStatus where
  | active | disabled
  deriving DecidableEq, Repr

def tokenPrefix : String := "thk_"

def tokenPrefixLength : Nat := 8

/-- `ROLE_SCOPES.get(role, frozenset())`. -/
def scopesForRole : Role → Finset String
  | .viewer => {"runs.read", "agents.read"}
  | .developer => {"runs.read", "runs.write", "runs.control", "agents.read"}
  | .workspaceAdmin => ∅

structure ServiceAccountRow where
  workspaceId : Uuid
  name : String
  role : Role
  status : ServiceAccountStatus := .active
  deriving DecidableEq, Repr

structure ApiKeyRow where
  serviceAccountId : Uuid
  /-- The column `prefix`: the first characters of the token. -/
  shownPrefix : String
  scopes : List String
  expiresAt : Option Time := none
  revokedAt : Option Time := none
  deriving DecidableEq, Repr

structure Machines where
  accounts : Table Uuid ServiceAccountRow := ∅
  /-- Keyed by `token_digest`. -/
  keys : Table String ApiKeyRow := ∅

structure ServiceAccount extends ServiceAccountRow where
  id : Uuid
  deriving DecidableEq, Repr

/-- One row of `keys_with_prefix`. -/
structure StoredKey where
  key : ApiKeyRow
  account : ServiceAccount
  tokenDigest : String
  deriving DecidableEq, Repr

structure AuthenticatedMachine where
  account : ServiceAccount
  key : ApiKeyRow
  scopes : Finset String
  deriving DecidableEq

inductive MachineError where
  | invalidApiKey | workspaceBindingMismatch
  /-- `hmac.compare_digest` on a text that is not ASCII. -/
  | typeError
  deriving DecidableEq, Repr

def StoredKey.usable (now : Time) (stored : StoredKey) : Bool :=
  stored.key.revokedAt.isNone && stored.key.expiresAt.all (now < ·) && stored.account.status == .active

namespace MachineIdentityService

def keysWithPrefix (shown : String) (m : Machines) : List StoredKey :=
  (Table.select (fun _ key => key.shownPrefix = shown) m.keys).filterMap fun e =>
    (m.accounts.lookup e.2.serviceAccountId).map fun account =>
      { key := e.2, account := { account with id := e.2.serviceAccountId }, tokenDigest := e.1 }

/-- The loop of `authenticate`: the first stored key with the token's digest. -/
def matching (digest : String) : List StoredKey → Except MachineError (Option StoredKey)
  | [] => .ok none
  | stored :: rest =>
    match compareDigest stored.tokenDigest digest with
    | .error _ => .error .typeError
    | .ok true => .ok (some stored)
    | .ok false => matching digest rest

def authenticate (platform : Platform) (env : Env) (token : String) (workspaceHeader : Option Uuid) (m : Machines) :
    Except MachineError AuthenticatedMachine :=
  if ¬ tokenPrefix.toList <+: token.toList ∨ token.length < tokenPrefixLength then .error .invalidApiKey
  else do
    let shown := String.ofList (token.toList.take tokenPrefixLength)
    match ← matching (platform.sha256 token) (keysWithPrefix shown m) with
    | none => .error .invalidApiKey
    | some stored =>
      if stored.usable env.now = false then .error .invalidApiKey
      else if workspaceHeader.any (· ≠ stored.account.workspaceId) then .error .workspaceBindingMismatch
      else
        .ok
          { account := stored.account, key := stored.key,
            scopes := stored.key.scopes.toFinset ∩ scopesForRole stored.account.role }

end MachineIdentityService
end TinyHermes.Identity
