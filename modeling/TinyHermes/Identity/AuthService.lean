import TinyHermes.Identity.Tables

/-! `identity/application/auth_service.py` over `SqlAuthStore`: the first administrator, throttled password logins, and the one
place sessions are minted. -/
namespace TinyHermes.Identity
open Lib Tx
open Runs (Uuid Time seconds)

def loginFailureLimit : Nat := 5

def loginFailureWindow : Int := seconds (15 * 60)

structure AuthenticatedUser where
  id : Uuid
  subject : String
  displayName : String
  status : String
  isPlatformAdmin : Bool
  deriving DecidableEq, Repr

structure StoredIdentity where
  user : AuthenticatedUser
  passwordHash : Option String
  deriving DecidableEq, Repr

structure StoredSession where
  user : AuthenticatedUser
  csrfDigest : String
  expiresAt : Time
  revokedAt : Option Time
  deriving DecidableEq, Repr

/-- The two secrets `_issue_session` draws. -/
structure SessionTokens where
  sessionToken : String
  csrfToken : String
  deriving DecidableEq, Repr

namespace SqlAuthStore

/-- `_to_user`. -/
def toUser (id : Uuid) (user : UserRow) (subject : String) : AuthenticatedUser where
  id
  subject
  displayName := user.displayName
  status := user.status
  isPlatformAdmin := user.isPlatformAdmin

/-- `find_local_identity` and `find_oidc_identity` differ in the provider they name. -/
def findIdentity (key : IdentityKey) (d : Directory) : Option StoredIdentity := do
  let identity ← d.identities.lookup key
  let user ← d.users.lookup identity.userId
  some { user := toUser identity.userId user key.subject, passwordHash := identity.passwordHash }

def findLocalIdentity (subject : String) : Directory → Option StoredIdentity :=
  findIdentity ⟨.localAccount, subject⟩

def findOidcIdentity (subject : String) : Directory → Option StoredIdentity := findIdentity ⟨.oidc, subject⟩

/-- A new `users` row and its one identity, as `create_platform_admin` and `create_oidc_user` add them. -/
def createUser (env : Env) (userId : Uuid) (user : UserRow) (key : IdentityKey) (passwordHash : Option String) :
    DirectoryTx AuthenticatedUser := do
  let d ← get
  require (d.users.lookup userId = none ∧ d.identities.lookup key = none) .integrity
  require (fits 120 user.displayName ∧ fits 320 key.subject ∧ ∀ hash ∈ passwordHash, fits 512 hash) .integrity
  write fun d =>
    { d with
      users := d.users.insert userId user
      identities := d.identities.insert key { userId, passwordHash, createdAt := env.now } }
  pure (toUser userId user key.subject)

def createPlatformAdmin (env : Env) (userId : Uuid) (subject displayName passwordHash : String) :
    DirectoryTx AuthenticatedUser :=
  createUser env userId { displayName, isPlatformAdmin := true } ⟨.localAccount, subject⟩ (some passwordHash)

def createOidcUser (env : Env) (userId : Uuid) (subject displayName : String) : DirectoryTx AuthenticatedUser :=
  createUser env userId { displayName } ⟨.oidc, subject⟩ none

def hasPlatformAdmin (d : Directory) : Bool := !(Table.select (fun _ user => user.isPlatformAdmin) d.users).isEmpty

def createSession (userId : Uuid) (tokenDigest csrfDigest : String) (expiresAt : Time) : DirectoryTx Unit := do
  let d ← get
  require (d.sessions.lookup tokenDigest = none) .integrity
  write fun d => { d with sessions := d.sessions.insert tokenDigest { userId, csrfDigest, expiresAt } }

def identitySubject (userId : Uuid) (d : Directory) : Option String :=
  ((Table.select (fun _ row => row.userId = userId) d.identities).argmin fun e => e.2.createdAt).map fun e =>
    e.1.subject

/-- A session that has not expired; whether it was revoked is for the caller to look at. -/
def findSession (tokenDigest : String) (now : Time) (d : Directory) : Option StoredSession := do
  let row ← (d.sessions.lookup tokenDigest).filter fun row => now < row.expiresAt
  let user ← d.users.lookup row.userId
  let subject ← identitySubject row.userId d
  some
    { user := toUser row.userId user subject, csrfDigest := row.csrfDigest, expiresAt := row.expiresAt,
      revokedAt := row.revokedAt }

def revokeSession (tokenDigest : String) (now : Time) : DirectoryTx Unit :=
  write fun d =>
    { d with sessions := Table.modify tokenDigest (fun row => { row with revokedAt := some now }) d.sessions }

/-- The failures a key has after `since`. -/
def loginFailuresSince (subjectKey : String) (since : Time) (d : Directory) : List Time :=
  (d.failures.filter fun row => row.subjectKey = subjectKey ∧ since < row.failedAt).map (·.failedAt)

def recordLoginFailure (subjectKey : String) (at' : Time) : DirectoryTx Unit :=
  write fun d => { d with failures := d.failures ++ [{ subjectKey, failedAt := at' }] }

def clearLoginFailures (subjectKey : String) : DirectoryTx Unit :=
  write fun d => { d with failures := d.failures.filter fun row => row.subjectKey ≠ subjectKey }

def deleteStaleLoginFailures (before : Time) : DirectoryTx Unit :=
  write fun d => { d with failures := d.failures.filter fun row => ¬ row.failedAt < before }

end SqlAuthStore

namespace AuthService
open SqlAuthStore

structure NewLocalUser where
  subject : String
  displayName : String
  password : String
  deriving DecidableEq, Repr

/-- `login_subject_key`. -/
def loginSubjectKey (platform : Platform) (subject : String) : String :=
  platform.sha256 (platform.lower (Text.strip subject))

def bootstrap (platform : Platform) (env : Env) (presentedToken : String) (command : NewLocalUser) (userId : Uuid) :
    DirectoryTx AuthenticatedUser := do
  let same ← lift (compareDigest presentedToken platform.bootstrapToken)
  require (same = true) .invalidBootstrapToken
  let d ← get
  require (hasPlatformAdmin d = false) .bootstrapClosed
  createPlatformAdmin env userId (platform.lower (Text.strip command.subject)) (Text.strip command.displayName)
    (env.hashPassword command.password)

/-- `_issue_session`, which `issue_session_for` hands through. -/
def issueSession (platform : Platform) (env : Env) (user : AuthenticatedUser) (tokens : SessionTokens) :
    DirectoryTx Unit :=
  createSession user.id (platform.sha256 tokens.sessionToken) (platform.sha256 tokens.csrfToken)
    (env.now + seconds platform.sessionTtlSeconds)

/-- How a password login ends. Both refusals commit: `auth_service` keeps the failure it counted. -/
inductive LoginOutcome where
  | loggedIn (user : AuthenticatedUser)
  | throttled (retryAfterSeconds : Int)
  | invalidCredentials
  deriving DecidableEq, Repr

/-- `max(1, int(waited.total_seconds()) + 1)`; `int` rounds towards zero. -/
def retryAfterSeconds (oldest now : Time) : Int :=
  max 1 (Int.tdiv (oldest + loginFailureWindow - now) 1000000 + 1)

def login (platform : Platform) (env : Env) (subject password : String) (tokens : SessionTokens) :
    DirectoryTx LoginOutcome := do
  let key := loginSubjectKey platform subject
  let d ← get
  let recent := loginFailuresSince key (env.now - loginFailureWindow) d
  match recent.min? with
  | some oldest =>
    if loginFailureLimit ≤ recent.length then pure (.throttled (retryAfterSeconds oldest env.now))
    else verify key d
  | none => verify key d
where
  /-- The password is looked at only here. -/
  verify (key : String) (d : Directory) : DirectoryTx LoginOutcome :=
    match (findLocalIdentity (platform.lower (Text.strip subject)) d).filter fun identity =>
        identity.passwordHash.any (platform.verifyPassword password) with
    | some identity => do
      clearLoginFailures key
      issueSession platform env identity.user tokens
      pure (.loggedIn identity.user)
    | none => do
      recordLoginFailure key env.now
      pure .invalidCredentials

/-- Only a miss creates a User, and only `oidc` identities are looked at. -/
def findOrCreateOidcIdentity (env : Env) (subject displayName : String) (userId : Uuid) :
    DirectoryTx AuthenticatedUser := do
  let d ← get
  match findOidcIdentity subject d with
  | some identity => pure identity.user
  | none => createOidcUser env userId subject displayName

/-- `authenticate`: whom an unrevoked session stands for, while that User is active. -/
def authenticate (platform : Platform) (env : Env) (token : String) (d : Directory) :
    Except IdentityError AuthenticatedUser :=
  match (findSession (platform.sha256 token) env.now d).filter fun stored =>
      stored.revokedAt.isNone && stored.user.status == "active" with
  | none => .error .invalidCredentials
  | some stored => .ok stored.user

/-- `verify_csrf`, which does not look at the User's status. -/
def verifyCsrf (platform : Platform) (env : Env) (token csrfToken : String) (d : Directory) :
    Except IdentityError AuthenticatedUser :=
  match (findSession (platform.sha256 token) env.now d).filter fun stored => stored.revokedAt.isNone with
  | none => .error .invalidCredentials
  | some stored => do
    if ← compareDigest stored.csrfDigest (platform.sha256 csrfToken) then .ok stored.user
    else .error .invalidCredentials

/-- `DELETE /auth/sessions/current`: the CSRF check of the route, then `logout`. -/
def logout (platform : Platform) (env : Env) (token csrfToken : String) : DirectoryTx Unit := do
  let d ← get
  let _ ← lift (verifyCsrf platform env token csrfToken d)
  onlyIf (findSession (platform.sha256 token) env.now d).isSome (revokeSession (platform.sha256 token) env.now)

end AuthService
end TinyHermes.Identity
