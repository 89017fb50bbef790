import TinyHermes.Identity.Machines
import TinyHermes.Identity.Transactions

/-! `identity/presentation/dependencies.py`: who a workspace request comes from. A browser's reads and writes go through two
checks of its session, an API key through one. -/
namespace TinyHermes.Identity
open Lib
open Runs (Uuid Time)

structure AppError where
  code : String
  title : String
  status : Nat
  detail : String
  deriving DecidableEq, Repr

inductive CallerError where
  | refused (error : AppError)
  /-- A `TypeError` that no handler expects. -/
  | typeError
  deriving DecidableEq, Repr

/-- `Actor`, with what a service account carries along. -/
structure CallerActor extends Actor where
  role : Option Role := none
  scopes : Option (Finset String) := none
  deriving DecidableEq

structure WorkspaceCaller where
  actor : CallerActor
  workspaceId : Uuid
  deriving DecidableEq

structure Presented where
  sessionToken : Option String := none
  authorization : Option String := none
  csrfToken : Option String := none
  workspaceHeader : Option String := none
  deriving DecidableEq, Repr

abbrev Checked := Except CallerError

def authenticationRequired (detail : String) : CallerError :=
  .refused { code := "unauthenticated", title := "Authentication required", status := 401, detail }

def unauthenticated : CallerError := authenticationRequired "A valid browser session is required."

def unauthenticatedBearer : CallerError := authenticationRequired "A valid API key is required."

def unauthenticatedAny : CallerError := authenticationRequired "A valid browser session or API key is required."

def csrfFailed : CallerError :=
  .refused
    { code := "csrf_failed", title := "Request verification failed", status := 403,
      detail := "The request verification token is missing or invalid." }

def forbidden : CallerError :=
  .refused
    { code := "forbidden", title := "Forbidden", status := 403,
      detail := "The current user cannot perform this workspace action." }

def workspaceRequired : CallerError :=
  .refused
    { code := "workspace_required", title := "Workspace required", status := 400,
      detail := "X-Workspace-Id is required for workspace-scoped requests." }

def invalidWorkspaceId : CallerError :=
  .refused
    { code := "invalid_workspace_id", title := "Invalid workspace identifier", status := 400,
      detail := "X-Workspace-Id must be a UUID." }

/-- A text that is neither `None` nor empty. -/
def nonEmpty (value : Option String) : Option String := value.filter fun s => !s.isEmpty

/-- A service's answer, where its refusal is turned into `refusal`. -/
def orRefuse {α : Type} (refusal : CallerError) : Except IdentityError α → Checked α
  | .ok a => .ok a
  | .error .typeError => .error .typeError
  | .error _ => .error refusal

section
variable (platform : Platform) (env : Env)

def authenticateBrowserUser (sessionToken : Option String) (d : Directory) : Checked AuthenticatedUser :=
  match nonEmpty sessionToken with
  | none => .error unauthenticated
  | some token => orRefuse unauthenticated (AuthService.authenticate platform env token d)

def verifyBrowserWrite (sessionToken csrfToken : Option String) (d : Directory) : Checked AuthenticatedUser :=
  match nonEmpty sessionToken with
  | none => .error unauthenticated
  | some token =>
    match nonEmpty csrfToken with
    | none => .error csrfFailed
    | some csrf => orRefuse csrfFailed (AuthService.verifyCsrf platform env token csrf d)

def parseBearerToken : Option String → Checked (Option String)
  | none => .ok none
  | some authorization =>
    if Text.isBlank authorization then .ok none
    else
      -- `authorization.partition(" ")`
      let scheme := authorization.toList.takeWhile (· ≠ ' ')
      let rest := authorization.toList.dropWhile (· ≠ ' ')
      let credential := String.ofList (rest.drop 1)
      if rest = [] ∨ platform.lower (String.ofList scheme) ≠ "bearer" ∨ Text.isBlank credential = true then
        .error unauthenticatedBearer
      else .ok (some (Text.strip credential))

-- `UUID(raw_value)`, which accepts several spellings of one id.
variable (parseUuid : String → Option Uuid)

def requireWorkspaceId : Option String → Checked Uuid
  | none => .error workspaceRequired
  | some raw =>
    match parseUuid raw with
    | none => .error invalidWorkspaceId
    | some workspaceId => .ok workspaceId

def optionalWorkspaceId : Option String → Checked (Option Uuid)
  | none => .ok none
  | some raw =>
    if Text.isBlank raw then .ok none
    else
      match parseUuid raw with
      | none => .error invalidWorkspaceId
      | some workspaceId => .ok (some workspaceId)

def requireScope (actor : CallerActor) (scope : Option String) : Checked Unit :=
  match scope, actor.scopes with
  | some scope, some scopes => if scope ∈ scopes then .ok () else .error forbidden
  | _, _ => .ok ()

/-- The part of `resolve_api_key_caller` and `resolve_workspace_caller` that follows the token. -/
def machineCaller (token : String) (workspaceHeader requiredScope : Option String) (m : Machines) :
    Checked WorkspaceCaller := do
  let workspace ← optionalWorkspaceId parseUuid workspaceHeader
  match MachineIdentityService.authenticate platform env token workspace m with
  | .error .invalidApiKey => .error unauthenticatedBearer
  | .error .workspaceBindingMismatch => .error forbidden
  | .error .typeError => .error .typeError
  | .ok machine =>
    let actor : CallerActor :=
      { id := machine.account.id, isPlatformAdmin := false, isServiceAccount := true,
        role := some machine.account.role, scopes := some machine.scopes }
    requireScope actor requiredScope
    .ok { actor, workspaceId := machine.account.workspaceId }

def resolveApiKeyCaller (presented : Presented) (requiredScope : Option String) (m : Machines) :
    Checked WorkspaceCaller := do
  match ← parseBearerToken platform presented.authorization with
  | none => .error unauthenticatedBearer
  | some token => machineCaller platform env parseUuid token presented.workspaceHeader requiredScope m

def resolveWorkspaceCaller (presented : Presented) (write : Bool) (requiredScope : Option String) (d : Directory)
    (m : Machines) : Checked WorkspaceCaller := do
  match ← parseBearerToken platform presented.authorization with
  | some token => machineCaller platform env parseUuid token presented.workspaceHeader requiredScope m
  | none =>
    let user ←
      if write then verifyBrowserWrite platform env presented.sessionToken presented.csrfToken d
      else
        match nonEmpty presented.sessionToken with
        | none => .error unauthenticatedAny
        | some _ => authenticateBrowserUser platform env presented.sessionToken d
    let workspaceId ← requireWorkspaceId parseUuid presented.workspaceHeader
    .ok { actor := { id := user.id, isPlatformAdmin := user.isPlatformAdmin }, workspaceId }

end

namespace Callers
open SqlAuthStore

section
variable (platform : Platform) (env : Env) (parseUuid : String → Option Uuid) (presented : Presented) (d : Directory)

/-- The unexpired, unrevoked session of the cookie, when the CSRF header is the one it was issued with. -/
def writableSession : Option StoredSession := do
  let token ← nonEmpty presented.sessionToken
  let csrf ← nonEmpty presented.csrfToken
  (findSession (platform.sha256 token) env.now d).filter fun stored =>
    stored.revokedAt.isNone && decide (compareDigest stored.csrfDigest (platform.sha256 csrf) = .ok true)

/-- A browser whose session may be written through, though its User is not active. -/
structure InactiveWriter : Prop where
  noKey : parseBearerToken platform presented.authorization = .ok none
  session : ∃ stored, writableSession platform env presented d = some stored ∧ stored.user.status ≠ "active"
  workspace : ∃ workspaceId, requireWorkspaceId parseUuid presented.workspaceHeader = .ok workspaceId

end

variable {platform : Platform} {env : Env} {parseUuid : String → Option Uuid} {presented : Presented} {d : Directory}
  {m : Machines} {scope : Option String}

variable {stored : StoredSession}

theorem writableSession_eq_some (h : writableSession platform env presented d = some stored) :
    ∃ token csrf, nonEmpty presented.sessionToken = some token ∧ nonEmpty presented.csrfToken = some csrf ∧
      findSession (platform.sha256 token) env.now d = some stored ∧ stored.revokedAt = none ∧
      compareDigest stored.csrfDigest (platform.sha256 csrf) = .ok true := by
  obtain ⟨token, htoken, h⟩ := Option.bind_eq_some_iff.mp h
  obtain ⟨csrf, hcsrf, h⟩ := Option.bind_eq_some_iff.mp h
  obtain ⟨hfound, hlive⟩ := Option.filter_eq_some_iff.mp h
  rw [Bool.and_eq_true, Option.isNone_iff_eq_none, decide_eq_true_eq] at hlive
  exact ⟨token, csrf, htoken, hcsrf, hfound, hlive.1, hlive.2⟩

theorem writableSession_of_verify {user : AuthenticatedUser}
    (h : verifyBrowserWrite platform env presented.sessionToken presented.csrfToken d = .ok user) :
    ∃ stored, writableSession platform env presented d = some stored ∧ stored.user = user := by
  unfold verifyBrowserWrite at h
  cases htoken : nonEmpty presented.sessionToken with
  | none => simp only [htoken, reduceCtorEq] at h
  | some token =>
    cases hcsrf : nonEmpty presented.csrfToken with
    | none => simp only [htoken, hcsrf, reduceCtorEq] at h
    | some csrf =>
      simp only [htoken, hcsrf, AuthService.verifyCsrf] at h
      cases hfound : (findSession (platform.sha256 token) env.now d).filter fun stored => stored.revokedAt.isNone with
      | none => simp only [hfound, orRefuse, reduceCtorEq] at h
      | some stored =>
        obtain ⟨hsession, hlive⟩ := Option.filter_eq_some_iff.mp hfound
        simp only [hfound] at h
        cases hsame : compareDigest stored.csrfDigest (platform.sha256 csrf) with
        | error e => cases e <;> simp [hsame, orRefuse, bind, Except.bind] at h
        | ok same =>
          cases same with
          | false => simp [hsame, orRefuse, bind, Except.bind] at h
          | true =>
            refine ⟨stored, ?_, by simpa [hsame, orRefuse, bind, Except.bind] using h⟩
            simp [writableSession, htoken, hcsrf, hsession, hlive, hsame]

theorem verify_of_writableSession
    (h : writableSession platform env presented d = some stored) :
    verifyBrowserWrite platform env presented.sessionToken presented.csrfToken d = .ok stored.user := by
  obtain ⟨_, _, htoken, hcsrf, hfound, hlive, hsame⟩ := writableSession_eq_some h
  simp [verifyBrowserWrite, htoken, hcsrf, AuthService.verifyCsrf, hfound, Option.filter_some, hlive, hsame, orRefuse,
    bind, Except.bind]

theorem authenticate_of_writableSession
    (h : writableSession platform env presented d = some stored) :
    authenticateBrowserUser platform env presented.sessionToken d =
      if stored.user.status = "active" then .ok stored.user else .error unauthenticated := by
  obtain ⟨_, _, htoken, _, hfound, hlive, _⟩ := writableSession_eq_some h
  by_cases hactive : stored.user.status = "active"
  · simp [authenticateBrowserUser, htoken, AuthService.authenticate, hfound, Option.filter_some, hlive, hactive, orRefuse]
  · simp [authenticateBrowserUser, htoken, AuthService.authenticate, hfound, Option.filter_some, hactive, orRefuse]

theorem resolve_of_key {token : String} (write : Bool)
    (h : parseBearerToken platform presented.authorization = .ok (some token)) :
    resolveWorkspaceCaller platform env parseUuid presented write scope d m =
      machineCaller platform env parseUuid token presented.workspaceHeader scope m := by
  simp [resolveWorkspaceCaller, h, bind, Except.bind]

theorem resolve_write_ok {caller : WorkspaceCaller} (hkey : parseBearerToken platform presented.authorization = .ok none)
    (h : resolveWorkspaceCaller platform env parseUuid presented true scope d m = .ok caller) :
    ∃ stored, writableSession platform env presented d = some stored ∧
      caller.actor = { id := stored.user.id, isPlatformAdmin := stored.user.isPlatformAdmin } ∧
      requireWorkspaceId parseUuid presented.workspaceHeader = .ok caller.workspaceId := by
  simp only [resolveWorkspaceCaller, hkey, bind, Except.bind, if_true] at h
  cases huser : verifyBrowserWrite platform env presented.sessionToken presented.csrfToken d with
  | error => simp [huser] at h
  | ok =>
    obtain ⟨stored, hstored, rfl⟩ := writableSession_of_verify huser
    cases hworkspace : requireWorkspaceId parseUuid presented.workspaceHeader with
    | error => simp [huser, hworkspace] at h
    | ok =>
      simp only [huser, hworkspace, Except.ok.injEq] at h
      subst h
      exact ⟨stored, hstored, rfl, rfl⟩

theorem resolve_of_writableSession {workspaceId : Uuid} (write : Bool) (scope : Option String)
    (m : Machines) (hkey : parseBearerToken platform presented.authorization = .ok none)
    (hstored : writableSession platform env presented d = some stored)
    (hworkspace : requireWorkspaceId parseUuid presented.workspaceHeader = .ok workspaceId) :
    resolveWorkspaceCaller platform env parseUuid presented write scope d m =
      if write = true ∨ stored.user.status = "active" then
        .ok { actor := { id := stored.user.id, isPlatformAdmin := stored.user.isPlatformAdmin }, workspaceId }
      else .error unauthenticated := by
  obtain ⟨_, _, htoken, _⟩ := writableSession_eq_some hstored
  cases write with
  | true => simp [resolveWorkspaceCaller, hkey, verify_of_writableSession hstored, hworkspace, bind, Except.bind]
  | false =>
    by_cases hactive : stored.user.status = "active"
    · simp [resolveWorkspaceCaller, hkey, htoken, authenticate_of_writableSession hstored, hworkspace, hactive, bind,
        Except.bind]
    · simp [resolveWorkspaceCaller, hkey, htoken, authenticate_of_writableSession hstored, hactive, bind, Except.bind]

/-- Whoever may write may read, as the same actor in the same workspace, unless the write comes from a browser whose
User is no longer active. -/
theorem write_admits_read_iff (platform : Platform) (env : Env) (parseUuid : String → Option Uuid)
    (presented : Presented) (scope : Option String) (d : Directory) (m : Machines) :
    (∀ caller, resolveWorkspaceCaller platform env parseUuid presented true scope d m = .ok caller →
      resolveWorkspaceCaller platform env parseUuid presented false scope d m = .ok caller) ↔
      ¬ InactiveWriter platform env parseUuid presented d := by
  constructor
  · rintro h ⟨hkey, ⟨stored, hstored, hstatus⟩, workspaceId, hworkspace⟩
    have hwrite := resolve_of_writableSession true scope m hkey hstored hworkspace
    have hread := resolve_of_writableSession false scope m hkey hstored hworkspace
    rw [if_pos (.inl rfl)] at hwrite
    rw [if_neg (by simp [hstatus]), h _ hwrite] at hread
    cases hread
  · intro h caller hcaller
    cases hkey : parseBearerToken platform presented.authorization with
    | error => simp [resolveWorkspaceCaller, hkey, bind, Except.bind] at hcaller
    | ok token =>
      cases token with
      | some =>
        rw [resolve_of_key false hkey, ← resolve_of_key true hkey]
        exact hcaller
      | none =>
        obtain ⟨stored, hstored, hactor, hworkspace⟩ := resolve_write_ok hkey hcaller
        have hactive : stored.user.status = "active" := by
          by_contra hstatus
          exact h ⟨hkey, ⟨stored, hstored, hstatus⟩, caller.workspaceId, hworkspace⟩
        rw [resolve_of_writableSession false scope m hkey hstored hworkspace, if_pos (.inr hactive), ← hactor]

section Example

def closedAccount : Directory where
  users := (∅ : Table Uuid UserRow).insert 7 { displayName := "Ada", status := "disabled" }
  identities := (∅ : Table IdentityKey AuthIdentityRow).insert ⟨.localAccount, "ada"⟩
    { userId := 7, passwordHash := some "hash", createdAt := 0 }
  sessions := (∅ : Table String AuthSessionRow).insert "cookie" { userId := 7, csrfDigest := "csrf", expiresAt := 100 }

def signedIn : Presented where
  sessionToken := some "cookie"
  csrfToken := some "csrf"
  workspaceHeader := some "00000000-0000-0000-0000-000000000003"

def uuidThree (raw : String) : Option Uuid := if raw = "00000000-0000-0000-0000-000000000003" then some 3 else none

theorem closed_account_writes :
    resolveWorkspaceCaller plain (asking (idp "" "" "")) uuidThree signedIn true none closedAccount {} =
        .ok { actor := { id := 7, isPlatformAdmin := false }, workspaceId := 3 } ∧
      resolveWorkspaceCaller plain (asking (idp "" "" "")) uuidThree signedIn false none closedAccount {} =
        .error unauthenticated := by
  decide

end Example

end Callers
end TinyHermes.Identity
