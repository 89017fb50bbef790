import TinyHermes.Identity.OidcService
import TinyHermes.Lib.Execution

/-! Every transaction that signs people in, and the runs they make up. -/
namespace TinyHermes.Identity
open Lib
open Runs (Uuid Time)

inductive Op where
  | bootstrap (presentedToken : String) (command : AuthService.NewLocalUser) (userId : Uuid)
  | login (subject password : String) (tokens : SessionTokens)
  | logout (token csrfToken : String)
  | deleteStaleLoginFailures (before : Time)
  | register (actor : Actor) (command : OidcProviderService.RegisterProvider) (providerId : Uuid)
  | disable (actor : Actor) (providerId : Uuid)
  | start (providerId : Uuid) (redirectUri : String) (secrets : OidcProviderService.LoginSecrets)
  /-- `userId` is the id a new User would be given. -/
  | callback (providerId : Uuid) (code state : String) (userId : Uuid) (tokens : SessionTokens)

inductive Answer where
  | done
  | bootstrapped (user : AuthenticatedUser)
  | attempted (outcome : AuthService.LoginOutcome)
  | signedIn (result : OidcLoginResult)
  deriving DecidableEq, Repr

def exec (platform : Platform) (env : Env) : Op → DirectoryTx Answer
  | .bootstrap presentedToken command userId => do
    pure (.bootstrapped (← AuthService.bootstrap platform env presentedToken command userId))
  | .login subject password tokens => do
    pure (.attempted (← AuthService.login platform env subject password tokens))
  | .logout token csrfToken => do AuthService.logout platform env token csrfToken; pure .done
  | .deleteStaleLoginFailures before => do SqlAuthStore.deleteStaleLoginFailures before; pure .done
  | .register actor command providerId => do OidcProviderService.register actor command providerId; pure .done
  | .disable actor providerId => do OidcProviderService.disable actor providerId; pure .done
  | .start providerId redirectUri secrets => do
    OidcProviderService.start env providerId redirectUri secrets; pure .done
  | .callback providerId code state userId tokens => do
    pure (.signedIn (← OidcProviderService.handleCallback platform env providerId code state userId tokens))

/-- A committed request. One that raises rolls back, and is no step at all. -/
def Step (platform : Platform) (d : Directory) (i : Env × Op) (a : Answer) (d' : Directory) : Prop :=
  exec platform i.1 i.2 d = .ok (a, d')

abbrev History := List (Commit Directory (Env × Op) Answer)

abbrev Executes (platform : Platform) (log : History) (d : Directory) : Prop := Execution (Step platform) {} log d

def attempt (platform : Platform) (inputs : List (Env × Op)) : History × Directory :=
  replay (fun d i => (exec platform i.1 i.2 d).toOption) {} inputs

theorem attempt_executes (platform : Platform) (inputs : List (Env × Op)) :
    Executes platform (attempt platform inputs).1 (attempt platform inputs).2 := by
  apply replay_execution
  intro _ _ _ _ h
  exact Tx.ok_of_toOption h

section Example

def plain : Platform where
  bootstrapToken := "bootstrap"
  sessionTtlSeconds := 3600
  lower s := s
  sha256 s := s
  verifyPassword password hash := password == hash

/-- An identity provider that signs `sub` for whoever asks, under the nonce it was sent. -/
def idp (issuer sub nonce : String) : Outside where
  request
    | .get _ => some
        { statusCode := 200
          json := some (.obj [("issuer", .str issuer), ("authorization_endpoint", .str "authorize"),
            ("token_endpoint", .str "token"), ("jwks_uri", .str "jwks")]) }
    | .post _ _ => some { statusCode := 200, json := some (.obj [("id_token", .str "signed")]) }
  resolveCredential _ := some "secret"
  resolveKey _ _ := some "key"
  jwtDecode _ _ expected audience :=
    if expected = issuer then
      some [("iss", .str issuer), ("sub", .str sub), ("aud", .str audience), ("exp", .num "9999999999"),
        ("nonce", .str nonce)]
    else none

def asking (outside : Outside) : Env := { now := 0, hashPassword := fun s => s, outside }

def registering (providerId : Uuid) (issuer : String) : Env × Op :=
  (asking (idp issuer "" ""), .register { id := 1, isPlatformAdmin := true }
    { issuer, clientId := "hermes", clientSecretRef := "SECRET", discoveryUrl := "https://idp", scopes := [] } providerId)

end Example

end TinyHermes.Identity
