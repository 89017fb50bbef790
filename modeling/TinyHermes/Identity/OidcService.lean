import TinyHermes.Identity.AuthService

/-! `identity/application/oidc_service.py` over `SqlOidcProviderStore`: registering a provider, and
the Authorization Code flow from `/start` to the session. -/
namespace TinyHermes.Identity
open Lib Tx
open Runs (Uuid Time seconds)

def loginStateTtl : Int := seconds (10 * 60)

structure Actor where
  id : Uuid
  isPlatformAdmin : Bool
  isServiceAccount : Bool := false
  deriving DecidableEq, Repr

structure OidcLoginResult where
  tokens : SessionTokens
  user : AuthenticatedUser
  deriving DecidableEq, Repr

namespace SqlOidcProviderStore

/-- `uq_oidc_providers_issuer` holds over disabled providers too. -/
def createProvider (providerId : Uuid) (row : OidcProviderRow) : DirectoryTx Unit := do
  let d ← get
  require (d.providers.lookup providerId = none ∧ (d.users.lookup row.createdBy).isSome) .integrity
  require (Table.select (fun _ other => other.issuer = row.issuer) d.providers = []) .integrity
  require (fits 500 row.issuer ∧ fits 255 row.clientId ∧ fits 200 row.clientSecretRef ∧ fits 500 row.discoveryUrl)
    .integrity
  write fun d => { d with providers := d.providers.insert providerId row }

def disableProvider (providerId : Uuid) : DirectoryTx Unit := do
  let _ ← fetch (·.providers.lookup providerId) .unknownOidcProvider
  write fun d =>
    { d with providers := Table.modify providerId (fun row => { row with status := .disabled }) d.providers }

def createLoginState (state : String) (row : OidcLoginStateRow) : DirectoryTx Unit := do
  let d ← get
  require (d.loginStates.lookup state = none ∧ (d.providers.lookup row.providerId).isSome) .integrity
  require (fits 128 state ∧ fits 128 row.nonce ∧ fits 128 row.codeVerifier ∧ fits 500 row.redirectUri) .integrity
  write fun d => { d with loginStates := d.loginStates.insert state row }

/-- The row the `UPDATE` of `consume_login_state` would hit. -/
def redeemable (state : String) (providerId : Uuid) (now : Time) (d : Directory) : Option OidcLoginStateRow :=
  (d.loginStates.lookup state).filter fun row =>
    row.providerId = providerId ∧ row.consumedAt = none ∧ now < row.expiresAt

/-- `UPDATE … SET consumed_at = now … RETURNING`, with the refusal its caller raises on no row. -/
def consumeLoginState (state : String) (providerId : Uuid) (now : Time) : DirectoryTx OidcLoginStateRow := do
  let row ← fetch (redeemable state providerId now) (.oidcLoginRefused "state")
  write fun d =>
    { d with
      loginStates := Table.modify state (fun row => { row with consumedAt := some now }) d.loginStates }
  pure row

end SqlOidcProviderStore

namespace OidcProviderService
open SqlOidcProviderStore AuthService

def requireAdmin (actor : Actor) : DirectoryTx Unit :=
  require (actor.isServiceAccount = false ∧ actor.isPlatformAdmin = true) .forbiddenOidcAction

structure RegisterProvider where
  issuer : String
  clientId : String
  clientSecretRef : String
  discoveryUrl : String
  scopes : List String
  deriving DecidableEq, Repr

def register (actor : Actor) (command : RegisterProvider) (providerId : Uuid) : DirectoryTx Unit := do
  requireAdmin actor
  require (¬ Text.isBlank command.issuer ∧ ¬ Text.isBlank command.clientId ∧ ¬ Text.isBlank command.clientSecretRef)
    (.invalidOidcProvider "issuer, client_id and client_secret_ref are required")
  let discoveryUrl := Text.strip command.discoveryUrl
  require ("http://".toList <+: discoveryUrl.toList ∨ "https://".toList <+: discoveryUrl.toList)
    (.invalidOidcProvider "discovery_url must be an http(s) URL")
  createProvider providerId
    { issuer := Text.strip command.issuer
      clientId := Text.strip command.clientId
      clientSecretRef := Text.strip command.clientSecretRef
      discoveryUrl
      scopes := if command.scopes = [] then ["openid"] else command.scopes
      createdBy := actor.id }

def disable (actor : Actor) (providerId : Uuid) : DirectoryTx Unit := do
  requireAdmin actor
  disableProvider providerId

def activeProvider (providerId : Uuid) (d : Directory) : Option OidcProviderRow :=
  (d.providers.lookup providerId).filter fun row => row.status = .active

/-- `_fetch_discovery`: a document that names another issuer is as good as none. -/
def fetchDiscovery (outside : Outside) (provider : OidcProviderRow) : Except IdentityError DiscoveryDocument :=
  match (outside.fetchDiscovery provider.discoveryUrl).filter fun document => document.issuer = provider.issuer with
  | some document => .ok document
  | none => .error .oidcProviderUnreachable

/-- The secrets `/start` draws. -/
structure LoginSecrets where
  state : String
  nonce : String
  codeVerifier : String
  deriving DecidableEq, Repr

/-- `/start`. What the redirect says is read off the row it leaves. -/
def start (env : Env) (providerId : Uuid) (redirectUri : String) (secrets : LoginSecrets) : DirectoryTx Unit := do
  let provider ← fetch (activeProvider providerId) .oidcProviderNotUsable
  let _ ← lift (fetchDiscovery env.outside provider)
  createLoginState secrets.state
    { providerId, nonce := secrets.nonce, codeVerifier := secrets.codeVerifier, redirectUri,
      expiresAt := env.now + loginStateTtl }

def exchangeCode (outside : Outside) (tokenEndpoint : String) (provider : OidcProviderRow)
    (code redirectUri codeVerifier : String) : Except IdentityError Members :=
  match outside.resolveCredential provider.clientSecretRef with
  | none => .error .oidcProviderUnreachable
  | some clientSecret =>
    match outside.request (.post tokenEndpoint
        [("grant_type", "authorization_code"), ("code", code), ("redirect_uri", redirectUri),
          ("client_id", provider.clientId), ("client_secret", clientSecret), ("code_verifier", codeVerifier)]) with
    | none => .error .oidcProviderUnreachable
    | some response =>
      if response.statusCode ≠ 200 then .error (.oidcLoginRefused "token_exchange")
      else
        match response.members with
        | none => .error (.oidcLoginRefused "token_response")
        | some members => .ok members

/-- The middle of `handle_callback`: from the code to an ID token and the key to check it with. -/
def fetchIdToken (outside : Outside) (provider : OidcProviderRow) (loginState : OidcLoginStateRow) (code : String) :
    Except IdentityError (String × String) := do
  let document ← fetchDiscovery outside provider
  let tokenResponse ←
    exchangeCode outside document.tokenEndpoint provider code loginState.redirectUri loginState.codeVerifier
  match nonEmptyString (tokenResponse.get "id_token") with
  | none => .error (.oidcLoginRefused "token_response")
  | some idToken =>
    match outside.resolveKey document.jwksUri idToken with
    | none => .error (.oidcLoginRefused "key")
    | some key => .ok (idToken, key)

def handleCallback (platform : Platform) (env : Env) (providerId : Uuid) (code state : String) (userId : Uuid)
    (tokens : SessionTokens) : DirectoryTx OidcLoginResult := do
  let provider ← fetch (activeProvider providerId) .oidcProviderNotUsable
  let loginState ← consumeLoginState state providerId env.now
  let (idToken, key) ← lift (fetchIdToken env.outside provider loginState code)
  let verified ←
    lift (verifyIdToken env.outside idToken key provider.issuer provider.clientId loginState.nonce)
  let user ← findOrCreateOidcIdentity env verified.subject (verified.displayName.getD verified.subject) userId
  issueSession platform env user tokens
  pure { tokens, user }

end OidcProviderService
end TinyHermes.Identity
