import TinyHermes.Lib.Text
import TinyHermes.Runs.Models

/-! `identity/domain/oidc.py` and what of an identity provider reaches it: the discovery document, the token response, and the
claims `jwt.decode` vouches for. -/
namespace TinyHermes.Identity
open Lib

/-- A decoded JSON value; numbers are only ever passed over. -/
inductive Json where
  | null
  | bool (b : Bool)
  | num (digits : String)
  | str (s : String)
  | arr (items : List Json)
  | obj (members : List (String × Json))

/-- `dict.get` on a decoded object. -/
abbrev Members := List (String × Json)

def Members.get (members : Members) (key : String) : Option Json := List.lookup key members

/-- `isinstance(value, str)`. -/
def asString : Option Json → Option String
  | some (.str s) => some s
  | _ => none

/-- `isinstance(value, str) and value`. -/
def nonEmptyString (value : Option Json) : Option String := (asString value).filter fun s => !s.isEmpty

/-- `isinstance(value, str) and value.strip()`, and the stripped text. -/
def strippedString (value : Option Json) : Option String :=
  ((asString value).filter fun s => !Text.isBlank s).map Text.strip

inductive IdentityError where
  | bootstrapClosed | invalidBootstrapToken | invalidCredentials
  | forbiddenOidcAction | unknownOidcProvider
  | invalidOidcProvider (reason : String)
  | oidcProviderNotUsable | oidcProviderUnreachable
  | oidcLoginRefused (reason : String)
  /-- `hmac.compare_digest` on a text that is not ASCII. -/
  | typeError
  /-- A constraint or a column width of the database. -/
  | integrity
  deriving DecidableEq, Repr

/-- `hmac.compare_digest` on two `str`s. -/
def compareDigest (a b : String) : Except IdentityError Bool :=
  if a.toList.all (·.toNat < 128) && b.toList.all (·.toNat < 128) then .ok (a == b) else .error .typeError

structure DiscoveryDocument where
  issuer : String
  authorizationEndpoint : String
  tokenEndpoint : String
  jwksUri : String
  deriving DecidableEq, Repr

/-- `_document`. -/
def DiscoveryDocument.ofBody (body : Members) : Option DiscoveryDocument := do
  let issuer ← nonEmptyString (body.get "issuer")
  let authorizationEndpoint ← nonEmptyString (body.get "authorization_endpoint")
  let tokenEndpoint ← nonEmptyString (body.get "token_endpoint")
  let jwksUri ← nonEmptyString (body.get "jwks_uri")
  some { issuer, authorizationEndpoint, tokenEndpoint, jwksUri }

/-- What came back over HTTP; `json` is `none` when the body does not parse. -/
structure Response where
  statusCode : Nat
  json : Option Json

def Response.members (response : Response) : Option Members :=
  match response.json with
  | some (.obj members) => some members
  | _ => none

inductive Request where
  | get (url : String)
  | post (url : String) (data : List (String × String))

/-- Everything outside the process that a login asks, as it answers during one request. -/
structure Outside where
  /-- `SafeOutboundClient.request`; `none` is an `OutboundError`. -/
  request : Request → Option Response
  /-- `CredentialResolver.resolve`; `none` is `CredentialMissing`. -/
  resolveCredential : (ref : String) → Option String
  /-- `OutboundJwksKeySource.resolve` on a JWKS URL, its cache included. -/
  resolveKey : (jwksUrl token : String) → Option String
  /-- `jwt.decode` under the fixed algorithms and required claims; `none` is a `PyJWTError`. -/
  jwtDecode : (idToken keyPem issuer audience : String) → Option Members

/-- `OutboundDiscoveryFetcher.fetch`. -/
def Outside.fetchDiscovery (outside : Outside) (discoveryUrl : String) : Option DiscoveryDocument := do
  let response ← outside.request (.get discoveryUrl)
  if response.statusCode ≠ 200 then none
  else DiscoveryDocument.ofBody (← response.members)

structure VerifiedOidcLogin where
  subject : String
  displayName : Option String
  deriving DecidableEq, Repr

/-- `_display_name`: the first of `name` and `email` that says anything. -/
def displayName (claims : Members) : Option String :=
  ["name", "email"].findSome? fun key => strippedString (claims.get key)

def verifyIdToken (outside : Outside) (idToken keyPem issuer clientId nonce : String) :
    Except IdentityError VerifiedOidcLogin :=
  match outside.jwtDecode idToken keyPem issuer clientId with
  | none => .error (.oidcLoginRefused "claims")
  | some claims =>
    match strippedString (claims.get "sub") with
    | none => .error (.oidcLoginRefused "claims")
    | some subject =>
      match asString (claims.get "nonce") with
      | none => .error (.oidcLoginRefused "nonce")
      | some tokenNonce => do
        if ← compareDigest tokenNonce nonce then .ok { subject, displayName := displayName claims }
        else .error (.oidcLoginRefused "nonce")

/-- A verified login carries the token's own `sub`, trimmed. -/
theorem verifyIdToken_subject {outside : Outside} {idToken keyPem issuer clientId nonce : String}
    {login : VerifiedOidcLogin} (h : verifyIdToken outside idToken keyPem issuer clientId nonce = .ok login) :
    ∃ claims sub, outside.jwtDecode idToken keyPem issuer clientId = some claims ∧
      asString (claims.get "sub") = some sub ∧ login.subject = Text.strip sub := by
  unfold verifyIdToken at h
  cases hc : outside.jwtDecode idToken keyPem issuer clientId with
  | none => simp [hc] at h
  | some claims =>
    cases hs : strippedString (claims.get "sub") with
    | none => simp [hc, hs] at h
    | some =>
      obtain ⟨sub, hsub, rfl⟩ := Option.map_eq_some_iff.mp hs
      have hsub := (Option.filter_eq_some_iff.mp hsub).1
      refine ⟨claims, sub, rfl, hsub, ?_⟩
      cases hn : asString (claims.get "nonce") with
      | none => simp [hc, hs, hn] at h
      | some tokenNonce =>
        simp only [hc, hs, hn] at h
        cases hd : compareDigest tokenNonce nonce with
        | error => simp [hd, bind, Except.bind] at h
        | ok same =>
          cases same with
          | false => simp [hd, bind, Except.bind] at h
          | true =>
            simp only [hd, bind, Except.bind, if_true, Except.ok.injEq] at h
            rw [← h]

end TinyHermes.Identity
