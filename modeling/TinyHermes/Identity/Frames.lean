import TinyHermes.Identity.Transactions

/-! What a request leaves alone. Every request is made of a few kinds of writes, so a relation that
these writes respect is one the request respects. -/
namespace TinyHermes.Identity
open Lib Tx SqlAuthStore SqlOidcProviderStore AuthService OidcProviderService
open Runs (Uuid Time)

/-- The writes that sign-ups, sessions, providers and the start of a login are made of. -/
structure Frames (R : Directory → Directory → Prop) : Prop where
  people : ∀ d users identities, R d { d with users, identities }
  sessions : ∀ d sessions, R d { d with sessions }
  providers : ∀ d providers, R d { d with providers }
  started : ∀ d state row, d.loginStates.lookup state = none →
    R d { d with loginStates := d.loginStates.insert state row }

def Op.countsFailures : Op → Bool
  | .login .. | .deleteStaleLoginFailures .. => true
  | _ => false

def Op.redeemsState : Op → Bool
  | .callback .. => true
  | _ => false

section Within
variable {R : Directory → Directory → Prop} [Std.Refl R] [IsTrans Directory R] {platform : Platform}

theorem createUser_within (hR : Frames R) (env : Env) (userId : Uuid) (user : UserRow) (key : IdentityKey)
    (hash : Option String) : Within R (createUser env userId user key hash) := by
  refine .bind .get fun d => .bind (.require _ _) fun _ => .bind (.require _ _) fun _ => .bind (.write fun d => ?_) fun _ => ?_
  · exact hR.people d _ _
  · exact .pure _

theorem issueSession_within (hR : Frames R) (env : Env) (user : AuthenticatedUser) (tokens : SessionTokens) :
    Within R (issueSession platform env user tokens) := by
  refine .bind .get fun d => .bind (.require _ _) fun _ => .write fun d => ?_
  exact hR.sessions d _

theorem bootstrap_within (hR : Frames R) (env : Env) (token : String) (command : NewLocalUser) (userId : Uuid) :
    Within R (bootstrap platform env token command userId) := by
  refine .bind (.lift _) fun same => .bind (.require _ _) fun _ => .bind .get fun d => .bind (.require _ _) fun _ => ?_
  exact createUser_within hR _ _ _ _ _

theorem login_within (hR : Frames R) (hfailures : ∀ d failures, R d { d with failures }) (env : Env)
    (subject password : String) (tokens : SessionTokens) : Within R (login platform env subject password tokens) := by
  have hverify (key : String) (d : Directory) : Within R (login.verify platform env subject password tokens key d) := by
    unfold login.verify
    split
    · refine .bind (.write fun d => hfailures d _) fun _ => .bind (issueSession_within hR _ _ _) fun _ => ?_
      exact .pure _
    · refine .bind (.write fun d => hfailures d _) fun _ => ?_
      exact .pure _
  refine .bind .get fun d => ?_
  dsimp only
  split
  · apply Within.ite
    · exact fun _ => .pure _
    · exact fun _ => hverify _ d
  · exact hverify _ d

theorem logout_within (hR : Frames R) (env : Env) (token csrfToken : String) :
    Within R (logout platform env token csrfToken) := by
  refine .bind .get fun d => .bind (.lift _) fun _ => .onlyIf fun _ => .write fun d => ?_
  exact hR.sessions d _

theorem register_within (hR : Frames R) (actor : Actor) (command : RegisterProvider) (providerId : Uuid) :
    Within R (register actor command providerId) := by
  refine .bind (.require _ _) fun _ => .bind (.require _ _) fun _ => .bind (.require _ _) fun _ => ?_
  refine .bind .get fun d => .bind (.require _ _) fun _ => .bind (.require _ _) fun _ => .bind (.require _ _) fun _ => ?_
  exact .write fun d => hR.providers d _

theorem disable_within (hR : Frames R) (actor : Actor) (providerId : Uuid) : Within R (disable actor providerId) := by
  refine .bind (.require _ _) fun _ => .bind (.fetch _ _) fun _ => .write fun d => ?_
  exact hR.providers d _

theorem start_within (hR : Frames R) (env : Env) (providerId : Uuid) (redirectUri : String) (secrets : LoginSecrets) :
    Within R (start env providerId redirectUri secrets) := by
  refine .bind (.fetch _ _) fun _ => .bind (.lift _) fun _ => ?_
  intro d _ _ h
  rw [createLoginState, get_bind] at h
  obtain ⟨⟨hfresh, _⟩, h⟩ := require_bind_ok.mp h
  obtain ⟨_, h⟩ := require_bind_ok.mp h
  rw [write_ok.mp h]
  exact hR.started d _ _ hfresh

theorem findOrCreate_within (hR : Frames R) (env : Env) (subject displayName : String) (userId : Uuid) :
    Within R (findOrCreateOidcIdentity env subject displayName userId) := by
  refine .bind .get fun d => ?_
  split
  · exact .pure _
  · exact createUser_within hR _ _ _ _ _

/-- `handle_callback` once the state is taken. -/
def redeem (platform : Platform) (env : Env) (provider : OidcProviderRow) (loginState : OidcLoginStateRow) (code : String)
    (userId : Uuid) (tokens : SessionTokens) : DirectoryTx OidcLoginResult := do
  let (idToken, key) ← lift (fetchIdToken env.outside provider loginState code)
  let verified ←
    lift (verifyIdToken env.outside idToken key provider.issuer provider.clientId loginState.nonce)
  let user ← findOrCreateOidcIdentity env verified.subject (verified.displayName.getD verified.subject) userId
  issueSession platform env user tokens
  pure { tokens, user }

theorem handleCallback_eq (env : Env) (providerId : Uuid) (code state : String) (userId : Uuid) (tokens : SessionTokens) :
    handleCallback platform env providerId code state userId tokens = (do
      let provider ← fetch (activeProvider providerId) .oidcProviderNotUsable
      let loginState ← consumeLoginState state providerId env.now
      redeem platform env provider loginState code userId tokens) := rfl

theorem redeem_within (hR : Frames R) (env : Env) (provider : OidcProviderRow) (loginState : OidcLoginStateRow)
    (code : String) (userId : Uuid) (tokens : SessionTokens) :
    Within R (redeem platform env provider loginState code userId tokens) := by
  refine .bind (.lift _) fun _ => .bind (.lift _) fun _ => .bind (findOrCreate_within hR _ _ _ _) fun _ => ?_
  exact .bind (issueSession_within hR _ _ _) fun _ => .pure _

theorem exec_within (hR : Frames R) (env : Env) (op : Op)
    (hfailures : op.countsFailures = true → ∀ d failures, R d { d with failures })
    (hredeem : op.redeemsState = true → ∀ d loginStates, R d { d with loginStates }) :
    Within R (exec platform env op) := by
  cases op with
  | bootstrap => exact .bind (bootstrap_within hR _ _ _ _) fun _ => .pure _
  | login => exact .bind (login_within hR (hfailures rfl) _ _ _ _) fun _ => .pure _
  | logout => exact .bind (logout_within hR _ _ _) fun _ => .pure _
  | deleteStaleLoginFailures => exact .bind (.write fun d => hfailures rfl d _) fun _ => .pure _
  | register => exact .bind (register_within hR _ _ _) fun _ => .pure _
  | disable => exact .bind (disable_within hR _ _) fun _ => .pure _
  | start => exact .bind (start_within hR _ _ _ _) fun _ => .pure _
  | callback =>
    refine .bind ?_ fun _ => .pure _
    rw [handleCallback_eq]
    refine .bind (.fetch _ _) fun provider => .bind ?_ fun loginState => redeem_within hR _ _ _ _ _ _
    refine .bind (.fetch _ _) fun _ => .bind (.write fun d => hredeem rfl d _) fun _ => .pure _

end Within

end TinyHermes.Identity
