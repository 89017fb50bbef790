import TinyHermes.Identity.Transactions
import TinyHermes.Lib.Naming

/-! Which User an OIDC login ends in. -/
namespace TinyHermes.Identity
open Lib Tx SqlAuthStore SqlOidcProviderStore AuthService OidcProviderService
open Runs (Uuid)
variable {platform : Platform} {d d' : Directory}

def naming (d : Directory) : Naming IdentityKey Uuid where
  name key := (d.identities.lookup key).map (·.userId)
  used := {u | d.users.lookup u ≠ none}

def Enrolling (d d' : Directory) : Prop := (naming d).WellNamed → (naming d).Enrols (naming d')

instance : Std.Refl Enrolling := ⟨fun d _ => .refl (naming d)⟩

instance : IsTrans Directory Enrolling where
  trans _ _ _ h₁ h₂ hd := (h₁ hd).trans (h₂ (hd.enrols (h₁ hd)))

/-- A write that leaves `users` and `auth_identities` alone. -/
theorem write_enrols {f : Directory → Directory} (h : ∀ d, naming (f d) = naming d) :
    Within Enrolling (write f : DirectoryTx Unit) := by
  apply Within.write
  intro d _
  rw [h d]
  exact .refl (naming d)

theorem createUser_spec {env : Env} {userId : Uuid} {user : UserRow} {key : IdentityKey} {hash : Option String}
    {u : AuthenticatedUser} (h : createUser env userId user key hash d = .ok (u, d')) :
    Enrolling d d' ∧ (naming d').name key = some u.id := by
  rw [createUser, get_bind] at h
  obtain ⟨⟨huser, hkey⟩, h⟩ := require_bind_ok.mp h
  obtain ⟨_, h⟩ := require_bind_ok.mp h
  obtain ⟨rfl, rfl⟩ := pure_ok.mp h
  have hname : (naming { d with
      users := d.users.insert userId user
      identities := d.identities.insert key ⟨userId, hash, env.now⟩ }).name key = some userId := by
    simp [naming]
  refine ⟨fun hwell => ?_, hname⟩
  apply Naming.Enrols.enrol (k := key) (u := userId)
  · simpa [naming] using huser
  · exact hwell
  · intro _ hne
    simp only [naming, AList.lookup_insert_ne hne]
  · exact hname
  · simp [naming, hkey]
  · simp [naming]
  · intro u hu
    by_cases hne : u = userId
    · subst hne
      exact absurd huser hu
    · simpa only [naming, Set.mem_ofPred_eq, AList.lookup_insert_ne hne] using hu

theorem createUser_enrols (env : Env) (userId : Uuid) (user : UserRow) (key : IdentityKey) (hash : Option String) :
    Within Enrolling (createUser env userId user key hash) :=
  fun _ _ _ h => (createUser_spec h).1

theorem issueSession_enrols (env : Env) (user : AuthenticatedUser) (tokens : SessionTokens) :
    Within Enrolling (issueSession platform env user tokens) := by
  refine .bind .get fun d => .bind (.require _ _) fun _ => ?_
  exact write_enrols fun _ => rfl

theorem bootstrap_enrols (env : Env) (token : String) (command : NewLocalUser) (userId : Uuid) :
    Within Enrolling (bootstrap platform env token command userId) := by
  refine .bind (.lift _) fun same => .bind (.require _ _) fun _ => .bind .get fun d => .bind (.require _ _) fun _ => ?_
  exact createUser_enrols _ _ _ _ _

theorem login_enrols (env : Env) (subject password : String) (tokens : SessionTokens) :
    Within Enrolling (login platform env subject password tokens) := by
  have hverify (key : String) (d : Directory) :
      Within Enrolling (login.verify platform env subject password tokens key d) := by
    unfold login.verify
    split
    · refine .bind (write_enrols fun _ => rfl) fun _ => .bind (issueSession_enrols _ _ _) fun _ => ?_
      exact .pure _
    · refine .bind (write_enrols fun _ => rfl) fun _ => ?_
      exact .pure _
  refine .bind .get fun d => ?_
  dsimp only
  split
  · apply Within.ite
    · exact fun _ => .pure _
    · exact fun _ => hverify _ d
  · exact hverify _ d

theorem logout_enrols (env : Env) (token csrfToken : String) :
    Within Enrolling (logout platform env token csrfToken) := by
  refine .bind .get fun d => .bind (.lift _) fun _ => .onlyIf fun _ => ?_
  exact write_enrols fun _ => rfl

theorem register_enrols (actor : Actor) (command : RegisterProvider) (providerId : Uuid) :
    Within Enrolling (register actor command providerId) := by
  refine .bind (.require _ _) fun _ => .bind (.require _ _) fun _ => .bind (.require _ _) fun _ => ?_
  refine .bind .get fun d => .bind (.require _ _) fun _ => .bind (.require _ _) fun _ => .bind (.require _ _) fun _ => ?_
  exact write_enrols fun _ => rfl

theorem disable_enrols (actor : Actor) (providerId : Uuid) : Within Enrolling (disable actor providerId) := by
  refine .bind (.require _ _) fun _ => .bind (.fetch _ _) fun _ => ?_
  exact write_enrols fun _ => rfl

theorem start_enrols (env : Env) (providerId : Uuid) (redirectUri : String) (secrets : LoginSecrets) :
    Within Enrolling (start env providerId redirectUri secrets) := by
  refine .bind (.fetch _ _) fun _ => .bind (.lift _) fun _ => .bind .get fun d => ?_
  refine .bind (.require _ _) fun _ => .bind (.require _ _) fun _ => ?_
  exact write_enrols fun _ => rfl

/-- The User that a `sub` names afterwards is the one handed back. -/
theorem findOrCreate_spec {env : Env} {subject displayName : String} {userId : Uuid} {u : AuthenticatedUser}
    (h : findOrCreateOidcIdentity env subject displayName userId d = .ok (u, d')) :
    Enrolling d d' ∧ (naming d').name ⟨.oidc, subject⟩ = some u.id := by
  rw [findOrCreateOidcIdentity, get_bind] at h
  cases hfound : findOidcIdentity subject d with
  | none =>
    rw [hfound] at h
    exact createUser_spec h
  | some =>
    rw [hfound] at h
    obtain ⟨rfl, rfl⟩ := pure_ok.mp h
    obtain ⟨_, hrow, hrest⟩ := Option.bind_eq_some_iff.mp hfound
    obtain ⟨_, _, hstored⟩ := Option.bind_eq_some_iff.mp hrest
    cases hstored
    refine ⟨refl d, ?_⟩
    simp [naming, hrow, toUser]

theorem consumeLoginState_spec {state : String} {providerId : Uuid} {now : Runs.Time} {row : OidcLoginStateRow}
    (h : consumeLoginState state providerId now d = .ok (row, d')) :
    redeemable state providerId now d = some row ∧ naming d' = naming d := by
  obtain ⟨_, hrow, h⟩ := fetch_bind_ok.mp h
  obtain ⟨rfl, rfl⟩ := pure_ok.mp h
  exact ⟨hrow, rfl⟩

theorem issueSession_spec {env : Env} {user : AuthenticatedUser} {tokens : SessionTokens} {u : Unit}
    (h : issueSession platform env user tokens d = .ok (u, d')) :
    naming d' = naming d ∧ ∃ row, d'.sessions.lookup (platform.sha256 tokens.sessionToken) = some row ∧
      row.userId = user.id := by
  rw [issueSession, createSession, get_bind] at h
  obtain ⟨_, h⟩ := require_bind_ok.mp h
  rw [write_ok.mp h]
  exact ⟨rfl, _, AList.lookup_insert _, rfl⟩

/-- The issuer and the `sub` claim that a callback is about to present, as the provider signs them. -/
def presented (env : Env) (providerId : Uuid) (code state : String) (d : Directory) : Option (String × String) := do
  let provider ← activeProvider providerId d
  let loginState ← redeemable state providerId env.now d
  let (idToken, key) ← (fetchIdToken env.outside provider loginState code).toOption
  let claims ← env.outside.jwtDecode idToken key provider.issuer provider.clientId
  let sub ← asString (claims.get "sub")
  some (provider.issuer, sub)

theorem handleCallback_spec {env : Env} {providerId userId : Uuid} {code state : String} {tokens : SessionTokens}
    {result : OidcLoginResult} (h : handleCallback platform env providerId code state userId tokens d = .ok (result, d')) :
    Enrolling d d' ∧ ∃ issuer sub row, presented env providerId code state d = some (issuer, sub) ∧
      d'.sessions.lookup (platform.sha256 result.tokens.sessionToken) = some row ∧
      (naming d').name ⟨.oidc, Text.strip sub⟩ = some row.userId := by
  obtain ⟨provider, hprovider, h⟩ := fetch_bind_ok.mp h
  obtain ⟨_, _, hconsume, h⟩ := bind_ok.mp h
  obtain ⟨hstate, hsame₁⟩ := consumeLoginState_spec hconsume
  obtain ⟨⟨_, _⟩, htoken, h⟩ := lift_bind_ok.mp h
  obtain ⟨_, hverified, h⟩ := lift_bind_ok.mp h
  obtain ⟨_, _, hfind, h⟩ := bind_ok.mp h
  obtain ⟨_, _, hissue, h⟩ := bind_ok.mp h
  obtain ⟨rfl, rfl⟩ := pure_ok.mp h
  obtain ⟨_, sub, hclaims, hsub, hsubject⟩ := verifyIdToken_subject hverified
  obtain ⟨henrols, hname⟩ := findOrCreate_spec hfind
  obtain ⟨hsame₃, row, hrow, huser⟩ := issueSession_spec hissue
  constructor
  · unfold Enrolling at henrols ⊢
    rw [hsame₃, ← hsame₁]
    exact henrols
  · refine ⟨provider.issuer, sub, row, ?_, hrow, ?_⟩
    · simp [presented, hprovider, hstate, htoken, hclaims, hsub, Except.toOption]
    · rw [hsame₃, huser, ← hsubject]
      exact hname

theorem exec_enrols (env : Env) (op : Op) : Within Enrolling (exec platform env op) := by
  cases op with
  | bootstrap => exact .bind (bootstrap_enrols _ _ _ _) fun _ => .pure _
  | login => exact .bind (login_enrols _ _ _ _) fun _ => .pure _
  | logout => exact .bind (logout_enrols _ _ _) fun _ => .pure _
  | deleteStaleLoginFailures => exact .bind (write_enrols fun _ => rfl) fun _ => .pure _
  | register => exact .bind (register_enrols _ _ _) fun _ => .pure _
  | disable => exact .bind (disable_enrols _ _) fun _ => .pure _
  | start => exact .bind (start_enrols _ _ _ _) fun _ => .pure _
  | callback =>
    exact .bind (fun _ _ _ h => (handleCallback_spec h).1) fun _ => .pure _

theorem naming_empty : (naming {}).WellNamed where
  used _ _ h := by simp [naming] at h
  apart _ _ _ h := by simp [naming] at h

theorem executes_wellNamed {log : History} (h : Executes platform log d) : (naming d).WellNamed :=
  h.invariant (I := fun d => (naming d).WellNamed) naming_empty fun _ i _ _ hs hd => hd.enrols (exec_enrols i.1 i.2 hs hd)

variable {c : Commit Directory (Env × Op) Answer}

theorem executes_keeps {log : History} (h : Executes platform log d)
    (hc : c ∈ log) {key : IdentityKey} {u : Uuid} (hu : (naming c.after).name key = some u) :
    (naming d).name key = some u := by
  obtain ⟨_, _, rfl⟩ := List.append_of_mem hc
  obtain ⟨hbefore, hstep, hafter⟩ := h.split
  have hwell := executes_wellNamed (.snoc hbefore hstep)
  have hgrown : (naming d).WellNamed ∧ (naming d).name key = some u := by
    refine hafter.invariant (I := fun d => (naming d).WellNamed ∧ (naming d).name key = some u) ⟨hwell, hu⟩ ?_
    intro s i a s' hs ⟨hs₁, hs₂⟩
    have hgrows := exec_enrols i.1 i.2 hs hs₁
    exact ⟨hs₁.enrols hgrows, hgrows.keeps key u hs₂⟩
  exact hgrown.2

/-- A successful callback: what the provider signed, and whose session came of it. -/
structure Login where
  issuer : String
  sub : String
  user : Uuid
  deriving DecidableEq, Repr

def loginOf (platform : Platform) (c : Commit Directory (Env × Op) Answer) : Option Login :=
  match c.input, c.answer with
  | (env, .callback providerId code state _ _), .signedIn result => do
    let (issuer, sub) ← presented env providerId code state c.before
    let session ← c.after.sessions.lookup (platform.sha256 result.tokens.sessionToken)
    some { issuer, sub, user := session.userId }
  | _, _ => none

def logins (platform : Platform) (log : History) : List Login := log.filterMap (loginOf platform)

theorem callback_of_signedIn {env : Env} {op : Op} {result : OidcLoginResult}
    (h : exec platform env op d = .ok (.signedIn result, d')) :
    ∃ providerId code state userId tokens, op = .callback providerId code state userId tokens ∧
      handleCallback platform env providerId code state userId tokens d = .ok (result, d') := by
  cases op with
  | callback providerId code state userId tokens =>
    obtain ⟨_, _, hcall, h⟩ := bind_ok.mp h
    obtain ⟨hanswer, rfl⟩ := pure_ok.mp h
    obtain rfl := Answer.signedIn.inj hanswer
    exact ⟨providerId, code, state, userId, tokens, rfl, hcall⟩
  | _ =>
    obtain ⟨_, _, _, h⟩ := bind_ok.mp h
    cases (pure_ok.mp h).1

theorem signedIn_login {result : OidcLoginResult}
    (h : Step platform c.before c.input c.answer c.after) (ha : c.answer = .signedIn result) :
    ∃ l, loginOf platform c = some l ∧ (naming c.after).name ⟨.oidc, Text.strip l.sub⟩ = some l.user := by
  obtain ⟨_, ⟨_, _⟩, _, _⟩ := c
  subst ha
  obtain ⟨_, _, _, userId, _, rfl, hcall⟩ := callback_of_signedIn h
  obtain ⟨_, issuer, sub, row, hpresented, hrow, hname⟩ := handleCallback_spec hcall
  refine ⟨⟨issuer, sub, row.userId⟩, ?_, hname⟩
  simp [loginOf, hpresented, hrow]

theorem answer_of_loginOf {l : Login} (h : loginOf platform c = some l) :
    ∃ result, c.answer = .signedIn result := by
  unfold loginOf at h
  split at h
  · next result _ hanswer => exact ⟨result, hanswer⟩
  · cases h

/-- At the end of a run, each login's `sub` still names the User it signed in. -/
theorem logins_named {log : History} (h : Executes platform log d) {l : Login} (hl : l ∈ logins platform log) :
    (naming d).name ⟨.oidc, Text.strip l.sub⟩ = some l.user := by
  obtain ⟨_, hc, hcl⟩ := List.mem_filterMap.mp hl
  obtain ⟨_, _, rfl⟩ := List.append_of_mem hc
  obtain ⟨_, hstep, _⟩ := h.split
  obtain ⟨_, hanswer⟩ := answer_of_loginOf hcl
  obtain ⟨l', hl', hname⟩ := signedIn_login hstep hanswer
  obtain rfl : l' = l := Option.some.inj (hl'.symm.trans hcl)
  exact executes_keeps h hc hname

theorem same_user_iff {log : History} (h : Executes platform log d) {l l' : Login} (hl : l ∈ logins platform log)
    (hl' : l' ∈ logins platform log) : l.user = l'.user ↔ Text.strip l.sub = Text.strip l'.sub := by
  have hsame := (executes_wellNamed h).same_name_iff (logins_named h hl) (logins_named h hl')
  rw [hsame, IdentityKey.mk.injEq]
  simp

def HasLocalIdentity (d : Directory) (u : Uuid) : Prop :=
  ∃ subject row, d.identities.lookup ⟨.localAccount, subject⟩ = some row ∧ row.userId = u

theorem login_not_local {log : History} (h : Executes platform log d) {l : Login} (hl : l ∈ logins platform log) :
    ¬ HasLocalIdentity d l.user := by
  rintro ⟨subject, _, hrow, huser⟩
  have hname : (naming d).name ⟨.localAccount, subject⟩ = some l.user := by
    simp [naming, hrow, huser]
  have hkeys := (executes_wellNamed h).apart _ _ _ hname (logins_named h hl)
  cases hkeys

structure NamesPeople (platform : Platform) (log : History) (d : Directory) : Prop where
  /-- Every callback that succeeded is one of the logins below. -/
  complete : ∀ c ∈ log, ∀ result, c.answer = .signedIn result → ∃ l, loginOf platform c = some l
  samePerson : ∀ l ∈ logins platform log, ∀ l' ∈ logins platform log,
    (l.user = l'.user ↔ l.issuer = l'.issuer ∧ l.sub = l'.sub)
  notLocal : ∀ l ∈ logins platform log, ¬ HasLocalIdentity d l.user

/-- No two logins trim to one subject unless one issuer signed one `sub` for both. -/
def SubjectsApart (ls : List Login) : Prop :=
  ∀ l ∈ ls, ∀ l' ∈ ls, Text.strip l.sub = Text.strip l'.sub → l.issuer = l'.issuer ∧ l.sub = l'.sub

instance (ls : List Login) : Decidable (SubjectsApart ls) := by unfold SubjectsApart; infer_instance

theorem names_people_iff {log : History} (h : Executes platform log d) :
    NamesPeople platform log d ↔ SubjectsApart (logins platform log) := by
  constructor
  · intro hnames l hl l' hl' hsub
    exact (hnames.samePerson l hl l' hl').mp ((same_user_iff h hl hl').mpr hsub)
  · intro hapart
    refine ⟨?_, ?_, fun l hl => login_not_local h hl⟩
    · intro _ hc _ hanswer
      obtain ⟨_, _, rfl⟩ := List.append_of_mem hc
      obtain ⟨_, hstep, _⟩ := h.split
      obtain ⟨l, hl, _⟩ := signedIn_login hstep hanswer
      exact ⟨l, hl⟩
    · intro l hl l' hl'
      rw [same_user_iff h hl hl']
      constructor
      · exact hapart l hl l' hl'
      · rintro ⟨_, hsub⟩
        rw [hsub]

section Example

/-- One person signs in: `/start`, then the callback with their `sub`. -/
def signingIn (providerId : Uuid) (issuer sub state : String) (userId : Uuid) : List (Env × Op) :=
  [(asking (idp issuer sub state), .start providerId "callback" { state, nonce := state, codeVerifier := "verifier" }),
    (asking (idp issuer sub state), .callback providerId "code" state userId { sessionToken := state, csrfToken := state })]

def twoProviders (sub sub' : String) : List (Env × Op) :=
  [(asking (idp "" "" ""), .bootstrap "bootstrap" { subject := "root", displayName := "Root", password := "pw" } 1),
    registering 10 "https://a", registering 11 "https://b"] ++
  signingIn 10 "https://a" sub "first" 20 ++ signingIn 11 "https://b" sub' "second" 21

/-- Two providers, two people, each under a `sub` of their own. -/
theorem two_people_named :
    logins plain (attempt plain (twoProviders "ada" "bob")).1 =
        [⟨"https://a", "ada", 20⟩, ⟨"https://b", "bob", 21⟩] ∧
      NamesPeople plain (attempt plain (twoProviders "ada" "bob")).1 (attempt plain (twoProviders "ada" "bob")).2 :=
  ⟨by decide, (names_people_iff (attempt_executes plain (twoProviders "ada" "bob"))).mpr (by decide)⟩

/-- Both providers sign `42`, each for a person of its own, and both sessions are User 20's. -/
theorem one_sub_two_issuers :
    ¬ ∀ platform log d, Executes platform log d → NamesPeople platform log d := by
  intro hall
  have hnames := hall plain _ _ (attempt_executes plain (twoProviders "42" "42"))
  have hlogins : logins plain (attempt plain (twoProviders "42" "42")).1 =
      [⟨"https://a", "42", 20⟩, ⟨"https://b", "42", 20⟩] := by decide
  have hsame := hnames.samePerson ⟨"https://a", "42", 20⟩ (by simp [hlogins]) ⟨"https://b", "42", 20⟩ (by simp [hlogins])
  exact absurd (hsame.mp rfl).1 (by decide)

end Example

end TinyHermes.Identity
