import TinyHermes.Identity.Frames

/-! OIDC callbacks that overlap: `consume_login_state` locks the row it marks until the transaction ends, which is when the
callback returns. -/
namespace TinyHermes.Identity.LoginStates
open Lib Tx SqlAuthStore SqlOidcProviderStore AuthService OidcProviderService
open Runs (Uuid Time)

/-- A callback past `consume_login_state`: what it read there, and what it was called with. -/
structure Taken where
  provider : OidcProviderRow
  loginState : OidcLoginStateRow
  /-- The clock it marked the row with. -/
  now : Time
  code : String
  userId : Uuid
  tokens : SessionTokens

/-- The database, and the callbacks that hold the row of a state. -/
structure World where
  directory : Directory := {}
  taken : Table String Taken := ∅

abbrev WorldTx := Tx World IdentityError

inductive Event where
  | quiet
  | notUsable
  | refused (state : String)
  /-- Past the state check. -/
  | passed (state : String)
  | signedIn (state : String) (result : OidcLoginResult)
  | rolledBack (state : String) (error : IdentityError)
  deriving DecidableEq

def mark (state : String) (now : Time) : DirectoryTx Unit :=
  write fun d =>
    { d with loginStates := Table.modify state (fun row => { row with consumedAt := some now }) d.loginStates }

/-- Everything a callback writes, as its transaction would commit it. -/
def settlement (platform : Platform) (env : Env) (state : String) (taken : Taken) : DirectoryTx OidcLoginResult := do
  mark state taken.now
  redeem platform env taken.provider taken.loginState taken.code taken.userId taken.tokens

theorem handleCallback_settles {platform : Platform} {env : Env} {providerId userId : Uuid} {code state : String}
    {tokens : SessionTokens} {d : Directory} {provider : OidcProviderRow} {row : OidcLoginStateRow}
    (hprovider : activeProvider providerId d = some provider) (hrow : redeemable state providerId env.now d = some row) :
    handleCallback platform env providerId code state userId tokens d =
      settlement platform env state { provider, loginState := row, now := env.now, code, userId, tokens } d := by
  have hconsume : consumeLoginState state providerId env.now d = .ok (row, { d with
      loginStates := Table.modify state (fun row => { row with consumedAt := some env.now }) d.loginStates }) := by
    rw [consumeLoginState, fetch_bind_run, hrow]
    rfl
  rw [handleCallback_eq, fetch_bind_run, hprovider]
  exact bind_of_ok hconsume

/-- A callback up to `consume_login_state`. While another holds the row it could mark, it waits. -/
def present (env : Env) (providerId : Uuid) (code state : String) (userId : Uuid) (tokens : SessionTokens) :
    WorldTx Event := do
  let w ← get
  match activeProvider providerId w.directory with
  | none => pure .notUsable
  | some provider =>
    match redeemable state providerId env.now w.directory with
    | none => pure (.refused state)
    | some loginState => do
      require (w.taken.lookup state = none) .integrity
      write fun w => { w with
        taken := w.taken.insert state { provider, loginState, now := env.now, code, userId, tokens } }
      pure (.passed state)

/-- The end of a callback: the commit of `oidc_provider_service`, or its rollback of everything. -/
def settle (platform : Platform) (env : Env) (state : String) : WorldTx Event := do
  let w ← get
  let taken ← fetch (·.taken.lookup state) .integrity
  write fun w => { w with taken := w.taken.erase state }
  match settlement platform env state taken w.directory with
  | .error e => pure (.rolledBack state e)
  | .ok (result, d) => do
    write fun w => { w with directory := d }
    pure (.signedIn state result)

inductive Act where
  | present (providerId : Uuid) (code state : String) (userId : Uuid) (tokens : SessionTokens)
  | settle (state : String)
  /-- Any other request. -/
  | beside (op : Op)

def act (platform : Platform) (env : Env) : Act → WorldTx Event
  | .present providerId code state userId tokens => present env providerId code state userId tokens
  | .settle state => settle platform env state
  | .beside op => do
    require (op.redeemsState = false) .integrity
    let w ← get
    let (_, d) ← lift (exec platform env op w.directory)
    write fun w => { w with directory := d }
    pure .quiet

def WorldStep (platform : Platform) (w : World) (i : Env × Act) (e : Event) (w' : World) : Prop :=
  act platform i.1 i.2 w = .ok (e, w')

abbrev WorldHistory := List (Commit World (Env × Act) Event)

abbrev WorldExecutes (platform : Platform) (log : WorldHistory) (w : World) : Prop :=
  Execution (WorldStep platform) {} log w

section Answering

/-- Room for the User of a `sub`: there is one already, or one can be added. -/
def enrollable (userId : Uuid) (verified : VerifiedOidcLogin) (d : Directory) : Bool :=
  (findOidcIdentity verified.subject d).isSome ||
    decide ((d.users.lookup userId = none ∧ d.identities.lookup ⟨.oidc, verified.subject⟩ = none) ∧
      fits 120 (verified.displayName.getD verified.subject) ∧ fits 320 verified.subject)

/-- The provider's answers stand up to every check, and the rows of the login can be written. -/
def answersHold (platform : Platform) (env : Env) (taken : Taken) (d : Directory) : Bool :=
  match fetchIdToken env.outside taken.provider taken.loginState taken.code with
  | .error _ => false
  | .ok (idToken, key) =>
    match verifyIdToken env.outside idToken key taken.provider.issuer taken.provider.clientId taken.loginState.nonce with
    | .error _ => false
    | .ok verified =>
      enrollable taken.userId verified d && decide (d.sessions.lookup (platform.sha256 taken.tokens.sessionToken) = none)

variable {platform : Platform} {env : Env} {state : String} {taken : Taken} {d : Directory}

theorem findOrCreate_commits (env : Env) {userId : Uuid} {verified : VerifiedOidcLogin}
    (h : enrollable userId verified d = true) :
    ∃ user d', findOrCreateOidcIdentity env verified.subject (verified.displayName.getD verified.subject) userId d =
      .ok (user, d') ∧ d'.sessions = d.sessions := by
  rw [findOrCreateOidcIdentity, get_bind]
  cases hfound : findOidcIdentity verified.subject d with
  | some stored => exact ⟨stored.user, d, rfl, rfl⟩
  | none =>
    simp only [enrollable, hfound, Option.isSome_none, Bool.false_or, decide_eq_true_eq] at h
    simp only [createOidcUser, createUser, get_bind, require_bind_run, if_pos h.1]
    rw [if_pos ⟨h.2.1, h.2.2, by rintro _ ⟨⟩⟩]
    exact ⟨_, _, rfl, rfl⟩

theorem settlement_commits (state : String) (h : answersHold platform env taken d = true) :
    ∃ result d', settlement platform env state taken d = .ok (result, d') := by
  unfold answersHold at h
  cases htoken : fetchIdToken env.outside taken.provider taken.loginState taken.code with
  | error =>
    rw [htoken] at h
    cases h
  | ok token =>
    obtain ⟨idToken, key⟩ := token
    simp only [htoken] at h
    cases hverified : verifyIdToken env.outside idToken key taken.provider.issuer taken.provider.clientId
        taken.loginState.nonce with
    | error =>
      rw [hverified] at h
      cases h
    | ok verified =>
      simp only [hverified, Bool.and_eq_true, decide_eq_true_eq] at h
      rw [settlement, mark, write_bind, redeem]
      generalize hmarked : { d with
        loginStates := Table.modify state (fun row => { row with consumedAt := some taken.now }) d.loginStates } = marked
      have hroom : enrollable taken.userId verified marked = true := hmarked ▸ h.1
      have hfresh : marked.sessions.lookup (platform.sha256 taken.tokens.sessionToken) = none := hmarked ▸ h.2
      obtain ⟨user, d', hfind, hsessions⟩ := findOrCreate_commits env hroom
      have hissue : ∃ d₁, issueSession platform env user taken.tokens d' = .ok ((), d₁) := by
        rw [issueSession, createSession, get_bind, require_bind_run, if_pos (by rw [hsessions]; exact hfresh)]
        exact ⟨_, rfl⟩
      obtain ⟨d₁, hissue⟩ := hissue
      refine ⟨⟨taken.tokens, user⟩, d₁, ?_⟩
      rw [bind_of_ok (lift_ok.mpr ⟨htoken, rfl⟩)]
      dsimp only
      rw [bind_of_ok (lift_ok.mpr ⟨hverified, rfl⟩), bind_of_ok hfind, bind_of_ok hissue]
      rfl

end Answering

section Invariant

def StatesKept (d d' : Directory) : Prop :=
  ∀ state row, d.loginStates.lookup state = some row →
    ∃ row', d'.loginStates.lookup state = some row' ∧ (row.consumedAt ≠ none → row'.consumedAt ≠ none)

instance : Std.Refl StatesKept := ⟨fun _ _ row h => ⟨row, h, id⟩⟩

instance : IsTrans Directory StatesKept where
  trans _ _ _ h₁ h₂ state row h := by
    obtain ⟨row', h', hk⟩ := h₁ state row h
    obtain ⟨row'', h'', hk'⟩ := h₂ state row' h'
    exact ⟨row'', h'', hk' ∘ hk⟩

theorem statesKept_frames : Frames StatesKept where
  people _ _ _ _ row h := ⟨row, h, id⟩
  sessions _ _ _ row h := ⟨row, h, id⟩
  providers _ _ _ row h := ⟨row, h, id⟩
  started d state new hfresh state' row h := by
    refine ⟨row, ?_, id⟩
    rw [AList.lookup_insert_ne ?_]
    · exact h
    · rintro rfl
      rw [hfresh] at h
      cases h

def Spent (w : World) (state : String) : Prop :=
  ∃ row, w.directory.loginStates.lookup state = some row ∧
    ((w.taken.lookup state).isSome = true ∨ row.consumedAt ≠ none)

variable {platform : Platform} {env : Env} {w w' : World} {e : Event} {state : String}

theorem Spent.kept {d : Directory} (h : Spent w state) (hd : StatesKept w.directory d) :
    Spent { w with directory := d } state := by
  obtain ⟨row, hrow, hspent⟩ := h
  obtain ⟨row', hrow', hk⟩ := hd state row hrow
  exact ⟨row', hrow', hspent.imp id hk⟩

/-- A step that runs into a callback's end meets the condition that its answers hold. -/
def answered (platform : Platform) (env : Env) (w : World) : Act → Bool
  | .settle state => (w.taken.lookup state).all fun taken => answersHold platform env taken w.directory
  | _ => true

theorem settlement_marks {d d' : Directory} {taken : Taken} {result : OidcLoginResult} {row : OidcLoginStateRow}
    (h : settlement platform env state taken d = .ok (result, d')) (hrow : d.loginStates.lookup state = some row) :
    ∃ row', d'.loginStates.lookup state = some row' ∧ row'.consumedAt ≠ none := by
  simp only [settlement, mark, write_bind] at h
  obtain ⟨row', hrow', hk⟩ := redeem_within statesKept_frames env _ _ _ _ _ h state
    { row with consumedAt := some taken.now } (by simp [Table.lookup_modify_self, hrow])
  exact ⟨row', hrow', hk (Option.some_ne_none _)⟩

theorem settlement_keeps {d d' : Directory} {taken : Taken} {result : OidcLoginResult}
    (h : settlement platform env state taken d = .ok (result, d')) : StatesKept d d' := by
  intro state' row hrow
  by_cases hs : state' = state
  · subst hs
    obtain ⟨row', hrow', hconsumed⟩ := settlement_marks h hrow
    exact ⟨row', hrow', fun _ => hconsumed⟩
  · simp only [settlement, mark, write_bind] at h
    exact redeem_within statesKept_frames env _ _ _ _ _ h state' row (by rw [Table.lookup_modify_of_ne hs, hrow])

theorem act_spent {a : Act} (h : Spent w state) (hans : answered platform env w a = true)
    (hact : act platform env a w = .ok (e, w')) : Spent w' state ∧ e ≠ .passed state := by
  cases a with
  | present providerId _ state' =>
    simp only [act, present, get_bind] at hact
    cases hprovider : activeProvider providerId w.directory with
    | none =>
      simp only [hprovider, pure_ok] at hact
      obtain ⟨rfl, rfl⟩ := hact
      exact ⟨h, by rintro ⟨⟩⟩
    | some =>
      cases hrow : redeemable state' providerId env.now w.directory with
      | none =>
        simp only [hprovider, hrow, pure_ok] at hact
        obtain ⟨rfl, rfl⟩ := hact
        exact ⟨h, by rintro ⟨⟩⟩
      | some =>
        simp only [hprovider, hrow, require_bind_ok, write_bind, pure_ok] at hact
        obtain ⟨hfree, rfl, rfl⟩ := hact
        obtain ⟨row, hlookup, hspent⟩ := h
        have hne : state' ≠ state := by
          rintro rfl
          obtain ⟨hfound, hunspent⟩ := Option.filter_eq_some_iff.mp hrow
          cases hlookup.symm.trans hfound
          simp only [decide_eq_true_eq] at hunspent
          rcases hspent with htaken | hconsumed
          · rw [hfree] at htaken
            cases htaken
          · exact hconsumed hunspent.2.1
        refine ⟨⟨row, hlookup, hspent.imp (fun htaken => ?_) id⟩, fun heq => hne (Event.passed.inj heq)⟩
        rw [AList.lookup_insert_ne (Ne.symm hne)]
        exact htaken
  | settle state' =>
    simp only [act, settle, get_bind, fetch_bind_ok, write_bind] at hact
    obtain ⟨taken, htaken, hact⟩ := hact
    have hholds : answersHold platform env taken w.directory = true := by
      rw [answered, htaken] at hans
      exact hans
    obtain ⟨_, d, hset⟩ := settlement_commits state' hholds
    simp only [hset, write_bind, pure_ok] at hact
    obtain ⟨rfl, rfl⟩ := hact
    obtain ⟨row, hlookup, hspent⟩ := h
    refine ⟨?_, by rintro ⟨⟩⟩
    by_cases hs : state = state'
    · subst hs
      obtain ⟨row', hrow', hconsumed⟩ := settlement_marks hset hlookup
      exact ⟨row', hrow', .inr hconsumed⟩
    · obtain ⟨row', hrow', hk⟩ := settlement_keeps hset state row hlookup
      refine ⟨row', hrow', hspent.imp (fun htaken => ?_) hk⟩
      rw [AList.lookup_erase_ne hs]
      exact htaken
  | beside op =>
    simp only [act, require_bind_ok, get_bind, lift_bind_ok] at hact
    obtain ⟨hop, ⟨_, d⟩, hexec, hact⟩ := hact
    simp only [write_bind, pure_ok] at hact
    obtain ⟨rfl, rfl⟩ := hact
    refine ⟨h.kept ?_, by rintro ⟨⟩⟩
    refine exec_within statesKept_frames env op (fun _ d failures state row hrow => ⟨row, hrow, id⟩) (fun hredeems => ?_) hexec
    rw [hop] at hredeems
    cases hredeems

theorem act_spends {a : Act} (hact : act platform env a w = .ok (.passed state, w')) : Spent w' state := by
  cases a with
  | present providerId _ state' =>
    simp only [act, present, get_bind] at hact
    cases hprovider : activeProvider providerId w.directory with
    | none =>
      simp only [hprovider, pure_ok] at hact
      cases hact.1
    | some =>
      cases hrow : redeemable state' providerId env.now w.directory with
      | none =>
        simp only [hprovider, hrow, pure_ok] at hact
        cases hact.1
      | some loginState =>
        simp only [hprovider, hrow, require_bind_ok, write_bind, pure_ok] at hact
        obtain ⟨_, heq, rfl⟩ := hact
        obtain rfl := Event.passed.inj heq
        refine ⟨loginState, (Option.filter_eq_some_iff.mp hrow).1, .inl ?_⟩
        rw [AList.lookup_insert]
        rfl
  | settle state' =>
    simp only [act, settle, get_bind, fetch_bind_ok, write_bind] at hact
    obtain ⟨taken, _, hact⟩ := hact
    cases hset : settlement platform env state' taken w.directory with
    | error =>
      simp only [hset, pure_ok] at hact
      cases hact.1
    | ok =>
      simp only [hset, write_bind, pure_ok] at hact
      cases hact.1
  | beside =>
    simp only [act, require_bind_ok, get_bind, lift_bind_ok] at hact
    obtain ⟨_, ⟨_, _⟩, _, hact⟩ := hact
    simp only [write_bind, pure_ok] at hact
    cases hact.1

end Invariant

section Runs
variable {platform : Platform} {w w' : World}

/-- Once a callback has got past the check with a state, no later one does. -/
def PresentedOnce (log : WorldHistory) (state : String) : Prop :=
  ∀ l c r, log = l ++ c :: r → c.answer = .passed state → ∀ c' ∈ r, c'.answer ≠ .passed state

theorem PresentedOnce.answers {log : WorldHistory} {state : String} {l r : List Event} (h : PresentedOnce log state)
    (hlog : log.map (·.answer) = l ++ .passed state :: r) : .passed state ∉ r := by
  obtain ⟨l', _, rfl, rfl, hr⟩ := List.map_eq_append_iff.mp hlog
  obtain ⟨c, r'', rfl, hc, rfl⟩ := List.map_eq_cons_iff.mp hr
  intro hin
  obtain ⟨c', hc', heq⟩ := List.mem_map.mp hin
  exact h l' c r'' rfl hc c' hc' heq

theorem spent_run {state : String} {log : WorldHistory} (h : Execution (WorldStep platform) w log w')
    (hspent : Spent w state) (hans : ∀ c ∈ log, answered platform c.input.1 c.before c.input.2 = true) :
    Spent w' state ∧ ∀ c ∈ log, c.answer ≠ .passed state := by
  induction h with
  | nil => exact ⟨hspent, fun c hc => absurd hc List.not_mem_nil⟩
  | @snoc log s s' i e _ hstep ih =>
    obtain ⟨hbefore, hnone⟩ := ih fun c hc => hans c (List.mem_append_left _ hc)
    have hlast : answered platform i.1 s i.2 = true :=
      hans ⟨s, i, e, s'⟩ (List.mem_append_right _ (List.mem_singleton_self _))
    obtain ⟨hafter, hne⟩ := act_spent hbefore hlast hstep
    refine ⟨hafter, fun c hc => ?_⟩
    rcases List.mem_append.mp hc with hc | hc
    · exact hnone c hc
    · obtain rfl := List.mem_singleton.mp hc
      exact hne

/-- In a run where every callback that takes a state gets answers that hold, a state is presented once. -/
theorem presented_once {log : WorldHistory} (h : WorldExecutes platform log w)
    (hans : ∀ c ∈ log, answered platform c.input.1 c.before c.input.2 = true) (state : String) :
    PresentedOnce log state := by
  rintro _ _ _ rfl hc c' hc'
  obtain ⟨_, hstep, hrest⟩ := h.split
  unfold WorldStep at hstep
  rw [hc] at hstep
  have hspent := act_spends hstep
  exact (spent_run hrest hspent fun c₁ hc₁ => hans c₁ (List.mem_append_right _ (List.mem_cons_of_mem _ hc₁))).2 c' hc'

end Runs

section Example

def attemptActs (inputs : List (Env × Act)) : WorldHistory × World :=
  replay (fun w i => (act plain i.1 i.2 w).toOption) {} inputs

theorem attemptActs_executes (inputs : List (Env × Act)) :
    WorldExecutes plain (attemptActs inputs).1 (attemptActs inputs).2 := by
  apply replay_execution
  intro _ _ _ _ h
  exact ok_of_toOption h

def ada : Env := asking (idp "https://a" "ada" "state")

def presenting : Env × Act := (ada, .present 10 "code" "state" 20 { sessionToken := "token", csrfToken := "csrf" })

/-- A registered provider, a login on its way, and its callback with `outside` answering it; then the same
callback again. -/
def twice (outside : Outside) : List (Env × Act) :=
  [(ada, .beside (.bootstrap "bootstrap" { subject := "root", displayName := "Root", password := "pw" } 1)),
    (ada, .beside (registering 10 "https://a").2),
    (ada, .beside (.start 10 "callback" { state := "state", nonce := "state", codeVerifier := "verifier" })),
    presenting, ({ ada with outside }, .settle "state"), presenting]

def unreachable : Outside := { idp "https://a" "ada" "state" with request := fun _ => none }

theorem signed_in_once :
    (attemptActs (twice (idp "https://a" "ada" "state"))).1.map (·.answer) =
        [.quiet, .quiet, .quiet, .passed "state",
          .signedIn "state" ⟨⟨"token", "csrf"⟩, ⟨20, "ada", "ada", "active", false⟩⟩, .refused "state"] ∧
      PresentedOnce (attemptActs (twice (idp "https://a" "ada" "state"))).1 "state" :=
  ⟨by decide, presented_once (attemptActs_executes _) (by decide) _⟩

/-- The first callback finds the provider out of reach, its mark is rolled back, and the second gets past. -/
theorem unreachable_presented_twice :
    ¬ ∀ platform log w, WorldExecutes platform log w → ∀ state, PresentedOnce log state := by
  intro hall
  have honce := hall plain _ _ (attemptActs_executes (twice unreachable)) "state"
  have hlog : (attemptActs (twice unreachable)).1.map (·.answer) =
      [.quiet, .quiet, .quiet, .passed "state", .rolledBack "state" .oidcProviderUnreachable, .passed "state"] := by
    decide
  have hout := honce.answers (l := [.quiet, .quiet, .quiet])
    (r := [.rolledBack "state" .oidcProviderUnreachable, .passed "state"]) hlog
  exact hout (by decide)

end Example

end TinyHermes.Identity.LoginStates
