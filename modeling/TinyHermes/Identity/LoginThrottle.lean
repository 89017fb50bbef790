import TinyHermes.Identity.Frames
import TinyHermes.Lib.SlidingWindow

/-! Password logins that overlap: each reads the clock, waits for the lock of its account key, counts, verifies and settles, and
holds the lock to its end. -/
namespace TinyHermes.Identity.LoginThrottle
open Lib Tx SqlAuthStore AuthService SlidingWindow
open Runs (Uuid Time)

inductive Phase where
  | waiting
  | locked
  /-- The failures were counted and leave room for the password to be looked at. -/
  | admitted
  | throttled (retryAfterSeconds : Int)
  | refused
  | accepted (user : AuthenticatedUser)

def Phase.holdsLock : Phase → Bool
  | .waiting => false
  | _ => true

structure Attempt where
  subject : String
  password : String
  tokens : SessionTokens
  /-- `datetime.now(UTC)`, read before the lock. -/
  now : Time
  phase : Phase := .waiting

def Attempt.key (platform : Platform) (a : Attempt) : String := loginSubjectKey platform a.subject

structure World where
  directory : Directory := {}
  attempts : Table Nat Attempt := ∅

abbrev WorldTx := Tx World IdentityError

/-- What a step tells, with the account key and the clock reading of its login. -/
inductive Event where
  | quiet
  | counted (key : String) (now : Time) (throttled : Option Int)
  | verified (key : String) (now : Time) (matched : Bool)
  | ended (key : String) (outcome : LoginOutcome)
  deriving DecidableEq

def throttleFor (recent : List Time) (now : Time) : Option Int :=
  match recent.min? with
  | some oldest => if loginFailureLimit ≤ recent.length then some (retryAfterSeconds oldest now) else none
  | none => none

def matching (platform : Platform) (subject password : String) (d : Directory) : Option AuthenticatedUser :=
  ((findLocalIdentity (platform.lower (Text.strip subject)) d).filter fun identity =>
    identity.passwordHash.any (platform.verifyPassword password)).map (·.user)

def signIn (platform : Platform) (env : Env) (user : AuthenticatedUser) (key : String) (tokens : SessionTokens) :
    DirectoryTx LoginOutcome := do
  clearLoginFailures key
  issueSession platform env user tokens
  pure (.loggedIn user)

def refuse (key : String) (now : Time) : DirectoryTx LoginOutcome := do
  recordLoginFailure key now
  pure .invalidCredentials

theorem login_eq (platform : Platform) (env : Env) (subject password : String) (tokens : SessionTokens) (d : Directory) :
    login platform env subject password tokens d =
      match throttleFor (loginFailuresSince (loginSubjectKey platform subject) (env.now - loginFailureWindow) d) env.now with
      | some n => .ok (.throttled n, d)
      | none =>
        match matching platform subject password d with
        | some user => signIn platform env user (loginSubjectKey platform subject) tokens d
        | none => refuse (loginSubjectKey platform subject) env.now d := by
  rw [login, get_bind]
  have hverify : login.verify platform env subject password tokens (loginSubjectKey platform subject) d d =
      match matching platform subject password d with
      | some user => signIn platform env user (loginSubjectKey platform subject) tokens d
      | none => refuse (loginSubjectKey platform subject) env.now d := by
    unfold login.verify matching
    cases (findLocalIdentity (platform.lower (Text.strip subject)) d).filter fun identity =>
      identity.passwordHash.any (platform.verifyPassword password) with
    | none => rfl
    | some => rfl
  unfold throttleFor
  cases hmin : (loginFailuresSince (loginSubjectKey platform subject) (env.now - loginFailureWindow) d).min? with
  | none => simp only [hverify]
  | some =>
    dsimp only
    split_ifs
    · rfl
    · exact hverify

def attemptOf (id : Nat) : WorldTx Attempt := fetch (·.attempts.lookup id) .integrity

def setPhase (id : Nat) (phase : Phase) : WorldTx Unit :=
  write fun w => { w with attempts := Table.modify id (fun a => { a with phase }) w.attempts }

def arrive (env : Env) (id : Nat) (subject password : String) (tokens : SessionTokens) : WorldTx Event := do
  let w ← get
  require (w.attempts.lookup id = none) .integrity
  write fun w => { w with attempts := w.attempts.insert id { subject, password, tokens, now := env.now } }
  pure .quiet

/-- `lock_login` returns: nobody else holds the key's lock. -/
def acquire (platform : Platform) (id : Nat) : WorldTx Event := do
  let a ← attemptOf id
  let w ← get
  match a.phase with
  | .waiting => do
    require (Table.select (fun _ b => b.key platform = a.key platform && b.phase.holdsLock) w.attempts = []) .integrity
    setPhase id .locked
    pure .quiet
  | _ => throw .integrity

/-- `login_failures_since`, and what follows from it. -/
def count (platform : Platform) (id : Nat) : WorldTx Event := do
  let a ← attemptOf id
  let w ← get
  match a.phase with
  | .locked => do
    let throttled := throttleFor
      (loginFailuresSince (a.key platform) (a.now - loginFailureWindow) w.directory) a.now
    setPhase id ((throttled.map Phase.throttled).getD .admitted)
    pure (.counted (a.key platform) a.now throttled)
  | _ => throw .integrity

/-- `find_local_identity` and the password check. -/
def verify (platform : Platform) (id : Nat) : WorldTx Event := do
  let a ← attemptOf id
  let w ← get
  match a.phase with
  | .admitted => do
    let user := matching platform a.subject a.password w.directory
    setPhase id ((user.map Phase.accepted).getD .refused)
    pure (.verified (a.key platform) a.now user.isSome)
  | _ => throw .integrity

/-- How `auth_service` settles the transaction: both refusals commit, anything else that is raised rolls back. -/
def settlement (platform : Platform) (env : Env) (a : Attempt) : DirectoryTx LoginOutcome :=
  match a.phase with
  | .throttled n => pure (.throttled n)
  | .refused => refuse (a.key platform) a.now
  | .accepted user => signIn platform env user (a.key platform) a.tokens
  | _ => throw .integrity

/-- The end of the transaction, which releases the lock. -/
def settle (platform : Platform) (env : Env) (id : Nat) : WorldTx Event := do
  let a ← attemptOf id
  let w ← get
  match a.phase with
  | .waiting | .locked | .admitted => throw .integrity
  | _ => do
    write fun w => { w with attempts := w.attempts.erase id }
    match settlement platform env a w.directory with
    | .error _ => pure .quiet
    | .ok (outcome, d) => do
      write fun w => { w with directory := d }
      pure (.ended (a.key platform) outcome)

inductive Act where
  | arrive (id : Nat) (subject password : String) (tokens : SessionTokens)
  | acquire (id : Nat)
  | count (id : Nat)
  | verify (id : Nat)
  | settle (id : Nat)
  /-- A request that has nothing to do with passwords. -/
  | beside (op : Op)

def act (platform : Platform) (env : Env) : Act → WorldTx Event
  | .arrive id subject password tokens => arrive env id subject password tokens
  | .acquire id => acquire platform id
  | .count id => count platform id
  | .verify id => verify platform id
  | .settle id => settle platform env id
  | .beside op => do
    require (op.countsFailures = false) .integrity
    let w ← get
    let (_, d) ← lift (exec platform env op w.directory)
    write fun w => { w with directory := d }
    pure .quiet

def WorldStep (platform : Platform) (w : World) (i : Env × Act) (e : Event) (w' : World) : Prop :=
  act platform i.1 i.2 w = .ok (e, w')

abbrev WorldHistory := List (Commit World (Env × Act) Event)

abbrev WorldExecutes (platform : Platform) (log : WorldHistory) (w : World) : Prop :=
  Execution (WorldStep platform) {} log w

variable {key : String}

section Counting

def rows (key : String) (d : Directory) : List Time :=
  (d.failures.filter fun row => row.subjectKey = key).map (·.failedAt)

theorem loginFailuresSince_length (key : String) (now : Time) (d : Directory) :
    (loginFailuresSince key (now - loginFailureWindow) d).length = recent loginFailureWindow now (rows key d) := by
  rw [loginFailuresSince, rows, recent, List.length_map, List.countP_map, List.countP_eq_length_filter, List.filter_filter]
  congr 1
  apply List.filter_congr
  intro _ _
  simp [Bool.and_comm]

theorem recent_of_not_throttled {now : Time} {d : Directory}
    (h : throttleFor (loginFailuresSince key (now - loginFailureWindow) d) now = none) :
    recent loginFailureWindow now (rows key d) < loginFailureLimit := by
  rw [← loginFailuresSince_length]
  unfold throttleFor at h
  cases hmin : (loginFailuresSince key (now - loginFailureWindow) d).min? with
  | none =>
    rw [List.min?_eq_none_iff.mp hmin]
    decide
  | some =>
    rw [hmin] at h
    by_contra hfull
    simp only [if_pos (Nat.le_of_not_lt hfull)] at h
    cases h

/-- What a step adds to the guesses made since a key's last success. -/
def tallyStep (key : String) (times : List Time) : Event → List Time
  | .verified k t false => if k = key then times ++ [t] else times
  | .ended k (.loggedIn _) => if k = key then [] else times
  | _ => times

def tally (log : WorldHistory) (key : String) : List Time := log.foldl (fun times c => tallyStep key times c.answer) []

/-- The passwords that were looked at and did not match, by the clock readings of their logins. -/
def guesses (key : String) (log : WorldHistory) : List Time :=
  log.filterMap fun c => match c.answer with
    | .verified k t false => if k = key then some t else none
    | _ => none

def signsIn (key : String) (c : Commit World (Env × Act) Event) : Bool :=
  match c.answer with
  | .ended k (.loggedIn _) => k = key
  | _ => false

theorem tally_snoc (log : WorldHistory) (c : Commit World (Env × Act) Event) (key : String) :
    tally (log ++ [c]) key = tallyStep key (tally log key) c.answer := by
  simp [tally]

theorem tally_append {l m : WorldHistory} (h : ∀ c ∈ m, signsIn key c = false) :
    tally (l ++ m) key = tally l key ++ guesses key m := by
  induction m using List.reverseRecOn with
  | nil => simp [guesses]
  | append_singleton m c ih =>
    have hm := ih fun c' hc' => h c' (List.mem_append_left _ hc')
    have hc := h c (List.mem_append_right _ (List.mem_singleton_self c))
    rw [← List.append_assoc, tally_snoc, hm, guesses, guesses, List.filterMap_append]
    cases hans : c.answer with
    | quiet => simp [tallyStep, hans]
    | counted => simp [tallyStep, hans]
    | verified k t matched =>
      cases matched with
      | true => simp [tallyStep, hans]
      | false =>
        by_cases hk : k = key
        · simp [tallyStep, hans, hk]
        · simp [tallyStep, hans, hk]
    | ended k outcome =>
      cases outcome with
      | loggedIn =>
        have hk : k ≠ key := by simpa [signsIn, hans] using hc
        simp [tallyStep, hans, hk]
      | throttled => simp [tallyStep, hans]
      | invalidCredentials => simp [tallyStep, hans]

end Counting

section Invariant
variable {platform : Platform} {w w' : World} {told : String → List Time} {id : Nat} {a : Attempt}

def Exclusive (platform : Platform) (attempts : Table Nat Attempt) : Prop :=
  ∀ i j a b, attempts.lookup i = some a → attempts.lookup j = some b → a.key platform = b.key platform →
    a.phase.holdsLock = true → b.phase.holdsLock = true → i = j

/-- One login of a key at a time is past the lock, a password is looked at only with room under the limit, and every guess is in
the table or in the hands of its login. -/
structure Sound (platform : Platform) (w : World) (told : String → List Time) : Prop where
  exclusive : Exclusive platform w.attempts
  room : ∀ i a, w.attempts.lookup i = some a → a.phase = .admitted →
    recent loginFailureWindow a.now (rows (a.key platform) w.directory) < loginFailureLimit
  pending : ∀ i a, w.attempts.lookup i = some a → a.phase = .refused →
    told (a.key platform) = rows (a.key platform) w.directory ++ [a.now]
  recorded : ∀ key, (∀ i a, w.attempts.lookup i = some a → a.key platform = key → a.phase ≠ .refused) →
    told key = rows key w.directory

theorem lookup_setPhase {phase : Phase} {j : Nat} {b : Attempt} (h : w.attempts.lookup id = some a)
    (hj : (Table.modify id (fun a => { a with phase }) w.attempts).lookup j = some b) :
    (j = id ∧ b = { a with phase }) ∨ (j ≠ id ∧ w.attempts.lookup j = some b) := by
  by_cases hid : j = id
  · subst hid
    rw [Table.lookup_modify_self, h] at hj
    exact .inl ⟨rfl, (Option.some.inj hj).symm⟩
  · rw [Table.lookup_modify_of_ne hid] at hj
    exact .inr ⟨hid, hj⟩

theorem lookup_other {phase : Phase} {j : Nat} {b : Attempt} (hid : j ≠ id) (hj : w.attempts.lookup j = some b) :
    (Table.modify id (fun a => { a with phase }) w.attempts).lookup j = some b := by
  rw [Table.lookup_modify_of_ne hid, hj]

theorem Exclusive.setPhase {phase : Phase} (h : Exclusive platform w.attempts) (ha : w.attempts.lookup id = some a)
    (halone : ∀ j b, j ≠ id → w.attempts.lookup j = some b → b.key platform = a.key platform →
      b.phase.holdsLock = false) :
    Exclusive platform (Table.modify id (fun a => { a with phase }) w.attempts) := by
  intro i j b c hi hj hkey hb hc
  rcases lookup_setPhase ha hi with ⟨rfl, rfl⟩ | ⟨hne, hi'⟩
  · rcases lookup_setPhase ha hj with ⟨rfl, rfl⟩ | ⟨hne', hj'⟩
    · rfl
    · rw [halone j c hne' hj' hkey.symm] at hc
      cases hc
  · rcases lookup_setPhase ha hj with ⟨rfl, rfl⟩ | ⟨_, hj'⟩
    · rw [halone i b hne hi' hkey] at hb
      cases hb
    · exact h i j b c hi' hj' hkey hb hc

theorem Sound.phase {phase : Phase} (h : Sound platform w told) (ha : w.attempts.lookup id = some a)
    (hbefore : a.phase ≠ .refused) (hafter : phase ≠ .refused)
    (halone : ∀ j b, j ≠ id → w.attempts.lookup j = some b → b.key platform = a.key platform → b.phase.holdsLock = false)
    (hroom : phase = .admitted →
      recent loginFailureWindow a.now (rows (a.key platform) w.directory) < loginFailureLimit) :
    Sound platform { w with attempts := Table.modify id (fun a => { a with phase }) w.attempts } told where
  exclusive := h.exclusive.setPhase ha halone
  room i b hi hb := by
    rcases lookup_setPhase ha hi with ⟨rfl, rfl⟩ | ⟨_, hi⟩
    · exact hroom hb
    · exact h.room i b hi hb
  pending i b hi hb := by
    rcases lookup_setPhase ha hi with ⟨rfl, rfl⟩ | ⟨_, hi⟩
    · exact absurd hb hafter
    · exact h.pending i b hi hb
  recorded key hnone := by
    apply h.recorded
    intro i b hi hkey
    by_cases hid : i = id
    · subst hid
      cases ha.symm.trans hi
      exact hbefore
    · exact hnone i b (lookup_other hid hi) hkey

theorem Sound.alone (h : Sound platform w told) (ha : w.attempts.lookup id = some a) (hheld : a.phase.holdsLock = true) :
    ∀ j b, j ≠ id → w.attempts.lookup j = some b → b.key platform = a.key platform → b.phase.holdsLock = false := by
  intro j b hne hj hkey
  by_contra hb
  exact hne (h.exclusive j id b a hj ha hkey (by simpa using hb) hheld)

theorem Sound.sees (h : Sound platform w told)
    (ha : w.attempts.lookup id = some a) (hheld : a.phase.holdsLock = true) (hphase : a.phase ≠ .refused) :
    told (a.key platform) = rows (a.key platform) w.directory := by
  apply h.recorded
  intro i b hi hkey hb
  by_cases hid : i = id
  · subst hid
    cases ha.symm.trans hi
    exact hphase hb
  · have hfree := h.alone ha hheld i b hid hi hkey
    rw [hb] at hfree
    cases hfree

theorem Sound.guess (h : Sound platform w told) (ha : w.attempts.lookup id = some a) (hphase : a.phase = .admitted) :
    Sound platform { w with attempts := Table.modify id (fun a => { a with phase := .refused }) w.attempts }
      (fun key => tallyStep key (told key) (.verified (a.key platform) a.now false)) := by
  have halone := h.alone ha (by rw [hphase]; rfl)
  have hown := h.sees ha (by rw [hphase]; rfl) (by rw [hphase]; exact nofun)
  refine ⟨h.exclusive.setPhase ha halone, fun i b hi hb => ?_, fun i b hi hb => ?_, fun key hnone => ?_⟩
  · rcases lookup_setPhase ha hi with ⟨rfl, rfl⟩ | ⟨_, hi'⟩
    · cases hb
    · exact h.room i b hi' hb
  · rcases lookup_setPhase ha hi with ⟨rfl, rfl⟩ | ⟨hne, hi'⟩
    · change (if a.key platform = a.key platform then told (a.key platform) ++ [a.now] else _) =
        rows (a.key platform) w.directory ++ [a.now]
      rw [if_pos rfl, hown]
    · have hkey : a.key platform ≠ b.key platform := by
        intro hkey
        have hfree := halone i b hne hi' hkey.symm
        rw [hb] at hfree
        cases hfree
      change (if a.key platform = b.key platform then _ else _) = _
      rw [if_neg hkey]
      exact h.pending i b hi' hb
  · have hkey : a.key platform ≠ key := by
      rintro rfl
      refine hnone id { a with phase := .refused } ?_ rfl rfl
      rw [Table.lookup_modify_self, ha]
      rfl
    change (if a.key platform = key then _ else _) = _
    rw [if_neg hkey]
    apply h.recorded
    intro i b hi hb hrefused
    by_cases hid : i = id
    · subst hid
      cases ha.symm.trans hi
      exact hkey hb
    · exact hnone i b (lookup_other hid hi) hb hrefused

theorem lookup_erase {j : Nat} {b : Attempt} (hj : (w.attempts.erase id).lookup j = some b) :
    j ≠ id ∧ w.attempts.lookup j = some b := by
  by_cases hid : j = id
  · subst hid
    rw [AList.lookup_erase] at hj
    cases hj
  · rw [AList.lookup_erase_ne hid] at hj
    exact ⟨hid, hj⟩

theorem Sound.settled {d : Directory} {told' : String → List Time} (h : Sound platform w told)
    (ha : w.attempts.lookup id = some a) (hheld : a.phase.holdsLock = true)
    (hown : told' (a.key platform) = rows (a.key platform) d)
    (hother : ∀ key, key ≠ a.key platform → told' key = told key ∧ rows key d = rows key w.directory) :
    Sound platform { directory := d, attempts := w.attempts.erase id } told' := by
  have halone := h.alone ha hheld
  have hforeign : ∀ i b, i ≠ id → w.attempts.lookup i = some b → b.phase.holdsLock = true →
      b.key platform ≠ a.key platform := by
    intro i b hne hi hb hkey
    rw [halone i b hne hi hkey] at hb
    cases hb
  refine ⟨fun i j b c hi hj hkey hb hc => ?_, fun i b hi hb => ?_, fun i b hi hb => ?_, fun key hnone => ?_⟩
  · exact h.exclusive i j b c (lookup_erase hi).2 (lookup_erase hj).2 hkey hb hc
  · obtain ⟨hne, hi⟩ := lookup_erase hi
    rw [(hother _ (hforeign i b hne hi (by rw [hb]; rfl))).2]
    exact h.room i b hi hb
  · obtain ⟨hne, hi⟩ := lookup_erase hi
    obtain ⟨htold, hrows⟩ := hother _ (hforeign i b hne hi (by rw [hb]; rfl))
    rw [htold, hrows]
    exact h.pending i b hi hb
  · by_cases hkey : key = a.key platform
    · rw [hkey]
      exact hown
    · obtain ⟨htold, hrows⟩ := hother key hkey
      rw [htold, hrows]
      apply h.recorded
      intro i b hi hb
      by_cases hid : i = id
      · subst hid
        cases ha.symm.trans hi
        exact absurd hb.symm hkey
      · exact hnone i b ((AList.lookup_erase_ne hid).trans hi) hb

theorem Sound.arrive {b : Attempt} (h : Sound platform w told) (hfresh : w.attempts.lookup id = none)
    (hphase : b.phase = .waiting) : Sound platform { w with attempts := w.attempts.insert id b } told := by
  have hlookup : ∀ j c, (w.attempts.insert id b).lookup j = some c → c = b ∨ w.attempts.lookup j = some c := by
    intro j c hj
    by_cases hid : j = id
    · subst hid
      rw [AList.lookup_insert] at hj
      exact .inl (Option.some.inj hj).symm
    · rw [AList.lookup_insert_ne hid] at hj
      exact .inr hj
  refine ⟨fun i j c e hi hj hkey hc he => ?_, fun i c hi hc => ?_, fun i c hi hc => ?_, fun key hnone => ?_⟩
  · rcases hlookup i c hi with rfl | hi'
    · rw [hphase] at hc
      cases hc
    · rcases hlookup j e hj with rfl | hj'
      · rw [hphase] at he
        cases he
      · exact h.exclusive i j c e hi' hj' hkey hc he
  · rcases hlookup i c hi with rfl | hi'
    · rw [hphase] at hc
      cases hc
    · exact h.room i c hi' hc
  · rcases hlookup i c hi with rfl | hi'
    · rw [hphase] at hc
      cases hc
    · exact h.pending i c hi' hc
  · apply h.recorded
    intro i c hi
    refine hnone i c ?_
    rw [AList.lookup_insert_ne ?_]
    · exact hi
    · rintro rfl
      rw [hfresh] at hi
      cases hi

theorem Sound.beside {d : Directory} (h : Sound platform w told) (hd : d.failures = w.directory.failures) :
    Sound platform { w with directory := d } told := by
  have hrows : ∀ key, rows key d = rows key w.directory := fun key => by rw [rows, rows, hd]
  refine ⟨h.exclusive, fun i a hi ha => ?_, fun i a hi ha => ?_, fun key hnone => ?_⟩
  · rw [hrows]
    exact h.room i a hi ha
  · rw [hrows]
    exact h.pending i a hi ha
  · rw [hrows]
    exact h.recorded key hnone

end Invariant

section Steps
variable {platform : Platform} {env : Env} {w w' : World} {told : String → List Time} {e : Event} {id : Nat}

theorem acquire_sound (h : Sound platform w told) (hact : acquire platform id w = .ok (e, w')) :
    e = .quiet ∧ Sound platform w' told := by
  simp only [acquire, attemptOf, fetch_bind_ok, get_bind] at hact
  obtain ⟨a, ha, hact⟩ := hact
  cases hphase : a.phase with
  | waiting =>
    simp only [hphase, setPhase, require_bind_ok, write_bind, pure_ok] at hact
    obtain ⟨hnone, rfl, rfl⟩ := hact
    refine ⟨rfl, h.phase ha (by rw [hphase]; rintro ⟨⟩) (by rintro ⟨⟩) (fun j b _ hj hkey => ?_) (by rintro ⟨⟩)⟩
    by_contra hb
    have hin : (j, b) ∈ Table.select (fun _ b => b.key platform = a.key platform && b.phase.holdsLock) w.attempts :=
      Table.mem_select.mpr ⟨hj, by simpa [hkey] using hb⟩
    rw [hnone] at hin
    cases hin
  | _ =>
    rw [hphase] at hact
    exact absurd hact throw_ok

theorem count_cases (hact : count platform id w = .ok (e, w')) :
    ∃ a, w.attempts.lookup id = some a ∧ a.phase = .locked ∧
      e = .counted (a.key platform) a.now (throttleFor
        (loginFailuresSince (a.key platform) (a.now - loginFailureWindow) w.directory) a.now) ∧
      w' = { w with
        attempts := Table.modify id (fun b =>
          { b with
            phase := ((throttleFor (loginFailuresSince (a.key platform) (a.now - loginFailureWindow) w.directory)
              a.now).map Phase.throttled).getD .admitted }) w.attempts } := by
  simp only [count, attemptOf, fetch_bind_ok, get_bind] at hact
  obtain ⟨a, ha, hact⟩ := hact
  cases hphase : a.phase with
  | locked =>
    simp only [hphase, setPhase, write_bind, pure_ok] at hact
    obtain ⟨rfl, rfl⟩ := hact
    exact ⟨a, ha, hphase, rfl, rfl⟩
  | _ =>
    rw [hphase] at hact
    exact absurd hact throw_ok

theorem count_sound (h : Sound platform w told) (hact : count platform id w = .ok (e, w')) : Sound platform w' told := by
  obtain ⟨a, ha, hphase, _, rfl⟩ := count_cases hact
  have halone := h.alone ha (by rw [hphase]; rfl)
  have hbefore : a.phase ≠ .refused := by
    rw [hphase]
    exact nofun
  cases hthrottle : throttleFor (loginFailuresSince (a.key platform) (a.now - loginFailureWindow) w.directory) a.now with
  | none => exact h.phase ha hbefore nofun halone fun _ => recent_of_not_throttled hthrottle
  | some => exact h.phase ha hbefore nofun halone nofun

theorem verify_cases (hact : verify platform id w = .ok (e, w')) :
    ∃ a, w.attempts.lookup id = some a ∧ a.phase = .admitted ∧
      e = .verified (a.key platform) a.now (matching platform a.subject a.password w.directory).isSome ∧
      w' = { w with
        attempts := Table.modify id (fun b =>
          { b with
            phase := ((matching platform a.subject a.password w.directory).map Phase.accepted).getD .refused })
          w.attempts } := by
  simp only [verify, attemptOf, fetch_bind_ok, get_bind] at hact
  obtain ⟨a, ha, hact⟩ := hact
  cases hphase : a.phase with
  | admitted =>
    simp only [hphase, setPhase, write_bind, pure_ok] at hact
    obtain ⟨rfl, rfl⟩ := hact
    exact ⟨a, ha, hphase, rfl, rfl⟩
  | _ =>
    rw [hphase] at hact
    exact absurd hact throw_ok

theorem verify_sound (h : Sound platform w told) (hact : verify platform id w = .ok (e, w')) :
    Sound platform w' fun key => tallyStep key (told key) e := by
  obtain ⟨a, ha, hphase, rfl, rfl⟩ := verify_cases hact
  cases hmatch : matching platform a.subject a.password w.directory with
  | none => exact h.guess ha hphase
  | some =>
    refine h.phase ha (by rw [hphase]; exact nofun) nofun (h.alone ha (by rw [hphase]; rfl)) nofun

theorem rows_refuse {now : Time} {d d' : Directory} {outcome : LoginOutcome}
    (h : refuse key now d = .ok (outcome, d')) :
    outcome = .invalidCredentials ∧ rows key d' = rows key d ++ [now] ∧ ∀ k, k ≠ key → rows k d' = rows k d := by
  simp only [refuse, recordLoginFailure, write_bind, pure_ok] at h
  obtain ⟨rfl, rfl⟩ := h
  refine ⟨rfl, ?_, fun k hk => ?_⟩
  · simp [rows]
  · simp [rows, Ne.symm hk]

theorem rows_signIn {user : AuthenticatedUser} {tokens : SessionTokens} {d d' : Directory}
    {outcome : LoginOutcome} (h : signIn platform env user key tokens d = .ok (outcome, d')) :
    outcome = .loggedIn user ∧ rows key d' = [] ∧ ∀ k, k ≠ key → rows k d' = rows k d := by
  simp only [signIn, clearLoginFailures, write_bind] at h
  obtain ⟨_, _, hissue, h⟩ := bind_ok.mp h
  obtain ⟨rfl, rfl⟩ := pure_ok.mp h
  rw [issueSession, createSession, get_bind] at hissue
  obtain ⟨_, hissue⟩ := require_bind_ok.mp hissue
  rw [write_ok.mp hissue]
  refine ⟨rfl, ?_, fun k hk => ?_⟩
  · simp [rows, List.filter_filter]
  · rw [rows, rows, List.filter_filter]
    congr 1
    apply List.filter_congr
    intro row _
    by_cases hrow : row.subjectKey = k
    · simp [hrow, hk]
    · simp [hrow]

theorem settle_sound (h : Sound platform w told) (hact : settle platform env id w = .ok (e, w')) :
    Sound platform w' fun key => tallyStep key (told key) e := by
  simp only [settle, attemptOf, fetch_bind_ok, get_bind] at hact
  obtain ⟨a, ha, hact⟩ := hact
  have hkept (hrefused : a.phase ≠ .refused) (hheld : a.phase.holdsLock = true) :
      Sound platform { w with attempts := w.attempts.erase id } told := by
    apply h.settled ha hheld (h.sees ha hheld hrefused)
    exact fun _ _ => ⟨rfl, rfl⟩
  cases hphase : a.phase with
  | waiting =>
    rw [hphase] at hact
    exact absurd hact throw_ok
  | locked =>
    rw [hphase] at hact
    exact absurd hact throw_ok
  | admitted =>
    rw [hphase] at hact
    exact absurd hact throw_ok
  | throttled n =>
    have hset : settlement platform env a w.directory = .ok (.throttled n, w.directory) := by
      rw [settlement, hphase]
      rfl
    simp only [hphase, hset, write_bind, pure_ok] at hact
    obtain ⟨rfl, rfl⟩ := hact
    exact hkept (by rw [hphase]; exact nofun) (by rw [hphase]; rfl)
  | refused =>
    have hset : settlement platform env a w.directory = refuse (a.key platform) a.now w.directory := by
      rw [settlement, hphase]
    simp only [hphase, hset, write_bind] at hact
    cases hrefuse : refuse (a.key platform) a.now w.directory with
    | error => cases hrefuse
    | ok result =>
      obtain ⟨outcome, d⟩ := result
      obtain ⟨rfl, hown, hother⟩ := rows_refuse hrefuse
      simp only [hrefuse, write_bind, pure_ok] at hact
      obtain ⟨rfl, rfl⟩ := hact
      apply h.settled ha (by rw [hphase]; rfl)
      · rw [hown]
        exact h.pending id a ha hphase
      · exact fun key hkey => ⟨rfl, hother key hkey⟩
  | accepted user =>
    have hset : settlement platform env a w.directory = signIn platform env user (a.key platform) a.tokens w.directory := by
      rw [settlement, hphase]
    simp only [hphase, hset, write_bind] at hact
    cases hsign : signIn platform env user (a.key platform) a.tokens w.directory with
    | error =>
      simp only [hsign, pure_ok] at hact
      obtain ⟨rfl, rfl⟩ := hact
      exact hkept (by rw [hphase]; exact nofun) (by rw [hphase]; rfl)
    | ok result =>
      obtain ⟨_, _⟩ := result
      obtain ⟨rfl, hown, hother⟩ := rows_signIn hsign
      simp only [hsign, write_bind, pure_ok] at hact
      obtain ⟨rfl, rfl⟩ := hact
      apply h.settled ha (by rw [hphase]; rfl)
      · rw [hown]
        exact if_pos rfl
      · exact fun key hkey => ⟨if_neg (Ne.symm hkey), hother key hkey⟩

def SameFailures (d d' : Directory) : Prop := d'.failures = d.failures

instance : Std.Refl SameFailures := ⟨fun _ => rfl⟩

instance : IsTrans Directory SameFailures := ⟨fun _ _ _ h₁ h₂ => Eq.trans h₂ h₁⟩

theorem act_sound {a : Act} (h : Sound platform w told) (hact : act platform env a w = .ok (e, w')) :
    Sound platform w' fun key => tallyStep key (told key) e := by
  cases a with
  | arrive =>
    simp only [act, arrive, get_bind, require_bind_ok, write_bind, pure_ok] at hact
    obtain ⟨hfresh, rfl, rfl⟩ := hact
    exact h.arrive hfresh rfl
  | acquire =>
    obtain ⟨rfl, hsound⟩ := acquire_sound h hact
    exact hsound
  | count =>
    obtain ⟨_, _, _, rfl, _⟩ := count_cases hact
    exact count_sound h hact
  | verify => exact verify_sound h hact
  | settle => exact settle_sound h hact
  | beside op =>
    simp only [act, require_bind_ok, get_bind, lift_bind_ok] at hact
    obtain ⟨hop, ⟨_, d⟩, hexec, hact⟩ := hact
    simp only [write_bind, pure_ok] at hact
    obtain ⟨rfl, rfl⟩ := hact
    have hframes : Frames SameFailures := ⟨fun _ _ _ => rfl, fun _ _ => rfl, fun _ _ => rfl, fun _ _ _ _ => rfl⟩
    have hsame : SameFailures w.directory d := by
      refine exec_within hframes env op (fun hcounts => ?_) (fun _ _ _ => rfl) hexec
      rw [hop] at hcounts
      cases hcounts
    exact h.beside hsame

end Steps

section Runs
variable {platform : Platform} {w : World}

theorem executes_sound {log : WorldHistory} (h : WorldExecutes platform log w) : Sound platform w (tally log) := by
  induction h with
  | nil =>
    have hnone : ∀ i, ({} : World).attempts.lookup i = none := fun i => AList.lookup_empty i
    refine ⟨fun i _ _ _ hi => ?_, fun i _ hi => ?_, fun i _ hi => ?_, fun _ _ => rfl⟩ <;>
    · rw [hnone] at hi
      cases hi
  | @snoc log s s' i e _ hstep ih =>
    have hnew := act_sound ih hstep
    have htally : tally (log ++ [⟨s, i, e, s'⟩]) = fun key => tallyStep key (tally log key) e := by
      funext key
      exact tally_snoc _ _ _
    rw [htally]
    exact hnew

theorem settle_event {env : Env} {id : Nat} {w w' : World} {e : Event} (h : settle platform env id w = .ok (e, w')) :
    e = .quiet ∨ ∃ key outcome, e = .ended key outcome := by
  simp only [settle, attemptOf, fetch_bind_ok, get_bind] at h
  obtain ⟨a, _, h⟩ := h
  cases hphase : a.phase <;> rw [hphase] at h
  case waiting | locked | admitted => exact absurd h throw_ok
  all_goals
    simp only [write_bind] at h
    cases hset : settlement platform env a w.directory with
    | error =>
      simp only [hset, pure_ok] at h
      exact .inl h.1.symm
    | ok =>
      simp only [hset, write_bind, pure_ok] at h
      exact .inr ⟨_, _, h.1.symm⟩

theorem act_event {env : Env} {a : Act} {w w' : World} {e : Event} (h : act platform env a w = .ok (e, w')) :
    (∃ id, a = .count id) ∨ (∃ id, a = .verify id) ∨ e = .quiet ∨ ∃ key outcome, e = .ended key outcome := by
  cases a with
  | arrive =>
    simp only [act, arrive, get_bind, require_bind_ok, write_bind, pure_ok] at h
    exact .inr (.inr (.inl h.2.1.symm))
  | acquire =>
    simp only [act, acquire, attemptOf, fetch_bind_ok, get_bind] at h
    obtain ⟨a, _, h⟩ := h
    cases hphase : a.phase with
    | waiting =>
      simp only [hphase, setPhase, require_bind_ok, write_bind, pure_ok] at h
      exact .inr (.inr (.inl h.2.1.symm))
    | _ =>
      rw [hphase] at h
      exact absurd h throw_ok
  | count id => exact .inl ⟨id, rfl⟩
  | verify id => exact .inr (.inl ⟨id, rfl⟩)
  | settle => exact .inr (.inr (settle_event h))
  | beside =>
    simp only [act, require_bind_ok, get_bind, lift_bind_ok] at h
    obtain ⟨_, ⟨_, _⟩, _, h⟩ := h
    simp only [write_bind, pure_ok] at h
    exact .inr (.inr (.inl h.1.symm))

theorem guess_room {log : WorldHistory} {env : Env} {a : Act} {w' : World} {now : Time} {matched : Bool}
    (h : WorldExecutes platform log w) (hact : act platform env a w = .ok (.verified key now matched, w')) :
    recent loginFailureWindow now (tally log key) < loginFailureLimit := by
  rcases act_event hact with ⟨id, rfl⟩ | ⟨id, rfl⟩ | hquiet | ⟨_, _, hended⟩
  · obtain ⟨_, _, _, he, _⟩ := count_cases hact
    cases he
  · obtain ⟨a, ha, hphase, he, _⟩ := verify_cases hact
    obtain ⟨rfl, rfl, _⟩ := Event.verified.inj he
    have hsound := executes_sound h
    rw [hsound.sees ha (by rw [hphase]; rfl) (by rw [hphase]; exact nofun)]
    exact hsound.room id a ha hphase
  · cases hquiet
  · cases hended

theorem counted_eq {log : WorldHistory} {env : Env} {a : Act} {w' : World} {now : Time} {n : Option Int}
    (h : WorldExecutes platform log w) (hact : act platform env a w = .ok (.counted key now n, w')) :
    n = throttleFor ((tally log key).filter fun t => now - loginFailureWindow < t) now := by
  rcases act_event hact with ⟨id, rfl⟩ | ⟨_, rfl⟩ | hquiet | ⟨_, _, hended⟩
  · obtain ⟨_, ha, hphase, he, _⟩ := count_cases hact
    obtain ⟨rfl, rfl, rfl⟩ := Event.counted.inj he
    rw [(executes_sound h).sees ha (by rw [hphase]; rfl) (by rw [hphase]; exact nofun)]
    congr 1
    rw [loginFailuresSince, rows, List.filter_map, List.filter_filter]
    congr 1
    apply List.filter_congr
    intro _ _
    simp [Bool.and_comm]
  · obtain ⟨_, _, _, he, _⟩ := verify_cases hact
    cases he
  · cases hquiet
  · cases hended

theorem guesses_admitted {l m : WorldHistory} (h : WorldExecutes platform (l ++ m) w)
    (hm : ∀ c ∈ m, signsIn key c = false) : Admitted loginFailureLimit loginFailureWindow (guesses key m) := by
  induction m using List.reverseRecOn generalizing w with
  | nil => exact .nil
  | append_singleton m c ih =>
    rw [← List.append_assoc] at h
    obtain ⟨hrun, hstep, _⟩ := h.split
    have hm' : ∀ c ∈ m, signsIn key c = false := fun c' hc' => hm c' (List.mem_append_left _ hc')
    have hrest := ih hrun hm'
    rw [guesses, List.filterMap_append]
    cases hans : c.answer with
    | verified k t matched =>
      cases matched with
      | true => simpa [guesses, hans] using hrest
      | false =>
        by_cases hk : k = key
        · subst hk
          have hroom : recent loginFailureWindow t (tally (l ++ m) k) < loginFailureLimit := by
            unfold WorldStep at hstep
            rw [hans] at hstep
            exact guess_room hrun hstep
          rw [tally_append hm', recent_append] at hroom
          have hsnoc := Admitted.snoc hrest (Nat.lt_of_le_of_lt (Nat.le_add_left _ _) hroom)
          simpa [guesses, hans] using hsnoc
        · simpa [guesses, hans, hk] using hrest
    | _ => simpa [guesses, hans] using hrest

/-- Between two successes of an account, any window of fifteen minutes holds at most `LOGIN_FAILURE_LIMIT`
guesses; and of two logins with one account key, one clock reading and the same guesses behind them, both are
throttled for as long or neither is, whatever passwords they present and whichever accounts exist. -/
theorem guessing_bounded (platform : Platform) :
    (∀ l m r w key start, WorldExecutes platform (l ++ m ++ r) w → (∀ c ∈ m, signsIn key c = false) →
      inWindow loginFailureWindow start (guesses key m) ≤ loginFailureLimit) ∧
    ∀ log log' w₁ w₁' w₂ w₂' i i' key now n n',
      WorldExecutes platform log w₁ → WorldStep platform w₁ i (.counted key now n) w₂ →
      WorldExecutes platform log' w₁' → WorldStep platform w₁' i' (.counted key now n') w₂' →
      tally log key = tally log' key → n = n' := by
  constructor
  · intro l m r w key start h hm
    have hprefix : ∃ w', WorldExecutes platform (l ++ m) w' := by
      cases r with
      | nil => exact ⟨w, by simpa using h⟩
      | cons => exact ⟨_, h.split.1⟩
    obtain ⟨_, hrun⟩ := hprefix
    exact (guesses_admitted hrun hm).inWindow_le start
  · intro _ _ _ _ _ _ _ _ _ _ _ _ h hstep h' hstep' htally
    rw [counted_eq h hstep, counted_eq h' hstep', htally]

end Runs

section Example

def attemptActs (inputs : List (Env × Act)) : WorldHistory × World :=
  replay (fun w i => (act plain i.1 i.2 w).toOption) {} inputs

theorem attemptActs_executes (inputs : List (Env × Act)) :
    WorldExecutes plain (attemptActs inputs).1 (attemptActs inputs).2 := by
  apply replay_execution
  intro _ _ _ _ h
  exact ok_of_toOption h

def atTime (now : Time) : Env := { asking (idp "" "" "") with now }

def trying (id : Nat) (now : Time) (password : String) : List (Env × Act) :=
  [(atTime now, .arrive id "root" password { sessionToken := "token", csrfToken := "csrf" }), (atTime now, .acquire id),
    (atTime now, .count id), (atTime now, .verify id), (atTime now, .settle id)]

def fiveWrong : List (Env × Act) :=
  trying 0 40 "a" ++ trying 1 10 "b" ++ trying 2 30 "c" ++ trying 3 20 "d" ++ trying 4 50 "e"

def sixthLocked : List (Env × Act) := (trying 5 60 "pw").take 2

def withAccount : List (Env × Act) :=
  (atTime 0, .beside (.bootstrap "bootstrap" { subject := "root", displayName := "Root", password := "pw" } 1)) ::
    (fiveWrong ++ sixthLocked)

private theorem sixth_counted (inputs : List (Env × Act))
    (h : (act plain (atTime 60) (.count 5) (attemptActs inputs).2).toOption.map (·.1) =
      some (.counted "root" 60 (some 900))) :
    ∃ w, WorldStep plain (attemptActs inputs).2 (atTime 60, .count 5) (.counted "root" 60 (some 900)) w := by
  obtain ⟨⟨_, w⟩, hact, rfl⟩ := Option.map_eq_some_iff.mp h
  exact ⟨w, ok_of_toOption hact⟩

/-- Five guesses, out of the order of their clocks, fill the window; the sixth login is throttled with the right
password and an account as it is without any account. -/
theorem sixth_guess_throttled :
    guesses "root" (attemptActs withAccount).1 = [40, 10, 30, 20, 50] ∧
      inWindow loginFailureWindow 10 (guesses "root" (attemptActs withAccount).1) ≤ loginFailureLimit ∧
      ∃ n n' w w', WorldStep plain (attemptActs withAccount).2 (atTime 60, .count 5) (.counted "root" 60 n) w ∧
        WorldStep plain (attemptActs (fiveWrong ++ sixthLocked)).2 (atTime 60, .count 5) (.counted "root" 60 n') w' ∧
        n = n' := by
  have hnone : ∀ c ∈ (attemptActs withAccount).1, signsIn "root" c = false := by decide
  have hrun : WorldExecutes plain ([] ++ (attemptActs withAccount).1 ++ []) (attemptActs withAccount).2 := by
    simpa using attemptActs_executes withAccount
  have hbound := (guessing_bounded plain).1 [] _ [] _ "root" 10 hrun hnone
  obtain ⟨w, hstep⟩ := sixth_counted withAccount (by decide)
  obtain ⟨w', hstep'⟩ := sixth_counted (fiveWrong ++ sixthLocked) (by decide)
  have htally : tally (attemptActs withAccount).1 "root" = tally (attemptActs (fiveWrong ++ sixthLocked)).1 "root" := by
    decide
  refine ⟨by decide, hbound, _, _, w, w', hstep, hstep', ?_⟩
  exact (guessing_bounded plain).2 _ _ _ _ _ _ _ _ _ _ _ _ (attemptActs_executes withAccount) hstep
    (attemptActs_executes (fiveWrong ++ sixthLocked)) hstep' htally

end Example

end TinyHermes.Identity.LoginThrottle
