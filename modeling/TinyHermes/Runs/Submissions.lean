import TinyHermes.Runs.KeyRecords

/-! Submissions that overlap: the first statement of one inserts its key, and until its transaction ends whoever inserts the same
key waits for it. -/
namespace TinyHermes.Runs.Submissions
open Lib Tx SqlRunStore KeyRecords

/-- A request for a Run under a key, with the `uuid4` the Run would get. -/
inductive Request where
  | accept (cmd : AcceptRunCommand) (runId : Uuid)
  | retry (cmd : RetryRunCommand) (runId : Uuid)

namespace Request

def scope : Request → IdempotencyScope
  | accept cmd _ => cmd.scope
  | retry cmd _ => cmd.scope

def fingerprint : Request → String
  | accept cmd _ => cmd.requestFingerprint
  | retry cmd _ => cmd.requestFingerprint

def runId : Request → Uuid
  | accept _ runId => runId
  | retry _ runId => runId

/-- What `derive_retry` asks before it turns to the store. -/
def allowed : Request → Bool
  | accept _ _ => true
  | retry cmd _ => cmd.canRetry

/-- What a submission that got the key does next, up to the response. -/
def create (env : Env) : Request → StoreTx Unit
  | accept cmd runId => do
    let session ← lockSession cmd.workspaceId cmd.sessionId
    let (versionId, limits) ← publishedVersion env session
    mint runId
    joinSession cmd.sessionId runId (acceptedRow env cmd session versionId runId)
    appendMessages cmd.sessionId runId cmd.message.toList
    Tx.write fun s => { s with
      budgets := s.budgets.insert runId (newBudget limits env.now (env.catalog.costCeiling cmd.workspaceId)) }
    appendEvents env cmd.workspaceId runId
      [{ eventType := .runCreated, payload := [("session_sequence", toString session.nextRunSequence)] }]
  | retry cmd runId => do
    let source ← lockRun cmd.workspaceId cmd.sourceRunId .unknownRun
    let session ← lockSession cmd.workspaceId source.sessionId
    let budget ← Tx.fetch (·.budgets.lookup source.budgetRootRunId) .unknownRun
    let s ← get
    match retryBlocker env s source session budget with
    | some blocker => throw blocker
    | none => do
      Tx.write fun s => { s with
        budgets := s.budgets.modify source.budgetRootRunId fun row =>
          { row with derivedRetryCount := row.derivedRetryCount + 1, version := row.version + 1 } }
      mint runId
      joinSession source.sessionId runId (retryRow env cmd source session)
      copyCheckpointMessages source.sessionId cmd.sourceRunId runId
      appendEvents env cmd.workspaceId cmd.sourceRunId
        [{ eventType := .runRetryDerived, payload := [("derived_run_id", toString runId)] }]
      appendEvents env cmd.workspaceId runId
        [{ eventType := .runCreated, payload := [("retry_of_run_id", toString cmd.sourceRunId)] }]

def alone (env : Env) : Request → StoreTx AcceptedRun
  | accept cmd runId => acceptRun env cmd runId
  | retry cmd runId => deriveRetry env cmd runId

end Request

inductive Phase where
  | arrived
  /-- The key was there; its record comes next. -/
  | conflicted
  /-- The key is inserted, and not committed. -/
  | claimed
  deriving DecidableEq, Repr

structure Submission where
  request : Request
  phase : Phase := .arrived

variable {Doc : Type}

/-- What is committed, and the submissions under way. `documents` is the column `response_snapshot` of `records`. -/
structure World (Doc : Type) where
  store : Store := {}
  documents : Table IdempotencyScope Doc := ∅
  under : Table Nat Submission := ∅

inductive Outcome (Doc : Type) where
  | none
  | created (runId : Uuid) (document : Doc)
  | replayed (runId : Uuid) (document : Doc)
  | refused (e : StoreError)
  deriving DecidableEq

inductive Act where
  | arrive (id : Nat) (request : Request)
  | insert (id : Nat)
  | read (id : Nat)
  | finish (id : Nat)
  /-- The transaction is rolled back, for whatever reason. -/
  | fail (id : Nat)
  | sweep (doomed : List IdempotencyScope)
  | other (op : Op)

/-- Whoever inserts the key of `scope` now has to wait for a transaction that has inserted it. -/
def World.held (w : World Doc) (scope : IdempotencyScope) : Bool :=
  !(w.under.select fun _ p => p.phase = .claimed && p.request.scope = scope).isEmpty

def World.leave (w : World Doc) (id : Nat) : World Doc := { w with under := w.under.erase id }

def World.move (w : World Doc) (id : Nat) (phase : Phase) : World Doc :=
  { w with under := w.under.modify id fun p => { p with phase } }

/-- `INSERT … ON CONFLICT DO NOTHING`. -/
def insertKey (w : World Doc) (id : Nat) : Option (Outcome Doc × World Doc) := do
  let p ← w.under.lookup id
  if p.phase = .arrived ∧ w.held p.request.scope = false then
    match w.store.records.lookup p.request.scope with
    | none => some (.none, w.move id .claimed)
    | some _ => some (.none, w.move id .conflicted)
  else none

/-- `_read_record`, and what its caller makes of it. -/
def readRecord (w : World Doc) (id : Nat) : Option (Outcome Doc × World Doc) := do
  let p ← w.under.lookup id
  if p.phase = .conflicted then
    match w.store.records.lookup p.request.scope with
    | none => some (.refused .idempotencyKeyReused, w.leave id)
    | some existing =>
      match existing.runId, w.documents.lookup p.request.scope with
      | some runId, some document =>
        if existing.requestFingerprint = p.request.fingerprint then some (.replayed runId document, w.leave id)
        else some (.refused .idempotencyKeyReused, w.leave id)
      | _, _ => some (.refused .idempotencyKeyReused, w.leave id)
  else none

def withKey (s : Store) (request : Request) : Store :=
  { s with records := s.records.insert request.scope { requestFingerprint := request.fingerprint } }

/-- The Run, the response document and the commit. What this reads is new, or locked until the end: it is one step. -/
def finish (document : Store → Uuid → Doc) (env : Env) (w : World Doc) (id : Nat) : Option (Outcome Doc × World Doc) := do
  let p ← w.under.lookup id
  if p.phase = .claimed then
    match p.request.create env (withKey w.store p.request) with
    | .error e => some (.refused e, w.leave id)
    | .ok (_, s) =>
      match storeResponse p.request.scope p.request.runId s with
      | .error e => some (.refused e, w.leave id)
      | .ok (_, s') =>
        some (.created p.request.runId (document s p.request.runId),
          { w.leave id with
            store := s'
            documents := w.documents.insert p.request.scope (document s p.request.runId) })
  else none

def expired (now : Time) (row : IdempotencyRecordRow) : Bool := row.expiresAt.any fun at' => decide (at' ≤ now)

/-- `delete_expired_idempotency_records`. -/
def deleteExpired (now : Time) (doomed : List IdempotencyScope) (s : Store) : Option Store :=
  if doomed.all fun scope => (s.records.lookup scope).any (expired now) then
    some { s with records := doomed.foldl (fun records scope => records.erase scope) s.records }
  else none

def act (document : Store → Uuid → Doc) (env : Env) (w : World Doc) : Act → Option (Outcome Doc × World Doc)
  | .arrive id request =>
    if w.under.lookup id = none ∧ request.allowed = true then
      some (.none, { w with under := w.under.insert id { request } })
    else none
  | .insert id => insertKey w id
  | .read id => readRecord w id
  | .finish id => finish document env w id
  | .fail id => some (.none, w.leave id)
  | .sweep doomed => (deleteExpired env.now doomed w.store).map fun s => (.none, { w with store := s })
  | .other op =>
    if submits op = true then none
    else ((exec env op w.store).toOption).map fun (_, s) => (.none, { w with store := s })

variable {scope : IdempotencyScope} {fingerprint : String}

section Alone
variable {env : Env} {request : Request} {s : Store}

theorem claimIdempotency_of_free (hfree : s.records.lookup scope = none) :
    claimIdempotency scope fingerprint s =
      .ok (none, { s with records := s.records.insert scope { requestFingerprint := fingerprint } }) := by
  rw [claimIdempotency, get_bind, hfree]
  rfl

theorem claimIdempotency_of_recorded {scope : IdempotencyScope} {fingerprint : String} {existing : IdempotencyRecordRow}
    (hrecord : s.records.lookup scope = some existing) :
    claimIdempotency scope fingerprint s =
      match existing.runId with
      | some runId =>
        if existing.requestFingerprint = fingerprint then .ok (some { runId, replayed := true }, s)
        else .error .idempotencyKeyReused
      | none => .error .idempotencyKeyReused := by
  rw [claimIdempotency, get_bind, hrecord]
  cases hrun : existing.runId with
  | none =>
    simp only [hrun]
    rfl
  | some =>
    simp only [hrun, require_bind_run]
    split_ifs <;> rfl

theorem alone_eq (hallowed : request.allowed = true) :
    request.alone env s = (claimIdempotency request.scope request.fingerprint >>= fun replay =>
      match replay with
      | some accepted => pure accepted
      | none => request.create env >>= fun _ => storeResponse request.scope request.runId >>= fun _ =>
        pure { runId := request.runId, replayed := false } : StoreTx AcceptedRun) s := by
  cases request with
  | accept cmd runId =>
    simp only [Request.alone, acceptRun, Request.create, bind_assoc]
    rfl
  | retry cmd runId =>
    have hcan : cmd.canRetry = true := hallowed
    rw [Request.alone, deriveRetry, require_bind_run, if_pos hcan]
    refine congrArg (fun f => (claimIdempotency cmd.scope cmd.requestFingerprint >>= f) s) (funext fun replay => ?_)
    cases replay with
    | some => rfl
    | none =>
      simp only [Request.create, bind_assoc]
      refine congrArg (bind _) (funext fun source => congrArg (bind _) (funext fun session => ?_))
      refine congrArg (bind _) (funext fun budget => congrArg (bind _) (funext fun t => ?_))
      cases retryBlocker env t source session budget with
      | some => rfl
      | none =>
        simp only [bind_assoc]
        rfl

theorem alone_of_free (hallowed : request.allowed = true) (hfree : s.records.lookup request.scope = none) :
    request.alone env s =
      (request.create env >>= fun _ => storeResponse request.scope request.runId >>= fun _ =>
        pure { runId := request.runId, replayed := false } : StoreTx AcceptedRun) (withKey s request) := by
  rw [alone_eq hallowed, bind_of_ok (claimIdempotency_of_free hfree)]
  rfl

theorem alone_of_recorded {existing : IdempotencyRecordRow} (hallowed : request.allowed = true)
    (hrecord : s.records.lookup request.scope = some existing) :
    request.alone env s =
      match existing.runId with
      | some runId =>
        if existing.requestFingerprint = request.fingerprint then .ok ({ runId, replayed := true }, s)
        else .error .idempotencyKeyReused
      | none => .error .idempotencyKeyReused := by
  rw [alone_eq hallowed]
  have hclaim := @claimIdempotency_of_recorded _ _ request.fingerprint _ hrecord
  cases hrun : existing.runId with
  | none =>
    rw [hrun] at hclaim
    exact bind_of_error hclaim
  | some =>
    rw [hrun] at hclaim
    by_cases hsame : existing.requestFingerprint = request.fingerprint
    · simp only [if_pos hsame] at hclaim ⊢
      exact bind_of_ok hclaim
    · simp only [if_neg hsame] at hclaim ⊢
      exact bind_of_error hclaim

end Alone

def Performs (document : Store → Uuid → Doc) (w : World Doc) (i : Env × Act) (o : Outcome Doc) (w' : World Doc) : Prop :=
  act document i.1 w i.2 = some (o, w')

abbrev WorldCommit (Doc : Type) := Commit (World Doc) (Env × Act) (Outcome Doc)

abbrev WorldHistory (Doc : Type) := List (WorldCommit Doc)

abbrev WorldExecutes (document : Store → Uuid → Doc) (log : WorldHistory Doc) (w : World Doc) : Prop :=
  Execution (Performs document) {} log w

def Act.answers : Act → Option Nat
  | .read id | .finish id => some id
  | _ => none

variable {id : Nat}

theorem answers_eq {x : Act} : x.answers = some id ↔ x = .read id ∨ x = .finish id := by
  cases x <;> simp [Act.answers]

def Answers (c : WorldCommit Doc) (scope : IdempotencyScope) (fingerprint : String) : Prop :=
  ∃ id p, c.input.2.answers = some id ∧ c.before.under.lookup id = some p ∧ p.request.scope = scope ∧
    p.request.fingerprint = fingerprint

def Creates (c : WorldCommit Doc) (scope : IdempotencyScope) (fingerprint : String)
    (runId : Uuid) (document : Doc) : Prop :=
  Answers c scope fingerprint ∧ c.answer = .created runId document

def SweptAway (c : WorldCommit Doc) (scope : IdempotencyScope) : Prop :=
  ∃ doomed row, c.input.2 = .sweep doomed ∧ scope ∈ doomed ∧ c.before.store.records.lookup scope = some row ∧
    expired c.input.1.now row = true

variable {runId : Uuid}

section Steps
variable {document : Store → Uuid → Doc} {env : Env} {w w' : World Doc} {o : Outcome Doc} {x : Act}

theorem held_eq_true :
    w.held scope = true ↔ ∃ id p, w.under.lookup id = some p ∧ p.phase = .claimed ∧ p.request.scope = scope := by
  rw [World.held, Bool.not_eq_true', List.isEmpty_eq_false_iff_exists_mem]
  constructor
  · rintro ⟨⟨id, p⟩, hmem⟩
    obtain ⟨hp, hkey⟩ := Table.mem_select.mp hmem
    simp only [Bool.and_eq_true, decide_eq_true_eq] at hkey
    exact ⟨id, p, hp, hkey⟩
  · rintro ⟨id, p, hp, hkey⟩
    refine ⟨(id, p), Table.mem_select.mpr ⟨hp, ?_⟩⟩
    simpa using hkey

def Holds (p : Submission) (scope : IdempotencyScope) : Prop := p.phase = .claimed ∧ p.request.scope = scope

structure Sound (w : World Doc) : Prop where
  free : ∀ id p scope, w.under.lookup id = some p → Holds p scope → recorded w.store scope = none
  single : Table.Exclusive Holds w.under

theorem create_records (request : Request) : Within SameRecords (request.create env) := by
  cases request with
  | accept =>
    refine Within.bind (Within.fetch _ _) fun session => ?_
    refine Within.bind Operations.publishedVersion_within fun version => Within.bind mint_records fun _ => ?_
    refine Within.bind joinSession_records fun _ => Within.bind appendMessages_records fun _ => ?_
    exact Within.bind (write_records fun _ => rfl) fun _ => appendEvents_records
  | retry =>
    refine Within.bind (Within.fetch _ _) fun source => Within.bind (Within.fetch _ _) fun session => ?_
    refine Within.bind (Within.fetch _ _) fun budget => Within.bind Within.get fun s => ?_
    split
    · exact Within.throw _
    refine Within.bind (write_records fun _ => rfl) fun _ => Within.bind mint_records fun _ => ?_
    refine Within.bind joinSession_records fun _ => ?_
    refine Within.bind (Within.bind Within.get fun _ => appendMessages_records) fun _ => ?_
    exact Within.bind appendEvents_records fun _ => appendEvents_records

theorem recorded_withKey {s : Store} {request : Request} (scope : IdempotencyScope) :
    recorded (withKey s request) scope = if scope = request.scope then some (request.fingerprint, none) else recorded s scope := by
  rw [recorded, withKey, Table.lookup_insert_ite]
  split_ifs <;> rfl

theorem storeResponse_recorded {s s' : Store} {u : Unit}
    (h : storeResponse scope runId s = .ok (u, s')) (key : IdempotencyScope) :
    recorded s' key = if key = scope then (recorded s key).map fun x => (x.1, some runId) else recorded s key := by
  rw [storeResponse, fetch_bind_ok] at h
  obtain ⟨_, _, h⟩ := h
  obtain rfl := write_ok.mp h
  simp only [recorded, Table.lookup_modify]
  split_ifs
  · simp only [Option.map_map]
    rfl
  · rfl

theorem finish_cases (h : finish document env w id = some (o, w')) :
    ∃ p, w.under.lookup id = some p ∧ Holds p p.request.scope ∧ w'.under = w.under.erase id ∧
      ((∃ e, o = .refused e ∧ w' = w.leave id) ∨
        ∃ d, o = .created p.request.runId d ∧ w'.documents = w.documents.insert p.request.scope d ∧
          ∀ scope, recorded w'.store scope =
            if scope = p.request.scope then some (p.request.fingerprint, some p.request.runId) else recorded w.store scope) := by
  simp only [finish, Option.bind_eq_bind, Option.bind_eq_some_iff] at h
  obtain ⟨p, hp, h⟩ := h
  split_ifs at h with hphase
  refine ⟨p, hp, ⟨hphase, rfl⟩, ?_⟩
  cases hcreate : p.request.create env (withKey w.store p.request) with
  | error e =>
    simp only [hcreate] at h
    cases h
    exact ⟨rfl, .inl ⟨e, rfl, rfl⟩⟩
  | ok r =>
    obtain ⟨_, s⟩ := r
    have hsame : recorded s = recorded (withKey w.store p.request) := create_records p.request hcreate
    cases hstore : storeResponse p.request.scope p.request.runId s with
    | error e =>
      simp only [hcreate, hstore] at h
      cases h
      exact ⟨rfl, .inl ⟨e, rfl, rfl⟩⟩
    | ok r =>
      obtain ⟨_, _⟩ := r
      simp only [hcreate, hstore] at h
      cases h
      refine ⟨rfl, .inr ⟨_, rfl, rfl, fun scope => ?_⟩⟩
      rw [storeResponse_recorded hstore, hsame, recorded_withKey]
      split_ifs <;> rfl

theorem read_leaves (h : readRecord w id = some (o, w')) :
    w' = w.leave id ∧ ∀ runId d, o ≠ .created runId d := by
  simp only [readRecord, Option.bind_eq_bind, Option.bind_eq_some_iff] at h
  obtain ⟨_, _, h⟩ := h
  split_ifs at h with hphase
  have hdone : ∀ o', o' = o ∧ w.leave id = w' → (∀ runId d, o' ≠ .created runId d) →
      w' = w.leave id ∧ ∀ runId d, o ≠ .created runId d := by
    rintro _ ⟨rfl, rfl⟩ hnew
    exact ⟨rfl, hnew⟩
  split at h
  · exact hdone _ (Prod.mk.inj (Option.some.inj h)) fun _ _ heq => (nomatch heq)
  · split at h
    · split_ifs at h
      · exact hdone _ (Prod.mk.inj (Option.some.inj h)) fun _ _ heq => (nomatch heq)
      · exact hdone _ (Prod.mk.inj (Option.some.inj h)) fun _ _ heq => (nomatch heq)
    · exact hdone _ (Prod.mk.inj (Option.some.inj h)) fun _ _ heq => (nomatch heq)

theorem read_recorded {p : Submission} {d : Doc}
    (h : readRecord w id = some (o, w')) (hp : w.under.lookup id = some p)
    (hrecord : recorded w.store p.request.scope = some (fingerprint, some runId))
    (hdocument : w.documents.lookup p.request.scope = some d) :
    o = if fingerprint = p.request.fingerprint then .replayed runId d else .refused .idempotencyKeyReused := by
  obtain ⟨_, hrow, heq⟩ := Option.map_eq_some_iff.mp hrecord
  obtain ⟨hfingerprint, hrun⟩ := Prod.mk.inj heq
  simp only [readRecord, hp, hrow, hrun, hdocument, hfingerprint, Option.bind_eq_bind, Option.bind_some] at h
  split_ifs at h ⊢
  · exact (Prod.mk.inj (Option.some.inj h)).1.symm
  · exact (Prod.mk.inj (Option.some.inj h)).1.symm

theorem read_unrecorded {p : Submission} (h : readRecord w id = some (o, w'))
    (hp : w.under.lookup id = some p) (hrecord : recorded w.store p.request.scope = none) :
    o = .refused .idempotencyKeyReused := by
  rw [recorded_eq_none] at hrecord
  simp only [readRecord, hp, hrecord, Option.bind_eq_bind, Option.bind_some] at h
  split_ifs at h
  exact (Prod.mk.inj (Option.some.inj h)).1.symm

theorem insertKey_cases (h : insertKey w id = some (o, w')) :
    ∃ p, w.under.lookup id = some p ∧ w.held p.request.scope = false ∧
      ((recorded w.store p.request.scope = none ∧ w' = w.move id .claimed) ∨ w' = w.move id .conflicted) := by
  simp only [insertKey, Option.bind_eq_bind, Option.bind_eq_some_iff] at h
  obtain ⟨p, hp, h⟩ := h
  split_ifs at h with hphase
  refine ⟨p, hp, hphase.2, ?_⟩
  cases hrow : w.store.records.lookup p.request.scope with
  | none =>
    simp only [hrow] at h
    exact .inl ⟨recorded_eq_none.mpr hrow, (Prod.mk.inj (Option.some.inj h)).2.symm⟩
  | some row =>
    simp only [hrow] at h
    exact .inr (Prod.mk.inj (Option.some.inj h)).2.symm

theorem lookup_foldl_erase (doomed : List IdempotencyScope) (records : Table IdempotencyScope IdempotencyRecordRow)
    (scope : IdempotencyScope) :
    (doomed.foldl (fun records scope => records.erase scope) records).lookup scope =
      if scope ∈ doomed then none else records.lookup scope := by
  induction doomed generalizing records with
  | nil => rfl
  | cons gone rest ih =>
    rw [List.foldl_cons, ih]
    by_cases hrest : scope ∈ rest
    · rw [if_pos hrest, if_pos (List.mem_cons_of_mem _ hrest)]
    · by_cases hgone : scope = gone
      · rw [if_neg hrest, if_pos (hgone ▸ List.mem_cons_self), hgone, AList.lookup_erase]
      · rw [if_neg hrest, if_neg (by simp [hgone, hrest]), AList.lookup_erase_ne hgone]

theorem deleteExpired_recorded {now : Time} {doomed : List IdempotencyScope} {s s' : Store}
    (h : deleteExpired now doomed s = some s') (scope : IdempotencyScope) :
    recorded s' scope = if scope ∈ doomed then none else recorded s scope := by
  unfold deleteExpired at h
  split_ifs at h
  cases h
  rw [recorded, lookup_foldl_erase]
  split_ifs <;> rfl

theorem act_recorded (h : act document env w x = some (o, w')) (scope : IdempotencyScope) :
    (recorded w'.store scope = recorded w.store scope ∧ w'.documents.lookup scope = w.documents.lookup scope) ∨
      (∃ doomed, x = .sweep doomed ∧ scope ∈ doomed ∧ recorded w'.store scope = none) ∨
      ∃ fingerprint runId d, Creates ⟨w, (env, x), o, w'⟩ scope fingerprint runId d ∧
        recorded w'.store scope = some (fingerprint, some runId) ∧ w'.documents.lookup scope = some d := by
  cases x with
  | arrive =>
    simp only [act] at h
    split_ifs at h
    obtain ⟨_, rfl⟩ := Prod.mk.inj (Option.some.inj h)
    exact .inl ⟨rfl, rfl⟩
  | insert =>
    obtain ⟨p, _, _, ⟨_, rfl⟩ | rfl⟩ := insertKey_cases h
    · exact .inl ⟨rfl, rfl⟩
    · exact .inl ⟨rfl, rfl⟩
  | read =>
    obtain ⟨rfl, _⟩ := read_leaves h
    exact .inl ⟨rfl, rfl⟩
  | finish id =>
    obtain ⟨p, hp, _, _, ⟨_, rfl, rfl⟩ | ⟨d, rfl, hdocuments, hrecords⟩⟩ := finish_cases h
    · exact .inl ⟨rfl, rfl⟩
    · have hrecord := hrecords scope
      rw [hdocuments, Table.lookup_insert_ite]
      by_cases hscope : scope = p.request.scope
      · rw [if_pos hscope] at hrecord ⊢
        exact .inr (.inr ⟨_, _, d, ⟨⟨id, p, rfl, hp, hscope.symm, rfl⟩, rfl⟩, hrecord, rfl⟩)
      · rw [if_neg hscope] at hrecord ⊢
        exact .inl ⟨hrecord, rfl⟩
  | fail =>
    obtain ⟨_, rfl⟩ := Prod.mk.inj (Option.some.inj h)
    exact .inl ⟨rfl, rfl⟩
  | sweep doomed =>
    obtain ⟨s, hs, heq⟩ := Option.map_eq_some_iff.mp h
    obtain ⟨_, rfl⟩ := Prod.mk.inj heq
    have hrecord := deleteExpired_recorded hs scope
    by_cases hscope : scope ∈ doomed
    · rw [if_pos hscope] at hrecord
      exact .inr (.inl ⟨doomed, rfl, hscope, hrecord⟩)
    · rw [if_neg hscope] at hrecord
      exact .inl ⟨hrecord, rfl⟩
  | other =>
    simp only [act] at h
    split_ifs at h with hop
    obtain ⟨⟨_, s⟩, hs, heq⟩ := Option.map_eq_some_iff.mp h
    obtain ⟨_, rfl⟩ := Prod.mk.inj heq
    have hsame : recorded s = recorded w.store := exec_records (by simpa using hop) (ok_of_toOption hs)
    exact .inl ⟨congrFun hsame scope, rfl⟩

theorem sound_leave (hs : Sound w) : Sound (w.leave id) where
  free j p scope hp := hs.free j p scope (Table.lookup_erase_some hp).2
  single := hs.single.erase

theorem sound_move {p : Submission} {phase : Phase} (hs : Sound w) (hp : w.under.lookup id = some p)
    (hclaims : phase = .claimed → recorded w.store p.request.scope = none ∧ w.held p.request.scope = false) :
    Sound (w.move id phase) where
  free j q scope hq hholds := by
    rcases Table.lookup_modify_cases hp hq with ⟨_, rfl⟩ | ⟨_, hq⟩
    · obtain ⟨hphase, rfl⟩ := hholds
      exact (hclaims hphase).1
    · exact hs.free j q scope hq hholds
  single := by
    refine hs.single.modify hp fun scope hholds => .inr fun j q _ hq hother => ?_
    obtain ⟨hphase, rfl⟩ := hholds
    have hheld := held_eq_true.mpr ⟨j, q, hq, hother⟩
    rw [(hclaims hphase).2] at hheld
    cases hheld

theorem Sound.of_store {s : Store} (hs : Sound w) (hrecords : ∀ scope, recorded w.store scope = none → recorded s scope = none) :
    Sound { w with store := s } where
  free j p scope hp hholds := hrecords scope (hs.free j p scope hp hholds)
  single := hs.single

theorem act_sound (hs : Sound w) (h : act document env w x = some (o, w')) : Sound w' := by
  cases x with
  | arrive =>
    simp only [act] at h
    split_ifs at h
    obtain ⟨_, rfl⟩ := Prod.mk.inj (Option.some.inj h)
    refine ⟨fun j p scope hp hholds => ?_, hs.single.insert fun scope hholds => (nomatch hholds.1)⟩
    rw [Table.lookup_insert_ite] at hp
    split_ifs at hp
    · cases hp
      exact (nomatch hholds.1)
    · exact hs.free j p scope hp hholds
  | insert =>
    obtain ⟨p, hp, hheld, ⟨hrecord, rfl⟩ | rfl⟩ := insertKey_cases h
    · exact sound_move hs hp fun _ => ⟨hrecord, hheld⟩
    · exact sound_move hs hp fun hphase => (nomatch hphase)
  | read =>
    obtain ⟨rfl, _⟩ := read_leaves h
    exact sound_leave hs
  | finish =>
    obtain ⟨_, hp, hholds, hunder, ⟨_, _, rfl⟩ | ⟨_, _, _, hrecords⟩⟩ := finish_cases h
    · exact sound_leave hs
    · refine ⟨fun j q scope hq hother => ?_, ?_⟩
      · rw [hunder] at hq
        obtain ⟨hj, hq⟩ := Table.lookup_erase_some hq
        rw [hrecords, if_neg, hs.free j q scope hq hother]
        rintro rfl
        exact hj (hs.single _ _ _ _ _ hq hp hother hholds)
      · rw [hunder]
        exact hs.single.erase
  | fail =>
    obtain ⟨_, rfl⟩ := Prod.mk.inj (Option.some.inj h)
    exact sound_leave hs
  | sweep =>
    obtain ⟨s, hdeleted, heq⟩ := Option.map_eq_some_iff.mp h
    obtain ⟨_, rfl⟩ := Prod.mk.inj heq
    refine hs.of_store fun scope hnone => ?_
    rw [deleteExpired_recorded hdeleted, hnone, ite_self]
  | other =>
    simp only [act] at h
    split_ifs at h with hop
    obtain ⟨⟨_, s⟩, hexec, heq⟩ := Option.map_eq_some_iff.mp h
    obtain ⟨_, rfl⟩ := Prod.mk.inj heq
    have hsame : recorded s = recorded w.store := exec_records (by simpa using hop) (ok_of_toOption hexec)
    refine hs.of_store fun scope hnone => ?_
    rw [hsame, hnone]

def Kept (scope : IdempotencyScope) (fingerprint : String) (runId : Uuid) (d : Doc) (w : World Doc) : Prop :=
  recorded w.store scope = some (fingerprint, some runId) ∧ w.documents.lookup scope = some d

theorem unrecorded_of_creates {c : WorldCommit Doc}
    {d : Doc} (hs : Sound c.before)
    (hstep : Performs document c.before c.input c.answer c.after) (hc : Creates c scope fingerprint runId d) :
    recorded c.before.store scope = none ∧ Kept scope fingerprint runId d c.after := by
  obtain ⟨_, ⟨_, _⟩, _, _⟩ := c
  obtain ⟨⟨id, p, hx, hp, rfl, rfl⟩, rfl⟩ := hc
  obtain rfl | rfl := answers_eq.mp hx
  · exact absurd rfl ((read_leaves hstep).2 _ _)
  · obtain ⟨_, hq, hholds, _, ⟨_, ho, _⟩ | ⟨_, ho, hdocuments, hrecords⟩⟩ := finish_cases hstep
    · cases ho
    · cases hp.symm.trans hq
      obtain ⟨rfl, rfl⟩ := Outcome.created.inj ho
      refine ⟨hs.free id p _ hp hholds, ?_, ?_⟩
      · rw [hrecords, if_pos rfl]
      · rw [hdocuments, AList.lookup_insert]

theorem act_keeps {d : Doc} (hs : Sound w)
    (h : act document env w x = some (o, w')) (hswept : ¬ SweptAway ⟨w, (env, x), o, w'⟩ scope)
    (hkept : Kept scope fingerprint runId d w) : Kept scope fingerprint runId d w' := by
  rcases act_recorded h scope with ⟨hrecord, hdocument⟩ | ⟨doomed, rfl, hdoomed, _⟩ | ⟨_, _, _, hcreates, _⟩
  · exact ⟨hrecord.trans hkept.1, hdocument.trans hkept.2⟩
  · obtain ⟨_, hdeleted, _⟩ := Option.map_eq_some_iff.mp h
    unfold deleteExpired at hdeleted
    split_ifs at hdeleted with hall
    obtain ⟨row, hrow, hexpired⟩ := (Option.any_eq_true _ _).mp (List.all_eq_true.mp hall scope hdoomed)
    exact absurd ⟨doomed, row, rfl, hdoomed, hrow, hexpired⟩ hswept
  · have hnone := (unrecorded_of_creates (c := ⟨w, (env, x), o, w'⟩) hs h hcreates).1
    rw [hkept.1] at hnone
    cases hnone

theorem answered_of_kept {c : WorldCommit Doc}
    {asked : String} {d : Doc} (hs : Sound c.before)
    (hstep : Performs document c.before c.input c.answer c.after) (hkept : Kept scope fingerprint runId d c.before)
    (hc : Answers c scope asked) :
    c.after.store = c.before.store ∧ c.after.documents = c.before.documents ∧
      c.answer = if fingerprint = asked then .replayed runId d else .refused .idempotencyKeyReused := by
  obtain ⟨before, ⟨_, _⟩, _, after⟩ := c
  obtain ⟨id, p, hx, hp, rfl, rfl⟩ := hc
  obtain rfl | rfl := answers_eq.mp hx
  · have hleft : after = before.leave id := (read_leaves hstep).1
    subst hleft
    exact ⟨rfl, rfl, read_recorded hstep hp hkept.1 hkept.2⟩
  · obtain ⟨_, hq, hholds, _⟩ := finish_cases hstep
    cases hp.symm.trans hq
    have hnone := hs.free id p _ hp hholds
    rw [hkept.1] at hnone
    cases hnone

theorem act_unwritten (h : act document env w x = some (o, w')) (hx : (∃ e, o = .refused e) ∨ ∃ id, x = .fail id) :
    w'.store = w.store ∧ w'.documents = w.documents := by
  cases x with
  | read =>
    obtain ⟨rfl, _⟩ := read_leaves h
    exact ⟨rfl, rfl⟩
  | finish =>
    obtain ⟨p, _, _, _, ⟨e, rfl, rfl⟩ | ⟨_, rfl, _⟩⟩ := finish_cases h
    · exact ⟨rfl, rfl⟩
    · obtain ⟨e, he⟩ | ⟨j, hj⟩ := hx
      · cases he
      · cases hj
  | fail =>
    obtain ⟨_, rfl⟩ := Prod.mk.inj (Option.some.inj h)
    exact ⟨rfl, rfl⟩
  | insert =>
    obtain ⟨_, _, _, ⟨_, rfl⟩ | rfl⟩ := insertKey_cases h
    · exact ⟨rfl, rfl⟩
    · exact ⟨rfl, rfl⟩
  | arrive =>
    simp only [act] at h
    split_ifs at h
    obtain ⟨_, rfl⟩ := Prod.mk.inj (Option.some.inj h)
    exact ⟨rfl, rfl⟩
  | sweep =>
    obtain ⟨s, _, heq⟩ := Option.map_eq_some_iff.mp h
    obtain ⟨rfl, _⟩ := Prod.mk.inj heq
    obtain ⟨e, he⟩ | ⟨j, hj⟩ := hx
    · cases he
    · cases hj
  | other =>
    simp only [act] at h
    split_ifs at h
    obtain ⟨⟨_, _⟩, _, heq⟩ := Option.map_eq_some_iff.mp h
    obtain ⟨rfl, _⟩ := Prod.mk.inj heq
    obtain ⟨_, he⟩ | ⟨_, hj⟩ := hx
    · cases he
    · cases hj

theorem others_wait (hs : Sound w) {i j : Nat} {p q : Submission} (hp : w.under.lookup i = some p)
    (hq : w.under.lookup j = some q) (hphase : p.phase = .claimed) (hscope : q.request.scope = p.request.scope)
    (hne : j ≠ i) :
    act document env w (.insert j) = none ∧ act document env w (.finish j) = none ∧
      ∀ o w', act document env w (.read j) = some (o, w') → o = .refused .idempotencyKeyReused ∧ w'.store = w.store := by
  have hheld : w.held q.request.scope = true := held_eq_true.mpr ⟨i, p, hp, hphase, hscope.symm⟩
  refine ⟨?_, ?_, fun o w' h => ?_⟩
  · simp only [act, insertKey, hq, Option.bind_eq_bind, Option.bind_some]
    refine if_neg fun h => ?_
    rw [h.2] at hheld
    cases hheld
  · cases hfinish : act document env w (.finish j) with
    | none => rfl
    | some =>
      obtain ⟨_, hq', hholds, _⟩ := finish_cases hfinish
      cases hq.symm.trans hq'
      exact absurd (hs.single _ _ _ _ _ hq hp hholds ⟨hphase, hscope.symm⟩) hne
  · obtain ⟨rfl, _⟩ := read_leaves h
    refine ⟨read_unrecorded h hq ?_, rfl⟩
    exact hs.free i p _ hp ⟨hphase, hscope.symm⟩

theorem freed_of_left {p : Submission} (hs : Sound w) (hp : w.under.lookup id = some p) (hphase : p.phase = .claimed) :
    (w.leave id).store.records.lookup p.request.scope = none ∧ (w.leave id).held p.request.scope = false := by
  refine ⟨recorded_eq_none.mp (hs.free id p _ hp ⟨hphase, rfl⟩), ?_⟩
  rw [← Bool.not_eq_true, held_eq_true]
  rintro ⟨_, _, hq, hholds⟩
  obtain ⟨hj, hq⟩ := Table.lookup_erase_some hq
  exact hj (hs.single _ _ _ _ _ hq hp hholds ⟨hphase, rfl⟩)

end Steps

section Runs
variable {document : Store → Uuid → Doc} {log : WorldHistory Doc} {w : World Doc}

theorem sound_start : Sound ({} : World Doc) where
  free _ _ _ hp := (nomatch hp)
  single _ _ _ _ _ hp := (nomatch hp)

theorem executes_sound (h : WorldExecutes document log w) : Sound w :=
  h.invariant sound_start fun _ _ _ _ hstep hs => act_sound hs hstep

theorem run_keeps {start : World Doc} {d : Doc}
    (hs : Sound start) (hkept : Kept scope fingerprint runId d start) (h : Execution (Performs document) start log w)
    (hswept : ∀ c ∈ log, ¬ SweptAway c scope) : Kept scope fingerprint runId d w := by
  have hboth : Sound w ∧ Kept scope fingerprint runId d w := by
    refine (h.strengthen (P := fun w i o w' => ¬ SweptAway ⟨w, i, o, w'⟩ scope) hswept).invariant
      (I := fun w => Sound w ∧ Kept scope fingerprint runId d w) ⟨hs, hkept⟩ ?_
    intro _ _ _ _ hstep hboth
    exact ⟨act_sound hboth.1 hstep.2, act_keeps hboth.1 hstep.2 hstep.1 hboth.2⟩
  exact hboth.2

theorem kept_of_recorded (h : WorldExecutes document log w)
    {run : Option Uuid} (hrecord : recorded w.store scope = some (fingerprint, run)) :
    ∃ c ∈ log, ∃ runId d, Creates c scope fingerprint runId d ∧ run = some runId ∧ w.documents.lookup scope = some d := by
  induction h generalizing fingerprint run with
  | nil => cases hrecord
  | @snoc log w w' i o hrun hstep ih =>
    obtain ⟨_, _⟩ := i
    rcases act_recorded hstep scope with ⟨hsame, hdocument⟩ | ⟨_, _, _, hnone⟩ | ⟨_, runId, d, hcreates, hnew, hdocument⟩
    · obtain ⟨c, hc, runId, d, hcreates, hrun, hd⟩ := ih (hsame.symm.trans hrecord)
      exact ⟨c, List.mem_append_left _ hc, runId, d, hcreates, hrun, hdocument.trans hd⟩
    · rw [hnone] at hrecord
      cases hrecord
    · cases hnew.symm.trans hrecord
      exact ⟨_, List.mem_append_right _ (List.mem_singleton_self _), runId, d, hcreates, rfl, hdocument⟩

theorem kept_between (h : WorldExecutes document log w) {l₁ l₂ l₃ : WorldHistory Doc}
    {c₁ c₂ : WorldCommit Doc}
    {d : Doc} (hlog : log = l₁ ++ c₁ :: l₂ ++ c₂ :: l₃) (hc : Creates c₁ scope fingerprint runId d)
    (hswept : ∀ c ∈ l₂, ¬ SweptAway c scope) :
    Sound c₂.before ∧ Performs document c₂.before c₂.input c₂.answer c₂.after ∧
      Kept scope fingerprint runId d c₂.before := by
  subst hlog
  obtain ⟨hbefore, hstep₂, _⟩ := h.split
  obtain ⟨hfirst, hstep₁, hbetween⟩ := hbefore.split
  have hs₁ := executes_sound hfirst
  have hkept := (unrecorded_of_creates hs₁ hstep₁ hc).2
  exact ⟨executes_sound hbefore, hstep₂, run_keeps (act_sound hs₁ hstep₁) hkept hbetween hswept⟩

end Runs

structure Idempotent (document : Store → Uuid → Doc) (log : WorldHistory Doc) (w : World Doc) : Prop where
  once : ∀ l₁ c₁ l₂ c₂ l₃ scope f₁ r₁ d₁ f₂ r₂ d₂, log = l₁ ++ c₁ :: l₂ ++ c₂ :: l₃ → Creates c₁ scope f₁ r₁ d₁ →
    Creates c₂ scope f₂ r₂ d₂ → ∃ c ∈ l₂, SweptAway c scope
  /-- Until then every other submission under the key is answered without a Run. -/
  answered : ∀ l₁ c₁ l₂ c₂ l₃ scope f r d asked, log = l₁ ++ c₁ :: l₂ ++ c₂ :: l₃ → Creates c₁ scope f r d →
    (∀ c ∈ l₂, ¬ SweptAway c scope) → Answers c₂ scope asked →
    c₂.after.store = c₂.before.store ∧ c₂.after.documents = c₂.before.documents ∧
      c₂.answer = if f = asked then .replayed r d else .refused .idempotencyKeyReused
  whole : ∀ scope row, w.store.records.lookup scope = some row →
    ∃ c ∈ log, ∃ r d, Creates c scope row.requestFingerprint r d ∧ row.runId = some r ∧ w.documents.lookup scope = some d
  /-- Before the first submission under a key has finished, the others wait for it or are refused. -/
  waits : ∀ env i j p q, w.under.lookup i = some p → w.under.lookup j = some q → p.phase = .claimed →
    q.request.scope = p.request.scope → j ≠ i →
    act document env w (.insert j) = none ∧ act document env w (.finish j) = none ∧
      ∀ o w', act document env w (.read j) = some (o, w') → o = .refused .idempotencyKeyReused ∧ w'.store = w.store
  /-- What is refused or rolled back writes nothing. -/
  unwritten : ∀ c ∈ log, ((∃ e, c.answer = .refused e) ∨ ∃ id, c.input.2 = .fail id) →
    c.after.store = c.before.store ∧ c.after.documents = c.before.documents
  /-- A submission that held its key and fails leaves it to whoever comes next. -/
  freed : ∀ c ∈ log, ∀ id p, c.before.under.lookup id = some p → p.phase = .claimed →
    (c.input.2 = .fail id ∨ c.input.2 = .finish id ∧ ∃ e, c.answer = .refused e) →
    c.after.store.records.lookup p.request.scope = none ∧ c.after.held p.request.scope = false

/-- Whatever submissions, sweeps and other transactions overlap. -/
theorem submissions_idempotent (document : Store → Uuid → Doc) {log : WorldHistory Doc} {w : World Doc}
    (h : WorldExecutes document log w) : Idempotent document log w where
  once l₁ c₁ l₂ c₂ l₃ scope f₁ r₁ d₁ f₂ r₂ d₂ hlog hc₁ hc₂ := by
    by_contra hnone
    have hswept : ∀ c ∈ l₂, ¬ SweptAway c scope := fun c hc hsweep => hnone ⟨c, hc, hsweep⟩
    obtain ⟨hs, hstep, hkept⟩ := kept_between h hlog hc₁ hswept
    have hfree := (unrecorded_of_creates hs hstep hc₂).1
    rw [hkept.1] at hfree
    cases hfree
  answered l₁ c₁ l₂ c₂ l₃ scope f r d asked hlog hc₁ hswept hc₂ := by
    obtain ⟨hs, hstep, hkept⟩ := kept_between h hlog hc₁ hswept
    exact answered_of_kept hs hstep hkept hc₂
  whole scope row hrow := by
    have hrecord : recorded w.store scope = some (row.requestFingerprint, row.runId) := by
      rw [recorded, hrow, Option.map_some]
    exact kept_of_recorded h hrecord
  waits env i j p q hp hq hphase hscope hne := others_wait (executes_sound h) hp hq hphase hscope hne
  unwritten c hc hx := by
    obtain ⟨l, r, rfl⟩ := List.append_of_mem hc
    exact act_unwritten h.split.2.1 hx
  freed c hc id p hp hphase hleft := by
    obtain ⟨_, _, rfl⟩ := List.append_of_mem hc
    obtain ⟨hbefore, hstep, _⟩ := h.split
    have hfreed := freed_of_left (executes_sound hbefore) hp hphase
    obtain ⟨before, ⟨_, _⟩, _, after⟩ := c
    obtain rfl | ⟨rfl, _, rfl⟩ := hleft
    · have hafter : after = before.leave id := (Prod.mk.inj (Option.some.inj hstep)).2.symm
      rw [hafter]
      exact hfreed
    · obtain ⟨_, _, _, _, ⟨_, _, hafter⟩ | ⟨_, ho, _⟩⟩ := finish_cases hstep
      · have hafter : after = before.leave id := hafter
        rw [hafter]
        exact hfreed
      · cases ho

section Example

def EarlyRefused (log : WorldHistory Doc) : Prop :=
  ∀ (i j : Nat) (c₁ c₂ : WorldCommit Doc) (id : Nat) (p : Submission) f r d, i < j → log[i]? = some c₁ → log[j]? = some c₂ →
    Creates c₁ p.request.scope f r d → c₁.before.under.lookup id = some p →
    (∀ (k : Nat) (c : WorldCommit Doc), i ≤ k → k < j → log[k]? = some c → c.after.under.lookup id ≠ none) →
    c₂.input.2.answers = some id → ∃ e, c₂.answer = .refused e

def performAct (w : World Uuid) (i : Env × Act) : Option (Outcome Uuid × World Uuid) := act (fun _ runId => runId) i.1 w i.2

def attemptActs (acts : List Act) : WorldHistory Uuid × World Uuid :=
  replay performAct {} (acts.map fun x => ({ catalog := oneAgent, now := 0 }, x))

theorem attemptActs_executes (acts : List Act) :
    WorldExecutes (fun _ runId => runId) (attemptActs acts).1 (attemptActs acts).2 :=
  replay_execution performAct (fun _ _ _ _ h => h) {} _

def asks (runId : Uuid) (key text : String) : Request :=
  .accept
    { workspaceId := 1, sessionId := 31, caller := somebody, endpoint := "runs", idempotencyKey := key,
      requestFingerprint := text, message := some (say text), message_or_compaction := say_submits text .answer } runId

def overlapping : List Act :=
  [.other (openSession 31), .arrive 1 (asks 11 "k" "hello"), .insert 1, .arrive 2 (asks 12 "k" "hello"), .finish 1,
    .insert 2, .read 2]

theorem overlapping_not_refused :
    ∃ log w, WorldExecutes (fun _ runId => runId) log w ∧ ¬ EarlyRefused log := by
  have hfirst : ((attemptActs overlapping).1[4]?.map fun c =>
      (c.input.2.answers, (c.before.under.lookup 1).map fun p => (p.request.scope, p.request.fingerprint),
        (c.before.under.lookup 2).map fun p => (p.request.scope, p.request.fingerprint), c.answer)) =
      some (some 1, some ((asks 11 "k" "hello").scope, "hello"), some ((asks 11 "k" "hello").scope, "hello"),
        .created 11 11) := by decide +kernel
  have hlast : ((attemptActs overlapping).1[6]?.map fun c => (c.input.2.answers, c.answer)) =
      some (some 2, .replayed 11 11) := by decide +kernel
  have hbetween : (((attemptActs overlapping).1.drop 4).take 2).all (fun c => (c.after.under.lookup 2).isSome) = true := by
    decide +kernel
  have hrun := attemptActs_executes overlapping
  generalize attemptActs overlapping = run at hfirst hlast hbetween hrun
  refine ⟨run.1, run.2, hrun, fun hrefused => ?_⟩
  obtain ⟨c₁, hc₁, heq₁⟩ := Option.map_eq_some_iff.mp hfirst
  obtain ⟨c₂, hc₂, heq₂⟩ := Option.map_eq_some_iff.mp hlast
  obtain ⟨hanswers, heq₁⟩ := Prod.mk.inj heq₁
  obtain ⟨hone, heq₁⟩ := Prod.mk.inj heq₁
  obtain ⟨htwo, hcreated⟩ := Prod.mk.inj heq₁
  obtain ⟨p, hp, hkey⟩ := Option.map_eq_some_iff.mp hone
  obtain ⟨q, hq, hkey'⟩ := Option.map_eq_some_iff.mp htwo
  obtain ⟨hscope, hfingerprint⟩ := Prod.mk.inj hkey
  obtain ⟨hscope', _⟩ := Prod.mk.inj hkey'
  obtain ⟨hlater, hanswer⟩ := Prod.mk.inj heq₂
  have hcreates : Creates c₁ q.request.scope "hello" 11 11 :=
    ⟨⟨1, p, hanswers, hp, hscope.trans hscope'.symm, hfingerprint⟩, hcreated⟩
  have hthere : ∀ (k : Nat) (c : WorldCommit Uuid), 4 ≤ k → k < 6 → run.1[k]? = some c → c.after.under.lookup 2 ≠ none := by
    intro k c _ _ hc hnone
    have hmem : c ∈ (run.1.drop 4).take 2 := by
      refine List.mem_iff_getElem?.mpr ⟨k - 4, ?_⟩
      rw [List.getElem?_take_of_lt (by omega), List.getElem?_drop, show 4 + (k - 4) = k by omega, hc]
    have hsome := List.all_eq_true.mp hbetween c hmem
    rw [hnone] at hsome
    cases hsome
  obtain ⟨_, he⟩ := hrefused 4 6 c₁ c₂ 2 q _ _ _ (by omega) hc₁ hc₂ hcreates hq hthere hlater
  rw [hanswer] at he
  cases he

/-- The second request is answered with the first one's document. -/
theorem overlapping_idempotent :
    (attemptActs overlapping).1.map (·.answer) =
      [.none, .none, .none, .none, .created 11 11, .none, .replayed 11 11] ∧
    Idempotent (fun _ runId => runId) (attemptActs overlapping).1 (attemptActs overlapping).2 :=
  ⟨by decide +kernel, submissions_idempotent (fun _ runId => runId) (attemptActs_executes overlapping)⟩

end Example

end TinyHermes.Runs.Submissions
