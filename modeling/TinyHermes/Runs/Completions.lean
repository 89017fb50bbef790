import TinyHermes.Lib.Text
import TinyHermes.Runs.ChildDeliveries
import TinyHermes.Runs.Submissions

/-! `runs/application/completions.py`: a request becomes a Run, its handler waits for its end, reads the answer off the Session's
transcript and keeps it under the key. -/
namespace TinyHermes.Runs.Completions
open Lib Tx SqlRunStore
open Submissions (deleteExpired claimIdempotency_of_free claimIdempotency_of_recorded)

def completionsEndpoint : String := "POST /v1/chat/completions"

/-- `RUNS_ENDPOINT`, under which the Run itself is accepted. -/
def runsEndpoint : String := "POST /api/v1/runs"

def blockingHeadStates : List RunState := [.paused, .waitingApproval, .waitingExternal]

/-- An OpenAI-shaped refusal, with what `extra` names of it. -/
structure CompletionsError where
  status : Nat
  code : String
  message : String
  runId : Option Uuid := none
  blocked : Option (Uuid × Uuid × RunState) := none
  deriving DecidableEq

/-- What ends a request without an answer: a refusal of this surface, or of the store below it. -/
inductive Failure where
  | shaped (e : CompletionsError)
  | store (e : StoreError)
  deriving DecidableEq

/-- A message of the request; `content` is `none` when it is not a string. -/
structure ChatMessage where
  role : String
  content : Option String
  deriving DecidableEq

/-- A request, once its alias has become an Agent: `sessionId` is its session header, `runFingerprint` the fingerprint of the turn
it submits. -/
structure ChatRequest where
  workspaceId : Uuid
  caller : CallerIdentity
  agentId : Uuid
  model : String
  messages : List ChatMessage
  idempotencyKey : Option String
  sessionId : Option Uuid := none
  fingerprint : String
  runFingerprint : Uuid → String

def invalidRequest (message : String) : CompletionsError := { status := 400, code := "invalid_request", message }

def sessionNotFound : CompletionsError :=
  { status := 404, code := "session_not_found", message := "No such session exists." }

/-- `user_text`: the last turn of the user, and it must have words. -/
def userText (messages : List ChatMessage) : Except CompletionsError String :=
  match messages.reverse.find? fun message => message.role == "user" with
  | none => .error (invalidRequest "messages must include a user turn.")
  | some message =>
    match message.content.filter fun content => !Text.isBlank content with
    | some content => .ok content
    | none => .error (invalidRequest "The last user message must have string content.")

/-- `_require_key`. -/
def requireKey (value : Option String) : Except CompletionsError String :=
  let normalized := Text.strip (value.getD "")
  if normalized = "" ∨ normalized.length > 255 then
    .error
      { status := 400, code := "idempotency_key_required", message := "A non-empty Idempotency-Key header is required." }
  else .ok normalized

def ChatRequest.scope (r : ChatRequest) (key : String) : IdempotencyScope :=
  { workspaceId := r.workspaceId, caller := r.caller, endpoint := completionsEndpoint, idempotencyKey := key }

/-- `_existing_or_none`: the Session of the header, if this caller may go on with it now. -/
def existingOrNone (s : Store) (r : ChatRequest) : Except Failure (Option Uuid) :=
  match r.sessionId with
  | none => .ok none
  | some sessionId =>
    match (s.sessions.lookup sessionId).filter fun session => session.workspaceId = r.workspaceId with
    | none => .error (.shaped sessionNotFound)
    | some found =>
      if found.sessionMode ≠ .persistent ∨ found.agentId ≠ r.agentId ∨ found.caller ≠ r.caller then
        .error (.shaped sessionNotFound)
      else
        match found.headRunId with
        | none => .ok (some sessionId)
        | some headRunId =>
          match (s.runs.lookup headRunId).filter fun run => run.workspaceId = r.workspaceId with
          | none => .error (.store .unknownRun)
          | some head =>
            if head.status ∈ blockingHeadStates then
              .error (.shaped
                { status := 409, code := "session_blocked"
                  message := "The persistent session is blocked by its head run."
                  blocked := some (sessionId, headRunId, head.status) })
            else .ok (some sessionId)

/-- `str(uuid4())` as a key: nobody has used it. -/
def unusedKey (scope : IdempotencyScope) : StoreTx Unit := do
  let s ← get
  Tx.require (s.records.lookup scope = none) .integrity

def userTurn (text : String) : CanonicalMessage := { role := .user, blocks := [.text text], blocks_ne := text_alone_ne text }

theorem userTurn_submits (text : String) (purpose : RunPurpose) :
    (some (userTurn text)).isSome ∨ purpose = .compaction :=
  .inl rfl

/-- What `submit_run` asks the store for. -/
def ChatRequest.command (r : ChatRequest) (text : String) (sessionId newKey : Uuid) : AcceptRunCommand where
  workspaceId := r.workspaceId
  sessionId := sessionId
  caller := r.caller
  endpoint := runsEndpoint
  idempotencyKey := uuidText newKey
  requestFingerprint := r.runFingerprint sessionId
  message := some (userTurn text)
  deliveryMode := some .chatCompletions
  message_or_compaction := userTurn_submits text .answer

def sessionFor (env : Env) (r : ChatRequest) (found : Option Uuid) (newSession : Uuid) : StoreTx Uuid :=
  match found with
  | some sessionId => pure sessionId
  | none => do
    createSession env
      { workspaceId := r.workspaceId, agentId := r.agentId, caller := r.caller, sessionMode := .ephemeral } newSession
    pure newSession

inductive Admission where
  | replayed (runId : Uuid)
  | accepted (runId sessionId : Uuid)
  deriving DecidableEq

def admitChat (env : Env) (r : ChatRequest) (key text : String) (found : Option Uuid) (newSession newRun newKey : Uuid) :
    StoreTx Admission := do
  let replay ← claimIdempotency (r.scope key) r.fingerprint
  match replay with
  | some accepted => pure (.replayed accepted.runId)
  | none => do
    let sessionId ← sessionFor env r found newSession
    unusedKey (r.command text sessionId newKey).scope
    let accepted ← acceptRun env (r.command text sessionId newKey) newRun
    pure (.accepted accepted.runId sessionId)

/-- `_unfinished`: what is said about a Run that stopped and did not complete. -/
def unfinished (run : RunRow) (runId : Uuid) : CompletionsError :=
  if run.status = .paused ∧ run.pauseReason = some .compatTimeout then
    { status := 409, code := "compat_timeout", message := "The sync window elapsed before the run finished."
      runId := some runId }
  else if run.status ∈ blockingHeadStates then
    { status := 409, code := "requires_runs_api", message := "The run left the compatibility surface."
      runId := some runId }
  else { status := 500, code := "run_failed", message := "The run did not complete.", runId := some runId }

def elapsed (runId : Uuid) : CompletionsError :=
  { status := 504, code := "compat_timeout", message := "The sync window elapsed before the run finished."
    runId := some runId }

def bySequence (a b : SessionMessageRow) : Prop := a.sequence ≤ b.sequence

instance : DecidableRel bySequence := fun a b => inferInstanceAs (Decidable (a.sequence ≤ b.sequence))

instance : Std.Total bySequence := ⟨fun a b => Nat.le_total a.sequence b.sequence⟩

instance : IsTrans SessionMessageRow bySequence := ⟨fun _ _ _ => Nat.le_trans⟩

/-- `list_session_messages`: the transcript, whoever said it, and with what was taken back. -/
def listSessionMessages (s : Store) (sessionId : Uuid) : List SessionMessageRow :=
  (s.messages.filter fun row => row.sessionId = sessionId).insertionSort bySequence

def isAnswer (row : SessionMessageRow) : Bool := row.message.role = .assistant && row.message.text ≠ ""

def lastAnswer (messages : List SessionMessageRow) : String :=
  ((messages.reverse.find? isAnswer).map fun row => row.message.text).getD ""

structure CompletionDocument where
  runId : Uuid
  created : Time
  model : String
  content : String
  deriving DecidableEq, Repr

/-- `_completion_document`. -/
def completionDocument (env : Env) (s : Store) (model : String) (sessionId runId : Uuid) : CompletionDocument :=
  { runId, created := env.now, model, content := lastAnswer (listSessionMessages s sessionId) }

inductive Phase where
  /-- Its key and its text are good. -/
  | received
  /-- The Session of its header has been looked at. -/
  | found (sessionId : Option Uuid)
  /-- Its Run is committed, and it asks again and again for the state of it. -/
  | waiting (runId sessionId : Uuid)
  | completed (runId sessionId : Uuid)
  /-- It has put its document together. -/
  | answering (runId : Uuid) (document : CompletionDocument)
  | closed
  deriving DecidableEq

structure Handler where
  request : ChatRequest
  key : String
  text : String
  phase : Phase := .received

def Handler.scope (h : Handler) : IdempotencyScope := h.request.scope h.key

/-- `documents` is the column `response_snapshot` of the completions' records. -/
structure World where
  store : Store := {}
  documents : Table IdempotencyScope CompletionDocument := ∅
  requests : Table Nat Handler := ∅

inductive Outcome where
  | none
  | returned (document : CompletionDocument)
  | replayed (document : CompletionDocument)
  | refused (e : Failure)
  deriving DecidableEq

inductive Act where
  | asks (id : Nat) (request : ChatRequest)
  | looks (id : Nat)
  | claims (id : Nat) (newSession newRun newKey : Uuid)
  | polls (id : Nat)
  /-- The deadline of the wait has passed. -/
  | expires (id : Nat)
  | reads (id : Nat)
  | stores (id : Nat)
  /-- The process dies, or the caller hangs up. -/
  | crashes (id : Nat)
  | sweep (doomed : List IdempotencyScope)
  | other (op : Op)

def World.move (w : World) (id : Nat) (phase : Phase) : World :=
  { w with requests := w.requests.modify id fun h => { h with phase } }

def World.refuse (w : World) (id : Nat) (e : Failure) : Option (Outcome × World) := some (.refused e, w.move id .closed)

def ask (w : World) (id : Nat) (r : ChatRequest) : Option (Outcome × World) :=
  if w.requests.lookup id = none then
    match requireKey r.idempotencyKey, userText r.messages with
    | .error e, _ => some (.refused (.shaped e), w)
    | .ok _, .error e => some (.refused (.shaped e), w)
    | .ok key, .ok text => some (.none, { w with requests := w.requests.insert id { request := r, key, text } })
  else none

/-- The rest of the transaction: its record, its Session and its Run are committed together, or none of them. -/
def claim (env : Env) (w : World) (id : Nat) (h : Handler) (found : Option Uuid) (newSession newRun newKey : Uuid) :
    Option (Outcome × World) :=
  match admitChat env h.request h.key h.text found newSession newRun newKey w.store with
  | .error .idempotencyKeyReused =>
    w.refuse id (.shaped
      { status := 409, code := "idempotency_key_reused"
        message := "That idempotency key already belongs to a different request." })
  | .error e => w.refuse id (.store e)
  | .ok (.replayed _, s) =>
    match w.documents.lookup h.scope with
    | none =>
      w.refuse id (.shaped
        { status := 409, code := "idempotency_key_reused"
          message := "That idempotency key already belongs to a different request." })
    | some document => some (.replayed document, { w.move id .closed with store := s })
  | .ok (.accepted runId sessionId, s) => some (.none, { w.move id (.waiting runId sessionId) with store := s })

/-- One look of `_wait_for_run`. -/
def poll (w : World) (id : Nat) (h : Handler) (runId sessionId : Uuid) : Option (Outcome × World) :=
  match (w.store.runs.lookup runId).filter fun run => run.workspaceId = h.request.workspaceId with
  | none => w.refuse id (.store .unknownRun)
  | some run =>
    if run.status = .completed then some (.none, w.move id (.completed runId sessionId))
    else if run.status.isTerminal ∨ run.status ∈ blockingHeadStates then w.refuse id (.shaped (unfinished run runId))
    else some (.none, w)

def read (env : Env) (w : World) (id : Nat) (h : Handler) (runId sessionId : Uuid) : Option (Outcome × World) :=
  match (w.store.sessions.lookup sessionId).filter fun session => session.workspaceId = h.request.workspaceId with
  | none => w.refuse id (.store .unknownSession)
  | some _ =>
    some (.none, w.move id (.answering runId (completionDocument env w.store h.request.model sessionId runId)))

/-- `store_idempotency_response`, its commit, and the answer to the caller. -/
def store (w : World) (id : Nat) (h : Handler) (runId : Uuid) (document : CompletionDocument) :
    Option (Outcome × World) :=
  match storeResponse h.scope runId w.store with
  | .error e => w.refuse id (.store e)
  | .ok (_, s) =>
    some (.returned document,
      { w.move id .closed with store := s, documents := w.documents.insert h.scope document })

/-- What the handler `h` does with `x` in the phase it is in. -/
def handle (env : Env) (w : World) (id : Nat) (h : Handler) : Act → Option (Outcome × World)
  | .looks _ =>
    match h.phase with
    | .received =>
      match existingOrNone w.store h.request with
      | .error e => w.refuse id e
      | .ok found => some (.none, w.move id (.found found))
    | _ => none
  | .claims _ newSession newRun newKey =>
    match h.phase with
    | .found found => claim env w id h found newSession newRun newKey
    | _ => none
  | .polls _ =>
    match h.phase with
    | .waiting runId sessionId => poll w id h runId sessionId
    | _ => none
  | .expires _ =>
    match h.phase with
    | .waiting runId _ => w.refuse id (.shaped (elapsed runId))
    | _ => none
  | .reads _ =>
    match h.phase with
    | .completed runId sessionId => read env w id h runId sessionId
    | _ => none
  | .stores _ =>
    match h.phase with
    | .answering runId document => store w id h runId document
    | _ => none
  | .crashes _ => some (.none, w.move id .closed)
  | _ => none

def Act.handler : Act → Option Nat
  | .looks id | .claims id _ _ _ | .polls id | .expires id | .reads id | .stores id | .crashes id => some id
  | _ => none

def act (env : Env) (w : World) (x : Act) : Option (Outcome × World) :=
  match x with
  | .asks id request => ask w id request
  | .sweep doomed => (deleteExpired env.now doomed w.store).map fun s => (.none, { w with store := s })
  | .other op => (exec env op w.store).toOption.map fun (_, s) => (.none, { w with store := s })
  | x => do
    let id ← x.handler
    let h ← w.requests.lookup id
    handle env w id h x

def Performs (w : World) (i : Env × Act) (o : Outcome) (w' : World) : Prop := act i.1 w i.2 = some (o, w')

abbrev WorldCommit := Commit World (Env × Act) Outcome

abbrev WorldHistory := List WorldCommit

abbrev WorldExecutes (log : WorldHistory) (w : World) : Prop := Execution Performs {} log w

def ownAnswer (s : Store) (sessionId runId : Uuid) : String :=
  lastAnswer ((listSessionMessages s sessionId).filter fun row => row.sourceRunId = some runId)

/-- Whatever the assistant said for others in this transcript, it said something for the Run after it. -/
def spokeLast (messages : List SessionMessageRow) (runId : Uuid) : Bool :=
  messages.all fun row => !isAnswer row || row.sourceRunId = some runId ||
    messages.any fun own => isAnswer own && own.sourceRunId = some runId && decide (row.sequence < own.sequence)

variable {runId : Uuid}

theorem spokeLast_iff {messages : List SessionMessageRow} :
    spokeLast messages runId = true ↔ ∀ row ∈ messages, isAnswer row = true → row.sourceRunId = some runId ∨
      ∃ own ∈ messages, isAnswer own = true ∧ own.sourceRunId = some runId ∧ row.sequence < own.sequence := by
  simp only [spokeLast, List.all_eq_true, List.any_eq_true, Bool.or_eq_true, Bool.and_eq_true, Bool.not_eq_true',
    decide_eq_true_eq, and_assoc]
  refine forall₂_congr fun row _ => ?_
  cases isAnswer row <;> simp

section Transcripts
variable {messages : List SessionMessageRow} {runId : Uuid}

theorem find_own (hsorted : messages.Pairwise bySequence) (hlast : spokeLast messages runId = true)
    {row : SessionMessageRow} (hfind : messages.reverse.find? isAnswer = some row) : row.sourceRunId = some runId := by
  obtain ⟨hanswer, _, _, hsplit, hnone⟩ := List.find?_eq_some_iff_append.mp hfind
  have hmem : row ∈ messages := List.mem_reverse.mp (List.mem_of_find?_eq_some hfind)
  rcases spokeLast_iff.mp hlast row hmem hanswer with hown | ⟨own, hmem', hanswer', _, hlt⟩
  · exact hown
  exfalso
  -- the answer that comes after `row` would have been found first
  have hreversed := List.pairwise_reverse.mpr hsorted
  rw [hsplit, List.pairwise_append] at hreversed
  have hwhere := List.mem_reverse.mpr hmem'
  rw [hsplit, List.mem_append, List.mem_cons] at hwhere
  rcases hwhere with hlater | rfl | hearlier
  · have habsurd := hnone own hlater
    rw [hanswer'] at habsurd
    cases habsurd
  · exact Nat.lt_irrefl _ hlt
  · have hle : own.sequence ≤ row.sequence := List.rel_of_pairwise_cons hreversed.2.1 hearlier
    omega

theorem lastAnswer_own (hsorted : messages.Pairwise bySequence) (hlast : spokeLast messages runId = true) :
    lastAnswer messages = lastAnswer (messages.filter fun row => row.sourceRunId = some runId) := by
  have hfound : (messages.filter fun row => row.sourceRunId = some runId).reverse.find? isAnswer =
      messages.reverse.find? isAnswer := by
    rw [← List.filter_reverse, List.find?_filter]
    cases hfind : messages.reverse.find? isAnswer with
    | none =>
      rw [List.find?_eq_none] at hfind ⊢
      intro row hrow hboth
      exact hfind row hrow (of_decide_eq_true hboth).2
    | some =>
      have hown := find_own hsorted hlast hfind
      obtain ⟨hanswer, later, earlier, hsplit, hnone⟩ := List.find?_eq_some_iff_append.mp hfind
      refine List.find?_eq_some_iff_append.mpr ⟨?_, later, earlier, hsplit, fun other hother => ?_⟩
      · exact decide_eq_true ⟨decide_eq_true hown, hanswer⟩
      · have hsilent := hnone other hother
        rw [Bool.not_eq_true'] at hsilent ⊢
        refine decide_eq_false fun hboth => ?_
        rw [hsilent] at hboth
        exact Bool.false_ne_true hboth.2
  rw [lastAnswer, lastAnswer, hfound]

theorem listSessionMessages_sorted (s : Store) (sessionId : Uuid) :
    (listSessionMessages s sessionId).Pairwise bySequence :=
  List.pairwise_insertionSort bySequence _

end Transcripts

variable {s s' : Store} {found : Option Uuid} {newSession : Uuid}

section Steps
variable {env : Env} {w w' : World} {o : Outcome} {x : Act}

def Completed (s : Store) (runId : Uuid) : Prop := ∃ row, s.runs.lookup runId = some row ∧ row.status = .completed

theorem completed_moving {A : Uuid → Allowed} (h : RunMoves.Moving A s s')
    (hdone : Completed s runId) : Completed s' runId :=
  RunMoves.keep_moves (I := fun v => ∃ row, v.row = some row ∧ row.status = .completed)
    (fun _ _ hmove => ChildDeliveries.finished_move hmove rfl) (h runId) hdone

theorem acceptRun_new {cmd : AcceptRunCommand} {accepted : AcceptedRun}
    (hfree : s.records.lookup cmd.scope = none) (h : acceptRun env cmd runId s = .ok (accepted, s')) :
    accepted = { runId, replayed := false } ∧ s.runs.lookup runId = none := by
  rw [acceptRun, bind_of_ok (claimIdempotency_of_free hfree)] at h
  obtain ⟨_, _, h⟩ := fetch_bind_ok.mp h
  obtain ⟨⟨_, _⟩, _, hversion, h⟩ := bind_ok.mp h
  obtain rfl := Operations.publishedVersion_within (R := Eq) hversion
  simp only [mint, joinSession, insertRun, modifySession, bind_assoc, get_bind, require_bind_ok, write_bind,
    fetch_bind_ok] at h
  obtain ⟨_, _, _, _, hnone, h⟩ := h
  obtain ⟨_, _, _, h⟩ := bind_ok.mp h
  obtain ⟨_, _, _, h⟩ := bind_ok.mp h
  obtain ⟨_, _, _, h⟩ := bind_ok.mp h
  obtain ⟨_, _, _, h⟩ := bind_ok.mp h
  exact ⟨(pure_ok.mp h).1.symm, hnone⟩

theorem claimIdempotency_fresh {scope : IdempotencyScope} {fingerprint : String}
    (h : claimIdempotency scope fingerprint s = .ok (none, s')) : s'.runs = s.runs := by
  cases hrecord : s.records.lookup scope with
  | none =>
    rw [claimIdempotency_of_free hrecord] at h
    cases h
    rfl
  | some existing =>
    rw [claimIdempotency_of_recorded hrecord] at h
    cases hrun : existing.runId with
    | none =>
      rw [hrun] at h
      cases h
    | some =>
      simp only [hrun] at h
      split_ifs at h
      cases h

theorem sessionFor_runs {r : ChatRequest} {sessionId : Uuid}
    (h : sessionFor env r found newSession s = .ok (sessionId, s')) : s'.runs = s.runs := by
  cases found with
  | some =>
    obtain ⟨_, rfl⟩ := pure_ok.mp h
    rfl
  | none =>
    simp only [sessionFor, createSession, mint, insertSession, bind_assoc, get_bind, require_bind_ok, write_bind] at h
    obtain ⟨_, _, _, h⟩ := h
    obtain ⟨_, rfl⟩ := pure_ok.mp h
    rfl

theorem sessionFor_moves {A : Uuid → Allowed} {r : ChatRequest} :
    Within (RunMoves.Moving A) (sessionFor env r found newSession) := by
  cases found with
  | some => exact Within.pure _
  | none => exact Within.bind (Operations.createSession_within RunMoves.around_moves) fun _ => Within.pure _

theorem admitChat_moves {A : Uuid → Allowed} {r : ChatRequest} {key text : String}
    {newRun newKey : Uuid} :
    Within (RunMoves.Moving A) (admitChat env r key text found newSession newRun newKey) := by
  refine Within.bind (Operations.claimIdempotency_within RunMoves.files_moves) fun replay => ?_
  split
  · exact Within.pure _
  · refine Within.bind sessionFor_moves fun sessionId => ?_
    refine Within.bind (Within.bind Within.get fun _ => Within.require _ _) fun _ => ?_
    exact Within.bind RunMoves.acceptRun_moves fun _ => Within.pure _

theorem admitChat_accepted {r : ChatRequest} {key text : String}
    {newRun newKey sessionId : Uuid}
    (h : admitChat env r key text found newSession newRun newKey s = .ok (.accepted runId sessionId, s')) :
    runId = newRun ∧ s.runs.lookup runId = none := by
  obtain ⟨replay, _, hclaim, h⟩ := bind_ok.mp h
  cases replay with
  | some => cases (pure_ok.mp h).1
  | none =>
    obtain ⟨_, _, hsession, h⟩ := bind_ok.mp h
    simp only [unusedKey, bind_assoc, get_bind, require_bind_ok] at h
    obtain ⟨hunused, h⟩ := h
    obtain ⟨accepted, _, haccept, h⟩ := bind_ok.mp h
    obtain ⟨rfl, hnone⟩ := acceptRun_new hunused haccept
    obtain ⟨hadmission, _⟩ := pure_ok.mp h
    obtain ⟨rfl, rfl⟩ := Admission.accepted.inj hadmission
    rw [sessionFor_runs hsession, claimIdempotency_fresh hclaim] at hnone
    exact ⟨rfl, hnone⟩

end Steps

def Outcome.document? : Outcome → Option CompletionDocument
  | .returned document | .replayed document => some document
  | _ => .none

/-- What has completed in `s` has completed in `s'`. -/
def Keeps (s s' : Store) : Prop := ∀ runId, Completed s runId → Completed s' runId

/-- What a step makes of the request `id`, whose handler is `h` before it. -/
inductive Turn (w : World) (id : Nat) (h : Handler) : Act → Outcome → World → Prop where
  | ends {x : Act} {o : Outcome} (hquiet : o.document? = none) : Turn w id h x o (w.move id .closed)
  | finds (found : Option Uuid) : Turn w id h (.looks id) .none (w.move id (.found found))
  | replays {newSession newRun newKey : Uuid} {document : CompletionDocument} {s : Store}
      (hkept : w.documents.lookup h.scope = some document) (hkeeps : Keeps w.store s) :
      Turn w id h (.claims id newSession newRun newKey) (.replayed document) { w.move id .closed with store := s }
  | starts {newSession newRun newKey sessionId : Uuid} {s : Store} (hnew : w.store.runs.lookup newRun = none)
      (hkeeps : Keeps w.store s) :
      Turn w id h (.claims id newSession newRun newKey) .none { w.move id (.waiting newRun sessionId) with store := s }
  | waits : Turn w id h (.polls id) .none w
  | completes {runId sessionId : Uuid} (hphase : h.phase = .waiting runId sessionId)
      (hdone : Completed w.store runId) :
      Turn w id h (.polls id) .none (w.move id (.completed runId sessionId))
  | reads {runId sessionId : Uuid} {document : CompletionDocument} (hphase : h.phase = .completed runId sessionId)
      (hrun : document.runId = runId)
      (hcontent : document.content = lastAnswer (listSessionMessages w.store sessionId)) :
      Turn w id h (.reads id) .none (w.move id (.answering runId document))
  | stores {runId : Uuid} {document : CompletionDocument} {s : Store} (hphase : h.phase = .answering runId document)
      (hkeeps : Keeps w.store s) :
      Turn w id h (.stores id) (.returned document)
        { w.move id .closed with store := s, documents := w.documents.insert h.scope document }

section Steps
variable {env : Env} {w w' : World} {o : Outcome} {x : Act} {id : Nat} {h : Handler}

theorem Keeps.of_moving (hmoving : RunMoves.Moving (fun _ => {}) s s') : Keeps s s' :=
  fun _ hdone => completed_moving hmoving hdone

theorem Turn.of_refuse {e : Failure} (hact : w.refuse id e = some (o, w')) : Turn w id h x o w' := by
  cases hact
  exact .ends rfl

theorem claim_turn {newRun newKey : Uuid}
    (hact : claim env w id h found newSession newRun newKey = some (o, w')) :
    Turn w id h (.claims id newSession newRun newKey) o w' := by
  unfold claim at hact
  split at hact
  · exact .of_refuse hact
  · exact .of_refuse hact
  · next hadmit =>
    split at hact
    · exact .of_refuse hact
    · next document hkept =>
      cases hact
      exact .replays hkept (.of_moving (admitChat_moves hadmit))
  · next runId sessionId s hadmit =>
    cases hact
    obtain ⟨rfl, hnew⟩ := admitChat_accepted hadmit
    exact .starts hnew (.of_moving (admitChat_moves hadmit))

theorem poll_turn {sessionId : Uuid} (hphase : h.phase = .waiting runId sessionId)
    (hact : poll w id h runId sessionId = some (o, w')) : Turn w id h (.polls id) o w' := by
  unfold poll at hact
  split at hact
  · exact .of_refuse hact
  · next run hrun =>
    obtain ⟨hrow, _⟩ := Option.filter_eq_some_iff.mp hrun
    split_ifs at hact with hdone hstopped
    · cases hact
      exact .completes hphase ⟨run, hrow, hdone⟩
    · exact .of_refuse hact
    · cases hact
      exact .waits

theorem handle_turn (hhandler : x.handler = some id) (hact : handle env w id h x = some (o, w')) : Turn w id h x o w' := by
  cases x with
  | asks | sweep | other => cases hhandler
  | looks =>
    cases hhandler
    simp only [handle] at hact
    split at hact
    · split at hact
      · exact .of_refuse hact
      · cases hact
        exact .finds _
    · cases hact
  | claims =>
    cases hhandler
    simp only [handle] at hact
    split at hact
    · exact claim_turn hact
    · cases hact
  | polls =>
    cases hhandler
    simp only [handle] at hact
    split at hact
    · next hphase => exact poll_turn hphase hact
    · cases hact
  | expires =>
    simp only [handle] at hact
    split at hact
    · exact .of_refuse hact
    · cases hact
  | reads =>
    cases hhandler
    simp only [handle, read] at hact
    split at hact
    · next hphase =>
      split at hact
      · exact .of_refuse hact
      · cases hact
        exact .reads hphase rfl rfl
    · cases hact
  | stores =>
    cases hhandler
    simp only [handle, store] at hact
    split at hact
    · next hphase =>
      split at hact
      · exact .of_refuse hact
      · next hstored =>
        cases hact
        exact .stores hphase (.of_moving (Operations.storeResponse_within RunMoves.files_moves hstored))
    · cases hact
  | crashes =>
    cases hact
    exact .ends rfl

theorem act_cases (hact : act env w x = some (o, w')) :
    (∃ id h, x.handler = some id ∧ w.requests.lookup id = some h ∧ Turn w id h x o w') ∨
      (o.document? = none ∧ w'.documents = w.documents ∧ Keeps w.store w'.store ∧ (w'.requests = w.requests ∨
        ∃ id h, w.requests.lookup id = none ∧ h.phase = .received ∧ w'.requests = w.requests.insert id h)) := by
  by_cases hhandler : ∃ id, x.handler = some id
  · obtain ⟨id, hid⟩ := hhandler
    have hbind : (w.requests.lookup id).bind (fun h => handle env w id h x) = some (o, w') := by
      cases x with
      | asks | sweep | other => cases hid
      | _ =>
        cases hid
        exact hact
    obtain ⟨h, hrequest, hhandle⟩ := Option.bind_eq_some_iff.mp hbind
    exact .inl ⟨id, h, hid, hrequest, handle_turn hid hhandle⟩
  · right
    cases x with
    | asks id =>
      simp only [act, ask] at hact
      split_ifs at hact with hnew
      split at hact
      · cases hact
        exact ⟨rfl, rfl, fun _ hdone => hdone, .inl rfl⟩
      · cases hact
        exact ⟨rfl, rfl, fun _ hdone => hdone, .inl rfl⟩
      · cases hact
        exact ⟨rfl, rfl, fun _ hdone => hdone, .inr ⟨id, _, hnew, rfl, rfl⟩⟩
    | sweep =>
      obtain ⟨s, hdeleted, heq⟩ := Option.map_eq_some_iff.mp hact
      cases heq
      rw [deleteExpired] at hdeleted
      split_ifs at hdeleted
      cases hdeleted
      exact ⟨rfl, rfl, fun _ hdone => hdone, .inl rfl⟩
    | other op =>
      obtain ⟨⟨_, _⟩, hexec, heq⟩ := Option.map_eq_some_iff.mp hact
      cases heq
      refine ⟨rfl, rfl, fun runId hdone => ?_, .inl rfl⟩
      exact completed_moving (RunMoves.exec_moves op (ok_of_toOption hexec)) hdone
    | _ => exact absurd ⟨_, rfl⟩ hhandler

end Steps

/-- The step that commits the Run of the request `id`: a Run there was not. -/
def Starts (c : WorldCommit) (id : Nat) (runId sessionId : Uuid) : Prop :=
  (∃ newSession newKey, c.input.2 = .claims id newSession runId newKey) ∧ c.before.store.runs.lookup runId = none ∧
    (c.after.requests.lookup id).map Handler.phase = some (.waiting runId sessionId)

def Started (log : WorldHistory) (id : Nat) (runId sessionId : Uuid) : Prop := ∃ c ∈ log, Starts c id runId sessionId

/-- The content of `document` is what the Run of the request `id` said last, read when that Run had completed. -/
def Answers (log : WorldHistory) (id : Nat) (document : CompletionDocument) : Prop :=
  ∃ sessionId, Started log id document.runId sessionId ∧ ∃ c ∈ log, c.input.2 = .reads id ∧
    Completed c.before.store document.runId ∧ document.content = ownAnswer c.before.store sessionId document.runId

structure Attributed (log : WorldHistory) (w : World) : Prop where
  /-- a document given to whoever asked for it -/
  returned : ∀ c ∈ log, ∀ id document, c.input.2 = .stores id → c.answer = .returned document → Answers log id document
  stored : ∀ scope document, w.documents.lookup scope = some document →
    ∃ id h, w.requests.lookup id = some h ∧ h.scope = scope ∧ Answers log id document
  /-- a document given out again: another request under the key started the Run -/
  replayed : ∀ c ∈ log, ∀ id newSession newRun newKey document, c.input.2 = .claims id newSession newRun newKey →
    c.answer = .replayed document → ∃ h first earlier, c.before.requests.lookup id = some h ∧
      c.before.requests.lookup first = some earlier ∧ earlier.scope = h.scope ∧ Answers log first document

/-- When an answer is read, no other Run of the Session has said anything after what its own Run said last. -/
def Undisturbed (c : WorldCommit) : Bool :=
  match c.input.2 with
  | .reads id =>
    match (c.before.requests.lookup id).map Handler.phase with
    | some (.completed runId sessionId) => spokeLast (listSessionMessages c.before.store sessionId) runId
    | _ => true
  | _ => true

section Runs
variable {log : WorldHistory} {w w' : World} {id : Nat} {h : Handler}

theorem Started.mono {sessionId : Uuid} (hstarted : Started log id runId sessionId) (c : WorldCommit) :
    Started (log ++ [c]) id runId sessionId := by
  obtain ⟨d, hd, hstarts⟩ := hstarted
  exact ⟨d, List.mem_append_left _ hd, hstarts⟩

theorem Answers.mono {document : CompletionDocument} (hanswers : Answers log id document) (c : WorldCommit) :
    Answers (log ++ [c]) id document := by
  obtain ⟨sessionId, hstarted, d, hd, hread⟩ := hanswers
  exact ⟨sessionId, hstarted.mono c, d, List.mem_append_left _ hd, hread⟩

def Behind (log : WorldHistory) (s : Store) (id : Nat) : Phase → Prop
  | .waiting runId sessionId => Started log id runId sessionId
  | .completed runId sessionId => Started log id runId sessionId ∧ Completed s runId
  | .answering runId document => document.runId = runId ∧ Answers log id document
  | _ => True

theorem Behind.mono {phase : Phase} (hbehind : Behind log s id phase) (hkeeps : Keeps s s')
    (c : WorldCommit) : Behind (log ++ [c]) s' id phase := by
  cases phase with
  | waiting => exact Started.mono hbehind c
  | completed => exact ⟨hbehind.1.mono c, hkeeps _ hbehind.2⟩
  | answering => exact ⟨hbehind.1, hbehind.2.mono c⟩
  | received | found | closed => trivial

def Kept (log : WorldHistory) (w : World) : Prop :=
  ∀ scope document, w.documents.lookup scope = some document →
    ∃ id h, w.requests.lookup id = some h ∧ h.scope = scope ∧ Answers log id document

structure Sound (log : WorldHistory) (w : World) : Prop where
  behind : ∀ id h, w.requests.lookup id = some h → Behind log w.store id h.phase
  kept : Kept log w

theorem lookup_move {phase : Phase} {other : Nat} {h' : Handler} (hh : w.requests.lookup id = some h)
    (hother : (w.move id phase).requests.lookup other = some h') :
    (other = id ∧ h' = { h with phase }) ∨ (other ≠ id ∧ w.requests.lookup other = some h') := by
  by_cases heq : other = id
  · subst heq
    rw [World.move, Table.lookup_modify_self, hh] at hother
    exact .inl ⟨rfl, (Option.some.inj hother).symm⟩
  · rw [World.move, Table.lookup_modify_of_ne heq] at hother
    exact .inr ⟨heq, hother⟩

theorem scope_move {phase : Phase} {other : Nat} (hh : w.requests.lookup other = some h) :
    ∃ h', (w.move id phase).requests.lookup other = some h' ∧ h'.scope = h.scope := by
  rw [World.move, Table.lookup_modify, hh]
  by_cases heq : other = id
  · exact ⟨{ h with phase }, if_pos heq, rfl⟩
  · exact ⟨h, if_neg heq, rfl⟩

/-- A turn that ends in `phase`: the other requests have behind them what they had. -/
theorem Sound.of_move {phase : Phase} (hs : Sound log w) (hh : w.requests.lookup id = some h)
    (hkeeps : Keeps w.store s) {c : WorldCommit} (hbehind : Behind (log ++ [c]) s id phase) :
    Sound (log ++ [c]) { w.move id phase with store := s } where
  behind other h' hother := by
    rcases lookup_move hh hother with ⟨rfl, rfl⟩ | ⟨_, hother⟩
    · exact hbehind
    · exact (hs.behind other h' hother).mono hkeeps c
  kept scope document hdocument := by
    obtain ⟨first, _, hfirst, hscope, hanswers⟩ := hs.kept scope document hdocument
    obtain ⟨earlier', hfirst', hsame⟩ := scope_move hfirst
    exact ⟨first, earlier', hfirst', hsame.trans hscope, hanswers.mono c⟩

theorem turn_sound {env : Env} {x : Act} {o : Outcome} (hs : Sound log w) (hh : w.requests.lookup id = some h)
    (hturn : Turn w id h x o w') (hcalm : Undisturbed ⟨w, (env, x), o, w'⟩ = true) :
    Sound (log ++ [⟨w, (env, x), o, w'⟩]) w' := by
  have hsame : Keeps w.store w.store := fun _ hdone => hdone
  have hbehind := hs.behind id h hh
  have hlast {c : WorldCommit} : c ∈ log ++ [c] := List.mem_append_right _ (List.mem_singleton_self c)
  cases hturn with
  | ends => exact hs.of_move hh hsame trivial
  | finds => exact hs.of_move hh hsame trivial
  | replays hkept hkeeps => exact hs.of_move hh hkeeps trivial
  | @starts newSession newRun newKey sessionId s hnew hkeeps =>
    refine hs.of_move hh hkeeps ⟨_, hlast, ⟨newSession, newKey, rfl⟩, hnew, ?_⟩
    simp only [World.move, Table.lookup_modify_self, hh, Option.map_some]
  | waits =>
    refine ⟨fun other h' hother => (hs.behind other h' hother).mono hsame _, fun scope document hdocument => ?_⟩
    obtain ⟨first, earlier, hfirst, hscope, hanswers⟩ := hs.kept scope document hdocument
    exact ⟨first, earlier, hfirst, hscope, hanswers.mono _⟩
  | completes hphase hdone =>
    rw [hphase] at hbehind
    exact hs.of_move hh hsame ⟨Started.mono hbehind _, hdone⟩
  | @reads runId sessionId document hphase hrun hcontent =>
    rw [hphase] at hbehind
    obtain ⟨hstarted, hdone⟩ := hbehind
    simp only [Undisturbed, hh, Option.map_some, hphase] at hcalm
    subst hrun
    refine hs.of_move hh hsame ⟨rfl, sessionId, hstarted.mono _, _, hlast, rfl, hdone, ?_⟩
    rw [hcontent, ownAnswer]
    exact lastAnswer_own (listSessionMessages_sorted _ _) hcalm
  | @stores runId document s hphase hkeeps =>
    rw [hphase] at hbehind
    obtain ⟨_, hanswers⟩ := hbehind
    have hmoved (c : WorldCommit) : Sound (log ++ [c]) { w.move id .closed with store := s } :=
      hs.of_move hh hkeeps trivial
    refine ⟨(hmoved _).behind, fun scope kept hdocument => ?_⟩
    change (w.documents.insert h.scope document).lookup scope = some kept at hdocument
    rw [Table.lookup_insert_ite] at hdocument
    split_ifs at hdocument with hscope
    · cases hdocument
      obtain ⟨h', hh', hsame'⟩ := scope_move hh
      exact ⟨id, h', hh', hsame'.trans hscope.symm, hanswers.mono _⟩
    · exact (hmoved _).kept scope kept hdocument

theorem step_sound {env : Env} {x : Act} {o : Outcome} (hs : Sound log w) (hstep : Performs w (env, x) o w')
    (hcalm : Undisturbed ⟨w, (env, x), o, w'⟩ = true) : Sound (log ++ [⟨w, (env, x), o, w'⟩]) w' := by
  rcases act_cases hstep with ⟨id, h, _, hh, hturn⟩ | ⟨_, hdocuments, hkeeps, hrequests⟩
  · exact turn_sound hs hh hturn hcalm
  · constructor
    · intro other h' hother
      rcases hrequests with hrequests | ⟨id, h, _, hphase, hrequests⟩
      · rw [hrequests] at hother
        exact (hs.behind other h' hother).mono hkeeps _
      · rw [hrequests, Table.lookup_insert_ite] at hother
        split_ifs at hother
        · rw [← Option.some.inj hother, hphase]
          trivial
        · exact (hs.behind other h' hother).mono hkeeps _
    · intro scope document hdocument
      rw [hdocuments] at hdocument
      obtain ⟨first, earlier, hfirst, hscope, hanswers⟩ := hs.kept scope document hdocument
      refine ⟨first, earlier, ?_, hscope, hanswers.mono _⟩
      rcases hrequests with hrequests | ⟨_, _, hnew, _, hrequests⟩
      · rw [hrequests, hfirst]
      · rw [hrequests, Table.lookup_insert_ite, if_neg, hfirst]
        rintro rfl
        rw [hnew] at hfirst
        cases hfirst

theorem executes_sound (hrun : WorldExecutes log w) (hcalm : ∀ c ∈ log, Undisturbed c = true) : Sound log w := by
  induction hrun with
  | nil => exact ⟨fun _ _ hother => (nomatch hother), fun _ _ hdocument => (nomatch hdocument)⟩
  | @snoc log w w' i o _ hstep ih =>
    have hs := ih fun c hc => hcalm c (List.mem_append_left _ hc)
    exact step_sound hs hstep (hcalm _ (List.mem_append_right _ (List.mem_singleton_self _)))

theorem step_shown {env : Env} {x : Act} {document : CompletionDocument} {o : Outcome} (hs : Sound log w)
    (hstep : Performs w (env, x) o w') (hshown : o.document? = some document) :
    ∃ id h, x.handler = some id ∧ w.requests.lookup id = some h ∧
      ((o = .returned document ∧ Answers log id document) ∨
        (o = .replayed document ∧ ∃ first earlier, w.requests.lookup first = some earlier ∧ earlier.scope = h.scope ∧
          Answers log first document)) := by
  rcases act_cases hstep with ⟨id, h, hid, hh, hturn⟩ | ⟨hquiet, _⟩
  · refine ⟨id, h, hid, hh, ?_⟩
    have hbehind := hs.behind id h hh
    cases hturn with
    | ends hquiet =>
      rw [hquiet] at hshown
      cases hshown
    | finds | starts | waits | completes | reads => cases hshown
    | replays hkept =>
      cases hshown
      exact .inr ⟨rfl, hs.kept _ _ hkept⟩
    | stores hphase =>
      cases hshown
      rw [hphase] at hbehind
      exact .inl ⟨rfl, hbehind.2⟩
  · rw [hquiet] at hshown
    cases hshown

theorem Answers.of_append {l r : WorldHistory} {document : CompletionDocument} (hanswers : Answers l id document) :
    Answers (l ++ r) id document := by
  obtain ⟨sessionId, ⟨c, hc, hstarts⟩, d, hd, hread⟩ := hanswers
  exact ⟨sessionId, ⟨c, List.mem_append_left _ hc, hstarts⟩, d, List.mem_append_left _ hd, hread⟩

/-- As long as no other Run speaks between the end of a Run and the reading of its answer, every answer given out and
every answer kept belongs to its own Run, however the requests and the Runs interleave. -/
theorem answers_attributed (hrun : WorldExecutes log w) (hcalm : ∀ c ∈ log, Undisturbed c = true) : Attributed log w where
  returned c hc id document hinput hanswer := by
    obtain ⟨l, r, rfl⟩ := List.append_of_mem hc
    obtain ⟨hbefore, hstep, _⟩ := hrun.split
    have hs := executes_sound hbefore fun d hd => hcalm d (List.mem_append_left _ hd)
    obtain ⟨before, ⟨env, x⟩, o, after⟩ := c
    have hx : x = .stores id := hinput
    have ho : o = .returned document := hanswer
    subst hx ho
    obtain ⟨_, h, hid, hh, ⟨_, hanswers⟩ | ⟨habsurd, _⟩⟩ := step_shown hs hstep rfl
    · cases hid
      exact hanswers.of_append
    · cases habsurd
  stored := (executes_sound hrun hcalm).kept
  replayed c hc id newSession newRun newKey document hinput hanswer := by
    obtain ⟨_, _, rfl⟩ := List.append_of_mem hc
    obtain ⟨hbefore, hstep, _⟩ := hrun.split
    have hs := executes_sound hbefore fun d hd => hcalm d (List.mem_append_left _ hd)
    obtain ⟨_, ⟨_, x⟩, o, _⟩ := c
    have hx : x = .claims id newSession newRun newKey := hinput
    have ho : o = .replayed document := hanswer
    subst hx ho
    obtain ⟨_, h, hid, hh, ⟨habsurd, _⟩ | ⟨_, first, earlier, hfirst, hscope, hanswers⟩⟩ := step_shown hs hstep rfl
    · cases habsurd
    · cases hid
      exact ⟨h, first, earlier, hh, hfirst, hscope, hanswers.of_append⟩

end Runs

section Example

def perform (w : World) (i : Env × Act) : Option (Outcome × World) := act i.1 w i.2

def attempt (acts : List Act) : WorldHistory × World := replay perform {} (acts.map fun x => (clock 0, x))

theorem attempt_executes (acts : List Act) : WorldExecutes (attempt acts).1 (attempt acts).2 :=
  replay_execution perform (fun _ _ _ _ h => h) {} _

def chat (key text : String) : ChatRequest where
  workspaceId := 1
  caller := somebody
  agentId := 10
  model := "helper"
  messages := [{ role := "user", content := some text }]
  idempotencyKey := some key
  sessionId := some 31
  fingerprint := text
  runFingerprint := fun _ => text

/-- The request `id` under a key of its own, up to its Run. -/
def started (id : Nat) (key text : String) (runId : Uuid) : List Act :=
  [.asks id (chat key text), .looks id, .claims id 0 runId (runId + 1)]

def answerTurn (text : String) : CanonicalMessage :=
  { role := .assistant, blocks := [.text text], blocks_ne := text_alone_ne text }

/-- The Run is taken, says `text` and is completed. -/
def ran (runId leaseId : Uuid) (text : String) : List Act :=
  [.other (take leaseId), .other (.recordSlice { slice runId leaseId 2 (some .completed) with appended := [answerTurn text] })]

def overtaken : List Act :=
  .other (openSession 31) :: started 1 "k" "hello" 3 ++ started 2 "l" "bye" 5 ++ ran 3 41 "a" ++ [.polls 1] ++
    ran 5 42 "b" ++ [.reads 1, .stores 1]

def gives (document : CompletionDocument) (c : WorldCommit) : Bool :=
  match c.input.2 with
  | .stores id => id = 1 && c.answer = .returned document
  | _ => false

/-- Request 1 has its Run 3 in Session 31, and `text` is what that Run said last whenever an answer is read. -/
def tells (text : String) (c : WorldCommit) : Bool :=
  match c.input.2 with
  | .claims _ _ _ _ => (c.after.requests.lookup 1).map Handler.phase = some (.waiting 3 31)
  | .reads _ => ownAnswer c.before.store 31 3 = text
  | _ => true

/-- The first request is answered, and its key filled, with the words of the second one's Run. -/
theorem overtaken_misattributed : ∃ log w, WorldExecutes log w ∧ ¬ Attributed log w := by
  have hgives : (attempt overtaken).1.any (gives { runId := 3, created := 0, model := "helper", content := "b" }) = true := by
    decide +kernel
  have htells : (attempt overtaken).1.all (tells "a") = true := by decide +kernel
  have hrun := attempt_executes overtaken
  generalize attempt overtaken = run at hgives htells hrun
  refine ⟨run.1, run.2, hrun, fun hattributed => ?_⟩
  obtain ⟨⟨_, ⟨_, x⟩, o, _⟩, hc, hgiven⟩ := List.any_eq_true.mp hgives
  cases x with
  | stores id =>
    obtain ⟨hid, ho⟩ := Bool.and_eq_true_iff.mp hgiven
    obtain rfl := of_decide_eq_true hid
    have ho : o = .returned { runId := 3, created := 0, model := "helper", content := "b" } := of_decide_eq_true ho
    obtain ⟨_, ⟨c, hc, ⟨_, _, hinput⟩, _, hphase⟩, d, hd, hreads, _, hcontent⟩ :=
      hattributed.returned _ hc 1 _ rfl ho
    have hsession := List.all_eq_true.mp htells c hc
    simp only [tells, hinput, hphase, decide_eq_true_eq, Option.some.injEq, Phase.waiting.injEq] at hsession
    have hsaid := List.all_eq_true.mp htells d hd
    simp only [tells, hreads, decide_eq_true_eq] at hsaid
    rw [hsession.2, hsaid] at hcontent
    exact absurd hcontent (by decide)
  | _ => cases hgiven

def orderly : List Act :=
  .other (openSession 31) :: started 1 "k" "hello" 3 ++ started 2 "l" "bye" 5 ++ ran 3 41 "a" ++
    [.polls 1, .reads 1, .stores 1] ++ ran 5 42 "b" ++ [.polls 2, .reads 2, .stores 2] ++ started 3 "k" "hello" 7

theorem orderly_attributed :
    ((attempt orderly).1.filterMap fun c => c.answer.document?.map (·.content)) = ["a", "b", "a"] ∧
      Attributed (attempt orderly).1 (attempt orderly).2 := by
  refine ⟨by decide +kernel, answers_attributed (attempt_executes orderly) ?_⟩
  exact List.all_eq_true.mp (by decide +kernel : (attempt orderly).1.all Undisturbed = true)

end Example

end TinyHermes.Runs.Completions
