import TinyHermes.Agents.PublishChecks
import TinyHermes.Lib.Execution

/-! Saving a draft and publishing it, one statement after another, by any number of callers on one Agent. -/
namespace TinyHermes.Agents
open Lib Outbound
open Identity (Role)
open Runs (Uuid)
open Runs.ContextBudget (Estimator)

structure AgentRow where
  workspaceId : Uuid
  currentVersionId : Option Uuid := none
  published : Bool := false

structure AgentDraftRow where
  spec : DraftSpec
  revision : Nat
  updatedBy : Uuid

structure AgentVersionRow where
  id : Uuid
  versionNumber : Nat
  spec : DraftSpec
  contentHash : Nat
  publishedBy : Uuid
  /-- Which call wrote it; no column, and absent where the version is older than the run. -/
  writtenBy : Option Nat := none

inductive Asked where
  | publish
  | replaceDraft (spec : DraftSpec)

structure Request where
  workspaceId : Uuid
  actor : Actor
  expectedRevision : Nat
  asked : Asked

inductive Outcome where
  | forbidden | unknownAgent | draftRevisionConflict
  | refused (refusal : PublishRefusal)
  | unchanged (version : Uuid)
  | published (version : Uuid)
  | saved (revision : Nat)
  /-- The session ended without an answer, and rolled back. -/
  | lost

inductive Phase where
  | started
  /-- The Agent was read, its draft not yet. -/
  | found
  | checking (left : List Check)
  | ready
  | locked
  /-- And its draft's, at the revision that was expected. -/
  | matched (draft : AgentDraftRow)
  | compared (draft : AgentDraftRow)
  | numbered (draft : AgentDraftRow) (number : Nat)
  | ended (outcome : Outcome)

/-- The checks still to be made before a version may be written. -/
def Phase.left : Phase → List Check
  | .started | .found | .ended _ => Check.all
  | .checking left => left
  | .ready | .locked | .matched _ | .compared _ | .numbered _ _ => []

def Phase.holds : Phase → Bool
  | .locked | .matched _ | .compared _ | .numbered _ _ => true
  | .started | .found | .checking _ | .ready | .ended _ => false

def Phase.draft : Phase → Option AgentDraftRow
  | .matched d | .compared d | .numbered d _ => some d
  | .started | .found | .checking _ | .ready | .locked | .ended _ => none

section System
variable (p : Reading) (est : Estimator) (contentHash : DraftSpec → Nat)

/-- A check that succeeded for a caller, and what it was made on. -/
structure Passed (request : Request) where
  check : Check
  answers : Answers
  spec : DraftSpec
  ok : check.run p est answers request.workspaceId request.actor spec = .ok ()

structure Call where
  request : Request
  phase : Phase
  /-- The draft that `publish` read in front of its checks. -/
  seen : Option AgentDraftRow := none
  passed : List (Passed p est request) := []

structure State where
  agent : Option AgentRow
  draft : Option AgentDraftRow
  versions : List AgentVersionRow
  /-- The call that holds the lock on the Agent's row. -/
  holder : Option Nat := none
  calls : Nat → Option (Call p est) := fun _ => none

inductive Action where
  | begin (request : Request) (answers : Answers)
  | readAgent | readDraft
  | runCheck (answers : Answers)
  | lockAgent | lockDraft | readCurrent | readHighest
  | commit (newId : Uuid)
  | abort

/-- `WRITERS`. -/
def isWriter (role : Role) : Bool := role == .workspaceAdmin || role == .developer

/-- `_require_role`. -/
def mayWrite (request : Request) (answers : Answers) : Bool :=
  if request.actor.isServiceAccount then request.actor.role.any isWriter
  else
    match answers.roleFor request.workspaceId request.actor.id with
    | some role => isWriter role
    | none => request.actor.isPlatformAdmin

variable {p est}

namespace State

def put (s : State p est) (i : Nat) (call : Call p est) : State p est :=
  { s with calls := Function.update s.calls i (some call) }

def finish (s : State p est) (i : Nat) (call : Call p est) (outcome : Outcome) : State p est :=
  { s.put i { call with phase := .ended outcome } with holder := if s.holder = some i then none else s.holder }

/-- `_require_role`, and what comes behind it: the draft that is saved meets the ceilings. -/
def begin (s : State p est) (i : Nat) (request : Request) (answers : Answers) : State p est :=
  if mayWrite request answers then
    match request.asked with
    | .publish => s.put i { request, phase := .started }
    | .replaceDraft _ => s.put i { request, phase := .checking [.ceilings] }
  else s.put i { request, phase := .ended .forbidden }

def agentOf (s : State p est) (workspace : Uuid) : Option AgentRow := s.agent.filter (·.workspaceId == workspace)

/-- The first half of `get_draft`; without an Agent there is no draft, and nothing is checked. -/
def readAgent (s : State p est) (i : Nat) (call : Call p est) : State p est :=
  match s.agentOf call.request.workspaceId with
  | none => s.put i { call with phase := .ready }
  | some _ => s.put i { call with phase := .found }

/-- The second half of `get_draft`. -/
def readDraft (s : State p est) (i : Nat) (call : Call p est) : State p est :=
  match s.draft with
  | none => s.put i { call with phase := .ready }
  | some d => s.put i { call with phase := .checking Check.all, seen := some d }

def subject (call : Call p est) : Option DraftSpec :=
  match call.request.asked with
  | .publish => call.seen.map (·.spec)
  | .replaceDraft spec => some spec

def runCheck (s : State p est) (i : Nat) (call : Call p est) (answers : Answers) (c : Check) (left : List Check)
    (spec : DraftSpec) : State p est :=
  match h : c.run p est answers call.request.workspaceId call.request.actor spec with
  | .error refusal => s.finish i call (.refused refusal)
  | .ok () => s.put i { call with
      phase := if left.isEmpty then .ready else .checking left, passed := ⟨c, answers, spec, h⟩ :: call.passed }

/-- `_lock_agent`, which waits for the call that holds the lock. -/
def lockAgent (s : State p est) (i : Nat) (call : Call p est) : Option (State p est) :=
  match s.agentOf call.request.workspaceId with
  | none => some (s.finish i call .unknownAgent)
  | some _ => if s.holder = none then some { s.put i { call with phase := .locked } with holder := some i } else none

/-- `_lock_draft`, and the comparison with what the caller sent. -/
def lockDraft (s : State p est) (i : Nat) (call : Call p est) : State p est :=
  match s.draft with
  | none => s.finish i call .unknownAgent
  | some d =>
    if d.revision ≠ call.request.expectedRevision then s.finish i call .draftRevisionConflict
    else s.put i { call with phase := .matched d }

def readCurrent (s : State p est) (i : Nat) (call : Call p est) (d : AgentDraftRow) : State p est :=
  match s.agent.bind (·.currentVersionId) with
  | none => s.put i { call with phase := .compared d }
  | some id =>
    if (s.versions.find? (·.id == id)).any (·.contentHash == contentHash d.spec) then s.finish i call (.unchanged id)
    else s.put i { call with phase := .compared d }

def highest (s : State p est) : Nat := (s.versions.map (·.versionNumber)).foldl max 0

/-- The end of `publish_draft`. -/
def commitVersion (s : State p est) (i : Nat) (call : Call p est) (d : AgentDraftRow) (number : Nat) (newId : Uuid) :
    State p est :=
  let row : AgentVersionRow :=
    { id := newId, versionNumber := number, spec := d.spec, contentHash := contentHash d.spec
      publishedBy := call.request.actor.id, writtenBy := some i }
  { s.finish i call (.published newId) with
    versions := s.versions ++ [row]
    agent := s.agent.map fun agent => { agent with currentVersionId := some newId, published := true } }

/-- The end of `replace_draft`. -/
def commitDraft (s : State p est) (i : Nat) (call : Call p est) (d : AgentDraftRow) (spec : DraftSpec) : State p est :=
  { s.finish i call (.saved (d.revision + 1)) with
    draft := some { spec, revision := d.revision + 1, updatedBy := call.request.actor.id } }

end State

def perform (s : State p est) (i : Nat) (action : Action) : Option (State p est) :=
  match s.calls i with
  | none =>
    match action with
    | .begin request answers => some (s.begin i request answers)
    | _ => none
  | some call =>
    match action, call.phase, call.request.asked with
    | .abort, .ended _, _ => none
    | .abort, _, _ => some (s.finish i call .lost)
    | .readAgent, .started, .publish => some (s.readAgent i call)
    | .readDraft, .found, .publish => some (s.readDraft i call)
    | .runCheck answers, .checking (c :: left), _ => (State.subject call).map (s.runCheck i call answers c left)
    | .lockAgent, .ready, _ => s.lockAgent i call
    | .lockDraft, .locked, _ => some (s.lockDraft i call)
    | .readCurrent, .matched d, .publish => some (s.readCurrent contentHash i call d)
    | .readHighest, .compared d, .publish => some (s.put i { call with phase := .numbered d (s.highest + 1) })
    | .commit newId, .numbered d number, .publish => some (s.commitVersion contentHash i call d number newId)
    | .commit _, .matched d, .replaceDraft spec => some (s.commitDraft i call d spec)
    | _, _, _ => none

/-- The runs of an Agent take one statement of one call after another. -/
def Statement (s : State p est) (x : Nat × Action) (_ : Unit) (s' : State p est) : Prop :=
  perform contentHash s x.1 x.2 = some s'

end System

end TinyHermes.Agents
