import TinyHermes.Lib.Text
import TinyHermes.Runs.Models

/-! `RunStateMachine`: the only code allowed to choose a Run state change. -/
namespace TinyHermes.Runs.StateMachine
open Lib

inductive RunStateError where
  | invalidStateTransition | invalidStateMetadata | runLimitReached
  deriving DecidableEq, Repr

/-- The `TRANSITIONS` table; a missing entry is `none`. -/
def transitions : RunState → RunSignal → Option RunState
  | .queued, .leaseAcquired => some .running
  | .queued, .pauseRequested => some .paused
  | .queued, .cancelRequested => some .cancelled
  | .running, .approvalRequested => some .waitingApproval
  | .running, .externalWaitStarted => some .waitingExternal
  | .running, .sliceEnded => some .queued
  | .running, .safePauseReached => some .paused
  | .running, .safeCancelStarted => some .cancelling
  | .running, .completed => some .completed
  | .running, .failed => some .failed
  | .running, .interrupted => some .interrupted
  | .waitingApproval, .approvalApproved => some .queued
  | .waitingApproval, .approvalPaused => some .paused
  | .waitingApproval, .cancelRequested => some .cancelled
  | .waitingExternal, .externalReady => some .queued
  | .waitingExternal, .externalPaused => some .paused
  | .waitingExternal, .cancelRequested => some .cancelled
  | .paused, .resumeRequested => some .queued
  | .paused, .cancelRequested => some .cancelled
  | .cancelling, .safeCancelFinished => some .cancelled
  | .cancelling, .interrupted => some .interrupted
  | .interrupted, .recoveryApproved => some .queued
  | .interrupted, .recoveryFailed => some .failed
  | .interrupted, .cancelRequested => some .cancelled
  -- only after the over-limit sandbox and volume are confirmed gone
  | .interrupted, .limitCleanupConfirmed => some .paused
  | _, _ => none

/-- The `PAUSE_REASONS` table. Signals that never lead to `paused` have no entry. -/
def pauseReasons : RunSignal → List PauseReason
  | .pauseRequested => [.manual]
  | .approvalPaused => [.approvalExpired, .approvalRejected, .approvalUnavailable, .manual]
  | .externalPaused => [.externalTimeout, .manual]
  | .safePauseReached =>
    [.manual, .limit, .contextOverflow, .toolBudgetExceeded, .compatTimeout, .operator, .system]
  | .limitCleanupConfirmed => [.limit]
  | _ => []

def resumingSignals : List RunSignal :=
  [.leaseAcquired, .resumeRequested, .approvalApproved, .externalReady, .recoveryApproved]

/-- What a running Run records of a user's wish without changing state. -/
def requestOnly (view : RunStateView) (signal : RunSignal) : Option StateDecision :=
  match view.state, signal with
  | .running, .pauseRequested => some { state := .running, signal, setPauseRequested := true }
  | .running, .cancelRequested => some { state := .running, signal, setCancelRequested := true }
  | _, _ => none

def pauseReasonFor (signal : RunSignal) (reason : Option PauseReason) : Except RunStateError PauseReason :=
  match signal, reason with
  | .pauseRequested, none => .ok .manual
  | _, none => .error .invalidStateMetadata
  | _, some r => if r ∈ pauseReasons signal then .ok r else .error .invalidStateMetadata

/-- The reason a transition to `target` carries: required for `paused`, refused elsewhere. -/
def settleReason (target : RunState) (signal : RunSignal) (reason : Option PauseReason) :
    Except RunStateError (Option PauseReason) :=
  if target = .paused then (pauseReasonFor signal reason).map some
  else if reason.isSome then .error .invalidStateMetadata
  else .ok none

def waitingApproval (signal : RunSignal) (waitKind : Option String) (deadline : Option Time) :
    Except RunStateError StateDecision :=
  match waitKind with
  | none => .error .invalidStateMetadata
  | some kind =>
    if Text.isBlank kind then .error .invalidStateMetadata
    else .ok { state := .waitingApproval, signal, waitKind := some kind, waitDeadlineAt := deadline }

/-- `wait_kind or "external_condition"`: an empty kind is as good as none. -/
def externalKind (waitKind : Option String) : String :=
  match waitKind with
  | none | some "" => "external_condition"
  | some kind => kind

def waitingExternal (signal : RunSignal) (waitKind : Option String) (deadline : Option Time) :
    Except RunStateError StateDecision :=
  match deadline with
  | none => .error .invalidStateMetadata
  | some at_ =>
    .ok { state := .waitingExternal, signal, waitKind := some (externalKind waitKind), waitDeadlineAt := some at_ }

/-- What is left of `decide` once the target and its reason are settled. -/
def enter (view : RunStateView) (signal : RunSignal) (target : RunState) (reason : Option PauseReason)
    (waitKind : Option String) (deadline : Option Time) : Except RunStateError StateDecision :=
  if (target = .queued ∨ target = .running) ∧ view.budgetAllowsExecution = false then .error .runLimitReached
  else match target with
    | .waitingApproval => waitingApproval signal waitKind deadline
    | .waitingExternal => waitingExternal signal waitKind deadline
    | _ =>
      if waitKind.isSome ∨ deadline.isSome then .error .invalidStateMetadata
      else .ok {
        state := target, signal, pauseReason := reason
        clearPauseRequest := signal ∈ resumingSignals || target = .paused
        clearCancelRequest := target = .cancelled
        startsExecution := target = .running }

def RunStateMachine.decide (view : RunStateView) (signal : RunSignal) (pauseReason : Option PauseReason := none)
    (waitKind : Option String := none) (waitDeadlineAt : Option Time := none) :
    Except RunStateError StateDecision :=
  match requestOnly view signal with
  | some request => .ok request
  | none =>
    match transitions view.state signal with
    | none => .error .invalidStateTransition
    | some target => do
      let reason ← settleReason target signal pauseReason
      enter view signal target reason waitKind waitDeadlineAt

section Decide
variable {view : RunStateView} {signal : RunSignal} {reason : Option PauseReason} {kind : Option String}
  {deadline : Option Time} {d : StateDecision}

private theorem enter_state {target : RunState}
    (h : enter view signal target reason kind deadline = .ok d) : d.state = target := by
  unfold enter at h
  split at h
  · cases h
  · cases target with
    | waitingApproval =>
      simp only [waitingApproval] at h
      split at h
      · cases h
      · split at h
        · cases h
        · rw [← Except.ok.inj h]
    | waitingExternal =>
      simp only [waitingExternal] at h
      split at h
      · cases h
      · rw [← Except.ok.inj h]
    | _ =>
      simp only at h
      split at h
      · cases h
      · rw [← Except.ok.inj h]

theorem decide_move {target : RunState} (hrequest : requestOnly view signal = none)
    (htarget : transitions view.state signal = some target) : RunStateMachine.decide view signal reason kind deadline =
      (settleReason target signal reason).bind fun settled => enter view signal target settled kind deadline := by
  unfold RunStateMachine.decide
  rw [hrequest]
  dsimp only
  rw [htarget]
  rfl

theorem decide_cases (h : RunStateMachine.decide view signal reason kind deadline = .ok d) :
    (view.state = .running ∧ d.state = .running ∧ (signal = .pauseRequested ∨ signal = .cancelRequested)) ∨
      transitions view.state signal = some d.state := by
  unfold RunStateMachine.decide at h
  cases hr : requestOnly view signal with
  | some =>
    rw [hr] at h
    obtain rfl := Except.ok.inj h
    unfold requestOnly at hr
    split at hr
    · next hs => exact .inl ⟨hs, by rw [← Option.some.inj hr], .inl rfl⟩
    · next hs => exact .inl ⟨hs, by rw [← Option.some.inj hr], .inr rfl⟩
    · cases hr
  | none =>
    rw [hr] at h
    cases ht : transitions view.state signal with
    | none =>
      rw [ht] at h
      cases h
    | some target =>
      rw [ht] at h
      change (settleReason target signal reason).bind _ = _ at h
      cases hs : settleReason target signal reason with
      | error =>
        rw [hs] at h
        cases h
      | ok =>
        rw [hs] at h
        exact .inr (by rw [enter_state h])

theorem transitions_live {st target : RunState} (h : transitions st signal = some target) : st.isTerminal = false := by
  cases st <;> simp [transitions, RunState.isTerminal] at h ⊢

theorem decide_live (h : RunStateMachine.decide view signal reason kind deadline = .ok d) :
    view.state.isTerminal = false := by
  rcases decide_cases h with ⟨hs, _, _⟩ | ht
  · rw [hs]
    rfl
  · exact transitions_live ht

theorem decide_leaseAcquired (h : RunStateMachine.decide view .leaseAcquired reason kind deadline = .ok d) :
    view.state = .queued ∧ d.state = .running := by
  rcases decide_cases h with ⟨_, _, hs | hs⟩ | ht
  · cases hs
  · cases hs
  · cases hv : view.state <;> simp [hv, transitions] at ht ⊢
    exact ht.symm

theorem decide_budget (h : RunStateMachine.decide view signal reason kind deadline = .ok d)
    (hrequest : requestOnly view signal = none) (hstate : d.state = .queued ∨ d.state = .running) :
    view.budgetAllowsExecution = true := by
  unfold RunStateMachine.decide at h
  rw [hrequest] at h
  cases ht : transitions view.state signal with
  | none =>
    rw [ht] at h
    cases h
  | some target =>
    rw [ht] at h
    change (settleReason target signal reason).bind _ = _ at h
    cases hs : settleReason target signal reason with
    | error =>
      rw [hs] at h
      cases h
    | ok r =>
      rw [hs] at h
      have htarget := enter_state h
      rw [htarget] at hstate
      by_contra hspent
      rw [Bool.not_eq_true] at hspent
      change enter view signal target r kind deadline = .ok d at h
      unfold enter at h
      rw [if_pos ⟨hstate, hspent⟩] at h
      cases h

end Decide

end TinyHermes.Runs.StateMachine
