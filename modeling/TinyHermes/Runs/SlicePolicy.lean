import TinyHermes.Runs.StateMachine

/-! What ends a round: `decide_after_round`, and when the state machine takes its answer. -/
namespace TinyHermes.Runs.SlicePolicy
open StateMachine

def waitTimer : String := "timer"
def waitApproval : String := "approval"
def waitChildRuns : String := "child_runs"

inductive GoalOutcome where
  | done | continue_ | wait | failed | undecidable
  deriving DecidableEq, Repr

structure GoalVerdict where
  outcome : GoalOutcome
  waitSeconds : Option Int := none
  deriving DecidableEq, Repr

inductive ApprovalVerdict where
  | approved | requested | pending | unavailable
  deriving DecidableEq, Repr

structure ApprovalCheck where
  verdict : ApprovalVerdict
  expiresAt : Option Time := none
  deriving DecidableEq, Repr

structure DelegationWait where
  childRunIds : List Uuid
  policy : WaitPolicy
  seconds : Int
  deriving DecidableEq, Repr

structure RoundOutcome where
  verdict : GoalVerdict
  cancelRequested : Bool := false
  pauseRequested : Bool := false
  budgetAllows : Bool := true
  sliceExpired : Bool := false
  holdSlice : Bool := false
  compatWindowExpired : Bool := false
  approval : Option ApprovalCheck := none
  delegated : Option DelegationWait := none
  userWaiting : Bool := false
  roundsExhausted : Bool := false
  deriving DecidableEq, Repr

/-- What the Worker does next; the signal is still only a request to the state machine. -/
structure SliceDecision where
  signal : Option RunSignal
  pauseReason : Option PauseReason := none
  limitReached : Bool := false
  limitValve : String := "budget"
  waitKind : Option String := none
  waitSeconds : Option Int := none
  waitPolicy : Option WaitPolicy := none
  retryAfterSeconds : Option Int := none
  deriving DecidableEq, Repr

/-- The instant a decision's wait ends when it is written at `now`. -/
def SliceDecision.deadline (dec : SliceDecision) (now : Time) : Option Time :=
  dec.waitSeconds.map fun n => now + seconds n

/-- `int((expires_at - now).total_seconds())`, which truncates toward zero. -/
def remainingSeconds (expiresAt now : Time) : Int := (expiresAt - now).tdiv 1000000

def awaiting (now : Time) (check : ApprovalCheck) : SliceDecision :=
  if check.verdict = .unavailable then
    { signal := some .safePauseReached, pauseReason := some .approvalUnavailable }
  else match check.expiresAt with
    | none => { signal := some .safePauseReached, pauseReason := some .approvalUnavailable }
    | some expiresAt =>
      if remainingSeconds expiresAt now ≤ 0 then
        { signal := some .safePauseReached, pauseReason := some .approvalExpired }
      else
        { signal := some .approvalRequested, waitKind := some waitApproval,
          waitSeconds := some (remainingSeconds expiresAt now) }

def endsTheRun (outcome : RoundOutcome) : Bool :=
  outcome.approval.isNone && outcome.delegated.isNone &&
    (outcome.verdict.outcome = .done || outcome.verdict.outcome = .failed)

/-- The part of the order below the user's signals, the shared valve, approvals and delegation. -/
def afterVerdict (outcome : RoundOutcome) : SliceDecision :=
  if outcome.verdict.outcome = .done then { signal := some .completed }
  else if outcome.verdict.outcome = .failed then { signal := some .failed }
  else if outcome.verdict.outcome = .undecidable then
    { signal := some .safePauseReached, pauseReason := some .operator }
  else if outcome.roundsExhausted then
    { signal := some .safePauseReached, pauseReason := some .limit, limitReached := true, limitValve := "max_rounds" }
  else if outcome.verdict.outcome = .wait then
    { signal := some .externalWaitStarted, waitKind := some waitTimer, waitSeconds := outcome.verdict.waitSeconds }
  else if outcome.compatWindowExpired then
    { signal := some .safePauseReached, pauseReason := some .compatTimeout }
  else if outcome.userWaiting then { signal := some .completed }
  else if outcome.sliceExpired then
    if outcome.holdSlice then { signal := none } else { signal := some .sliceEnded }
  else { signal := none }

/-- Choose what ends this round. The order is the product rule. -/
def decideAfterRound (now : Time) (outcome : RoundOutcome) : SliceDecision :=
  if outcome.cancelRequested then { signal := some .safeCancelStarted }
  else if outcome.pauseRequested then { signal := some .safePauseReached, pauseReason := some .manual }
  else if !outcome.budgetAllows && !endsTheRun outcome then
    { signal := some .safePauseReached, pauseReason := some .limit, limitReached := true }
  else match outcome.approval with
    | some check => awaiting now check
    | none => match outcome.delegated with
      | some wait =>
        { signal := some .externalWaitStarted, waitKind := some waitChildRuns,
          waitSeconds := some wait.seconds, waitPolicy := some wait.policy }
      | none => afterVerdict outcome

def viewAfter (outcome : RoundOutcome) : RunStateView where
  state := .running
  pauseRequested := outcome.pauseRequested
  cancelRequested := outcome.cancelRequested
  budgetAllowsExecution := outcome.budgetAllows

/-- A decision without a signal keeps the lease; one with a signal is taken by the state machine, with its own reason, wait kind
and deadline, whenever it is written. -/
def Admitted (outcome : RoundOutcome) (dec : SliceDecision) : Prop :=
  ∀ signal, dec.signal = some signal → ∀ writtenAt : Time,
    ∃ d, RunStateMachine.decide (viewAfter outcome) signal dec.pauseReason dec.waitKind (dec.deadline writtenAt) = .ok d

/-- An approval somebody can still answer: it has a decider and at least a second left. -/
def Answerable (now : Time) (check : ApprovalCheck) : Prop :=
  check.verdict ≠ .unavailable ∧ ∃ expiresAt, check.expiresAt = some expiresAt ∧ now + seconds 1 ≤ expiresAt

def VerdictDecides (outcome : RoundOutcome) : Prop :=
  outcome.approval = none ∧ outcome.delegated = none

/-- A round whose verdict asks for a timer and which no higher rule ends first. -/
def AsksToWait (outcome : RoundOutcome) : Prop :=
  VerdictDecides outcome ∧ outcome.verdict.outcome = .wait ∧ outcome.roundsExhausted = false

/-- A user's signal or the shared valve ends the round before anything else is read. -/
def StoppedFirst (outcome : RoundOutcome) : Prop :=
  outcome.cancelRequested = true ∨ outcome.pauseRequested = true ∨
    (outcome.budgetAllows = false ∧ endsTheRun outcome = false)

private theorem tdiv_million_pos_iff (d : Int) : 0 < d.tdiv 1000000 ↔ 1000000 ≤ d := by
  rcases lt_or_ge d 0 with _ | hnonneg
  · have : d.tdiv 1000000 = -((-d) / 1000000) := by
      rw [← Int.tdiv_eq_ediv_of_nonneg (by omega), Int.neg_tdiv, Int.neg_neg]
    omega
  · rw [Int.tdiv_eq_ediv_of_nonneg hnonneg]
    omega

theorem remainingSeconds_pos_iff (expiresAt now : Int) :
    0 < remainingSeconds expiresAt now ↔ now + seconds 1 ≤ expiresAt := by
  rw [remainingSeconds, tdiv_million_pos_iff, seconds]
  omega

private theorem admitted_move (outcome : RoundOutcome) (dec : SliceDecision) (signal : RunSignal) (target : RunState)
    (hsignal : dec.signal = some signal) (hrequest : requestOnly (viewAfter outcome) signal = none)
    (htarget : transitions .running signal = some target) : Admitted outcome dec ↔ ∀ writtenAt : Time, ∃ d,
      (settleReason target signal dec.pauseReason).bind (fun settled =>
        enter (viewAfter outcome) signal target settled dec.waitKind (dec.deadline writtenAt)) = .ok d := by
  constructor
  · intro h writtenAt
    obtain ⟨d, hd⟩ := h signal hsignal writtenAt
    exact ⟨d, (decide_move hrequest htarget).symm.trans hd⟩
  · intro h _ hsame writtenAt
    cases hsignal.symm.trans hsame
    obtain ⟨d, hd⟩ := h writtenAt
    exact ⟨d, (decide_move hrequest htarget).trans hd⟩

private theorem admitted_none (outcome : RoundOutcome) : Admitted outcome { signal := none } := by
  intro _ h
  cases h

private theorem admitted_safePause_iff (outcome : RoundOutcome) (reason : PauseReason) (limitReached : Bool)
    (limitValve : String) :
    Admitted outcome { signal := some .safePauseReached, pauseReason := some reason, limitReached, limitValve } ↔
      reason ∈ pauseReasons .safePauseReached := by
  refine (admitted_move _ _ .safePauseReached .paused rfl rfl rfl).trans ?_
  by_cases h : reason ∈ pauseReasons .safePauseReached
  · simp [settleReason, pauseReasonFor, h, enter, SliceDecision.deadline, Except.map, Except.bind]
  · simp [settleReason, pauseReasonFor, h, Except.map, Except.bind]

/-- `waiting_external` needs a deadline and nothing else. -/
private theorem admitted_externalWait_iff (outcome : RoundOutcome) (kind : String) (wait : Option Int)
    (policy : Option WaitPolicy) :
    Admitted outcome
      { signal := some .externalWaitStarted, waitKind := some kind, waitSeconds := wait, waitPolicy := policy } ↔
        wait.isSome = true := by
  refine (admitted_move _ _ .externalWaitStarted .waitingExternal rfl rfl rfl).trans ?_
  cases wait with
  | none => simp [settleReason, enter, waitingExternal, SliceDecision.deadline, Except.bind]
  | some => simp [settleReason, enter, waitingExternal, SliceDecision.deadline, Except.bind]

private theorem admitted_approvalRequested (outcome : RoundOutcome) (wait : Option Int) :
    Admitted outcome { signal := some .approvalRequested, waitKind := some waitApproval, waitSeconds := wait } := by
  have hkind : Lib.Text.isBlank waitApproval = false := by decide
  refine (admitted_move _ _ .approvalRequested .waitingApproval rfl rfl rfl).mpr ?_
  simp [settleReason, enter, waitingApproval, hkind, Except.bind]

/-- Signals that leave `running` for a state with no reason, no wait and no budget guard. -/
private theorem admitted_plain (outcome : RoundOutcome) (signal : RunSignal)
    (h : signal = .completed ∨ signal = .failed ∨ signal = .safeCancelStarted) :
    Admitted outcome { signal := some signal } := by
  rcases h with rfl | rfl | rfl
  · refine (admitted_move _ _ .completed .completed rfl rfl rfl).mpr ?_
    simp [settleReason, enter, SliceDecision.deadline, Except.bind]
  · refine (admitted_move _ _ .failed .failed rfl rfl rfl).mpr ?_
    simp [settleReason, enter, SliceDecision.deadline, Except.bind]
  · refine (admitted_move _ _ .safeCancelStarted .cancelling rfl rfl rfl).mpr ?_
    simp [settleReason, enter, SliceDecision.deadline, Except.bind]

private theorem admitted_sliceEnded (outcome : RoundOutcome) (h : outcome.budgetAllows = true) :
    Admitted outcome { signal := some .sliceEnded } := by
  refine (admitted_move _ _ .sliceEnded .queued rfl rfl rfl).mpr ?_
  simp [viewAfter, settleReason, enter, SliceDecision.deadline, h, Except.bind]

private theorem awaiting_admitted_iff (now : Time) (outcome : RoundOutcome) (check : ApprovalCheck) :
    Admitted outcome (awaiting now check) ↔ Answerable now check := by
  unfold awaiting Answerable
  by_cases hv : check.verdict = .unavailable
  · rw [if_pos hv, admitted_safePause_iff]
    simp [pauseReasons, hv]
  rw [if_neg hv]
  cases he : check.expiresAt with
  | none =>
    refine (admitted_safePause_iff ..).trans ?_
    simp [pauseReasons]
  | some expiresAt =>
    have hpos := remainingSeconds_pos_iff expiresAt now
    by_cases hr : remainingSeconds expiresAt now ≤ 0
    · have hlate : ¬ now + seconds 1 ≤ expiresAt := fun h => absurd (hpos.mpr h) (not_lt.mpr hr)
      simp only [hr, if_true, admitted_safePause_iff]
      simp [pauseReasons, hlate]
    · have hleft : now + seconds 1 ≤ expiresAt := hpos.mp (not_le.mp hr)
      simp only [hr, if_false]
      exact iff_of_true (admitted_approvalRequested outcome _) ⟨hv, expiresAt, rfl, hleft⟩

private theorem afterVerdict_admitted_iff (outcome : RoundOutcome)
    (hb : outcome.budgetAllows = true ∨ outcome.verdict.outcome = .done ∨ outcome.verdict.outcome = .failed) :
    Admitted outcome (afterVerdict outcome) ↔
      (outcome.verdict.outcome = .wait → outcome.roundsExhausted = false →
        outcome.verdict.waitSeconds.isSome = true) := by
  unfold afterVerdict
  cases hv : outcome.verdict.outcome with
  | done => simpa using admitted_plain outcome .completed (by simp)
  | failed => simpa using admitted_plain outcome .failed (by simp)
  | undecidable => simp [admitted_safePause_iff, pauseReasons]
  | wait =>
    cases hr : outcome.roundsExhausted with
    | true => simp [admitted_safePause_iff, pauseReasons]
    | false => simpa using admitted_externalWait_iff outcome waitTimer outcome.verdict.waitSeconds none
  | continue_ =>
    have hbudget : outcome.budgetAllows = true := by simpa [hv] using hb
    simp only [reduceCtorEq, if_false, false_implies, iff_true]
    split_ifs
    · exact (admitted_safePause_iff ..).mpr (by decide)
    · exact (admitted_safePause_iff ..).mpr (by decide)
    · exact admitted_plain outcome .completed (by simp)
    · exact admitted_none outcome
    · exact admitted_sliceEnded outcome hbudget
    · exact admitted_none outcome

/-- The state machine takes a round's decision exactly when the round was stopped by a user or the
shared valve, or asks nobody for an approval that cannot be answered any more and names the
seconds of the timer it asks for. -/
theorem decideAfterRound_admitted_iff (now : Time) (outcome : RoundOutcome) :
    Admitted outcome (decideAfterRound now outcome) ↔
      StoppedFirst outcome ∨
        ((∀ check, outcome.approval = some check → Answerable now check) ∧
          (AsksToWait outcome → outcome.verdict.waitSeconds.isSome = true)) := by
  unfold decideAfterRound
  by_cases hc : outcome.cancelRequested = true
  · rw [if_pos hc]
    exact iff_of_true (admitted_plain outcome .safeCancelStarted (by simp)) (.inl (.inl hc))
  by_cases hp : outcome.pauseRequested = true
  · rw [if_neg hc, if_pos hp]
    exact iff_of_true ((admitted_safePause_iff ..).mpr (by decide)) (.inl (.inr (.inl hp)))
  by_cases hb : (!outcome.budgetAllows && !endsTheRun outcome) = true
  · rw [if_neg hc, if_neg hp, if_pos hb]
    refine iff_of_true ((admitted_safePause_iff ..).mpr (by decide)) (.inl (.inr (.inr ?_)))
    simpa using hb
  rw [if_neg hc, if_neg hp, if_neg hb]
  have hstop : ¬ StoppedFirst outcome := by
    simp only [StoppedFirst, hc, hp]
    simpa using hb
  rw [or_iff_right hstop]
  cases ha : outcome.approval with
  | some =>
    simp [awaiting_admitted_iff, AsksToWait, VerdictDecides, ha]
  | none =>
    cases hd : outcome.delegated with
    | some =>
      simp [admitted_externalWait_iff, AsksToWait, VerdictDecides, hd]
    | none =>
      have hleft : outcome.budgetAllows = true ∨ outcome.verdict.outcome = .done ∨
          outcome.verdict.outcome = .failed := by
        simpa [endsTheRun, ha, hd, or_iff_not_imp_left] using hb
      simpa [AsksToWait, VerdictDecides, ha, hd] using afterVerdict_admitted_iff outcome hleft

/-- A confirmation with nobody to confirm it: the policy answers with a pause reason that the
table of round-boundary pauses does not list, and the state machine refuses it. -/
theorem unavailable_approval_not_admitted :
    ¬ ∀ (now : Time) (outcome : RoundOutcome), Admitted outcome (decideAfterRound now outcome) := by
  intro h
  obtain ⟨_, hd⟩ := h 0 { verdict := { outcome := .continue_ }, approval := some { verdict := .unavailable } }
    .safePauseReached rfl 0
  cases hd

end TinyHermes.Runs.SlicePolicy
