import TinyHermes.Runs.Models

/-! A round the platform lost while a call was on its way out: the record kept of it, and what the
model is told when the round is put into the transcript. -/
namespace TinyHermes.Runs.Interruption

def unknownText : String :=
  "interrupted: the platform stopped while this call was going out, so whether " ++
  "it took effect is unknown; it may have. Before doing it again, check its " ++
  "effect if you can, for example by reading back what it would have changed."

def sameKeyText : String :=
  " Repeating exactly the same request (same operation, same arguments) sends it " ++
  "with the same Idempotency-Key as the interrupted one, so an API that honours " ++
  "that header applies it at most once. Any other request gets a new key."

def notCompletedText : String :=
  "not completed: the platform stopped earlier in this round, so this call may " ++
  "not have run."

def laterText : String := "The platform stopped later in this round."

def notSavedText : String :=
  " Its changes to /workspace/data, if any, were not saved: the workspace " ++
  "continues from the last saved revision."

/-- Whether a call may have altered `/workspace/data`. -/
def changesWorkspace (name : String) : Bool := name = "file.write" || name = "shell.exec"

/-- The round as it stood when one of its calls was sent. A key is the text of a `uuid4`. -/
structure InFlightRound where
  assistant : CanonicalMessage
  finished : List ToolResultBlock
  callId : String
  idempotencyKey : Option Uuid := none
  fingerprint : Option String := none
  deriving DecidableEq

/-- One HTTP write that recovery told the model about. -/
structure InterruptedWrite where
  fingerprint : String
  idempotencyKey : Uuid
  deriving DecidableEq, Repr

def failedResult (call : ToolCallBlock) (output : String) : ToolResultBlock where
  callId := call.callId
  output := output
  exitCode := 1
  failed := true
  callId_ne := call.callId_ne

/-- `{block.call_id: block for block in finished}`: the last block of an id stands. -/
def InFlightRound.finishedFor (sending : InFlightRound) (callId : String) : Option ToolResultBlock :=
  sending.finished.reverse.find? fun block => block.callId = callId

/-- A finished answer, which loses its workspace changes when the round is not committed. -/
def toldFinished (call : ToolCallBlock) (done : ToolResultBlock) : ToolResultBlock :=
  if changesWorkspace call.name then
    { done with output := done.output ++ "\n\n[" ++ laterText ++ notSavedText ++ "]" }
  else done

def interruptedOutput (sending : InFlightRound) (call : ToolCallBlock) : String :=
  unknownText ++ (if sending.idempotencyKey.isSome then sameKeyText else "") ++
    (if changesWorkspace call.name then notSavedText else "")

def notCompletedOutput (call : ToolCallBlock) : String :=
  notCompletedText ++ (if changesWorkspace call.name then notSavedText else "")

/-- The loop over the calls of the turn; `reached` says the call that was sent has gone by. -/
def toldAnswers (sending : InFlightRound) : Bool → List ToolCallBlock → List ToolResultBlock
  | _, [] => []
  | reached, call :: rest =>
    if call.callId = sending.callId then
      failedResult call (interruptedOutput sending call) :: toldAnswers sending true rest
    else match reached, sending.finishedFor call.callId with
      | false, some done => toldFinished call done :: toldAnswers sending reached rest
      | _, _ => failedResult call (notCompletedOutput call) :: toldAnswers sending reached rest

/-- The model's turn, and an answer for every call in it; a turn without calls would make an empty tool message, which
`CanonicalMessage` refuses. -/
def toldAfterInterruption (sending : InFlightRound) : Option (CanonicalMessage × CanonicalMessage) :=
  let answers := (toldAnswers sending false sending.assistant.calls).map Block.toolResult
  if h : answers ≠ [] then some (sending.assistant, { role := .tool, blocks := answers, blocks_ne := h }) else none

@[simp] theorem toldFinished_callId (call : ToolCallBlock) (done : ToolResultBlock) :
    (toldFinished call done).callId = done.callId := by
  unfold toldFinished
  split <;> rfl

variable {sending : InFlightRound}

theorem finishedFor_callId {callId : String} {done : ToolResultBlock}
    (h : sending.finishedFor callId = some done) : done.callId = callId := by
  simpa using List.find?_some h

theorem finishedFor_nodup (hids : (sending.finished.map (·.callId)).Nodup) {done : ToolResultBlock}
    (hdone : done ∈ sending.finished) : sending.finishedFor done.callId = some done := by
  cases hfound : sending.finishedFor done.callId with
  | none =>
    have habsent := List.find?_eq_none.mp hfound done (List.mem_reverse.mpr hdone)
    simp at habsent
  | some =>
    have hmem := List.mem_reverse.mp (List.mem_of_find?_eq_some hfound)
    rw [List.inj_on_of_nodup_map hids hmem hdone (finishedFor_callId hfound)]

theorem mem_toldAnswers {call : ToolCallBlock} {calls : List ToolCallBlock} (hcall : call ∈ calls)
    (hid : call.callId = sending.callId) (reached : Bool) :
    failedResult call (interruptedOutput sending call) ∈ toldAnswers sending reached calls := by
  induction calls generalizing reached with
  | nil => cases hcall
  | cons first rest ih =>
    rcases List.mem_cons.mp hcall with rfl | hrest
    · unfold toldAnswers
      rw [if_pos hid]
      exact List.mem_cons_self
    · unfold toldAnswers
      split
      · exact List.mem_cons_of_mem _ (ih hrest _)
      · split <;> exact List.mem_cons_of_mem _ (ih hrest _)

theorem toldAfterInterruption_results {turn answers : CanonicalMessage}
    (h : toldAfterInterruption sending = some (turn, answers)) :
    turn = sending.assistant ∧ answers.results = toldAnswers sending false sending.assistant.calls := by
  simp only [toldAfterInterruption] at h
  split at h
  · cases h
    refine ⟨rfl, ?_⟩
    rw [CanonicalMessage.results, List.filterMap_map]
    exact List.filterMap_some
  · cases h

theorem toldAfterInterruption_calls {turn answers : CanonicalMessage}
    (h : toldAfterInterruption sending = some (turn, answers)) : answers.calls = [] := by
  simp only [toldAfterInterruption] at h
  split at h
  · cases h
    rw [CanonicalMessage.calls, List.filterMap_map]
    exact List.filterMap_eq_nil_iff.mpr fun _ _ => rfl
  · cases h

section Told
variable {sending : InFlightRound}

/-- An answer that is a finished one, with nothing changed but what its output is told besides. -/
structure Keeps (done answer : ToolResultBlock) : Prop where
  callId : answer.callId = done.callId
  exitCode : answer.exitCode = done.exitCode
  failed : answer.failed = done.failed
  output : answer.output = done.output ∨ answer.output = done.output ++ "\n\n[" ++ laterText ++ notSavedText ++ "]"

/-- What one call of a lost round is answered; `before` are the calls that come before it. -/
structure Told (sending : InFlightRound) (before : List ToolCallBlock) (call : ToolCallBlock) (answer : ToolResultBlock) : Prop where
  callId : answer.callId = call.callId
  reached : sending.callId ∈ (before ++ [call]).map (·.callId) → answer.failed = true
  finished : sending.callId ∉ (before ++ [call]).map (·.callId) → ∀ done, sending.finishedFor call.callId = some done → Keeps done answer
  unfinished : sending.callId ∉ (before ++ [call]).map (·.callId) → sending.finishedFor call.callId = none → answer.failed = true

theorem toldFinished_keeps (call : ToolCallBlock) (done : ToolResultBlock) : Keeps done (toldFinished call done) := by
  unfold toldFinished
  split
  · exact ⟨rfl, rfl, rfl, .inr rfl⟩
  · exact ⟨rfl, rfl, rfl, .inl rfl⟩

theorem toldAnswers_cons (reached : Bool) (call : ToolCallBlock) (rest : List ToolCallBlock) :
    ∃ answer, toldAnswers sending reached (call :: rest) =
        answer :: toldAnswers sending (reached || decide (call.callId = sending.callId)) rest ∧
      answer.callId = call.callId ∧
      ((reached || decide (call.callId = sending.callId)) = true → answer.failed = true) ∧
      ((reached || decide (call.callId = sending.callId)) = false →
        (∀ done, sending.finishedFor call.callId = some done → Keeps done answer) ∧
          (sending.finishedFor call.callId = none → answer.failed = true)) := by
  rw [toldAnswers.eq_def]
  dsimp only
  by_cases hsent : call.callId = sending.callId
  · rw [if_pos hsent, decide_eq_true hsent, Bool.or_true]
    refine ⟨_, rfl, rfl, fun _ => rfl, ?_⟩
    intro hfalse
    cases hfalse
  · rw [if_neg hsent, decide_eq_false hsent, Bool.or_false]
    split
    · next done hdone =>
      refine ⟨_, rfl, (toldFinished_callId call done).trans (finishedFor_callId hdone), ?_, fun _ => ⟨?_, ?_⟩⟩
      · intro htrue
        cases htrue
      · intro _ hother
        cases hdone.symm.trans hother
        exact toldFinished_keeps call done
      · intro hnone
        rw [hdone] at hnone
        cases hnone
    · next hneither =>
      refine ⟨_, rfl, rfl, fun _ => rfl, fun hbefore => ⟨?_, fun _ => rfl⟩⟩
      intro done hdone
      exact (hneither done hbefore hdone).elim

theorem toldAnswers_callIds (sending : InFlightRound) (reached : Bool) (calls : List ToolCallBlock) :
    (toldAnswers sending reached calls).map (·.callId) = calls.map (·.callId) := by
  induction calls generalizing reached with
  | nil => rfl
  | cons call rest ih =>
    obtain ⟨_, hanswers, hid, _⟩ := @toldAnswers_cons sending reached call rest
    rw [hanswers, List.map_cons, List.map_cons, hid, ih]

theorem toldAnswers_told (before calls : List ToolCallBlock) {place : Nat} {call : ToolCallBlock} (hcall : calls[place]? = some call) :
    ∃ answer, (toldAnswers sending (decide (sending.callId ∈ before.map (·.callId))) calls)[place]? = some answer ∧
      Told sending (before ++ calls.take place) call answer := by
  induction calls generalizing before place with
  | nil => cases hcall
  | cons first rest ih =>
    obtain ⟨answer, hanswers, hid, hreached, hbefore⟩ :=
      @toldAnswers_cons sending (decide (sending.callId ∈ before.map (·.callId))) first rest
    have hflag : (decide (sending.callId ∈ before.map (·.callId)) || decide (first.callId = sending.callId)) =
        decide (sending.callId ∈ (before ++ [first]).map (·.callId)) := by
      rw [← Bool.decide_or, List.map_append, List.map_singleton, decide_eq_decide, List.mem_append, List.mem_singleton, eq_comm]
    rw [hflag] at hanswers hreached hbefore
    rw [hanswers]
    cases place with
    | zero =>
      cases hcall
      refine ⟨answer, rfl, ?_⟩
      rw [List.take_zero, List.append_nil]
      exact ⟨hid, fun h => hreached (decide_eq_true h), fun h => (hbefore (decide_eq_false h)).1, fun h => (hbefore (decide_eq_false h)).2⟩
    | succ =>
      rw [List.getElem?_cons_succ] at hcall
      obtain ⟨later, hlater, htold⟩ := ih (before ++ [first]) hcall
      rw [List.append_assoc] at htold
      exact ⟨later, hlater, htold⟩

/-- A transcript in which every message with calls is followed by the answers to them, one for each call and in their order,
and nothing else is answered. -/
def Answered : List CanonicalMessage → Prop
  | [] => True
  | m :: rest =>
    if m.calls = [] then m.results = [] ∧ Answered rest
    else match rest with
      | [] => False
      | answers :: rest => answers.calls = [] ∧ answers.results.map (·.callId) = m.calls.map (·.callId) ∧ Answered rest

theorem Answered.append {history later : List CanonicalMessage} (h : Answered history) (hlater : Answered later) :
    Answered (history ++ later) := by
  induction history using Answered.induct with
  | case1 => exact hlater
  | case2 m rest hcalls ih =>
    rw [Answered.eq_def] at h ⊢
    simp only [if_pos hcalls] at h
    simp only [List.cons_append, if_pos hcalls]
    exact ⟨h.1, ih h.2⟩
  | case3 m hcalls =>
    simp only [Answered, if_neg hcalls] at h
  | case4 m hcalls answers rest ih =>
    simp only [Answered, if_neg hcalls] at h
    simp only [List.cons_append, Answered, if_neg hcalls]
    exact ⟨h.1, h.2.1, ih h.2.2⟩

/-- A lost round is answered completely: every call once, in order, each as its place is told; a transcript that was
answered stays so. No finished answer goes by unless another is of the same call. -/
theorem told_completely (sending : InFlightRound) (hcalls : sending.assistant.calls ≠ []) :
    ∃ answers, toldAfterInterruption sending = some (sending.assistant, answers) ∧
      answers.results.map (·.callId) = sending.assistant.calls.map (·.callId) ∧
      (∀ place call, sending.assistant.calls[place]? = some call → ∃ answer, answers.results[place]? = some answer ∧
        Told sending (sending.assistant.calls.take place) call answer) ∧
      ((sending.finished.map (·.callId)).Nodup → ∀ done ∈ sending.finished, sending.finishedFor done.callId = some done) ∧
      ∀ history, Answered history → Answered (history ++ [sending.assistant, answers]) := by
  obtain ⟨answers, htold⟩ : ∃ answers, toldAfterInterruption sending = some (sending.assistant, answers) := by
    unfold toldAfterInterruption
    dsimp only
    rw [dif_pos]
    · exact ⟨_, rfl⟩
    · intro hnone
      have hids := toldAnswers_callIds sending false sending.assistant.calls
      rw [List.map_eq_nil_iff.mp hnone] at hids
      exact hcalls (List.map_eq_nil_iff.mp hids.symm)
  have hresults := (toldAfterInterruption_results htold).2
  have hids : answers.results.map (·.callId) = sending.assistant.calls.map (·.callId) := by
    rw [hresults]
    exact toldAnswers_callIds sending false sending.assistant.calls
  refine ⟨answers, htold, hids, ?_, fun hnodup _ => finishedFor_nodup hnodup, ?_⟩
  · intro place call hcall
    rw [hresults]
    exact @toldAnswers_told sending [] sending.assistant.calls place call hcall
  · intro _ hhistory
    refine hhistory.append ?_
    simp only [Answered, if_neg hcalls]
    exact ⟨toldAfterInterruption_calls htold, hids, trivial⟩

theorem sentId_ne : "c2" ≠ "" := by decide

theorem readId_ne : "c1" ≠ "" := by decide

theorem readName_ne : "file.read" ≠ "" := by decide

def readCall : ToolCallBlock where
  callId := "c1"
  name := "file.read"
  arguments := "\x7b\x7d"
  callId_ne := readId_ne
  name_ne := readName_ne

def sentCall : ToolCallBlock := { readCall with callId := "c2", callId_ne := sentId_ne }

def readAnswer (output : String) : ToolResultBlock where
  callId := "c1"
  output := output
  exitCode := 0
  failed := false
  callId_ne := readId_ne

def readsThenSends (reads : List ToolCallBlock) : CanonicalMessage where
  role := .assistant
  blocks := reads.map .toolCall ++ [.toolCall sentCall]
  blocks_ne := List.append_ne_nil_of_right_ne_nil _ (List.cons_ne_nil _ _)

def lostRound : InFlightRound where
  assistant := readsThenSends [readCall]
  finished := [readAnswer "first"]
  callId := "c2"

def repeatedRound : InFlightRound where
  assistant := readsThenSends [readCall, readCall]
  finished := [readAnswer "first", readAnswer "second"]
  callId := "c2"

theorem lostRound_told : lostRound.assistant.calls ≠ [] ∧
    ∃ answers, toldAfterInterruption lostRound = some (lostRound.assistant, answers) ∧
      answers.results.map (·.callId) = lostRound.assistant.calls.map (·.callId) ∧
      (∀ place call, lostRound.assistant.calls[place]? = some call → ∃ answer, answers.results[place]? = some answer ∧
        Told lostRound (lostRound.assistant.calls.take place) call answer) ∧
      ((lostRound.finished.map (·.callId)).Nodup → ∀ done ∈ lostRound.finished, lostRound.finishedFor done.callId = some done) ∧
      ∀ history, Answered history → Answered (history ++ [lostRound.assistant, answers]) :=
  ⟨List.cons_ne_nil _ _, told_completely lostRound (List.cons_ne_nil _ _)⟩

theorem second_not_kept : ¬ Keeps (readAnswer "first") (readAnswer "second") := by
  intro hkeeps
  rcases hkeeps.output with hsame | htold
  · exact absurd hsame (by decide)
  · have hfirst := congrArg (fun text : String => text.toList.head?) htold
    simp [readAnswer, String.toList_append] at hfirst

/-- Of two finished answers to calls of one id, the first is lost: both calls are answered with the second. -/
theorem repeated_id_lost : ∃ answers first, toldAfterInterruption repeatedRound = some (repeatedRound.assistant, answers) ∧
    repeatedRound.finished[0]? = some first ∧ (repeatedRound.assistant.calls[0]?).map (·.callId) = some first.callId ∧
    repeatedRound.callId ∉ (repeatedRound.assistant.calls.take 2).map (·.callId) ∧
    (answers.results[0]?).map (·.output) = some "second" ∧ ∀ answer ∈ answers.results, ¬ Keeps first answer := by
  refine ⟨_, readAnswer "first", rfl, rfl, rfl, by decide, rfl, ?_⟩
  intro answer hanswer hkeeps
  change answer ∈ [readAnswer "second", readAnswer "second",
    failedResult sentCall (interruptedOutput repeatedRound sentCall)] at hanswer
  simp only [List.mem_cons, List.not_mem_nil, or_false] at hanswer
  rcases hanswer with rfl | rfl | rfl
  · exact second_not_kept hkeeps
  · exact second_not_kept hkeeps
  · cases hkeeps.exitCode

end Told

end TinyHermes.Runs.Interruption
