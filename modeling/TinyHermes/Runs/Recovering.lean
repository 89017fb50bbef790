import TinyHermes.Lib.AnsweredLoop
import TinyHermes.Runs.ModelRounds

/-! `_complete_recovering` over a whole round: it returns whatever the endpoints answer, and its one reply accounts for
every answer it received. -/
namespace TinyHermes.Runs.Worker
open Lib

/-- A turn of the loop; `routes` is what `fallback_route` finds at each of them. -/
def recoveryStep (routes : Nat → Routes) (inputEstimate : Nat) (asked : Nat) (r : Recovery) (response : ModelResponse) :
    Recovery ⊕ ModelResponse := r.receive (routes asked) inputEstimate response

/-- A round's model call. The endpoints' answers come one after another, whatever they were asked. -/
def completeRecovering (routes : Nat → Routes) (inputEstimate : Nat) (answers : Nat → ModelResponse) (fuel : Nat)
    (context : ExecutionContext) : Option (ModelResponse × Nat) :=
  AnsweredLoop.run (recoveryStep routes inputEstimate) answers fuel 0 { context }

section Terminating
variable {routes : Routes} {inputEstimate : Nat} {r r' : Recovery} {response final : ModelResponse}

theorem fallbacksLeft_split (context : ExecutionContext) : ∃ before, context.fallbackEndpointIds = before ++ context.fallbacksLeft := by
  unfold ExecutionContext.fallbacksLeft
  cases context.answeringEndpointId with
  | none => exact ⟨[], rfl⟩
  | some endpoint =>
    obtain ⟨before, hbefore⟩ := (List.tail_suffix _).trans
      (List.dropWhile_suffix (fun fallback : Uuid => decide (fallback ≠ endpoint)) (l := context.fallbackEndpointIds))
    exact ⟨before, hbefore.symm⟩

theorem tail_dropWhile_ne {endpoint : Uuid} {before after : List Uuid} (h : endpoint ∉ before) :
    ((before ++ endpoint :: after).dropWhile fun fallback => decide (fallback ≠ endpoint)).tail = after := by
  have hbefore : ∀ fallback ∈ before, decide (fallback ≠ endpoint) = true := by
    intro _ hmem
    refine decide_eq_true ?_
    rintro rfl
    exact h hmem
  rw [List.dropWhile_append_of_pos hbefore, List.dropWhile_cons_of_neg (by simp), List.tail_cons]

theorem fallBack_fewer {context moved : ExecutionContext} (hdistinct : context.fallbackEndpointIds.Nodup)
    (h : fallBack routes context inputEstimate = some moved) :
    moved.fallbackEndpointIds = context.fallbackEndpointIds ∧ moved.fallbacksLeft.length < context.fallbacksLeft.length := by
  obtain ⟨candidate, hcandidate, hmoved⟩ := List.exists_of_findSome?_eq_some h
  obtain ⟨⟨window, prices⟩, -, htaken⟩ := Option.bind_eq_some_iff.mp hmoved
  dsimp only at htaken
  split_ifs at htaken
  cases htaken
  refine ⟨rfl, ?_⟩
  obtain ⟨earlier, hids⟩ := fallbacksLeft_split context
  obtain ⟨between, after, hleft⟩ := List.append_of_mem hcandidate
  rw [hleft, ← List.append_assoc] at hids
  rw [hids] at hdistinct
  have happart : candidate ∉ earlier ++ between := by
    intro hmem
    exact (List.nodup_append.mp hdistinct).2.2 candidate hmem candidate List.mem_cons_self rfl
  have hafter : ExecutionContext.fallbacksLeft { context with answeringEndpointId := some candidate, window := some window, prices } = after := by
    simp only [ExecutionContext.fallbacksLeft, hids]
    exact tail_dropWhile_ne happart
  rw [hafter, hleft, List.length_append, List.length_cons]
  omega

/-- The calls that may still be asked for: no fallback after the first reply, and only so many retries and continuations. -/
def Recovery.left (r : Recovery) : Nat :=
  (if r.attempts = [] then r.context.fallbacksLeft.length else 0) + (maxRetries - r.retried) + (maxContinuations - r.continued)

theorem recovers_room (h : r.recovers response = true) :
    response.stopReason = .failed ∧
      (response.continuable = true → r.continued < maxContinuations) ∧ (response.continuable = false → r.retried < maxRetries) := by
  unfold Recovery.recovers at h
  obtain ⟨hfailed, hroom⟩ := Bool.and_eq_true_iff.mp h
  refine ⟨of_decide_eq_true hfailed, fun hcontinuable => ?_, fun hcut => ?_⟩
  · rw [if_pos hcontinuable] at hroom
    exact of_decide_eq_true hroom
  · rw [hcut, if_neg Bool.false_ne_true] at hroom
    exact of_decide_eq_true (Bool.and_eq_true_iff.mp hroom).2

theorem receive_cases (h : r.receive routes inputEstimate response = .inl r') :
    (response.transient = true ∧ r.attempts = [] ∧ ∃ moved, fallBack routes r.context inputEstimate = some moved ∧
        r' = { r with context := moved, unanswered := r.unanswered + response.modelCalls }) ∨
      (response.stopReason = .failed ∧ response.continuable = true ∧ r.continued < maxContinuations ∧
        r' = { r with
          attempts := r.attempts ++ [response], continued := r.continued + 1, written := r.written ++ [response.text] }) ∨
      (response.stopReason = .failed ∧ response.continuable = false ∧ r.retried < maxRetries ∧
        r' = { r with attempts := r.attempts ++ [response], retried := r.retried + 1 }) := by
  unfold Recovery.receive at h
  split at h
  · next switched hswitch =>
    split_ifs at hswitch with hunanswered
    exact .inl ⟨hunanswered.1, hunanswered.2, switched, hswitch, (Sum.inl.inj h).symm⟩
  · split_ifs at h with hrecovers hcontinuable
    · obtain ⟨hfailed, hroom, -⟩ := recovers_room (Bool.and_eq_true_iff.mp hrecovers).1
      exact .inr (.inl ⟨hfailed, hcontinuable, hroom hcontinuable, (Sum.inl.inj h).symm⟩)
    · obtain ⟨hfailed, -, hroom⟩ := recovers_room (Bool.and_eq_true_iff.mp hrecovers).1
      have hcut : response.continuable = false := Bool.eq_false_iff.mpr hcontinuable
      exact .inr (.inr ⟨hfailed, hcut, hroom hcut, (Sum.inl.inj h).symm⟩)

theorem receive_left (hdistinct : r.context.fallbackEndpointIds.Nodup) (h : r.receive routes inputEstimate response = .inl r') :
    r'.left < r.left := by
  have hsnoc : r.attempts ++ [response] ≠ [] := List.append_ne_nil_of_right_ne_nil _ (List.cons_ne_nil _ _)
  rcases receive_cases h with ⟨-, hnone, _, hmoved, rfl⟩ | ⟨-, -, hroom, rfl⟩ | ⟨-, -, _, rfl⟩
  · have hfewer := (fallBack_fewer hdistinct hmoved).2
    simp only [Recovery.left, hnone, if_true]
    omega
  · simp only [Recovery.left, hsnoc, if_false]
    omega
  · simp only [Recovery.left, hsnoc, if_false]
    omega

end Terminating

section Accounting
variable {context : ExecutionContext} {received : List ModelResponse} {r : Recovery} {final : ModelResponse}

/-- The texts of the replies that were cut off and continued, in order. -/
def continuedParts (attempts : List ModelResponse) : List String := (attempts.filter (·.continuable)).map (·.text)

def counted (attempts : List ModelResponse) : Bool :=
  attempts.all fun item => item.inputTokens.isSome && item.outputTokens.isSome && item.usageQuality ≠ .unavailable

/-- Where the loop is after the answers it received: those that were passed on to a fallback, and then the attempts. -/
structure Recovery.Follows (context : ExecutionContext) (received : List ModelResponse) (r : Recovery) : Prop where
  passed : ∃ unanswered, received = unanswered ++ r.attempts ∧ (∀ item ∈ unanswered, item.transient = true) ∧
    callsOf unanswered = r.unanswered
  written : r.written = continuedParts r.attempts
  asked : ∀ item ∈ r.attempts, item.stopReason = .failed
  chain : r.context.fallbackEndpointIds = context.fallbackEndpointIds

theorem callsOf_append (xs ys : List ModelResponse) : callsOf (xs ++ ys) = callsOf xs + callsOf ys := by
  rw [callsOf, List.map_append, List.sum_append]
  rfl

theorem continuedParts_append (xs ys : List ModelResponse) : continuedParts (xs ++ ys) = continuedParts xs ++ continuedParts ys := by
  rw [continuedParts, List.filter_append, List.map_append]
  rfl

theorem continuedParts_continued {response : ModelResponse} (h : response.continuable = true) :
    continuedParts [response] = [response.text] := by
  simp [continuedParts, h]

theorem continuedParts_cut {response : ModelResponse} (h : response.continuable = false) : continuedParts [response] = [] := by
  simp [continuedParts, h]

theorem Recovery.Follows.again {routes : Routes} {inputEstimate : Nat} {response : ModelResponse} {r' : Recovery}
    (h : r.Follows context received) (hdistinct : context.fallbackEndpointIds.Nodup)
    (hreceive : r.receive routes inputEstimate response = .inl r') : r'.Follows context (received ++ [response]) := by
  obtain ⟨unanswered, hreceived, htransient, hcalls⟩ := h.passed
  rcases receive_cases hreceive with ⟨hswitches, hnone, _, hmoved, rfl⟩ | ⟨hfailed, hcontinuable, -, rfl⟩ |
    ⟨hfailed, hcut, -, rfl⟩
  · refine ⟨⟨unanswered ++ [response], ?_, ?_, ?_⟩, h.written, h.asked, ?_⟩
    · rw [hreceived, hnone, List.append_nil, List.append_nil]
    · exact List.forall_mem_append.mpr ⟨htransient, List.forall_mem_singleton.mpr hswitches⟩
    · rw [callsOf_snoc, hcalls]
    · exact (fallBack_fewer (h.chain ▸ hdistinct) hmoved).1.trans h.chain
  · refine ⟨⟨unanswered, ?_, htransient, hcalls⟩, ?_, ?_, h.chain⟩
    · rw [hreceived, List.append_assoc]
    · rw [continuedParts_append, continuedParts_continued hcontinuable, h.written]
    · exact List.forall_mem_append.mpr ⟨h.asked, List.forall_mem_singleton.mpr hfailed⟩
  · refine ⟨⟨unanswered, ?_, htransient, hcalls⟩, ?_, ?_, h.chain⟩
    · rw [hreceived, List.append_assoc]
    · rw [continuedParts_append, continuedParts_cut hcut, h.written, List.append_nil]
    · exact List.forall_mem_append.mpr ⟨h.asked, List.forall_mem_singleton.mpr hfailed⟩

/-- What a round's one reply says its attempts used: the sums, where every one says so. -/
structure Used (attempts : List ModelResponse) (final : ModelResponse) : Prop where
  tokens : counted attempts = true → final.inputTokens = some (attempts.map (·.inputTokens.getD 0)).sum ∧
    final.outputTokens = some (attempts.map (·.outputTokens.getD 0)).sum
  cached : counted attempts = true → attempts.all (·.cachedInputTokens.isSome) = true →
    final.cachedInputTokens = some (attempts.map (·.cachedInputTokens.getD 0)).sum
  unknown : counted attempts = false → (∀ item, attempts ≠ [item]) →
    final.inputTokens = none ∧ final.outputTokens = none ∧ final.usageQuality = .unavailable

/-- What a round returns for its answers: those passed on to a fallback say nothing, every other one is an attempt, and the last
of them is the reply. -/
structure Accounts (received : List ModelResponse) (final : ModelResponse) : Prop where
  calls : final.modelCalls = callsOf received
  reply : ∃ unanswered attempts last, received = unanswered ++ attempts ++ [last] ∧ (∀ item ∈ unanswered, item.transient = true) ∧
    (∀ item ∈ attempts, item.stopReason = .failed) ∧ final.stopReason = last.stopReason ∧
    final.text = (if last.stopReason = .failed then last.text else String.join (continuedParts attempts) ++ last.text) ∧
    Used (attempts ++ [last]) final

theorem merged_used (earlier : List ModelResponse) (final : ModelResponse) (written : String) :
    Used (earlier ++ [final]) (merged earlier final written) := by
  by_cases h : earlier = []
  · subst h
    rw [merged, if_pos rfl, List.nil_append]
    refine ⟨fun hcounted => ?_, fun _ hcached => ?_, fun _ hmany => absurd rfl (hmany final)⟩
    · simp only [counted, List.all_cons, List.all_nil, Bool.and_true, Bool.and_eq_true, Option.isSome_iff_exists] at hcounted
      obtain ⟨⟨⟨_, hinput⟩, _, houtput⟩, -⟩ := hcounted
      rw [hinput, houtput]
      simp [hinput, houtput]
    · simp only [List.all_cons, List.all_nil, Bool.and_true, Option.isSome_iff_exists] at hcached
      obtain ⟨_, htokens⟩ := hcached
      rw [htokens]
      simp [htokens]
  · rw [merged, if_neg h]
    refine ⟨fun hcounted => ?_, fun hcounted hcached => ?_, fun huncounted _ => ?_⟩
    · exact ⟨if_pos hcounted, if_pos hcounted⟩
    · exact if_pos (Bool.and_eq_true_iff.mpr ⟨hcounted, hcached⟩)
    · have hnot : ¬ counted (earlier ++ [final]) = true := by
        rw [huncounted]
        exact Bool.false_ne_true
      exact ⟨if_neg hnot, if_neg hnot, if_neg hnot⟩

theorem merged_text (earlier : List ModelResponse) (final : ModelResponse) (written : List String)
    (hwritten : earlier = [] → written = []) :
    (merged earlier final (String.join written)).stopReason = final.stopReason ∧
      (merged earlier final (String.join written)).text =
        if final.stopReason = .failed then final.text else String.join written ++ final.text := by
  by_cases h : earlier = []
  · rw [merged, if_pos h, hwritten h]
    refine ⟨rfl, ?_⟩
    split
    · rfl
    · exact String.empty_append.symm
  · rw [merged, if_neg h]
    refine ⟨rfl, ?_⟩
    dsimp only
    by_cases hfailed : final.stopReason = .failed
    · rw [if_pos hfailed, if_neg (not_not_intro hfailed)]
    · rw [if_neg hfailed, if_pos hfailed]

theorem Recovery.Follows.settles {routes : Routes} {inputEstimate : Nat} {response : ModelResponse}
    (h : r.Follows context received) (hreceive : r.receive routes inputEstimate response = .inr final) :
    Accounts (received ++ [response]) final := by
  have hcalls := receive_settles hreceive
  obtain ⟨unanswered, hreceived, htransient, hpassed⟩ := h.passed
  have hfinal : final = r.settled response := by
    unfold Recovery.receive at hreceive
    split at hreceive
    · cases hreceive
    · split_ifs at hreceive
      exact (Sum.inr.inj hreceive).symm
  have hwritten : r.attempts = [] → r.written = [] := by
    intro hnone
    rw [h.written, hnone]
    rfl
  have htext := merged_text r.attempts response r.written hwritten
  refine ⟨?_, unanswered, r.attempts, response, ?_, htransient, h.asked, ?_, ?_, ?_⟩
  · rw [hcalls, callsOf_snoc, hreceived, callsOf_append, hpassed, Recovery.made]
    omega
  · rw [hreceived]
  · rw [hfinal]
    exact htext.1
  · rw [hfinal, ← h.written]
    exact htext.2
  · have hused := merged_used r.attempts response (String.join r.written)
    rw [hfinal]
    exact ⟨hused.tokens, hused.cached, hused.unknown⟩

/-- A round's model call returns after finitely many calls, whatever the endpoints answer and whichever fallbacks can be used:
one for each fallback that is left, two retries, three continuations, and one. Its reply accounts for all of them. -/
theorem completeRecovering_accounts (routes : Nat → Routes) (inputEstimate : Nat) (answers : Nat → ModelResponse)
    (context : ExecutionContext) (hdistinct : context.fallbackEndpointIds.Nodup) :
    ∃ calls final, 1 ≤ calls ∧ calls ≤ context.fallbacksLeft.length + 6 ∧
      (∀ fuel, calls ≤ fuel → completeRecovering routes inputEstimate answers fuel context = some (final, calls)) ∧
      Accounts (AnsweredLoop.received answers calls) final := by
  have hkeeps : ∀ asked r r', r.Follows context (AnsweredLoop.received answers asked) →
      recoveryStep routes inputEstimate asked r (answers asked) = .inl r' →
      r'.Follows context (AnsweredLoop.received answers (asked + 1)) ∧ r'.left < r.left := by
    intro _ _ _ hfollows hstep
    rw [AnsweredLoop.received_succ]
    exact ⟨hfollows.again hdistinct hstep, receive_left (hfollows.chain ▸ hdistinct) hstep⟩
  have hstart : Recovery.Follows context (AnsweredLoop.received answers 0) { context } :=
    ⟨⟨[], rfl, fun _ h => absurd h List.not_mem_nil, rfl⟩, rfl, fun _ h => absurd h List.not_mem_nil, rfl⟩
  obtain ⟨calls, _, final, -, _, hreturns, hrun⟩ := AnsweredLoop.run_returns hkeeps { context } 0 hstart
  refine ⟨calls + 1, final, Nat.le_add_left _ _, ?_, fun fuel hfuel => hrun fuel (by omega), ?_⟩
  · have hleft : Recovery.left { context } = context.fallbacksLeft.length + 2 + 3 := rfl
    omega
  · rw [AnsweredLoop.received_succ]
    exact hreturns.kept.settles hreturns.returned

def withFallbacks : ExecutionContext where
  budget := { maxExecutionSeconds := 60, maxElapsedSeconds := 60, elapsedDeadlineAt := 0, maxModelCalls := 10,
              maxToolCalls := 10, maxDerivedRetries := 1 }
  fallbackEndpointIds := [2, 3]

def cutOff : ModelResponse where
  stopReason := .failed
  text := "The first half"
  inputTokens := some 5
  outputTokens := some 7
  failure := some "max_output_reached"
  continuable := true

def unreachable : ModelResponse where
  stopReason := .failed
  usageQuality := .unavailable
  failure := some "endpoint_unreachable"
  transient := true

def halfAnswered (asked : Nat) : ModelResponse := if asked = 0 then cutOff else unreachable

theorem withFallbacks_accounts :
    ∃ calls final, 1 ≤ calls ∧ calls ≤ withFallbacks.fallbacksLeft.length + 6 ∧
      (∀ fuel, calls ≤ fuel → completeRecovering (fun _ _ => none) 100 halfAnswered fuel withFallbacks = some (final, calls)) ∧
      Accounts (AnsweredLoop.received halfAnswered calls) final :=
  completeRecovering_accounts (fun _ _ => none) 100 halfAnswered withFallbacks (by decide)

/-- A continuation that fails gives neither the text that was continued nor the tokens that the first half used. -/
theorem half_is_lost : ∃ routes answers context final, context.fallbackEndpointIds.Nodup ∧
    completeRecovering routes 100 answers 2 context = some (final, 2) ∧
    final.text ≠ String.join ((AnsweredLoop.received answers 2).map (·.text)) ∧
    final.inputTokens ≠ some ((AnsweredLoop.received answers 2).map (·.inputTokens.getD 0)).sum := by
  refine ⟨fun _ _ => none, halfAnswered, withFallbacks, _, by decide, rfl, by decide, by decide⟩

end Accounting

end TinyHermes.Runs.Worker
