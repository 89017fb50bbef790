import TinyHermes.Runs.PlanPairs

/-! Below the trigger a longer history is sent as what was sent before and something after it. -/
namespace TinyHermes.Runs.ContextBudget
variable {est : Estimator} {i : PlanInput} {ext : List StoredMessage}

namespace PlanInput

def extended (i : PlanInput) (ext : List StoredMessage) : PlanInput := { i with history := i.history ++ ext }

/-- The round is not forced, what must be sent has room, and nothing has to be shortened. -/
def StaysBelow (est : Estimator) (i : PlanInput) : Prop :=
  i.floor est ≤ i.allowance ∧ i.belowTrigger est (i.opening est ++ i.post) = true

instance : Decidable (i.StaysBelow est) := inferInstanceAs (Decidable (_ ∧ _))

theorem StaysBelow.messages (h : i.StaysBelow est) : (planContext est i).messages = i.opening est ++ i.post := by
  rw [planContext, if_neg (Int.not_lt.mpr h.1), if_pos h.2]
  rfl

end PlanInput

section Names

theorem historyCalls_append (h : List StoredMessage) : historyCalls (h ++ ext) = historyCalls h ++ historyCalls ext :=
  List.flatMap_append

theorem historyResults_append (h : List StoredMessage) : historyResults (h ++ ext) = historyResults h ++ historyResults ext :=
  List.flatMap_append

theorem toolNames_append {h : List StoredMessage} {callId : String} (hnew : ∀ call ∈ historyCalls ext, call.callId ≠ callId) :
    toolNames (h ++ ext) callId = toolNames h callId := by
  have hnone : (historyCalls ext).reverse.find? (fun call => call.callId = callId) = none := by
    apply List.find?_eq_none.mpr
    intro call hcall
    rw [decide_eq_true_eq]
    exact hnew call (List.mem_reverse.mp hcall)
  rw [toolNames, toolNames, historyCalls_append, List.reverse_append, List.find?_append, hnone, Option.none_or]

theorem capMessage_congr {t t' : Trimming} {m : CanonicalMessage}
    (h : ∀ callId ∈ answeredIds m, t.exempt callId = t'.exempt callId) : capMessage t m = capMessage t' m := by
  rw [capMessage, capMessage]
  split_ifs
  · rfl
  · apply mapBlocks_congr
    intro b hb
    cases b with
    | toolResult result =>
      have hid : result.callId ∈ answeredIds m := result_mem.mp ⟨_, hb, rfl⟩
      dsimp only
      rw [h result.callId hid]
    | text | reasoning | image | file | toolCall => rfl

end Names

namespace PlanInput

theorem cappedHistory_extended
    (hids : ∀ call ∈ historyCalls ext, ∀ item ∈ i.history, call.callId ∉ answeredIds item.message) :
    i.cappedHistory <+: (i.extended ext).cappedHistory := by
  have hsame : (i.history.map fun item => capMessage (i.extended ext).trimming item.message) = i.cappedHistory := by
    apply List.map_congr_left
    intro item hitem
    apply capMessage_congr
    intro callId hcallId
    have hnames : (i.extended ext).trimming.names callId = i.trimming.names callId := by
      apply toolNames_append
      rintro call hcall rfl
      exact hids call hcall item hitem hcallId
    rw [Trimming.exempt, Trimming.exempt, hnames]
    rfl
  refine ⟨ext.map fun item => capMessage (i.extended ext).trimming item.message, ?_⟩
  rw [← hsame, ← List.map_append]
  rfl

theorem request_extended (huser : ∀ item ∈ ext, item.message.role ≠ .user) : (i.extended ext).request = i.request := by
  have hnone : (ext.zipIdx i.history.length).reverse.find? (fun e => e.1.message.role = .user) = none := by
    apply List.find?_eq_none.mpr
    intro e he
    rw [decide_eq_true_eq]
    exact huser e.1 (List.fst_mem_of_mem_zipIdx (List.mem_reverse.mp he))
  have hhistory : (i.extended ext).history = i.history ++ ext := rfl
  rw [request, request, hhistory, List.zipIdx_append, List.reverse_append, List.find?_append, Nat.zero_add, hnone, Option.none_or]

theorem splitsAToolPair_append {h : List StoredMessage} {n : Nat} (hn : n ≤ h.length) :
    splitsAToolPair (h ++ ext) n = (splitsAToolPair h n ||
      (historyResults ext).any fun result => (historyCalls (h.take n)).any fun call => call.callId = result.callId) := by
  rw [splitsAToolPair, splitsAToolPair, List.take_append_of_le_length hn, List.drop_append_of_le_length hn,
    historyResults_append, List.any_append]

theorem usableSummary_extended
    (hanswers : ∀ result ∈ historyResults ext, ∀ call ∈ historyCalls (i.history.take i.start), call.callId ≠ result.callId)
    (hsummary : ∀ stored ∈ i.storedSummary, ∀ item ∈ ext, item.sequence = stored.lastSequence →
      ∃ item ∈ i.history, item.sequence = stored.lastSequence) :
    (i.extended ext).usableSummary = i.usableSummary := by
  have hhistory : (i.extended ext).history = i.history ++ ext := rfl
  cases hstored : i.storedSummary with
  | none =>
    rw [usableSummary_none hstored, @usableSummary_none (i.extended ext) hstored]
  | some stored =>
    have hown := usableSummary_eq hstored
    rw [hown, @usableSummary_eq (i.extended ext) stored hstored, hhistory, List.findIdx?_append]
    cases hfound : i.history.findIdx? fun item => item.sequence = stored.lastSequence with
    | none =>
      have hlater : ext.findIdx? (fun item => item.sequence = stored.lastSequence) = none := by
        apply List.findIdx?_eq_none_iff.mpr
        intro item hitem
        apply decide_eq_false
        intro hsequence
        obtain ⟨item', hitem', hsequence'⟩ := hsummary stored hstored item hitem hsequence
        exact of_decide_eq_false (List.findIdx?_eq_none_iff.mp hfound item' hitem') hsequence'
      rw [hlater]
      rfl
    | some found =>
      have hlt : found < i.history.length := (List.findIdx?_eq_some_iff_getElem.mp hfound).1
      rw [hfound] at hown
      rw [Option.some_or, Option.bind_some, Option.bind_some, splitsAToolPair_append hlt]
      cases hsplits : splitsAToolPair i.history (found + 1) with
      | true => rw [Bool.true_or]
      | false =>
        have hstart : i.start = found + 1 := by
          rw [start, hown, Option.bind_some, hsplits]
          rfl
        rw [hstart] at hanswers
        have hnone : ((historyResults ext).any fun result =>
            (historyCalls (i.history.take (found + 1))).any fun call => call.callId = result.callId) = false := by
          apply List.any_eq_false.mpr
          intro result hresult hany
          obtain ⟨call, hcall, hid⟩ := List.any_eq_true.mp hany
          exact hanswers result hresult call hcall (of_decide_eq_true hid)
        rw [hnone, Bool.false_or]

theorem view_extended
    (hids : ∀ call ∈ historyCalls ext, ∀ item ∈ i.history, call.callId ∉ answeredIds item.message)
    (husable : (i.extended ext).usableSummary = i.usableSummary)
    (huser : i.usableSummary = none ∨ ∀ item ∈ ext, item.message.role ≠ .user) :
    i.opening est ++ i.post <+: (i.extended ext).opening est ++ (i.extended ext).post := by
  have hstart : (i.extended ext).start = i.start := by rw [start, start, husable]
  have hpost : i.post <+: (i.extended ext).post := by
    rw [post, post, hstart]
    exact (cappedHistory_extended hids).drop i.start
  have hopening : (i.extended ext).opening est = i.opening est := by
    cases h : i.usableSummary with
    | none => rw [opening, opening, husable, h]
    | some usable =>
      have hle := @start_le i
      rw [start, h, Option.map_some, Option.getD_some] at hle
      have hrequest : (i.extended ext).request = i.request := by
        rcases huser with hnone | huser
        · rw [h] at hnone
          cases hnone
        · exact request_extended huser
      have hcovered : (i.extended ext).history.take usable.2 = i.history.take usable.2 := List.take_append_of_le_length hle
      rw [opening, opening, husable, h]
      dsimp only
      rw [hrequest, hcovered]
      rfl
  rw [hopening]
  exact (List.prefix_append_right_inj _).mpr hpost

end PlanInput

/-- What was sent stays the beginning of what is sent. -/
theorem planContext_stable (est : Estimator) (i : PlanInput) (ext : List StoredMessage) (hbelow : i.StaysBelow est)
    (hbelow' : (i.extended ext).StaysBelow est)
    (hids : ∀ call ∈ historyCalls ext, ∀ item ∈ i.history,
      call.callId ∉ callIds item.message ∧ call.callId ∉ answeredIds item.message)
    (hanswers : ∀ result ∈ historyResults ext, ∀ call ∈ historyCalls (i.history.take i.start), call.callId ≠ result.callId)
    (huser : i.usableSummary = none ∨ ∀ item ∈ ext, item.message.role ≠ .user)
    (hsummary : ∀ stored ∈ i.storedSummary, ∀ item ∈ ext, item.sequence = stored.lastSequence →
      ∃ item ∈ i.history, item.sequence = stored.lastSequence) :
    (planContext est i).messages <+: (planContext est (i.extended ext)).messages := by
  rw [hbelow.messages, hbelow'.messages]
  apply PlanInput.view_extended
  · intro call hcall item hitem
    exact (hids call hcall item hitem).2
  · exact PlanInput.usableSummary_extended hanswers hsummary
  · exact huser

/-- A talk with a stored summary up to the message `last`. -/
def shortTalk (last : Nat) : PlanInput where
  window := { contextWindow := 4000, reservedOutputTokens := 0 }
  safetyRules := "rules"
  personality := "you"
  history := [⟨0, 1, spoken .user "read it"⟩, ⟨1, 2, asking "c" c_ne⟩]
  storedSummary := some { text := "summary", lastSequence := last }
  threshold := fun allowance => allowance / 2

def shortAnswer : List StoredMessage := [⟨2, 3, answering .tool "c" c_ne⟩, ⟨3, 4, spoken .assistant "yes"⟩]

theorem shortTalk_stable :
    (planContext oneLong (shortTalk 1)).messages <+: (planContext oneLong ((shortTalk 1).extended shortAnswer)).messages :=
  planContext_stable oneLong (shortTalk 1) shortAnswer (by decide +kernel) (by decide +kernel) (by decide) (by decide +kernel)
    (.inr (by decide)) (by decide)

def shortReply : List StoredMessage := [⟨2, 3, spoken .assistant "yes"⟩]

/-- A summary that ends in what is said later takes the place of what was sent. -/
theorem later_summary_unstable :
    (shortTalk 3).StaysBelow oneLong ∧ ((shortTalk 3).extended shortReply).StaysBelow oneLong ∧
      (∀ call ∈ historyCalls shortReply, ∀ item ∈ (shortTalk 3).history,
        call.callId ∉ callIds item.message ∧ call.callId ∉ answeredIds item.message) ∧
      (∀ result ∈ historyResults shortReply, ∀ call ∈ historyCalls ((shortTalk 3).history.take (shortTalk 3).start),
        call.callId ≠ result.callId) ∧
      (∀ item ∈ shortReply, item.message.role ≠ .user) ∧
      ¬ (planContext oneLong (shortTalk 3)).messages <+:
        (planContext oneLong ((shortTalk 3).extended shortReply)).messages := by
  refine ⟨by decide +kernel, by decide +kernel, by decide, by decide +kernel, by decide, by decide +kernel⟩

end TinyHermes.Runs.ContextBudget
