import TinyHermes.Runs.PlanShape

/-! A plan's cuts fall between no tool call and its result. -/
namespace TinyHermes.Runs.ContextBudget
open Lib
variable {est : Estimator} {i : PlanInput}

inductive ToolEvent where
  | call (callId : String)
  | result (callId : String)
  deriving DecidableEq

def Block.event : Block → Option ToolEvent
  | .toolCall call => some (.call call.callId)
  | .toolResult result => some (.result result.callId)
  | _ => none

/-- The calls and results of some messages, in the order they are sent. -/
def events (messages : List CanonicalMessage) : List ToolEvent := messages.flatMap fun m => m.blocks.filterMap Block.event

def Paired (es : List ToolEvent) : Prop :=
  ∀ before callId after, es = before ++ .result callId :: after → .call callId ∈ before

/-- What is sent is what was there from some place on, so that a call that is sent keeps the results that came after it. -/
def KeepsResults (there sent : List ToolEvent) : Prop :=
  ∃ dropped, ∀ before callId after, sent = before ++ .call callId :: after →
    ∃ later, there = dropped ++ before ++ .call callId :: later ∧ (.result callId ∈ later → .result callId ∈ after)

def Apart (before after : List ToolEvent) : Prop := ∀ callId, .call callId ∈ before → .result callId ∉ after

theorem Apart.paired {dropped kept : List ToolEvent} (hapart : Apart dropped kept) (h : Paired (dropped ++ kept)) :
    Paired kept := by
  intro before callId after hkept
  have hcall := h (dropped ++ before) callId after (by rw [hkept, List.append_assoc])
  rcases List.mem_append.mp hcall with hdropped | hbefore
  · have hresult : .result callId ∈ kept := by
      rw [hkept]
      exact List.mem_append_right _ List.mem_cons_self
    exact absurd hresult (hapart callId hdropped)
  · exact hbefore

theorem keepsResults_append (dropped kept : List ToolEvent) : KeepsResults (dropped ++ kept) kept := by
  refine ⟨dropped, ?_⟩
  intro _ _ after hkept
  exact ⟨after, by rw [hkept, List.append_assoc], id⟩

section Events

def BlockShape.event : BlockShape → Option ToolEvent
  | .toolCall callId _ _ => some (.call callId)
  | .toolResult callId _ _ => some (.result callId)
  | .other _ => none

theorem shape_event (b : Block) : b.shape.event = b.event := by
  cases b <;> rfl

theorem events_eq (messages : List CanonicalMessage) :
    events messages = (messages.map (·.shape)).flatMap fun s => s.blocks.filterMap BlockShape.event := by
  rw [events, List.flatMap_map]
  apply List.flatMap_congr
  intro _ _
  rw [CanonicalMessage.shape, List.filterMap_map]
  exact (List.filterMap_congr fun b _ => shape_event b).symm

theorem events_congr {messages messages' : List CanonicalMessage}
    (h : messages.map (·.shape) = messages'.map (·.shape)) : events messages = events messages' := by
  rw [events_eq, h, ← events_eq]

theorem events_append (before after : List CanonicalMessage) : events (before ++ after) = events before ++ events after :=
  List.flatMap_append

theorem mem_events {e : ToolEvent} {messages : List CanonicalMessage} :
    e ∈ events messages ↔ ∃ m ∈ messages, ∃ b ∈ m.blocks, b.event = some e := by
  simp only [events, List.mem_flatMap, List.mem_filterMap]

theorem call_mem {callId : String} {m : CanonicalMessage} :
    (∃ b ∈ m.blocks, b.event = some (.call callId)) ↔ callId ∈ callIds m := by
  simp only [callIds, CanonicalMessage.calls, List.mem_map, List.mem_filterMap]
  constructor
  · rintro ⟨b, hb, h⟩
    cases b with
    | toolCall call =>
      cases h
      exact ⟨call, ⟨_, hb, rfl⟩, rfl⟩
    | text | reasoning | image | file | toolResult => cases h
  · rintro ⟨_, ⟨b, hb, h⟩, rfl⟩
    cases b with
    | toolCall =>
      cases h
      exact ⟨_, hb, rfl⟩
    | text | reasoning | image | file | toolResult => cases h

theorem result_mem {callId : String} {m : CanonicalMessage} :
    (∃ b ∈ m.blocks, b.event = some (.result callId)) ↔ callId ∈ answeredIds m := by
  simp only [answeredIds, CanonicalMessage.results, List.mem_map, List.mem_filterMap]
  constructor
  · rintro ⟨b, hb, h⟩
    cases b with
    | toolResult result =>
      cases h
      exact ⟨result, ⟨_, hb, rfl⟩, rfl⟩
    | text | reasoning | image | file | toolCall => cases h
  · rintro ⟨_, ⟨b, hb, h⟩, rfl⟩
    cases b with
    | toolResult =>
      cases h
      exact ⟨_, hb, rfl⟩
    | text | reasoning | image | file | toolCall => cases h

theorem separated_iff {before after : List CanonicalMessage} :
    Apart (events before) (events after) ↔
      ∀ a ∈ before, ∀ b ∈ after, ∀ callId ∈ callIds a, callId ∉ answeredIds b := by
  simp only [Apart, mem_events, call_mem, result_mem]
  constructor
  · intro h a ha b hb callId hcall hresult
    exact h callId ⟨a, ha, hcall⟩ ⟨b, hb, hresult⟩
  · rintro h callId ⟨a, ha, hcall⟩ ⟨b, hb, hresult⟩
    exact h a ha b hb callId hcall hresult

end Events

namespace PlanInput

def historyEvents (i : PlanInput) : List ToolEvent := events (i.history.map (·.message))

def eventsBefore (i : PlanInput) (k : Nat) : List ToolEvent := events ((i.history.take k).map (·.message))

def eventsFrom (i : PlanInput) (k : Nat) : List ToolEvent := events ((i.history.drop k).map (·.message))

theorem historyEvents_cut (k : Nat) : i.historyEvents = i.eventsBefore k ++ i.eventsFrom k := by
  rw [historyEvents, eventsBefore, eventsFrom, ← events_append, ← List.map_append, List.take_append_drop]

theorem splitsAToolPair_iff {n : Nat} :
    splitsAToolPair i.history n = false ↔ Apart (i.eventsBefore n) (i.eventsFrom n) := by
  rw [eventsBefore, eventsFrom, separated_iff]
  constructor
  · intro h _ ha _ hb callId hcall hresult
    obtain ⟨asked, hasked, rfl⟩ := List.mem_map.mp ha
    obtain ⟨answered, hanswered, rfl⟩ := List.mem_map.mp hb
    obtain ⟨call, hcalled, rfl⟩ := List.mem_map.mp hcall
    obtain ⟨result, hgiven, hid⟩ := List.mem_map.mp hresult
    have hcalls : call ∈ historyCalls (i.history.take n) := List.mem_flatMap.mpr ⟨asked, hasked, hcalled⟩
    have hresults : result ∈ historyResults (i.history.drop n) := List.mem_flatMap.mpr ⟨answered, hanswered, hgiven⟩
    have hnone := List.any_eq_false.mp h result hresults
    apply hnone
    exact List.any_eq_true.mpr ⟨call, hcalls, decide_eq_true hid.symm⟩
  · intro h
    apply List.any_eq_false.mpr
    intro _ hresult hany
    obtain ⟨call, hcall, hid⟩ := List.any_eq_true.mp hany
    obtain ⟨asked, hasked, hcalled⟩ := List.mem_flatMap.mp hcall
    obtain ⟨answered, hanswered, hgiven⟩ := List.mem_flatMap.mp hresult
    apply h asked.message (List.mem_map_of_mem hasked) answered.message (List.mem_map_of_mem hanswered) call.callId
    · exact List.mem_map_of_mem hcalled
    · rw [of_decide_eq_true hid]
      exact List.mem_map_of_mem hgiven

theorem start_apart : Apart (i.eventsBefore i.start) (i.eventsFrom i.start) := by
  cases h : i.usableSummary with
  | none =>
    have hstart : i.start = 0 := by rw [start, h]; rfl
    rw [hstart]
    intro _ hcall
    cases hcall
  | some usable =>
    have hstart : i.start = usable.2 := by rw [start, h]; rfl
    rw [hstart]
    exact splitsAToolPair_iff.mp (usableSummary_some h).2.1

theorem post_apart : Apart (events (i.post.take (i.tailStart est))) (events (i.post.drop (i.tailStart est))) := by
  rw [separated_iff]
  exact Cuts.settle_uncut (tailBySize_le est _ _ _) le_rfl

theorem tail_apart : Apart (i.eventsBefore (i.start + i.tailStart est)) (i.eventsFrom (i.start + i.tailStart est)) := by
  have hshape := @post_shape i
  have htaken : events (i.post.take (i.tailStart est)) = events (((i.history.drop i.start).take (i.tailStart est)).map (·.message)) := by
    apply events_congr
    rw [List.map_take, hshape, ← List.map_take, List.map_map]
    rfl
  have hdropped : events (i.post.drop (i.tailStart est)) = i.eventsFrom (i.start + i.tailStart est) := by
    apply events_congr
    rw [List.map_drop, hshape, ← List.map_drop, List.drop_drop, List.map_map]
    rfl
  have hpost := @post_apart est i
  rw [htaken, hdropped] at hpost
  have hfrom : i.eventsFrom i.start =
      events (((i.history.drop i.start).take (i.tailStart est)).map (·.message)) ++ i.eventsFrom (i.start + i.tailStart est) := by
    rw [eventsFrom, eventsFrom, ← events_append, ← List.map_append, ← List.drop_drop, List.take_append_drop]
  intro callId hcall
  rw [eventsBefore, List.take_add, List.map_append, events_append] at hcall
  rcases List.mem_append.mp hcall with hbefore | hbetween
  · have hnone := start_apart callId hbefore
    rw [hfrom, List.mem_append, not_or] at hnone
    exact hnone.2
  · exact hpost callId hbetween

theorem CutAt.apart {p : ContextPlan} {k : Nat} (h : CutAt est i p k) : Apart (i.eventsBefore k) (i.eventsFrom k) := by
  cases h with
  | start => exact start_apart
  | tail => exact tail_apart

theorem Opens.events_eq {k : Nat} {front : List CanonicalMessage} (h : i.Opens k front)
    (hrequest : ∀ r, i.request = some r → events [r.2] = []) : events front = [] := by
  have hsummary : ∀ m, IsSummary m → events [m] = [] := by
    intro m hm
    obtain ⟨_, hblocks⟩ := hm.blocks
    rw [events, List.flatMap_singleton, hblocks]
    rfl
  cases h with
  | nothing => rfl
  | summary m hm => exact hsummary m hm
  | summaryAndRequest m hm r hr =>
    have hboth := events_append [m] [r.2]
    rw [hsummary m hm, hrequest r hr] at hboth
    exact hboth

end PlanInput

/-- A plan sends no result without its call, and no call without the results it had. -/
theorem planContext_pairs (est : Estimator) (i : PlanInput) (hpaired : Paired i.historyEvents)
    (hrequest : ∀ r, i.request = some r → events [r.2] = []) (h : (planContext est i).fits = true) :
    Paired (events (planContext est i).messages) ∧ KeepsResults i.historyEvents (events (planContext est i).messages) := by
  obtain ⟨_, k, hcut, _, _, hmessages, hopens, hshape⟩ := (planContext_sends h).view
  have hsent : events (planContext est i).messages = i.eventsFrom k := by
    rw [hmessages, events_append, hopens.events_eq hrequest, List.nil_append]
    apply events_congr
    rw [hshape, List.map_map]
    rfl
  rw [hsent]
  rw [PlanInput.historyEvents_cut k] at hpaired ⊢
  exact ⟨hcut.apart.paired hpaired, keepsResults_append _ _⟩

def asking (callId : String) (callId_ne : callId ≠ "") : CanonicalMessage where
  role := .assistant
  blocks := [.toolCall { callId, name := "file.read", arguments := [], callId_ne, name_ne := by decide }]
  blocks_ne := by simp

def answering (role : Role) (callId : String) (callId_ne : callId ≠ "") : CanonicalMessage where
  role := role
  blocks := [.toolResult { callId, output := "done", exitCode := 0, failed := false, callId_ne }]
  blocks_ne := by simp

theorem c_ne : "c" ≠ "" := by decide

/-- A talk with one call and its answer, and a summary up to the message `last`. -/
def answeredTalk (role : Role) (last : Nat) : PlanInput where
  window := { contextWindow := 4000, reservedOutputTokens := 0 }
  safetyRules := "rules"
  personality := "you"
  history := [⟨0, 1, spoken .user "read it"⟩, ⟨1, 2, asking "c" c_ne⟩, ⟨2, 3, answering role "c" c_ne⟩,
    ⟨3, 4, spoken .assistant "yes"⟩]
  storedSummary := some { text := "summary", lastSequence := last }
  threshold := fun allowance => allowance / 2

theorem answeredTalk_paired (role : Role) (last : Nat) : Paired (answeredTalk role last).historyEvents := by
  have hevents : (answeredTalk role last).historyEvents = [.call "c", .result "c"] := rfl
  rw [hevents]
  intro before _ _ h
  cases before with
  | nil => cases h
  | cons first before =>
    obtain ⟨rfl, h⟩ := List.cons.inj h
    cases before with
    | nil =>
      cases h
      exact List.mem_singleton.mpr rfl
    | cons second before =>
      cases before <;> cases h

theorem answeredTalk_pairs :
    Paired (events (planContext oneLong (answeredTalk .tool 1)).messages) ∧
      KeepsResults (answeredTalk .tool 1).historyEvents (events (planContext oneLong (answeredTalk .tool 1)).messages) := by
  apply planContext_pairs oneLong (answeredTalk .tool 1) (answeredTalk_paired .tool 1)
  · intro r hr
    obtain rfl : ((0, spoken .user "read it") : Placed) = r := Option.some.inj hr
    rfl
  · decide +kernel

/-- A result that the current request carries is sent again after the summary that its call went into. -/
theorem request_result_split :
    Paired (answeredTalk .user 3).historyEvents ∧ (planContext oneLong (answeredTalk .user 3)).fits = true ∧
      ¬ Paired (events (planContext oneLong (answeredTalk .user 3)).messages) := by
  refine ⟨answeredTalk_paired .user 3, by decide +kernel, ?_⟩
  intro h
  have hevents : events (planContext oneLong (answeredTalk .user 3)).messages = [.result "c"] := by decide +kernel
  rw [hevents] at h
  cases h [] "c" [] rfl

end TinyHermes.Runs.ContextBudget
