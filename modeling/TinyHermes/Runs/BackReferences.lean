import TinyHermes.Runs.Rescues

/-! What the references that cleaning leaves point to, in the messages that are sent. -/
namespace TinyHermes.Runs.ContextBudget
open PlanInput
variable {est : Estimator} {i : PlanInput}

namespace PlanInput
variable (est : Estimator) (i : PlanInput)

/-- Cleaning replaced the result in block `b` of the `k`-th message after the checkpoint by a reference to a later call. -/
structure Referred (k b : Nat) (result : ToolResultBlock) (callId : String) : Prop where
  accepted : (i.cleaned est).isSome
  old : k < i.tailStart est
  found : ∃ m, i.post[k]? = some m ∧ m.role = .tool ∧ m.blocks[b]? = some (.toolResult result)
  copy : keptOutputs (i.post.drop (i.tailStart est)) result.output = some callId
  shorter : (backReference callId result).output.length < result.output.length

/-- Each reference that a plan sends is followed by a result of the call it names, with the output it stands for. A
message of the plan and one of the history stand for each other when as many come after them. -/
def Truthful (p : ContextPlan) : Prop :=
  ∀ k b result callId q m, i.Referred est k b result callId → q + (i.post.length - k) = p.messages.length →
    p.messages[q]? = some m → m.role = .tool → m.blocks[b]? = some (.toolResult (backReference callId result)) →
    ∃ q' > q, ∃ m', p.messages[q']? = some m' ∧ ∃ copy ∈ m'.results, copy.callId = callId ∧ copy.output = result.output

def uncompactedSpent : Int := i.spentOn est (i.uncompacted est) - (i.squeeze est (i.compaction est).spent).freed

/-- The round is sent uncompacted, with stubs for some of its tool results. -/
structure RescuesUncompacted : Prop where
  floor : i.floor est ≤ i.allowance
  trigger : i.belowTrigger est (i.opening est ++ i.post) = false
  cleaned : i.belowTrigger est (i.uncompacted est) = false
  exceeds : i.allowance < (i.compaction est).spent - (i.squeeze est (i.compaction est).spent).freed
  compacted : (i.compaction est).record = none ∨
    rescue est i.trimming (i.compaction est).view ((i.compaction est).spent - (i.squeeze est (i.compaction est).spent).freed)
      i.allowance = none
  saved : (rescue est i.trimming (i.uncompacted est) (i.uncompactedSpent est) i.allowance).isSome

/-- The rescue of the uncompacted view gets to this result of the `j`-th message after the checkpoint. -/
def Reached (j : Nat) (result : ToolResultBlock) : Prop :=
  rescueReaches est i.trimming (i.uncompactedSpent est) i.allowance (i.uncompacted est) ((i.opening est).length + j)
    (i.trimming.exempt result.callId) = true

def Stubs (j : Nat) (result : ToolResultBlock) : Prop := i.Reached est j result ∧ stubbed i.trimming result ≠ result

/-- For each reference that the rescue leaves in the uncompacted view, it leaves a copy of what the reference stands for. -/
def SparesCopies : Prop :=
  ∀ k b result callId m, i.Referred est k b result callId → (i.cleanPost est)[k]? = some m →
    m.blocks[b]? = some (.toolResult (backReference callId result)) → ¬ i.Stubs est k (backReference callId result) →
    ∃ j > k, ∃ m', (i.cleanPost est)[j]? = some m' ∧ ∃ copy ∈ m'.results, copy.callId = callId ∧
      copy.output = result.output ∧ ¬ (m'.role = .tool ∧ i.Stubs est j copy)

abbrev uncompactedRescue : Option (List CanonicalMessage × Int × TrimRecord) :=
  rescue est i.trimming (i.uncompacted est) (i.uncompactedSpent est) i.allowance

/-- What it leaves of a result of the `j`-th message after the checkpoint. -/
abbrev leaves (j : Nat) : ToolResultBlock → ToolResultBlock :=
  rescueLeaves est i.trimming (i.uncompactedSpent est) i.allowance (i.uncompacted est) ((i.opening est).length + j)

abbrev squeezedSpent : Int := (i.compaction est).spent - (i.squeeze est (i.compaction est).spent).freed

end PlanInput

variable {m : CanonicalMessage} {result : ToolResultBlock}

section Cleaning

theorem cleanPass_at (role : Role) (f : Block → Option Replacement) (stop : Nat) (messages : List CanonicalMessage) (k : Nat) :
    (cleanPass role f stop messages)[k]? = messages[k]?.map fun m =>
      if k < stop ∧ m.role = role then rewriteBlocks f m else m := by
  rw [cleanPass]
  by_cases hk : k < stop
  · by_cases hlt : k < messages.length
    · rw [List.getElem?_append_left (by simp; omega), List.getElem?_map, List.getElem?_take_of_lt hk]
      simp [hk]
    · have hnone : messages[k]? = none := List.getElem?_eq_none_iff.mpr (Nat.le_of_not_lt hlt)
      rw [hnone]
      apply List.getElem?_eq_none_iff.mpr
      simp
      omega
  · have hsplit : messages = messages.take stop ++ messages.drop stop := (List.take_append_drop stop messages).symm
    have hlength : ((messages.take stop).map fun m => if m.role = role then rewriteBlocks f m else m).length =
        (messages.take stop).length := List.length_map _
    have hle : (messages.take stop).length ≤ k := by simp; omega
    simp only [hk, false_and, if_false, Option.map_id']
    conv_rhs => rw [hsplit]
    rw [List.getElem?_append_right (hlength ▸ hle), List.getElem?_append_right hle, hlength]

theorem rewriteBlocks_at {f : Block → Option Replacement} {b : Nat} {block : Block}
    (h : m.blocks[b]? = some block) : (rewriteBlocks f m).blocks[b]? = some (((f block).map (·.block)).getD block) := by
  have hblocks : (rewriteBlocks f m).blocks = m.blocks.map fun b => ((f b).map (·.block)).getD b := rfl
  rw [hblocks, List.getElem?_map, h, Option.map_some]

theorem pruned_cases (t : Trimming) (result : ToolResultBlock) :
    ∃ left, ((prune est t (.toolResult result)).map (·.block)).getD (.toolResult result) = .toolResult left ∧
      (left = result ∨ left.output.length < result.output.length) := by
  rw [prune]
  by_cases hlong : result.output.length > pruneMinResult ∧ t.exempt result.callId = false
  · rw [if_pos hlong, replaceResult]
    by_cases hshorter : (stub pruneHead (t.fullLengths result.callId) result).output.length < result.output.length
    · rw [if_pos hshorter]
      exact ⟨_, rfl, .inr hshorter⟩
    · rw [if_neg hshorter]
      exact ⟨result, rfl, .inl rfl⟩
  · rw [if_neg hlong]
    exact ⟨result, rfl, .inl rfl⟩

theorem cleanPost_of_accepted (h : (i.cleaned est).isSome) :
    i.cleanPost est = (clean est i.trimming (i.tailStart est) i.post).1 := by
  rw [cleanPost]
  rw [PlanInput.cleaned] at h ⊢
  dsimp only at h ⊢
  split_ifs at h ⊢ with haccepted
  · rfl
  · cases h

theorem cleanPost_tail {j : Nat} (hj : i.tailStart est ≤ j) : (i.cleanPost est)[j]? = i.post[j]? := by
  by_cases haccepted : (i.cleaned est).isSome
  · rw [cleanPost_of_accepted haccepted, clean, cleanPass_at, cleanPass_at, cleanPass_at]
    simp [Nat.not_lt.mpr hj]
  · rw [cleanPost, Option.not_isSome_iff_eq_none.mp haccepted]
    rfl

theorem PlanInput.Referred.cleaned {k b : Nat} {callId : String} (h : i.Referred est k b result callId) :
    ∃ m left, (i.cleanPost est)[k]? = some m ∧ m.role = .tool ∧ m.blocks[b]? = some (.toolResult left) ∧
      (left = backReference callId result ∨ left.output.length < (backReference callId result).output.length) := by
  obtain ⟨_, hm, hrole, hblock⟩ := h.found
  obtain ⟨left, hleft, hcases⟩ := @pruned_cases est i.trimming (backReference callId result)
  have hdeduped : ((dedupe est (i.post.drop (i.tailStart est)) (.toolResult result)).map (·.block)).getD (.toolResult result) =
      .toolResult (backReference callId result) := by
    rw [dedupe, h.copy, Option.bind_some, replaceResult, if_pos h.shorter]
    rfl
  have hfirst := rewriteBlocks_at (f := dedupe est (i.post.drop (i.tailStart est))) hblock
  rw [hdeduped] at hfirst
  have hsecond := rewriteBlocks_at (f := prune est i.trimming) hfirst
  rw [hleft] at hsecond
  refine ⟨_, left, ?_, ?_, hsecond, hcases⟩
  · rw [cleanPost_of_accepted h.accepted, clean, cleanPass_at, cleanPass_at, cleanPass_at, hm]
    simp [h.old, hrole, rewriteBlocks, CanonicalMessage.mapBlocks]
  · exact hrole

theorem keptOutputs_some {tail : List CanonicalMessage} {output callId : String} (h : keptOutputs tail output = some callId) :
    ∃ (j : Nat) (m : CanonicalMessage), tail[j]? = some m ∧ ∃ copy ∈ m.results, copy.callId = callId ∧ copy.output = output := by
  obtain ⟨copy, hcopy, rfl⟩ := Option.map_eq_some_iff.mp h
  have hmatches := List.find?_some hcopy
  obtain ⟨m, hm, hmem⟩ := List.mem_flatMap.mp (List.mem_of_find?_eq_some hcopy)
  obtain ⟨j, hj⟩ := List.mem_iff_getElem?.mp hm
  rw [Bool.and_eq_true] at hmatches
  exact ⟨j, m, hj, copy, hmem, rfl, of_decide_eq_true hmatches.2⟩

theorem PlanInput.Referred.copied {k b : Nat} {callId : String} (h : i.Referred est k b result callId) :
    ∃ j > k, ∃ m, i.tailStart est ≤ j ∧ (i.cleanPost est)[j]? = some m ∧ ∃ copy ∈ m.results, copy.callId = callId ∧
      copy.output = result.output := by
  obtain ⟨j, m, hm, copy, hcopy, hid, houtput⟩ := keptOutputs_some h.copy
  rw [List.getElem?_drop] at hm
  have hold := h.old
  refine ⟨i.tailStart est + j, by omega, m, Nat.le_add_right _ _, ?_, copy, hcopy, hid, houtput⟩
  rw [cleanPost_tail (Nat.le_add_right _ _), hm]

end Cleaning

section Sent

theorem uncompacted_of_record (h : (i.compaction est).record = none) :
    (i.compaction est).view = i.uncompacted est ∧ (i.compaction est).spent = i.spentOn est (i.uncompacted est) := by
  obtain ⟨hview, _⟩ | ⟨_, _, _, hrecord, _⟩ := @compaction_cases est i
  · exact ⟨hview, by rw [compaction_spent, hview]⟩
  · rw [h] at hrecord
    cases hrecord

theorem rescuesUncompacted_settles (h : i.RescuesUncompacted est) : planContext est i = i.settlePlan est (i.compaction est) := by
  rw [planContext, if_neg (Int.not_lt.mpr h.floor), if_neg (by simp [h.trigger]), if_neg (by simp [h.cleaned])]

theorem rescuesUncompacted_sends (h : i.RescuesUncompacted est) :
    (planContext est i).fits = true ∧ ∃ left record,
      i.uncompactedRescue est =
        some ((planContext est i).messages, left, record) := by
  obtain ⟨⟨out, left, record⟩, hsaved⟩ := Option.isSome_iff_exists.mp h.saved
  rw [rescuesUncompacted_settles h, settlePlan]
  dsimp only
  rw [if_neg (Int.not_le.mpr h.exceeds)]
  by_cases hrecord : (i.compaction est).record = none
  · obtain ⟨hview, hspent⟩ := uncompacted_of_record hrecord
    have hrescued : rescue est i.trimming (i.compaction est).view
        (i.squeezedSpent est) i.allowance = some (out, left, record) := by
      rw [hview, ← hsaved, uncompactedSpent, ← hspent]
    rw [hrescued]
    exact ⟨rfl, left, record, hsaved⟩
  · rw [h.compacted.resolve_left hrecord]
    dsimp only
    rw [if_pos (Option.isSome_iff_ne_none.mpr hrecord)]
    have hagain : rescue est i.trimming (i.uncompacted est)
        (i.spentOn est (i.uncompacted est) - (i.squeeze est (i.compaction est).spent).freed) i.allowance =
          some (out, left, record) := hsaved
    rw [hagain]
    exact ⟨rfl, left, record, hsaved⟩

/-- The forms in which a plan that fits sends what comes after the checkpoint. -/
inductive Sent (est : Estimator) (i : PlanInput) (messages : List CanonicalMessage) : Prop where
  | untouched (hmessages : messages = i.opening est ++ i.post)
  | uncompacted (hmessages : messages = i.uncompacted est)
  /-- Only the retained tail, behind a summary. -/
  | compacted (front kept : List CanonicalMessage) (hmessages : messages = front ++ kept) (hfront : ∀ m ∈ front, m.role ≠ .tool)
      (hkept : kept.length = i.post.length - i.tailStart est)
  | rescued (hrescues : i.RescuesUncompacted est) (left : Int) (record : TrimRecord)
      (hrescue : i.uncompactedRescue est = some (messages, left, record))

theorem cleanPost_length : (i.cleanPost est).length = i.post.length := by
  simpa using congrArg List.length (@cleanPost_shape est i)

theorem compactedView_parts (h : (i.compaction est).record ≠ none) :
    ∃ front kept, (i.compaction est).view = front ++ kept ∧ (∀ m ∈ front, m.role ≠ .tool) ∧
      kept.length = i.post.length - i.tailStart est := by
  obtain ⟨_, hnone⟩ | ⟨_, hview, _⟩ := @compaction_cases est i
  · exact absurd hnone h
  · refine ⟨_, _, hview, (head_opens _ _ compacted_le).role, ?_⟩
    rw [List.length_drop, cleanPost_length]

theorem planContext_sent (h : (planContext est i).fits = true) : Sent est i (planContext est i).messages := by
  by_cases hfloor : i.allowance < i.floor est
  · rw [planContext, if_pos hfloor] at h
    cases h
  by_cases htrigger : i.belowTrigger est (i.opening est ++ i.post) = true
  · rw [planContext, if_neg hfloor, if_pos htrigger]
    exact .untouched rfl
  by_cases hcleaned : i.belowTrigger est (i.uncompacted est) = true
  · rw [planContext, if_neg hfloor, if_neg htrigger, if_pos hcleaned]
    exact .uncompacted rfl
  have hsettles : planContext est i = i.settlePlan est (i.compaction est) := by
    rw [planContext, if_neg hfloor, if_neg htrigger, if_neg hcleaned]
  have hrescues (hover : i.allowance < i.squeezedSpent est)
      (hcompacted : (i.compaction est).record = none ∨ rescue est i.trimming (i.compaction est).view
        (i.squeezedSpent est) i.allowance = none)
      (hsaved : (i.uncompactedRescue est).isSome) :
      i.RescuesUncompacted est :=
    ⟨Int.not_lt.mp hfloor, eq_false_of_ne_true htrigger, eq_false_of_ne_true hcleaned, hover, hcompacted, hsaved⟩
  rw [hsettles] at h ⊢
  by_cases hfits : i.squeezedSpent est ≤ i.allowance
  · have hmessages : (i.settlePlan est (i.compaction est)).messages = (i.compaction est).view := by
      rw [settlePlan]
      dsimp only
      rw [if_pos hfits]
    rw [hmessages]
    by_cases hrecord : (i.compaction est).record = none
    · exact .uncompacted (uncompacted_of_record hrecord).1
    · obtain ⟨front, kept, hview, hfront, hkept⟩ := compactedView_parts hrecord
      exact .compacted front kept hview hfront hkept
  have hover := Int.not_le.mp hfits
  cases hview : rescue est i.trimming (i.compaction est).view
      (i.squeezedSpent est) i.allowance with
  | some rescued =>
    obtain ⟨out, left, record⟩ := rescued
    have hmessages : (i.settlePlan est (i.compaction est)).messages = out := by
      rw [settlePlan]
      dsimp only
      rw [if_neg hfits, hview]
    rw [hmessages]
    by_cases hrecord : (i.compaction est).record = none
    · obtain ⟨huncompacted, hspent⟩ := uncompacted_of_record hrecord
      have hsame : i.uncompactedRescue est = some (out, left, record) := by
        rw [uncompactedRescue, ← huncompacted, uncompactedSpent, ← hspent, hview]
      exact .rescued (hrescues hover (.inl hrecord) (by rw [hsame]; rfl)) left record hsame
    · obtain ⟨front, _, hparts, hfront, hkept⟩ := compactedView_parts hrecord
      rw [hparts] at hview
      obtain ⟨kept', hout, hshape⟩ := rescue_view hfront hview
      refine .compacted front kept' hout hfront ?_
      rw [← hkept]
      simpa using congrArg List.length hshape
  | none =>
    by_cases hrecord : (i.compaction est).record = none
    · rw [settlePlan] at h
      dsimp only at h
      rw [if_neg hfits, hview] at h
      simp [hrecord] at h
    · cases hagain : rescue est i.trimming (i.uncompacted est)
          (i.spentOn est (i.uncompacted est) - (i.squeeze est (i.compaction est).spent).freed) i.allowance with
      | none =>
        rw [settlePlan] at h
        dsimp only at h
        rw [if_neg hfits, hview] at h
        simp [hagain] at h
      | some rescued =>
        obtain ⟨out, left, record⟩ := rescued
        have hmessages : (i.settlePlan est (i.compaction est)).messages = out := by
          rw [settlePlan]
          dsimp only
          rw [if_neg hfits, hview]
          dsimp only
          rw [if_pos (Option.isSome_iff_ne_none.mpr hrecord), hagain]
        rw [hmessages]
        exact .rescued (hrescues hover (.inr hview) (by rw [uncompactedRescue, uncompactedSpent, hagain]; rfl)) left record hagain

end Sent

section Places

theorem mem_results : result ∈ m.results ↔ Block.toolResult result ∈ m.blocks := by
  rw [CanonicalMessage.results, List.mem_filterMap]
  constructor
  · rintro ⟨b, hb, hresult⟩
    cases b with
    | toolResult =>
      cases hresult
      exact hb
    | text | reasoning | image | file | toolCall => cases hresult
  · intro h
    exact ⟨_, h, rfl⟩

theorem mem_mapped_results {f : ToolResultBlock → ToolResultBlock} :
    result ∈ (m.mapBlocks (Block.mapResult f)).results ↔ ∃ r ∈ m.results, f r = result := by
  rw [mem_results, CanonicalMessage.mapBlocks, List.mem_map]
  constructor
  · rintro ⟨b, hb, hresult⟩
    cases b with
    | toolResult r =>
      cases hresult
      exact ⟨r, mem_results.mpr hb, rfl⟩
    | text | reasoning | image | file | toolCall => cases hresult
  · rintro ⟨_, hr, rfl⟩
    exact ⟨_, mem_results.mp hr, rfl⟩

theorem uncompacted_at (j : Nat) : (i.uncompacted est)[(i.opening est).length + j]? = (i.cleanPost est)[j]? := by
  rw [uncompacted, List.getElem?_append_right (Nat.le_add_right _ _), Nat.add_sub_cancel_left]

theorem rescueLeaves_cases (j : Nat) (result : ToolResultBlock) :
    (i.leaves est j result =
        result ∧ ¬ i.Stubs est j result) ∨
      (i.leaves est j result =
        stubbed i.trimming result ∧ i.Stubs est j result) := by
  by_cases hreached : i.Reached est j result
  · by_cases hsame : stubbed i.trimming result = result
    · left
      refine ⟨?_, fun hstubs => hstubs.2 hsame⟩
      exact (if_pos hreached).trans hsame
    · right
      exact ⟨if_pos hreached, hreached, hsame⟩
  · left
    exact ⟨if_neg hreached, fun hstubs => hreached hstubs.1⟩

theorem stubbed_ne {t : Trimming} (h : stubbed t result ≠ result) :
    stubbed t result = stub 0 (t.fullLengths result.callId) result ∧
      (stub 0 (t.fullLengths result.callId) result).output.length < result.output.length := by
  rw [stubbed] at h ⊢
  split_ifs at h ⊢ with hshorter
  · exact ⟨rfl, hshorter⟩
  · exact absurd rfl h

theorem stub_output {n : Nat} {a b : ToolResultBlock} (h : a.callId = b.callId) :
    (stub 0 (some n) a).output = (stub 0 (some n) b).output := by
  simp only [stub, takeChars, List.take_zero, h, Option.getD_some]

theorem fullLengths_some {j : Nat} (hm : (i.cleanPost est)[j]? = some m)
    (hresult : result ∈ m.results) : ∃ n, i.trimming.fullLengths result.callId = some n := by
  have hshape := (@cleanPost_shape est i).trans post_shape
  have hat := congrArg (fun l : List MessageShape => l[j]?) hshape
  simp only [List.getElem?_map, hm, Option.map_some] at hat
  obtain ⟨item, hitem, hsame⟩ := Option.map_eq_some_iff.mp hat.symm
  have hblock : (Block.toolResult result).shape ∈ m.shape.blocks := List.mem_map_of_mem (mem_results.mp hresult)
  rw [← hsame] at hblock
  obtain ⟨b, hb, hshaped⟩ := List.mem_map.mp hblock
  have hfound : ∃ r ∈ historyResults i.history, r.callId = result.callId := by
    have hin : item ∈ i.history := List.mem_of_mem_drop (List.mem_of_getElem? hitem)
    cases b with
    | toolResult r =>
      simp only [Block.shape, BlockShape.toolResult.injEq] at hshaped
      exact ⟨r, List.mem_flatMap.mpr ⟨item, hin, mem_results.mpr hb⟩, hshaped.1⟩
    | text | reasoning | image | file | toolCall => cases hshaped
  obtain ⟨r, hr, hid⟩ := hfound
  have hsome : ((historyResults i.history).reverse.find? fun r => r.callId = result.callId).isSome :=
    List.find?_isSome.mpr ⟨r, List.mem_reverse.mpr hr, decide_eq_true hid⟩
  obtain ⟨last, hlast⟩ := Option.isSome_iff_exists.mp hsome
  exact ⟨last.output.length, by simp only [trimming, fullLengths, hlast, Option.map_some]⟩

end Places

theorem PlanInput.Referred.spared {k b : Nat} {callId : String} (h : i.Referred est k b result callId)
    {j : Nat} (hj : k < j) (hm : (i.cleanPost est)[j]? = some m) {r : ToolResultBlock} (hr : r ∈ m.results)
    (hid : r.callId = callId)
    (houtput : (i.leaves est j r).output = result.output) :
    ∃ j > k, ∃ m, (i.cleanPost est)[j]? = some m ∧ ∃ copy ∈ m.results, copy.callId = callId ∧ copy.output = result.output ∧
      ¬ (m.role = .tool ∧ i.Stubs est j copy) := by
  obtain ⟨hleft, hspared⟩ | ⟨hleft, hstubs⟩ := rescueLeaves_cases j r
  · rw [hleft] at houtput
    exact ⟨j, hj, m, hm, r, hr, hid, houtput, fun hboth => hspared hboth.2⟩
  · -- The output itself reads as a stub: then the copy in the tail cannot be made shorter.
    obtain ⟨_, hn⟩ := fullLengths_some hm hr
    obtain ⟨hstub, _⟩ := stubbed_ne hstubs.2
    rw [hleft, hstub, hn] at houtput
    obtain ⟨j', hj', m', _, hm', copy, hcopy, hid', hout'⟩ := h.copied
    refine ⟨j', hj', m', hm', copy, hcopy, hid', hout', ?_⟩
    rintro ⟨_, hstubs'⟩
    obtain ⟨_, hshorter⟩ := stubbed_ne hstubs'.2
    rw [hid', ← hid, hn, stub_output (hid'.trans hid.symm), houtput, hout'] at hshorter
    exact lt_irrefl _ hshorter

namespace PlanInput

variable {record : TrimRecord}

/-- The message of a rescued view in the place of the `j`-th message after the checkpoint. -/
theorem rescued_at {out : List CanonicalMessage} {left : Int}
    (h : i.uncompactedRescue est = some (out, left, record)) (j : Nat) :
    out[(i.opening est).length + j]? = (i.cleanPost est)[j]?.map fun m =>
      if m.role = .tool then
        m.mapBlocks (Block.mapResult (i.leaves est j))
      else m := by
  rw [rescue_at h, uncompacted_at]

theorem rescued_results {out : List CanonicalMessage} {left : Int}
    (h : i.uncompactedRescue est = some (out, left, record)) {j : Nat}
    (hm : (i.cleanPost est)[j]? = some m) {copy : ToolResultBlock} (hcopy : copy ∈ m.results)
    (hspared : ¬ (m.role = .tool ∧ i.Stubs est j copy)) :
    ∃ m', out[(i.opening est).length + j]? = some m' ∧ copy ∈ m'.results := by
  rw [rescued_at h, hm, Option.map_some]
  refine ⟨_, rfl, ?_⟩
  split_ifs with hrole
  · refine mem_mapped_results.mpr ⟨copy, hcopy, ?_⟩
    obtain ⟨hleft, _⟩ | ⟨_, hstubs⟩ := rescueLeaves_cases j copy
    · exact hleft
    · exact absurd ⟨hrole, hstubs⟩ hspared
  · exact hcopy

theorem rescueLeaves_length (j : Nat) (result : ToolResultBlock) :
    (i.leaves est j
      result).output.length ≤ result.output.length := by
  obtain ⟨hleft, _⟩ | ⟨hleft, hstubs⟩ := rescueLeaves_cases j result
  · rw [hleft]
  · obtain ⟨hstub, hshorter⟩ := stubbed_ne hstubs.2
    rw [hleft, hstub]
    exact hshorter.le

theorem Referred.kept {k b : Nat} {callId : String} (h : i.Referred est k b result callId)
    {out : List CanonicalMessage} {left : Int}
    (hrescue : i.uncompactedRescue est = some (out, left, record))
    (hm : out[(i.opening est).length + k]? = some m)
    (hblock : m.blocks[b]? = some (.toolResult (backReference callId result))) :
    ∃ m₀, (i.cleanPost est)[k]? = some m₀ ∧ m₀.blocks[b]? = some (.toolResult (backReference callId result)) ∧
      ¬ i.Stubs est k (backReference callId result) := by
  obtain ⟨m₀, before, hm₀, hrole, hbefore, hcases⟩ := h.cleaned
  rw [rescued_at hrescue, hm₀, Option.map_some, if_pos hrole] at hm
  cases hm
  rw [CanonicalMessage.mapBlocks, List.getElem?_map, hbefore, Option.map_some] at hblock
  have hleaves := Block.toolResult.inj (Option.some.inj hblock)
  rcases hcases with rfl | hshorter
  · refine ⟨m₀, hm₀, hbefore, ?_⟩
    obtain ⟨_, hspared⟩ | ⟨hleft, hstubs⟩ := rescueLeaves_cases k (backReference callId result)
    · exact hspared
    · exact absurd (hleft.symm.trans hleaves) hstubs.2
  · have hle := @rescueLeaves_length est i k before
    rw [hleaves] at hle
    exact absurd hle (Nat.not_le.mpr hshorter)

theorem uncompacted_truthful {p : ContextPlan} (h : p.messages = i.uncompacted est) : i.Truthful est p := by
  intro _ _ _ _ _ _ hreferred hplace _ _ _
  obtain ⟨j, _, m', _, hm', copy, hcopy, hid, houtput⟩ := hreferred.copied
  have hold := hreferred.old
  have htail := @tailStart_le est i
  rw [h, uncompacted, List.length_append, cleanPost_length] at hplace
  refine ⟨(i.opening est).length + j, by omega, m', ?_, copy, hcopy, hid, houtput⟩
  rw [h, uncompacted_at, hm']

theorem untouched_truthful {p : ContextPlan} (h : p.messages = i.opening est ++ i.post) : i.Truthful est p := by
  intro k _ _ _ q _ hreferred hplace hm _ hblock
  obtain ⟨_, hm₀, _, hfound⟩ := hreferred.found
  have hold := hreferred.old
  have htail := @tailStart_le est i
  have hq : q = (i.opening est).length + k := by
    rw [h, List.length_append] at hplace
    omega
  subst hq
  rw [h, List.getElem?_append_right (Nat.le_add_right _ _), Nat.add_sub_cancel_left, hm₀] at hm
  cases hm
  rw [hfound] at hblock
  have hsame := Block.toolResult.inj (Option.some.inj hblock)
  have hshorter := hreferred.shorter
  rw [← hsame] at hshorter
  exact absurd hshorter (lt_irrefl _)

theorem compacted_truthful {p : ContextPlan} {front kept : List CanonicalMessage} (h : p.messages = front ++ kept)
    (hfront : ∀ m ∈ front, m.role ≠ .tool) (hkept : kept.length = i.post.length - i.tailStart est) : i.Truthful est p := by
  intro _ _ _ _ q m hreferred hplace hm hrole _
  have hold := hreferred.old
  have htail := @tailStart_le est i
  have hq : q < front.length := by
    rw [h, List.length_append] at hplace
    omega
  rw [h, List.getElem?_append_left hq] at hm
  exact absurd hrole (hfront m (List.mem_of_getElem? hm))

theorem rescued_truthful {p : ContextPlan} {left : Int}
    (h : i.uncompactedRescue est = some (p.messages, left, record))
    (hspares : i.SparesCopies est) : i.Truthful est p := by
  intro k b result callId q _ hreferred hplace hm _ hblock
  have hold := hreferred.old
  have htail := @tailStart_le est i
  have hq : q = (i.opening est).length + k := by
    rw [rescue_length h, uncompacted, List.length_append, cleanPost_length] at hplace
    omega
  subst hq
  obtain ⟨m₀, hm₀, hblock₀, hstays⟩ := hreferred.kept h hm hblock
  obtain ⟨_, _, _, hm₁, copy, hcopy, hid, houtput, hspared⟩ := hspares k b result callId m₀ hreferred hm₀ hblock₀ hstays
  obtain ⟨m', hm', hcopy'⟩ := rescued_results h hm₁ hcopy hspared
  exact ⟨_, by omega, m', hm', copy, hcopy', hid, houtput⟩

theorem spares_of_truthful {p : ContextPlan} {left : Int}
    (h : i.uncompactedRescue est = some (p.messages, left, record))
    (htrue : i.Truthful est p) : i.SparesCopies est := by
  intro k b result callId m hreferred hm hblock hstays
  obtain ⟨_, _, hm', hrole, _⟩ := hreferred.cleaned
  rw [hm] at hm'
  cases hm'
  have hplace : (i.opening est).length + k + (i.post.length - k) = p.messages.length := by
    have hold := hreferred.old
    have htail := @tailStart_le est i
    rw [rescue_length h, uncompacted, List.length_append, cleanPost_length]
    omega
  have hat := rescued_at h k
  rw [hm, Option.map_some, if_pos hrole] at hat
  have hleft : i.leaves est k (backReference callId result) = backReference callId result := by
    obtain ⟨hleft, _⟩ | ⟨_, hstubs⟩ := rescueLeaves_cases k (backReference callId result)
    · exact hleft
    · exact absurd hstubs hstays
  have hsent : (m.mapBlocks (Block.mapResult (i.leaves est k))).blocks[b]? = some (.toolResult (backReference callId result)) := by
    rw [CanonicalMessage.mapBlocks, List.getElem?_map, hblock, Option.map_some, Block.mapResult, hleft]
  obtain ⟨q, _, _, hm₁, copy, hcopy, hid, houtput⟩ := htrue k b result callId _ _ hreferred hplace hat hrole hsent
  obtain ⟨j, rfl⟩ : ∃ j, q = (i.opening est).length + j := ⟨q - (i.opening est).length, by omega⟩
  rw [rescued_at h] at hm₁
  obtain ⟨m₀, hm₀, rfl⟩ := Option.map_eq_some_iff.mp hm₁
  by_cases htool : m₀.role = .tool
  · rw [if_pos htool] at hcopy
    obtain ⟨r, hr, rfl⟩ := mem_mapped_results.mp hcopy
    have hid' : r.callId = callId := by
      rw [← hid]
      obtain ⟨hleft, _⟩ | ⟨hleft, _⟩ := rescueLeaves_cases j r
      · rw [hleft]
      · rw [hleft, stubbed_callId]
    exact hreferred.spared (by omega) hm₀ hr hid' houtput
  · rw [if_neg htool] at hcopy
    exact ⟨j, by omega, m₀, hm₀, copy, hcopy, hid, houtput, fun hboth => htool hboth.1⟩

end PlanInput

/-- The references of the plans that fit are true but where the rescue of the uncompacted view takes the copies away. -/
theorem references_true_iff (est : Estimator) (i : PlanInput) :
    ((planContext est i).fits = true → i.Truthful est (planContext est i)) ↔ (i.RescuesUncompacted est → i.SparesCopies est) := by
  constructor
  · intro htrue hrescues
    obtain ⟨hfits, left, record, hrescue⟩ := rescuesUncompacted_sends hrescues
    exact spares_of_truthful hrescue (htrue hfits)
  · intro hspares hfits
    cases planContext_sent hfits with
    | untouched hmessages => exact untouched_truthful hmessages
    | uncompacted hmessages => exact uncompacted_truthful hmessages
    | compacted front kept hmessages hfront hkept => exact compacted_truthful hmessages hfront hkept
    | rescued hrescues left record hrescue => exact rescued_truthful hrescue (hspares hrescues)

/-- `estimate_tokens` for an endpoint with no tokenizer: three narrow characters to a token, and a tenth on top. -/
def conservative : Estimator where
  tokens := fun text =>
    let narrow := text.toList.countP fun c => c.toNat < 128
    (((narrow + 2) / 3 + (text.length - narrow)) * 11 + 9) / 10
  shown := fun _ => "{}"

theorem conservative_length (text : String) : text.length ≤ 3 * conservative.tokens text := by
  have hle : (text.toList.countP fun c => decide (c.toNat < 128)) ≤ text.length := by
    rw [← String.length_toList]
    exact List.countP_le_length
  simp only [conservative]
  omega

theorem a_ne : "a" ≠ "" := by decide

theorem b_ne : "b" ≠ "" := by decide

theorem shell_ne : "shell" ≠ "" := by decide

def calling (callId : String) (callId_ne : callId ≠ "") : ToolCallBlock where
  callId := callId
  name := "shell"
  arguments := []
  callId_ne := callId_ne
  name_ne := shell_ne

def called (callId : String) (callId_ne : callId ≠ "") : CanonicalMessage where
  role := .assistant
  blocks := [.toolCall (calling callId callId_ne)]
  blocks_ne := by simp

def given (callId output : String) (callId_ne : callId ≠ "") : ToolResultBlock where
  callId := callId
  output := output
  exitCode := 0
  failed := false
  callId_ne := callId_ne

theorem given_output (callId output : String) (callId_ne : callId ≠ "") : (given callId output callId_ne).output = output := rfl

def gave (callId output : String) (callId_ne : callId ≠ "") : CanonicalMessage where
  role := .tool
  blocks := [.toolResult (given callId output callId_ne)]
  blocks_ne := by simp

def repeated (output : String) : PlanInput where
  window := { contextWindow := 4450, reservedOutputTokens := 0 }
  safetyRules := "rules"
  personality := "you"
  history := [⟨0, 1, spoken .user "go"⟩, ⟨1, 2, called "a" a_ne⟩, ⟨2, 3, gave "a" output a_ne⟩,
    ⟨3, 4, called "b" b_ne⟩, ⟨4, 5, gave "b" output b_ne⟩]
  threshold := fun allowance => allowance * (17 / 20)

def referring (output : String) : ToolResultBlock := backReference "b" (given "a" output a_ne)

theorem referring_output (output : String) :
    (referring output).output = "[identical to the output of call_id b, which appears later in this request.]" := by
  unfold referring
  rfl

theorem referring_tokens (output : String) : conservative.tokens (referring output).output = 29 := by
  rw [referring_output]
  rfl

theorem referring_length (output : String) : (referring output).output.length = 76 := by
  rw [referring_output]
  rfl

def repeatedClean (output : String) : List CanonicalMessage :=
  [spoken .user "go", called "a" a_ne, gave "a" (referring output).output a_ne, called "b" b_ne, gave "b" output b_ne]

section Repeated
variable {output : String} (hlength : output.length = 4000) (htokens : conservative.tokens output = 4400)

theorem repeated_fixed (output : String) : (repeated output).fixed conservative = 13 := by
  have hrules : conservative.tokens "rules" = 3 := by rfl
  have hyou : conservative.tokens "you" = 2 := by rfl
  simp [fixed, fixedWith, repeated, ownSummaries, ownMemories, schemaEstimate, summaryEstimate, segmentEstimate, memoryEstimate,
    hrules, hyou, messageOverhead]

include hlength in
theorem repeated_post : (repeated output).post = (repeated output).history.map (·.message) := by
  simp [post, start, usableSummary, repeated, cappedHistory, capMessage, gave, given, called, spoken, CanonicalMessage.mapBlocks,
    toolResultMax, hlength]

include hlength htokens in
theorem repeated_tail : (repeated output).tailStart conservative = 3 := by
  have hceiling : (repeated output).tailCeiling conservative = 2218 := by
    rw [tailCeiling, repeated_fixed]
    rfl
  have hsize : tailBySize conservative 2218 2218 ((repeated output).history.map (·.message)) = 4 := by
    simp [tailBySize, repeated, messageEstimate, gave, given, blockEstimate, htokens, messageOverhead]
  rw [tailStart, hceiling, repeated_post hlength]
  have hmin : min retainedTail 2218 = 2218 := rfl
  rw [hmin, retainedTailStart, hsize]
  rfl

include hlength htokens in
theorem repeated_copy :
    keptOutputs ((repeated output).post.drop ((repeated output).tailStart conservative)) output = some "b" := by
  have hne : output ≠ "" := by
    rintro rfl
    cases hlength
  rw [repeated_tail hlength htokens, repeated_post hlength]
  simp [keptOutputs, repeated, gave, given, called, CanonicalMessage.results, Block.result?, hne]

include hlength htokens in
theorem repeated_replaced : dedupe conservative ((repeated output).post.drop ((repeated output).tailStart conservative))
      (.toolResult (given "a" output a_ne)) =
        some { block := .toolResult (referring output), freed := 4371, callId := "a" } := by
  have hcopy : keptOutputs ((repeated output).post.drop ((repeated output).tailStart conservative)) (given "a" output a_ne).output =
      some "b" := repeated_copy hlength htokens
  have hshorter : (backReference "b" (given "a" output a_ne)).output.length < (given "a" output a_ne).output.length := by
    have hreferring : (backReference "b" (given "a" output a_ne)).output.length = 76 := referring_length output
    rw [hreferring, given, hlength]
    decide
  have hbefore : conservative.tokens (given "a" output a_ne).output = 4400 := htokens
  have hafter : conservative.tokens (backReference "b" (given "a" output a_ne)).output = 29 := referring_tokens output
  rw [dedupe, hcopy, Option.bind_some, replaceResult, if_pos hshorter, hbefore, hafter]
  rfl

include hlength htokens in
theorem repeated_cleaned : (repeated output).cleaned conservative =
    some (repeatedClean output, { segment := .oldToolResults, dropped := 1, freedEstimate := 4371, references := ["a"] }) := by
  have hreplaced := repeated_replaced hlength htokens
  have hprune : prune conservative (repeated output).trimming (.toolResult (referring output)) = none := by
    rw [prune, if_neg]
    rw [referring_length]
    simp [pruneMinResult]
  have hshorten : shortenCall conservative (.toolCall (calling "a" a_ne)) = none := rfl
  rw [PlanInput.cleaned, clean]
  rw [repeated_tail hlength htokens] at hreplaced ⊢
  generalize dedupe conservative ((repeated output).post.drop 3) = first at hreplaced ⊢
  generalize prune conservative (repeated output).trimming = second at hprune ⊢
  generalize shortenCall conservative = third at hshorten ⊢
  rw [repeated_post hlength]
  simp [cleanPass, tallyPass, repeated, repeatedClean, spoken, called, gave, rewriteBlocks, CanonicalMessage.mapBlocks, tallyBlocks,
    Tally.add, hreplaced, hprune, hshorten, tallyRecord, pruneMinReclaim]
  rfl

def stubText (callId : String) : String :=
  "\n[…trimmed by the platform: " ++ "4000" ++ " characters in full, kept in the session transcript under call_id " ++ callId ++ ".]"

theorem stub_text (block : ToolResultBlock) : (stub 0 (some 4000) block).output = stubText block.callId := by
  have hdigits : toString 4000 = "4000" := by rfl
  have hnone : takeChars 0 block.output = "" := rfl
  unfold stub stubText
  dsimp -failIfUnchanged only
  rw [hnone, Option.getD_some, hdigits, String.empty_append]
  rfl
theorem stubText_length : (stubText "a").length = 101 ∧ (stubText "b").length = 101 := by
  constructor <;> rfl

set_option maxRecDepth 2000 in
theorem stubText_tokens : conservative.tokens (stubText "b") = 39 := by rfl

theorem go_estimate : messageEstimate conservative (spoken .user "go") = 6 := by rfl

theorem called_estimate : messageEstimate conservative (called "a" a_ne) = 8 ∧ messageEstimate conservative (called "b" b_ne) = 8 := by
  constructor <;> rfl

theorem gave_estimate (callId output : String) (callId_ne : callId ≠ "") :
    messageEstimate conservative (gave callId output callId_ne) = 4 + conservative.tokens output := by
  simp [messageEstimate, gave, given, blockEstimate, messageOverhead]

include htokens in
theorem repeated_tail_estimate : estimate conservative ((repeatedClean output).drop 3) = 4412 := by
  simp [repeatedClean, estimate, called_estimate, gave_estimate, htokens]

include htokens in
theorem repeated_spent : (repeated output).spentOn conservative (repeatedClean output) = 4472 := by
  rw [spentOn, repeated_fixed]
  simp [repeatedClean, estimate, go_estimate, called_estimate, gave_estimate, referring_tokens, htokens]

def repeatedRescued (output : String) : List CanonicalMessage :=
  [spoken .user "go", called "a" a_ne, gave "a" (referring output).output a_ne, called "b" b_ne, gave "b" (stubText "b") b_ne]

include hlength htokens in
theorem repeated_rescue : rescue conservative (repeated output).trimming (repeatedClean output) 4472 4450 =
    some (repeatedRescued output, 111,
      { segment := .oldToolResults, dropped := 1, freedEstimate := 4361, references := ["b"] }) := by
  have hlengths : (repeated output).trimming.fullLengths "a" = some 4000 ∧ (repeated output).trimming.fullLengths "b" = some 4000 := by
    simp [trimming, fullLengths, historyResults, repeated, spoken, called, gave, given, CanonicalMessage.results, Block.result?,
      hlength, List.filterMap_cons]
  have hexempt (callId : String) : (repeated output).trimming.exempt callId = false := by simp [Trimming.exempt, trimming, repeated]
  have hreference : rescueBlock conservative (repeated output).trimming false
      (.toolResult (given "a" (referring output).output a_ne)) = none := by
    rw [rescueBlock, hexempt, if_pos rfl, given, hlengths.1, replaceResult, if_neg]
    rw [stub_text, stubText_length.1, referring_length]
    decide
  have hcopy : rescueBlock conservative (repeated output).trimming false (.toolResult (given "b" output b_ne)) =
      some { block := .toolResult (given "b" (stubText "b") b_ne), freed := 4361, callId := "b" } := by
    have hstub : stub 0 (some 4000) (given "b" output b_ne) = given "b" (stubText "b") b_ne :=
      congrArg (fun text => given "b" text b_ne) (stub_text (given "b" output b_ne))
    have hshorter : (given "b" (stubText "b") b_ne).output.length < (given "b" output b_ne).output.length := by
      rw [given_output, given_output, stubText_length.2, hlength]
      decide
    have hfound : (repeated output).trimming.fullLengths (given "b" output b_ne).callId = some 4000 := hlengths.2
    rw [rescueBlock, hexempt, if_pos rfl, hfound, hstub, replaceResult, if_pos hshorter, given_output,
      given_output, htokens, stubText_tokens]
    rfl
  have hfirst : rescuePass conservative (repeated output).trimming false 4472 4450 (repeatedClean output) {} =
      (repeatedRescued output, { freed := 4361, references := ["b"] }) := by
    simp [repeatedClean, repeatedRescued, rescuePass, spoken, called, gave, tallyBlocks, rewriteBlocks,
      CanonicalMessage.mapBlocks, hreference, hcopy, Tally.add]
  rw [rescue, hfirst]
  rfl

theorem summaryPrefix_length : 111 ≤ summaryPrefix.length := by
  have hfirst : "[Context compaction — reference only] The conversation before this point ".length = 73 := rfl
  have hsecond : "was summarized by the platform to save space. Treat what follows as ".length = 68 := rfl
  delta summaryPrefix
  rw [String.length_append, String.length_append, hfirst, hsecond]
  omega

include hlength htokens in
theorem repeated_head (withHints : Bool) :
    47 ≤ estimate conservative (head conservative 4450 ((repeated output).summaryText conservative withHints)
      ((repeated output).covered conservative) (repeated output).request) := by
  have htext (rest : String) : 37 ≤ conservative.tokens (summaryPrefix ++ rest) := by
    have hle := conservative_length (summaryPrefix ++ rest)
    rw [String.length_append] at hle
    have hprefix := summaryPrefix_length
    omega
  have hsummary : 41 ≤ messageEstimate conservative (summaryMessage conservative 4450
      ((repeated output).summaryText conservative withHints) ((repeated output).covered conservative)) := by
    simp only [messageEstimate, summaryMessage, List.map_cons, List.map_nil, List.sum_cons, List.sum_nil, blockEstimate,
      String.append_assoc, messageOverhead]
    have hle := htext ("\n\n" ++ ((repeated output).summaryText conservative withHints ++
      if putBack conservative ((repeated output).covered conservative) 4450 = "" then ""
      else "\n\n" ++ putBack conservative ((repeated output).covered conservative) 4450))
    omega
  have hrequest : (repeated output).request = some (0, spoken .user "go") := by
    simp [request, repeated, spoken, called, gave]
  have hcovered : ((repeated output).covered conservative).length = 3 := by
    rw [covered, repeated_tail hlength htokens]
    rfl
  have hkept : (some (0, spoken .user "go")).filter (fun r => r.1 < 3) = some (0, spoken .user "go") := rfl
  rw [head, hrequest, hcovered, hkept, Option.map_some, Option.toList_some, estimate_cons, estimate_cons, go_estimate]
  have hnil : estimate conservative [] = 0 := rfl
  omega

include hlength htokens in
theorem repeated_uncompacted : (repeated output).uncompacted conservative = repeatedClean output := by
  rw [uncompacted, cleanPost, repeated_cleaned hlength htokens]
  rfl

include hlength htokens in
theorem repeated_compaction : ((repeated output).compaction conservative).record = none ∧
    ((repeated output).compaction conservative).spent = 4472 := by
  have hspent := repeated_spent htokens
  have hcandidate : 4472 ≤ (repeated output).spentOn conservative
      ((repeated output).compactView conservative ((repeated output).withHints conservative)) := by
    have hhead := repeated_head hlength htokens ((repeated output).withHints conservative)
    have hkept : ((repeated output).cleanPost conservative).drop 3 = (repeatedClean output).drop 3 :=
      congrArg (List.drop 3) (repeated_uncompacted hlength htokens)
    rw [spentOn, repeated_fixed, compactView, repeated_tail hlength htokens, hkept, estimate_append, repeated_tail_estimate htokens]
    have hallowance : (repeated output).allowance = 4450 := rfl
    rw [hallowance]
    omega
  have hgain : (repeated output).spentOn conservative ((repeated output).uncompacted conservative) -
      (repeated output).spentOn conservative
        ((repeated output).compactView conservative ((repeated output).withHints conservative)) ≤ 0 := by
    rw [repeated_uncompacted hlength htokens]
    omega
  rw [compaction]
  dsimp only
  rw [if_pos hgain, repeated_uncompacted hlength htokens, hspent]
  split_ifs <;> exact ⟨rfl, rfl⟩

include hlength htokens in
theorem repeated_rescues : (repeated output).RescuesUncompacted conservative := by
  have hallowance : (repeated output).allowance = 4450 := rfl
  have hsqueezed : ((repeated output).squeeze conservative ((repeated output).compaction conservative).spent).freed = 0 := by
    simp [squeeze, repeated, ownSummaries, ownMemories, dropUnhitSummaries, dropUnhit]
  have hspent := repeated_spent htokens
  obtain ⟨hrecord, hcompacted⟩ := repeated_compaction hlength htokens
  refine ⟨?_, ?_, ?_, ?_, .inl hrecord, ?_⟩
  · have hrequest : (repeated output).request = some (0, spoken .user "go") := by
      simp [request, repeated, spoken, called, gave]
    have hfloor : (repeated output).floor conservative = 19 := by
      rw [floor, repeated_fixed, hrequest, Option.map_some, Option.getD_some, go_estimate]
      rfl
    rw [hfloor, hallowance]
    decide
  · have hopening : (repeated output).opening conservative = [] := rfl
    have hcost : (repeated output).spentOn conservative (repeated output).post = 8843 := by
      rw [spentOn, repeated_fixed, repeated_post hlength]
      simp [repeated, estimate, go_estimate, called_estimate, gave_estimate, htokens]
    rw [hopening, List.nil_append, belowTrigger, hcost]
    simp [repeated, trigger, allowance, ContextWindow.inputAllowance]
    norm_num
  · rw [repeated_uncompacted hlength htokens, belowTrigger, hspent]
    simp [repeated, trigger, allowance, ContextWindow.inputAllowance]
    norm_num
  · rw [hsqueezed, hcompacted, hallowance]
    decide
  · rw [uncompactedSpent, hsqueezed, repeated_uncompacted hlength htokens, hspent, hallowance, Int.sub_zero,
      repeated_rescue hlength htokens]
    rfl
include hlength htokens in
theorem repeated_plan : (planContext conservative (repeated output)).fits = true ∧
    (planContext conservative (repeated output)).messages = repeatedRescued output := by
  have hrescues := repeated_rescues hlength htokens
  obtain ⟨hfits, _, _, hrescue⟩ := rescuesUncompacted_sends hrescues
  have hallowance : (repeated output).allowance = 4450 := rfl
  have hfreed : ((repeated output).squeeze conservative ((repeated output).compaction conservative).spent).freed = 0 := by
    simp [squeeze, repeated, ownSummaries, ownMemories, dropUnhitSummaries, dropUnhit]
  rw [uncompactedRescue, uncompactedSpent, hfreed, repeated_uncompacted hlength htokens, repeated_spent htokens, hallowance, Int.sub_zero,
    repeated_rescue hlength htokens] at hrescue
  obtain ⟨hmessages, _⟩ := Prod.mk.inj (Option.some.inj hrescue)
  exact ⟨hfits, hmessages.symm⟩

include hlength htokens in
theorem repeated_referred : (repeated output).Referred conservative 2 0 (given "a" output a_ne) "b" where
  accepted := by rw [repeated_cleaned hlength htokens]; rfl
  old := by rw [repeated_tail hlength htokens]; decide
  found := ⟨gave "a" output a_ne, by rw [repeated_post hlength]; rfl, rfl, rfl⟩
  copy := repeated_copy hlength htokens
  shorter := by
    have hreferring : (backReference "b" (given "a" output a_ne)).output.length = 76 := referring_length output
    rw [hreferring, given_output, hlength]
    decide

include hlength htokens in
theorem repeated_false : ¬ (repeated output).Truthful conservative (planContext conservative (repeated output)) := by
  intro htrue
  obtain ⟨_, hmessages⟩ := repeated_plan hlength htokens
  have hpost : (repeated output).post.length = 5 := by
    rw [repeated_post hlength]
    rfl
  obtain ⟨q, _, _, hm, _, hcopy, _, houtput⟩ := htrue 2 0 _ "b" 2 _ (repeated_referred hlength htokens)
    (by rw [hpost, hmessages]; rfl) (by rw [hmessages]; rfl) rfl rfl
  rw [hmessages] at hm
  have hlt : q < 5 := (List.getElem?_eq_some_iff.mp hm).1
  obtain rfl | rfl : q = 3 ∨ q = 4 := by omega
  · cases hm
    cases hcopy
  · cases hm
    obtain rfl := List.mem_singleton.mp hcopy
    have hlengths := congrArg String.length houtput
    rw [given_output, given_output, stubText_length.2, hlength] at hlengths
    cases hlengths
end Repeated

/-- A text of `n` wide characters. -/
def wide (n : Nat) : String := String.ofList (List.replicate n '中')

theorem wide_length (n : Nat) : (wide n).length = n := by
  rw [wide, String.length_ofList, List.length_replicate]

theorem wide_tokens (n : Nat) : conservative.tokens (wide n) = (n * 11 + 9) / 10 := by
  have hnarrow : ((wide n).toList.countP fun c => decide (c.toNat < 128)) = 0 := by
    rw [wide, String.toList_ofList, List.countP_replicate]
    rfl
  simp only [conservative, hnarrow, wide_length]
  omega

theorem repeated_untrue :
    ¬ ((planContext conservative (repeated (wide 4000))).fits = true →
      (repeated (wide 4000)).Truthful conservative (planContext conservative (repeated (wide 4000)))) := by
  have htokens : conservative.tokens (wide 4000) = 4400 := wide_tokens 4000
  intro htrue
  exact repeated_false (wide_length 4000) htokens (htrue (repeated_plan (wide_length 4000) htokens).1)

end TinyHermes.Runs.ContextBudget
