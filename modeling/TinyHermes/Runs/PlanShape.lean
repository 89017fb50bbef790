import TinyHermes.Runs.PlanAccounting

/-! A plan sends the end of the history, shortened in place, after at most a summary and the current request. -/
namespace TinyHermes.Runs.ContextBudget
variable {est : Estimator} {i : PlanInput}

/-- What shortening leaves of a block: a call without the values of its arguments, a result without its output. -/
inductive BlockShape where
  | toolCall (callId name : String) (keys : List String)
  | toolResult (callId : String) (exitCode : Int) (failed : Bool)
  | other (block : Block)
  deriving DecidableEq

def Block.shape : Block → BlockShape
  | .toolCall call => .toolCall call.callId call.name (call.arguments.map (·.1))
  | .toolResult result => .toolResult result.callId result.exitCode result.failed
  | b => .other b

structure MessageShape where
  role : Role
  byPlatform : Bool
  blocks : List BlockShape
  deriving DecidableEq

def CanonicalMessage.shape (m : CanonicalMessage) : MessageShape where
  role := m.role
  byPlatform := m.byPlatform
  blocks := m.blocks.map Block.shape

section Shortening

theorem mapBlocks_congr {f g : Block → Block} {m : CanonicalMessage} (h : ∀ b ∈ m.blocks, f b = g b) :
    m.mapBlocks f = m.mapBlocks g := by
  rw [CanonicalMessage.mapBlocks, CanonicalMessage.mapBlocks, CanonicalMessage.mk.injEq]
  exact ⟨rfl, List.map_congr_left h, rfl⟩

theorem mapBlocks_shape {g : Block → Block} (hg : ∀ b, (g b).shape = b.shape) (m : CanonicalMessage) :
    (m.mapBlocks g).shape = m.shape := by
  have hblocks : (m.blocks.map g).map Block.shape = m.blocks.map Block.shape := by
    rw [List.map_map]
    exact List.map_congr_left fun b _ => hg b
  rw [CanonicalMessage.shape, CanonicalMessage.shape, CanonicalMessage.mapBlocks, hblocks]

theorem capMessage_shape (t : Trimming) (m : CanonicalMessage) : (capMessage t m).shape = m.shape := by
  rw [capMessage]
  split_ifs
  · rfl
  · apply mapBlocks_shape
    intro b
    cases b with
    | toolResult =>
      dsimp only
      split_ifs <;> rfl
    | text | reasoning | image | file | toolCall => rfl

def KeepsShape (f : Block → Option Replacement) : Prop := ∀ b r, f b = some r → r.block.shape = b.shape

theorem rewriteBlocks_shape {f : Block → Option Replacement} (hf : KeepsShape f) (m : CanonicalMessage) :
    (rewriteBlocks f m).shape = m.shape := by
  apply mapBlocks_shape
  intro b
  cases h : f b with
  | none => rfl
  | some r => exact hf b r h

theorem replaceResult_shape {result shorter : ToolResultBlock} {r : Replacement}
    (hshorter : (Block.toolResult shorter).shape = (Block.toolResult result).shape)
    (h : replaceResult est result shorter = some r) : r.block.shape = (Block.toolResult result).shape := by
  rw [replaceResult] at h
  split_ifs at h
  cases h
  exact hshorter

theorem stub_shape (head : Nat) (fullLength : Option Nat) (result : ToolResultBlock) :
    (Block.toolResult (stub head fullLength result)).shape = (Block.toolResult result).shape := by
  simp only [stub, Block.shape]

theorem backReference_shape (callId : String) (result : ToolResultBlock) :
    (Block.toolResult (backReference callId result)).shape = (Block.toolResult result).shape := by
  simp only [backReference, Block.shape]

theorem dedupe_shape (est : Estimator) (tail : List CanonicalMessage) : KeepsShape (dedupe est tail) := by
  intro b _ h
  cases b with
  | toolResult result =>
    obtain ⟨callId, _, hr⟩ := Option.bind_eq_some_iff.mp h
    exact replaceResult_shape (backReference_shape callId result) hr
  | text | reasoning | image | file | toolCall => cases h

theorem prune_shape (est : Estimator) (t : Trimming) : KeepsShape (prune est t) := by
  intro b _ h
  cases b with
  | toolResult result =>
    rw [prune] at h
    split_ifs at h
    exact replaceResult_shape (stub_shape _ _ result) h
  | text | reasoning | image | file | toolCall => cases h

theorem rescueBlock_shape (est : Estimator) (t : Trimming) (exemptPass : Bool) : KeepsShape (rescueBlock est t exemptPass) := by
  intro b _ h
  cases b with
  | toolResult result =>
    rw [rescueBlock] at h
    split_ifs at h
    exact replaceResult_shape (stub_shape _ _ result) h
  | text | reasoning | image | file | toolCall => cases h

theorem truncatedArguments_shape {call shortened : ToolCallBlock} (h : truncatedArguments call = some shortened) :
    (Block.toolCall shortened).shape = (Block.toolCall call).shape := by
  rw [truncatedArguments] at h
  split_ifs at h
  cases h
  rw [Block.shape, Block.shape, List.map_map]
  rfl

theorem shortenCall_shape (est : Estimator) : KeepsShape (shortenCall est) := by
  intro b _ h
  cases b with
  | toolCall =>
    obtain ⟨_, hshortened, rfl⟩ := Option.map_eq_some_iff.mp h
    exact truncatedArguments_shape hshortened
  | text | reasoning | image | file | toolResult => cases h

theorem cleanPass_shape {role : Role} {f : Block → Option Replacement} (hf : KeepsShape f) (stop : Nat)
    (messages : List CanonicalMessage) :
    (cleanPass role f stop messages).map (·.shape) = messages.map (·.shape) := by
  have hone : ∀ m : CanonicalMessage, (if m.role = role then rewriteBlocks f m else m).shape = m.shape := by
    intro m
    split_ifs
    · exact rewriteBlocks_shape hf m
    · rfl
  have htaken : ((messages.take stop).map fun m => if m.role = role then rewriteBlocks f m else m).map (·.shape) =
      (messages.take stop).map (·.shape) := by
    rw [List.map_map]
    exact List.map_congr_left fun m _ => hone m
  rw [cleanPass, List.map_append, htaken, ← List.map_append, List.take_append_drop]

theorem clean_shape (t : Trimming) (stop : Nat) (messages : List CanonicalMessage) :
    (clean est t stop messages).1.map (·.shape) = messages.map (·.shape) := by
  rw [clean, cleanPass_shape (shortenCall_shape est), cleanPass_shape (prune_shape est t), cleanPass_shape (dedupe_shape est _)]

end Shortening

section Rescue

theorem rescuePass_shape (t : Trimming) (exemptPass : Bool) (spent allowance : Int) (messages : List CanonicalMessage)
    (tally : Tally) :
    (rescuePass est t exemptPass spent allowance messages tally).1.map (·.shape) = messages.map (·.shape) := by
  induction messages generalizing tally with
  | nil => rfl
  | cons m rest ih =>
    rw [rescuePass]
    split_ifs
    · rfl
    · rw [List.map_cons, List.map_cons, ih]
    · rw [List.map_cons, List.map_cons, ih, rewriteBlocks_shape (rescueBlock_shape est t exemptPass)]

theorem rescuePass_append (t : Trimming) (exemptPass : Bool) (spent allowance : Int) {front : List CanonicalMessage}
    (hfront : ∀ m ∈ front, m.role ≠ .tool) (messages : List CanonicalMessage) (tally : Tally) :
    rescuePass est t exemptPass spent allowance (front ++ messages) tally =
      (front ++ (rescuePass est t exemptPass spent allowance messages tally).1,
        (rescuePass est t exemptPass spent allowance messages tally).2) := by
  induction front with
  | nil => rfl
  | cons m front ih =>
    have hrest := ih fun m' hm' => hfront m' (List.mem_cons_of_mem m hm')
    rw [List.cons_append, rescuePass]
    split_ifs with hfits hrole
    · cases messages with
      | nil => rfl
      | cons => rw [rescuePass, if_pos hfits, List.cons_append]
    · rw [hrest, List.cons_append]
    · exact absurd (hfront m List.mem_cons_self) hrole

theorem rescue_view {t : Trimming} {front messages rescued : List CanonicalMessage} {spent allowance left : Int}
    {record : TrimRecord} (hfront : ∀ m ∈ front, m.role ≠ .tool)
    (h : rescue est t (front ++ messages) spent allowance = some (rescued, left, record)) :
    ∃ kept, rescued = front ++ kept ∧ kept.map (·.shape) = messages.map (·.shape) := by
  rw [rescue] at h
  dsimp only at h
  split_ifs at h
  rw [rescuePass_append t false spent allowance hfront] at h
  rw [rescuePass_append t true spent allowance hfront] at h
  cases h
  refine ⟨_, rfl, ?_⟩
  rw [rescuePass_shape, rescuePass_shape]

end Rescue

/-- A text of the platform's own, in the user's place. -/
structure IsSummary (m : CanonicalMessage) : Prop where
  role : m.role = .user
  byPlatform : m.byPlatform = true
  blocks : ∃ text, m.blocks = [.text text]

namespace PlanInput

/-- What may stand before the messages of the history from the `k`-th on. -/
inductive Opens (i : PlanInput) (k : Nat) : List CanonicalMessage → Prop where
  | nothing (hk : k = 0) : Opens i k []
  | summary (m : CanonicalMessage) (hm : IsSummary m) (hlater : ∀ r, i.request = some r → k ≤ r.1) : Opens i k [m]
  | summaryAndRequest (m : CanonicalMessage) (hm : IsSummary m) (r : Placed) (hr : i.request = some r) (hbefore : r.1 < k) :
      Opens i k [m, r.2]

/-- The history from its `k`-th message on, each message in its shape, behind what may stand before it. -/
def ViewFrom (i : PlanInput) (k : Nat) (messages : List CanonicalMessage) : Prop :=
  ∃ front kept, messages = front ++ kept ∧ i.Opens k front ∧
    kept.map (·.shape) = (i.history.drop k).map (·.message.shape)

theorem request_user {r : Placed} (h : i.request = some r) : r.2.role = .user := by
  obtain ⟨_, he, rfl⟩ := Option.map_eq_some_iff.mp h
  have huser := List.find?_some he
  exact of_decide_eq_true huser

theorem Opens.role {k : Nat} {front : List CanonicalMessage} (h : i.Opens k front) : ∀ m ∈ front, m.role ≠ .tool := by
  intro m hm
  have huser : m.role = .user := by
    cases h with
    | nothing => cases hm
    | summary _ hm' =>
      rw [List.mem_singleton.mp hm]
      exact hm'.role
    | summaryAndRequest _ hm' _ hr =>
      rcases List.mem_pair.mp hm with rfl | rfl
      · exact hm'.role
      · exact request_user hr
  rw [huser]
  exact (nomatch ·)

theorem summaryMessage_isSummary (allowance : Int) (summary : String) (covered : List StoredMessage) :
    IsSummary (summaryMessage est allowance summary covered) :=
  ⟨rfl, rfl, _, rfl⟩

theorem head_opens (allowance : Int) (summary : String) {k : Nat} (hk : k ≤ i.history.length) :
    i.Opens k (head est allowance summary (i.history.take k) i.request) := by
  have hlength : (i.history.take k).length = k := List.length_take_of_le hk
  rw [head, hlength]
  cases hr : i.request with
  | none =>
    apply Opens.summary _ (summaryMessage_isSummary _ _ _)
    intro r h
    rw [hr] at h
    cases h
  | some r =>
    by_cases hbefore : r.1 < k
    · rw [Option.filter, if_pos (decide_eq_true hbefore)]
      exact .summaryAndRequest _ (summaryMessage_isSummary _ _ _) r hr hbefore
    · rw [Option.filter, if_neg (by simpa using hbefore)]
      apply Opens.summary _ (summaryMessage_isSummary _ _ _)
      intro _ h
      rw [hr] at h
      cases h
      exact Nat.le_of_not_lt hbefore

theorem opening_opens : i.Opens i.start (i.opening est) := by
  rw [start, opening]
  cases h : i.usableSummary with
  | none => exact .nothing rfl
  | some usable =>
    have hstart : i.start = usable.2 := by rw [start, h, Option.map_some, Option.getD_some]
    have hle : usable.2 ≤ i.history.length := by
      rw [← hstart]
      exact start_le
    exact head_opens _ _ hle

theorem post_shape : i.post.map (·.shape) = (i.history.drop i.start).map (·.message.shape) := by
  rw [post, cappedHistory, List.map_drop, List.map_map, List.map_drop]
  congr 1
  exact List.map_congr_left fun item _ => capMessage_shape i.trimming item.message

theorem cleanPost_shape : (i.cleanPost est).map (·.shape) = i.post.map (·.shape) := by
  rw [cleanPost, cleaned]
  dsimp only
  split_ifs
  · exact clean_shape i.trimming (i.tailStart est) i.post
  · rfl

theorem untouched_view : i.ViewFrom i.start (i.opening est ++ i.post) :=
  ⟨_, _, rfl, opening_opens, post_shape⟩

theorem uncompacted_view : i.ViewFrom i.start (i.uncompacted est) :=
  ⟨_, _, rfl, opening_opens, cleanPost_shape.trans post_shape⟩

theorem compacted_le : i.start + i.tailStart est ≤ i.history.length := by
  have hstart := @start_le i
  have htail := @tailStart_le est i
  rw [post_length] at htail
  omega

theorem compactView_view (withHints : Bool) : i.ViewFrom (i.start + i.tailStart est) (i.compactView est withHints) := by
  refine ⟨_, _, rfl, head_opens _ _ compacted_le, ?_⟩
  rw [List.map_drop, cleanPost_shape, post_shape, ← List.map_drop, List.drop_drop]

theorem ViewFrom.rescued {k : Nat} {t : Trimming} {view rescued : List CanonicalMessage} {spent allowance left : Int}
    {record : TrimRecord} (hview : i.ViewFrom k view) (h : rescue est t view spent allowance = some (rescued, left, record)) :
    i.ViewFrom k rescued := by
  obtain ⟨front, _, rfl, hopens, hshape⟩ := hview
  obtain ⟨kept, rfl, hkept⟩ := rescue_view hopens.role h
  exact ⟨front, kept, rfl, hopens, hkept.trans hshape⟩

theorem drop_eq_filter {α : Type} {p : α → Bool} {xs : List α} {n : Nat} (hbefore : ∀ a ∈ xs.take n, p a = false)
    (hafter : ∀ a ∈ xs.drop n, p a = true) : xs.drop n = xs.filter p := by
  have hnone : (xs.take n).filter p = [] := List.filter_eq_nil_iff.mpr fun a ha => ne_true_of_eq_false (hbefore a ha)
  calc xs.drop n = (xs.drop n).filter p := (List.filter_eq_self.mpr hafter).symm
    _ = (xs.take n ++ xs.drop n).filter p := by rw [List.filter_append, hnone, List.nil_append]
    _ = xs.filter p := by rw [List.take_append_drop]

theorem sequence_le {history : List StoredMessage} (hsorted : history.Pairwise fun a b => a.sequence < b.sequence) {j k : Nat}
    (hjk : j ≤ k) (hk : k < history.length) : (history.get ⟨j, hjk.trans_lt hk⟩).sequence ≤ history[k].sequence := by
  rcases Nat.lt_or_eq_of_le hjk with hlt | rfl
  · exact (List.pairwise_iff_getElem.mp hsorted j k (hjk.trans_lt hk) hk hlt).le
  · exact le_rfl

theorem after_checkpoint (hsorted : i.history.Pairwise fun a b => a.sequence < b.sequence) (k : Nat) :
    (i.history.take k).drop i.start = (i.history.take k).filter fun item => i.checkpoint.all (· < item.sequence) := by
  rw [start, checkpoint]
  cases h : i.usableSummary with
  | none =>
    symm
    exact List.filter_eq_self.mpr fun _ _ => rfl
  | some =>
    obtain ⟨_, _, found, _, hn, hitem, hsequence⟩ := usableSummary_some h
    obtain ⟨hlt, rfl⟩ := List.getElem?_eq_some_iff.mp hitem
    rw [Option.map_some, Option.map_some, Option.getD_some, hn, ← hsequence]
    have hbefore : ∀ a ∈ i.history.take (found + 1), a.sequence ≤ i.history[found].sequence := by
      intro a ha
      obtain ⟨j, hj, rfl⟩ := List.mem_take_iff_getElem.mp ha
      exact sequence_le hsorted (by omega) hlt
    have hafter : ∀ a ∈ i.history.drop (found + 1), i.history[found].sequence < a.sequence := by
      intro a ha
      obtain ⟨_, _, rfl⟩ := List.mem_drop_iff_getElem.mp ha
      exact List.pairwise_iff_getElem.mp hsorted found _ hlt _ (by omega)
    apply drop_eq_filter
    · intro a ha
      rw [List.take_take, Nat.min_comm, ← List.take_take] at ha
      exact decide_eq_false (Nat.not_lt.mpr (hbefore a (List.mem_of_mem_take ha)))
    · intro a ha
      rw [List.drop_take] at ha
      exact decide_eq_true (hafter a (List.mem_of_mem_take ha))

theorem compaction_messageIds {record : CompactionRecord} (h : (i.compaction est).record = some record) :
    record.messageIds = (((i.history.take (i.start + i.tailStart est)).drop i.start).map (·.id)) := by
  obtain ⟨_, hnone⟩ | ⟨_, _, _, hrecord, hids, _⟩ := @compaction_cases est i
  · rw [hnone] at h
    cases h
  · rw [hrecord] at h
    cases h
    rw [hids, delta, List.drop_take, Nat.add_sub_cancel_left]

/-- The cut a plan's messages start from: where the stored summary ends, or where the tail that is left starts. -/
inductive CutAt (est : Estimator) (i : PlanInput) (p : ContextPlan) : Nat → Prop where
  | start (hrecord : p.compacted = none) : CutAt est i p i.start
  | tail (hrecord : p.compacted = (i.compaction est).record) : CutAt est i p (i.start + i.tailStart est)

theorem Settles.view {p : ContextPlan} (h : i.Settles est (i.compaction est) p) :
    ∃ k, CutAt est i p k ∧ i.ViewFrom k p.messages := by
  have hcompaction : ∃ k, (∀ {p : ContextPlan}, p.compacted = (i.compaction est).record → CutAt est i p k) ∧
      i.ViewFrom k (i.compaction est).view := by
    obtain ⟨hview, hnone⟩ | ⟨_, hview, _⟩ := @compaction_cases est i
    · rw [hview, hnone]
      exact ⟨i.start, .start, uncompacted_view⟩
    · rw [hview]
      exact ⟨i.start + i.tailStart est, .tail, compactView_view _⟩
  obtain ⟨k, hcut, hview⟩ := hcompaction
  cases h with
  | asItIs hmessages hspent hfits hrecord =>
    rw [hmessages]
    exact ⟨k, hcut hrecord, hview⟩
  | rescued record hrescue hrecord => exact ⟨k, hcut hrecord, hview.rescued hrescue⟩
  | rescuedUncompacted record hrescue hrecord => exact ⟨i.start, .start hrecord, uncompacted_view.rescued hrescue⟩

theorem Sends.view {p : ContextPlan} (h : i.Sends est p) :
    p.checkpoint = i.checkpoint ∧ ∃ k, CutAt est i p k ∧ i.ViewFrom k p.messages := by
  cases h with
  | untouched hmessages hspent hfits hsummaries hmemories hrecord hcheckpoint =>
    refine ⟨hcheckpoint, i.start, .start hrecord, ?_⟩
    rw [hmessages]
    exact untouched_view
  | cleaned hmessages hspent hfits hsummaries hmemories hrecord hcheckpoint =>
    refine ⟨hcheckpoint, i.start, .start hrecord, ?_⟩
    rw [hmessages]
    exact uncompacted_view
  | settled hsettles hsummaries hmemories hcheckpoint => exact ⟨hcheckpoint, hsettles.view⟩

theorem CutAt.le {p : ContextPlan} {k : Nat} (h : CutAt est i p k) : k ≤ i.history.length := by
  cases h with
  | start => exact start_le
  | tail => exact compacted_le

theorem CutAt.messageIds {p : ContextPlan} {k : Nat} {c : CompactionRecord} (h : CutAt est i p k)
    (hc : p.compacted = some c) : c.messageIds = ((i.history.take k).drop i.start).map (·.id) := by
  cases h with
  | start hrecord =>
    rw [hrecord] at hc
    cases hc
  | tail hrecord => exact compaction_messageIds (hrecord.symm.trans hc)

end PlanInput

/-- No message is lost, repeated or moved. -/
theorem planContext_view (est : Estimator) (i : PlanInput)
    (hsorted : i.history.Pairwise fun a b => a.sequence < b.sequence) (h : (planContext est i).fits = true) :
    ∃ k ≤ i.history.length, i.ViewFrom k (planContext est i).messages ∧
      ∀ c, (planContext est i).compacted = some c → c.messageIds =
        ((i.history.take k).filter fun item => (planContext est i).checkpoint.all (· < item.sequence)).map (·.id) := by
  obtain ⟨hcheckpoint, k, hcut, hview⟩ := (planContext_sends h).view
  refine ⟨k, hcut.le, hview, ?_⟩
  intro _ hc
  rw [hcut.messageIds hc, hcheckpoint, PlanInput.after_checkpoint hsorted]

theorem longTalk_view : ∃ k ≤ longTalk.history.length, longTalk.ViewFrom k (planContext oneLong longTalk).messages := by
  obtain ⟨k, hk, hview, _⟩ := planContext_view oneLong longTalk (by decide) (by decide +kernel)
  exact ⟨k, hk, hview⟩

end TinyHermes.Runs.ContextBudget
