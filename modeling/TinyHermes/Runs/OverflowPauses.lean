import TinyHermes.Runs.Rescues

/-! A round that is paused because it does not fit, and that nothing the platform may give up would have made it fit. -/
namespace TinyHermes.Runs.ContextBudget
open PlanInput
variable {est : Estimator} {t : Trimming} {spent allowance : Int} {exemptPass : Bool} {i : PlanInput}

/-- A message with a stub for each of its results that is longer than its stub. -/
def stubbedMessage (t : Trimming) (m : CanonicalMessage) : CanonicalMessage :=
  if m.role = .tool then m.mapBlocks (Block.mapResult (stubbed t)) else m

def StubsCostLess (est : Estimator) : Prop :=
  ∀ fullLength result, (stub 0 fullLength result).output.length < result.output.length →
    est.tokens (stub 0 fullLength result).output ≤ est.tokens result.output

/-- The cost of a view when all that may be given up is: the summaries of skills that are not loaded, the memories, and
what a stub may replace. -/
def PlanInput.leastCost (est : Estimator) (i : PlanInput) (view : List CanonicalMessage) : Int :=
  i.fixedWith est (i.skillSummaries.filter (·.loaded)) [] + estimate est (view.map (stubbedMessage i.trimming))

section Rescuing

theorem rescuePass_stops {messages : List CanonicalMessage} {tally : Tally} (h : spent - tally.freed ≤ allowance) :
    rescuePass est t exemptPass spent allowance messages tally = (messages, tally) := by
  cases messages with
  | nil => rfl
  | cons => rw [rescuePass, if_pos h]

theorem rescuePass_through {messages : List CanonicalMessage} {tally : Tally}
    (h : allowance < spent - (rescuePass est t exemptPass spent allowance messages tally).2.freed) :
    (rescuePass est t exemptPass spent allowance messages tally).1 =
      messages.map fun m => if m.role = .tool then rewriteBlocks (rescueBlock est t exemptPass) m else m := by
  induction messages generalizing tally with
  | nil => rfl
  | cons m rest ih =>
    rw [rescuePass] at h ⊢
    split_ifs at h ⊢ with hfits hrole
    · exact absurd h (Int.not_lt.mpr hfits)
    · rw [List.map_cons, if_neg hrole]
      exact congrArg (m :: ·) (ih h)
    · rw [List.map_cons, if_pos (not_not.mp hrole)]
      exact congrArg (rewriteBlocks (rescueBlock est t exemptPass) m :: ·) (ih h)

theorem rescuePass_tally (messages : List CanonicalMessage) (tally : Tally) :
    ∃ replaced : List Replacement,
      (rescuePass est t exemptPass spent allowance messages tally).2 = replaced.foldl Tally.add tally := by
  induction messages generalizing tally with
  | nil => exact ⟨[], rfl⟩
  | cons m rest ih =>
    rw [rescuePass]
    split_ifs
    · exact ⟨[], rfl⟩
    · exact ih tally
    · obtain ⟨replaced, hreplaced⟩ := ih (tallyBlocks (rescueBlock est t exemptPass) m tally)
      refine ⟨m.blocks.filterMap (rescueBlock est t exemptPass) ++ replaced, ?_⟩
      rw [List.foldl_append]
      exact hreplaced

theorem foldl_add_references (replaced : List Replacement) (tally : Tally) :
    (replaced.foldl Tally.add tally).references = tally.references ++ replaced.map (·.callId) := by
  induction replaced generalizing tally with
  | nil => exact (List.append_nil _).symm
  | cons r rest ih =>
    rw [List.foldl_cons, ih, Tally.add, List.map_cons, List.append_assoc, List.singleton_append]

theorem both_passes_all (m : CanonicalMessage) :
    (if (if m.role = .tool then rewriteBlocks (rescueBlock est t false) m else m).role = .tool then
        rewriteBlocks (rescueBlock est t true) (if m.role = .tool then rewriteBlocks (rescueBlock est t false) m else m)
      else if m.role = .tool then rewriteBlocks (rescueBlock est t false) m else m) = stubbedMessage t m := by
  have hrole : (if m.role = .tool then rewriteBlocks (rescueBlock est t false) m else m).role = m.role := by split_ifs <;> rfl
  have hboth := @both_passes est t true true m
  simp only [true_and, ite_self, if_true] at hboth
  rw [hrole, hboth, stubbedMessage]

theorem rescue_none {view : List CanonicalMessage} (h : rescue est t view spent allowance = none) (hover : allowance < spent) :
    allowance < spent - (estimate est view - estimate est (view.map (stubbedMessage t))) := by
  have hfirst := rescuePass_estimate est t false spent allowance view {}
  obtain ⟨before, hbefore⟩ := @rescuePass_tally est t spent allowance false view {}
  have hthrough := @rescuePass_through est t spent allowance false view {}
  have hnone : ({} : Tally).freed = 0 := rfl
  rw [rescue] at h
  dsimp only at h
  generalize rescuePass est t false spent allowance view {} = first at h hfirst hbefore hthrough
  have hsecond := rescuePass_estimate est t true spent allowance first.1 first.2
  obtain ⟨after, hafter⟩ := @rescuePass_tally est t spent allowance true first.1 first.2
  have hagain := @rescuePass_through est t spent allowance true first.1 first.2
  have hstops := @rescuePass_stops est t spent allowance true first.1 first.2
  generalize rescuePass est t true spent allowance first.1 first.2 = second at h hsecond hafter hagain hstops
  have hbig : allowance < spent - second.2.freed := by
    split_ifs at h with hfails
    rcases hfails with hempty | hbig
    · -- Nothing was replaced, so nothing was freed.
      rw [hafter, hbefore, ← List.foldl_append, foldl_add_references] at hempty
      have hreplaced : before ++ after = [] := List.map_eq_nil_iff.mp (List.append_eq_nil_iff.mp hempty).2
      rw [hafter, hbefore, ← List.foldl_append, hreplaced]
      simpa using hover
    · exact hbig
  have hfirstBig : allowance < spent - first.2.freed := by
    by_contra hfits
    rw [hstops (Int.not_lt.mp hfits)] at hbig
    exact hfits hbig
  rw [hagain hbig, hthrough hfirstBig, List.map_map] at hsecond
  rw [hthrough hfirstBig] at hfirst
  have hall : ((fun m : CanonicalMessage => if m.role = .tool then rewriteBlocks (rescueBlock est t true) m else m) ∘
      fun m => if m.role = .tool then rewriteBlocks (rescueBlock est t false) m else m) = stubbedMessage t :=
    funext both_passes_all
  rw [hall] at hsecond
  omega

end Rescuing

section Segments

theorem segmentEstimate_nil {texts : List String} (h : segmentEstimate est texts ≤ 0) : texts = [] := by
  by_contra hne
  have htexts : 0 ≤ textsEstimate est texts := by
    rw [textsEstimate]
    apply List.sum_nonneg
    intro _ hn
    obtain ⟨_, _, rfl⟩ := List.mem_map.mp hn
    exact Int.natCast_nonneg _
  rw [segmentEstimate, if_neg hne, messageOverhead] at h
  omega

theorem dropUnhit_loaded (ceiling : Int) (earlier later : List SkillSummary) :
    (dropUnhit est ceiling earlier later).1.filter (·.loaded) = (earlier.reverse ++ later).filter (·.loaded) := by
  induction earlier generalizing later with
  | nil => rfl
  | cons s earlier ih =>
    rw [dropUnhit, List.reverse_cons, List.append_assoc, List.singleton_append]
    split_ifs with hfits hloaded
    · rfl
    · exact ih (s :: later)
    · have hrest := ih later
      dsimp only
      rw [hrest, List.filter_append, List.filter_append, List.filter_cons_of_neg hloaded]

theorem dropUnhit_exhausted (ceiling : Int) (earlier later : List SkillSummary) :
    summaryEstimate est (dropUnhit est ceiling earlier later).1 ≤ ceiling ∨
      (dropUnhit est ceiling earlier later).1 = earlier.reverse.filter (·.loaded) ++ later := by
  induction earlier generalizing later with
  | nil => exact .inr rfl
  | cons s earlier ih =>
    rw [dropUnhit, List.reverse_cons, List.filter_append, List.append_assoc]
    split_ifs with hfits hloaded
    · exact .inl hfits
    · rw [List.filter_cons_of_pos hloaded, List.filter_nil, List.singleton_append]
      exact ih (s :: later)
    · rw [List.filter_cons_of_neg hloaded, List.filter_nil, List.nil_append]
      exact ih later

theorem dropUnhitSummaries_loaded (ceiling : Int) (kept : List SkillSummary) :
    (dropUnhitSummaries est ceiling kept).1.filter (·.loaded) = kept.filter (·.loaded) := by
  have hloaded := @dropUnhit_loaded est ceiling kept.reverse []
  rw [List.reverse_reverse, List.append_nil] at hloaded
  exact hloaded

theorem dropUnhitSummaries_exhausted (ceiling : Int) (kept : List SkillSummary) :
    summaryEstimate est (dropUnhitSummaries est ceiling kept).1 ≤ ceiling ∨
      (dropUnhitSummaries est ceiling kept).1 = kept.filter (·.loaded) := by
  have hexhausted := @dropUnhit_exhausted est ceiling kept.reverse []
  rw [List.reverse_reverse, List.append_nil] at hexhausted
  exact hexhausted

theorem popMemories_exhausted (ceiling : Int) (memories : List String) :
    memoryEstimate est (popMemories est ceiling memories).1 ≤ ceiling ∨ (popMemories est ceiling memories).1 = [] := by
  induction memories with
  | nil => exact .inr rfl
  | cons m earlier ih =>
    rw [popMemories]
    split_ifs with hover
    · exact ih
    · exact .inl (Int.not_lt.mp hover)

theorem asked_enough {whole left wanted : Int} {p : Prop} (hleft : left ≤ max (whole - wanted) 0 ∨ p) (hnil : left ≤ 0 → p) :
    wanted ≤ whole - left ∨ p := by
  rcases hleft with hceiling | hp
  · by_cases hroom : 0 ≤ whole - wanted
    · rw [max_eq_left hroom] at hceiling
      exact .inl (by omega)
    · rw [max_eq_right (Int.le_of_not_le hroom)] at hceiling
      exact .inr (hnil hceiling)
  · exact .inr hp

namespace PlanInput

theorem ownSummaries_loaded : (i.ownSummaries est).1.filter (·.loaded) = i.skillSummaries.filter (·.loaded) := by
  rw [ownSummaries]
  cases i.segments .skillSummaries with
  | none => rfl
  | some ceiling => exact dropUnhitSummaries_loaded ceiling i.skillSummaries

theorem squeeze_summaries (spent : Int) : (i.squeeze est spent).summaries =
    if i.allowance < spent then
      (dropUnhitSummaries est (max (summaryEstimate est (i.ownSummaries est).1 - (spent - i.allowance)) 0) (i.ownSummaries est).1).1
    else (i.ownSummaries est).1 := by
  rw [squeeze]
  dsimp only
  split_ifs <;> rfl

def summariesFreed (est : Estimator) (i : PlanInput) (spent : Int) : Int :=
  summaryEstimate est (i.ownSummaries est).1 - summaryEstimate est (i.squeeze est spent).summaries

theorem squeeze_memories (spent : Int) : (i.squeeze est spent).memories =
    if i.allowance < spent - i.summariesFreed est spent ∧ (i.ownMemories est).1 ≠ [] then
      (trimMemories est (max (memoryEstimate est (i.ownMemories est).1 - (spent - i.summariesFreed est spent - i.allowance)) 0)
        (i.ownMemories est).1).1
    else (i.ownMemories est).1 := by
  have hfreed := freed_of_record (summaryEstimate est) (@kept_unless _ (i.allowance < spent) _ _ (i.ownSummaries est).1
    (@dropUnhitSummaries_none est (max (summaryEstimate est (i.ownSummaries est).1 - (spent - i.allowance)) 0) (i.ownSummaries est).1))
  rw [summariesFreed, squeeze]
  dsimp only
  rw [hfreed]
  split_ifs <;> rfl

theorem squeeze_total (spent : Int) : (i.squeeze est spent).freed = i.summariesFreed est spent +
    (memoryEstimate est (i.ownMemories est).1 - memoryEstimate est (i.squeeze est spent).memories) := by
  have hfreed := @squeeze_freed est i spent
  rw [fixedWith, fixed, fixedWith] at hfreed
  rw [summariesFreed]
  omega

theorem squeeze_over {spent : Int} (hover : i.allowance < spent - (i.squeeze est spent).freed) :
    i.allowance < spent ∧ i.allowance < spent - i.summariesFreed est spent := by
  have htotal := @squeeze_total est i spent
  have hsummaries := @squeeze_summaries est i spent
  have hmemories := @squeeze_memories est i spent
  have hafter : i.allowance < spent - i.summariesFreed est spent := by
    by_contra hfits
    rw [if_neg fun h => hfits h.1] at hmemories
    rw [hmemories] at htotal
    omega
  refine ⟨?_, hafter⟩
  by_contra hfits
  rw [if_neg hfits] at hsummaries
  rw [summariesFreed, hsummaries] at hafter
  omega

theorem squeeze_exhausted {spent : Int} (hover : i.allowance < spent - (i.squeeze est spent).freed) :
    (i.squeeze est spent).summaries = i.skillSummaries.filter (·.loaded) ∧ (i.squeeze est spent).memories = [] := by
  have htotal := @squeeze_total est i spent
  have hsummaries := @squeeze_summaries est i spent
  have hmemories := @squeeze_memories est i spent
  obtain ⟨hbefore, hafter⟩ := squeeze_over hover
  rw [if_pos hbefore] at hsummaries
  constructor
  · have hleft := @dropUnhitSummaries_exhausted est (max (summaryEstimate est (i.ownSummaries est).1 - (spent - i.allowance)) 0)
      (i.ownSummaries est).1
    have hloaded := @dropUnhitSummaries_loaded est (max (summaryEstimate est (i.ownSummaries est).1 - (spent - i.allowance)) 0)
      (i.ownSummaries est).1
    rw [← hsummaries, ownSummaries_loaded] at hleft hloaded
    obtain henough | hall := asked_enough hleft fun hnil => by
      have hempty : (i.squeeze est spent).summaries = [] := List.map_eq_nil_iff.mp (segmentEstimate_nil hnil)
      rw [← hloaded, hempty, List.filter_nil]
    · rw [summariesFreed] at hafter
      omega
    · exact hall
  · by_cases hnone : (i.ownMemories est).1 = []
    · rw [hmemories, if_neg fun h => h.2 hnone, hnone]
    · have hleft := @popMemories_exhausted est
        (max (memoryEstimate est (i.ownMemories est).1 - (spent - i.summariesFreed est spent - i.allowance)) 0)
        (i.ownMemories est).1.reverse
      rw [if_pos ⟨hafter, hnone⟩] at hmemories
      have hpopped : (i.squeeze est spent).memories = (popMemories est
        (max (memoryEstimate est (i.ownMemories est).1 - (spent - i.summariesFreed est spent - i.allowance)) 0)
        (i.ownMemories est).1.reverse).1 := hmemories
      rw [← hpopped] at hleft
      obtain _ | hall := asked_enough hleft segmentEstimate_nil
      · omega
      · exact hall

end PlanInput

end Segments

section Views

def stubSavings (est : Estimator) (t : Trimming) (view : List CanonicalMessage) : Int :=
  estimate est view - estimate est (view.map (stubbedMessage t))

theorem stubSavings_append (front back : List CanonicalMessage) :
    stubSavings est t (front ++ back) = stubSavings est t front + stubSavings est t back := by
  rw [stubSavings, stubSavings, stubSavings, List.map_append, estimate_append, estimate_append]
  omega

theorem stubbedMessage_estimate (hstubs : StubsCostLess est) (m : CanonicalMessage) :
    messageEstimate est (stubbedMessage t m) ≤ messageEstimate est m := by
  have hblock (b : Block) : blockEstimate est (b.mapResult (stubbed t)) ≤ blockEstimate est b := by
    cases b with
    | toolResult =>
      rw [Block.mapResult, stubbed]
      split_ifs with hshorter
      · exact Int.ofNat_le.mpr (hstubs _ _ hshorter)
      · exact le_rfl
    | text | reasoning | image | file | toolCall => exact le_rfl
  rw [stubbedMessage]
  split_ifs
  · rw [messageEstimate, messageEstimate, CanonicalMessage.mapBlocks, List.map_map]
    exact Int.add_le_add_left (List.sum_le_sum fun b _ => hblock b) _
  · exact le_rfl

theorem stubSavings_nonneg (hstubs : StubsCostLess est) (view : List CanonicalMessage) : 0 ≤ stubSavings est t view := by
  induction view with
  | nil => exact le_rfl
  | cons m rest ih =>
    have hm := @stubbedMessage_estimate est t hstubs m
    rw [stubSavings] at ih ⊢
    rw [List.map_cons, estimate_cons, estimate_cons]
    omega

theorem stubSavings_front {front : List CanonicalMessage} (h : ∀ m ∈ front, m.role ≠ .tool) : stubSavings est t front = 0 := by
  have hsame : front.map (stubbedMessage t) = front.map id :=
    List.map_congr_left fun m hm => if_neg (h m hm)
  rw [stubSavings, hsame, List.map_id, Int.sub_self]

namespace PlanInput

theorem compactView_savings (hstubs : StubsCostLess est) (withHints : Bool) :
    stubSavings est t (i.compactView est withHints) ≤ stubSavings est t (i.uncompacted est) := by
  have hhead : ∀ m ∈ head est i.allowance (i.summaryText est withHints) (i.covered est) i.request, m.role ≠ .tool :=
    (head_opens _ _ compacted_le).role
  have hsplit : i.cleanPost est = (i.cleanPost est).take (i.tailStart est) ++ (i.cleanPost est).drop (i.tailStart est) :=
    (List.take_append_drop _ _).symm
  have hopening := @stubSavings_nonneg est t hstubs (i.opening est)
  have hold := @stubSavings_nonneg est t hstubs ((i.cleanPost est).take (i.tailStart est))
  rw [uncompacted, hsplit, compactView, stubSavings_append, stubSavings_append, stubSavings_append, stubSavings_front hhead]
  omega

theorem leastCost_gt {view : List CanonicalMessage} {spent : Int}
    (hover : i.allowance < spent - (i.squeeze est spent).freed)
    (hview : i.allowance < i.spentOn est view - (i.squeeze est spent).freed - stubSavings est i.trimming view) :
    i.allowance < i.leastCost est view := by
  obtain ⟨hsummaries, hmemories⟩ := squeeze_exhausted hover
  have hfreed := @squeeze_freed est i spent
  rw [hsummaries, hmemories] at hfreed
  rw [spentOn, stubSavings] at hview
  rw [leastCost, hfreed]
  omega

end PlanInput

end Views

namespace PlanInput

structure Exhausted (est : Estimator) (i : PlanInput) (c : Compacted) : Prop where
  exceeds : i.allowance < c.spent - (i.squeeze est c.spent).freed
  view : rescue est i.trimming c.view (c.spent - (i.squeeze est c.spent).freed) i.allowance = none
  uncompacted : c.record.isSome →
    rescue est i.trimming (i.uncompacted est) (i.spentOn est (i.uncompacted est) - (i.squeeze est c.spent).freed) i.allowance = none

theorem settlePlan_pauses {c : Compacted} (h : (i.settlePlan est c).fits = false) :
    (i.settlePlan est c).messages = i.history.map (·.message) ∧ (i.settlePlan est c).compacted = none ∧ i.Exhausted est c := by
  unfold settlePlan at h ⊢
  dsimp only at h ⊢
  by_cases hspent : c.spent - (i.squeeze est c.spent).freed ≤ i.allowance
  · rw [if_pos hspent] at h
    cases h
  rw [if_neg hspent] at h ⊢
  cases hview : rescue est i.trimming c.view (c.spent - (i.squeeze est c.spent).freed) i.allowance with
  | some =>
    rw [hview] at h
    cases h
  | none =>
    rw [hview] at h
    dsimp only at h ⊢
    by_cases hrecord : c.record.isSome
    · rw [if_pos hrecord] at h ⊢
      cases hagain : rescue est i.trimming (i.uncompacted est)
          (i.spentOn est (i.uncompacted est) - (i.squeeze est c.spent).freed) i.allowance with
      | some =>
        rw [hagain] at h
        cases h
      | none => exact ⟨rfl, rfl, Int.not_le.mp hspent, hview, fun _ => hagain⟩
    · rw [if_neg hrecord]
      exact ⟨rfl, rfl, Int.not_le.mp hspent, hview, fun h => absurd h hrecord⟩

theorem compaction_worth (hdelta : i.delta est ≠ []) (hover : i.allowance < (i.compaction est).spent) :
    ((i.compaction est).record.isSome ∧ (i.compaction est).view = i.compactView est (i.withHints est) ∧
        i.spentOn est (i.compactView est (i.withHints est)) < i.spentOn est (i.uncompacted est)) ∨
      (i.compaction est).view = i.uncompacted est ∧
        i.spentOn est (i.uncompacted est) ≤ i.spentOn est (i.compactView est (i.withHints est)) := by
  unfold compaction at hover ⊢
  dsimp only at hover ⊢
  rw [if_neg hdelta] at hover ⊢
  split_ifs at hover ⊢ with hgain hsmall
  · exact .inr ⟨rfl, by omega⟩
  · exact absurd hsmall.2.1 (Int.not_le.mpr hover)
  · exact .inl ⟨rfl, rfl, by omega⟩

theorem Exhausted.necessary (hstubs : StubsCostLess est) (h : i.Exhausted est (i.compaction est)) :
    (i.delta est ≠ [] → i.allowance < i.leastCost est (i.compactView est (i.withHints est))) ∧
      i.allowance < i.leastCost est (i.uncompacted est) := by
  have hexceeds := h.exceeds
  obtain ⟨hover, _⟩ := squeeze_over h.exceeds
  have hspent := @compaction_spent est i
  have hbig := rescue_none h.view h.exceeds
  by_cases hdelta : i.delta est = []
  · have hview : (i.compaction est).view = i.uncompacted est := by
      rw [compaction]
      dsimp only
      rw [if_pos hdelta]
    rw [hview] at hspent hbig
    refine ⟨fun hne => absurd hdelta hne, leastCost_gt h.exceeds ?_⟩
    rw [← hspent, stubSavings]
    exact hbig
  · obtain ⟨hrecord, hview, hgain⟩ | ⟨hview, _⟩ := compaction_worth hdelta hover
    · rw [hview] at hspent hbig
      have hagain := rescue_none (h.uncompacted hrecord) (by omega)
      refine ⟨fun _ => leastCost_gt h.exceeds ?_, leastCost_gt h.exceeds ?_⟩
      · rw [← hspent, stubSavings]
        exact hbig
      · rw [stubSavings]
        exact hagain
    · -- Nothing was gained: the compacted view has no less to begin with, and no more to save.
      rw [hview] at hspent hbig
      have hsavings := @compactView_savings est i.trimming i hstubs (i.withHints est)
      refine ⟨fun _ => leastCost_gt h.exceeds ?_, leastCost_gt h.exceeds ?_⟩
      · rw [stubSavings, stubSavings] at hsavings
        rw [stubSavings]
        omega
      · rw [← hspent, stubSavings]
        exact hbig

theorem belowTrigger_fits {messages : List CanonicalMessage} (htrigger : i.trigger ≤ i.allowance)
    (h : i.belowTrigger est messages = true) : i.spentOn est messages ≤ i.allowance := by
  have hbelow : ((i.spentOn est messages : Int) : ℚ) < i.trigger := (of_decide_eq_true h).2
  have hless : ((i.spentOn est messages : Int) : ℚ) < ((i.allowance : Int) : ℚ) := hbelow.trans_le htrigger
  exact (Int.cast_lt.mp hless).le

end PlanInput

/-- A round whose trigger is within its allowance is paused with its history as it is, and only when it would not fit with
all that may be given up. -/
theorem pausing_necessary (est : Estimator) (i : PlanInput) (hstubs : StubsCostLess est) (htrigger : i.trigger ≤ i.allowance)
    (hpaused : (planContext est i).fits = false) :
    (planContext est i).messages = i.history.map (·.message) ∧ (planContext est i).compacted = none ∧
      (i.floor est ≤ i.allowance →
        (i.delta est ≠ [] → i.allowance < i.leastCost est (i.compactView est (i.withHints est))) ∧
          i.allowance < i.leastCost est (i.uncompacted est)) := by
  unfold planContext at hpaused ⊢
  split_ifs at hpaused ⊢ with hfloor hbelow hcleaned
  · exact ⟨rfl, rfl, fun h => absurd hfloor (Int.not_lt.mpr h)⟩
  · exact absurd (belowTrigger_fits htrigger hbelow) (of_decide_eq_false hpaused)
  · exact absurd (belowTrigger_fits htrigger hcleaned) (of_decide_eq_false hpaused)
  · obtain ⟨hmessages, hcompacted, hexhausted⟩ := settlePlan_pauses hpaused
    exact ⟨hmessages, hcompacted, fun _ => hexhausted.necessary hstubs⟩

def flat : Estimator where
  tokens := fun _ => 1
  shown := fun _ => ""

theorem flat_stubs : StubsCostLess flat := fun _ _ _ => le_rfl

def tightTalk : PlanInput where
  window := { contextWindow := 19, reservedOutputTokens := 0 }
  safetyRules := "rules"
  personality := "you"
  history := [⟨0, 1, spoken .user "hello"⟩, ⟨1, 2, spoken .assistant "yes"⟩, ⟨2, 3, spoken .user "what now"⟩]
  threshold := fun allowance => allowance / 2

theorem tightTalk_trigger : tightTalk.trigger ≤ tightTalk.allowance := by
  have htrigger : tightTalk.trigger = 19 / 2 := rfl
  have hallowance : tightTalk.allowance = 19 := rfl
  rw [htrigger, hallowance]
  norm_num

theorem tightTalk_necessary : (planContext flat tightTalk).messages = tightTalk.history.map (·.message) ∧
    (planContext flat tightTalk).compacted = none ∧
      (tightTalk.floor flat ≤ tightTalk.allowance →
        (tightTalk.delta flat ≠ [] → tightTalk.allowance < tightTalk.leastCost flat (tightTalk.compactView flat (tightTalk.withHints flat))) ∧
          tightTalk.allowance < tightTalk.leastCost flat (tightTalk.uncompacted flat)) :=
  pausing_necessary flat tightTalk flat_stubs tightTalk_trigger (by decide +kernel)

def lateTalk : PlanInput :=
  { tightTalk with
    storedSummary := some { text := "summary", lastSequence := 2 }
    threshold := fun allowance => allowance * 2 }

theorem lateTalk_changed : ¬ (StubsCostLess flat → (planContext flat lateTalk).fits = false →
    (planContext flat lateTalk).messages = lateTalk.history.map (·.message) ∧ (planContext flat lateTalk).compacted = none) := by
  intro h
  obtain ⟨hmessages, _⟩ := h flat_stubs (by decide +kernel)
  have hlength : (planContext flat lateTalk).messages.length = 3 := by
    rw [hmessages]
    rfl
  have htwo : (planContext flat lateTalk).messages.length = 2 := by decide +kernel
  omega

end TinyHermes.Runs.ContextBudget
