import TinyHermes.Runs.PlanPairs

/-! What was compacted once is not compacted again. -/
namespace TinyHermes.Runs.ContextBudget
open Lib
variable {est : Estimator} {i : PlanInput}

section Tail
variable {target ceiling : Int}

theorem keptTail_le (total : Int) (older : List CanonicalMessage) : keptTail est target ceiling total older ≤ older.length := by
  induction older generalizing total with
  | nil => exact le_rfl
  | cons m older ih =>
    rw [keptTail, List.length_cons]
    split_ifs
    · omega
    · omega
    · have hrest := ih (total + messageEstimate est m)
      omega

theorem keptTail_take {total : Int} {older : List CanonicalMessage} {n : Nat}
    (hn : keptTail est target ceiling total older ≤ n) :
    keptTail est target ceiling total (older.take n) = keptTail est target ceiling total older := by
  induction older generalizing total n with
  | nil => rw [List.take_nil]
  | cons m older ih =>
    rw [keptTail] at hn ⊢
    cases n with
    | zero =>
      rw [List.take_zero, keptTail]
      omega
    | succ =>
      rw [List.take_succ_cons, keptTail]
      split_ifs at hn ⊢
      · rfl
      · rfl
      · rw [ih (by omega)]

theorem tailBySize_of_reverse {messages older : List CanonicalMessage} {m : CanonicalMessage} (h : messages.reverse = m :: older) :
    tailBySize est target ceiling messages =
      older.length - if target ≤ messageEstimate est m then 0 else keptTail est target ceiling (messageEstimate est m) older := by
  rw [tailBySize, h]

theorem tailBySize_drop {messages : List CanonicalMessage} {n : Nat} (hn : n ≤ tailBySize est target ceiling messages) :
    tailBySize est target ceiling (messages.drop n) = tailBySize est target ceiling messages - n := by
  cases h : messages.reverse with
  | nil =>
    obtain rfl := List.reverse_eq_nil_iff.mp h
    rw [List.drop_nil]
    exact (Nat.zero_sub n).symm
  | cons m older =>
    rw [tailBySize_of_reverse h] at hn ⊢
    have hlength : messages.length = older.length + 1 := by rw [← List.length_reverse, h, List.length_cons]
    have hreverse : (messages.drop n).reverse = m :: older.take (older.length - n) := by
      have hleft : messages.length - n = older.length - n + 1 := by omega
      rw [List.reverse_drop, h, hleft, List.take_succ_cons]
    have hkept : (older.take (older.length - n)).length = older.length - n := by
      rw [List.length_take]
      omega
    rw [tailBySize_of_reverse hreverse, hkept]
    split_ifs at hn ⊢
    · omega
    · have hfew := @keptTail_le est target ceiling (messageEstimate est m) older
      rw [keptTail_take (by omega)]
      omega

/-- The tail begins at the last place, not behind where its size alone puts it, that separates no result from its call:
the loop ends there by itself, and no further round moves it. -/
theorem retainedTailStart_isGreatest (est : Estimator) (target ceiling : Int) (messages : List CanonicalMessage) :
    IsGreatest {n | n ≤ tailBySize est target ceiling messages ∧ Cuts.Uncut callIds answeredIds messages n}
      (retainedTailStart est target ceiling messages) ∧
    Cuts.firstCrossing callIds answeredIds messages (retainedTailStart est target ceiling messages) =
      retainedTailStart est target ceiling messages ∧
    ∀ rounds ≥ tailBySize est target ceiling messages, Cuts.settle callIds answeredIds messages rounds
      (tailBySize est target ceiling messages) = retainedTailStart est target ceiling messages := by
  have hsize := PlanInput.tailBySize_le est target ceiling messages
  have hle : retainedTailStart est target ceiling messages ≤ tailBySize est target ceiling messages := Cuts.settle_le _ _ _
  have huncut : Cuts.Uncut callIds answeredIds messages (retainedTailStart est target ceiling messages) :=
    Cuts.settle_uncut hsize le_rfl
  refine ⟨⟨⟨hle, huncut⟩, ?_⟩, (Cuts.uncut_iff (hle.trans hsize)).mp huncut, fun rounds hrounds => Cuts.settle_fuel hrounds le_rfl⟩
  rintro _ ⟨hn, hnuncut⟩
  exact Cuts.le_settle hn hsize hnuncut

theorem retainedTailStart_drop (messages : List CanonicalMessage) :
    retainedTailStart est target ceiling (messages.drop (retainedTailStart est target ceiling messages)) = 0 := by
  have hle : retainedTailStart est target ceiling messages ≤ tailBySize est target ceiling messages :=
    Cuts.settle_le messages _ _
  rw [retainedTailStart, tailBySize_drop hle]
  rw [Cuts.settle_fuel le_rfl (Nat.sub_le _ _)]
  exact (Cuts.settle_drop le_rfl).trans (Nat.sub_self _)

end Tail

namespace PlanInput

def withSummary (i : PlanInput) (stored : CoveredSummary) : PlanInput := { i with storedSummary := some stored }

theorem usableSummary_withSummary {stored : CoveredSummary} {found : Nat} (hlt : found < i.history.length)
    (hdistinct : (i.history.map (·.sequence)).Nodup) (hsequence : i.history[found].sequence = stored.lastSequence)
    (happart : Apart (i.eventsBefore (found + 1)) (i.eventsFrom (found + 1))) :
    (i.withSummary stored).usableSummary = some (stored, found + 1) := by
  have hfound : i.history.findIdx? (fun item => item.sequence = stored.lastSequence) = some found := by
    apply List.findIdx?_eq_some_iff_getElem.mpr
    refine ⟨hlt, decide_eq_true hsequence, ?_⟩
    intro j hj hfirst
    have hsame : i.history[j].sequence = i.history[found].sequence := (of_decide_eq_true hfirst).trans hsequence.symm
    have hother : i.history.Pairwise fun a b => a.sequence ≠ b.sequence := List.pairwise_map.mp hdistinct
    exact List.pairwise_iff_getElem.mp hother j found (hj.trans hlt) hlt hj hsame
  have hhistory : (i.withSummary stored).history = i.history := rfl
  rw [@usableSummary_eq (i.withSummary stored) stored rfl, hhistory, hfound, Option.bind_some,
    splitsAToolPair_iff.mpr happart]
  rfl

theorem delta_last (h : i.delta est ≠ []) :
    ∃ found, ∃ hlt : found < i.history.length,
      found + 1 = i.start + i.tailStart est ∧ (i.delta est).getLast? = some i.history[found] := by
  have hle := @compacted_le est i
  have hlength : (i.delta est).length = i.tailStart est := by
    rw [delta, List.length_take, List.length_drop]
    omega
  have hpos := List.length_pos_of_ne_nil h
  refine ⟨i.start + i.tailStart est - 1, by omega, by omega, ?_⟩
  rw [List.getLast?_eq_getElem?, hlength, delta, List.getElem?_take, if_pos (by omega), List.getElem?_drop,
    ← List.getElem?_eq_getElem]
  congr 1
  omega

theorem tailStart_withSummary {stored : CoveredSummary} (hstart : (i.withSummary stored).start = i.start + i.tailStart est) :
    (i.withSummary stored).tailStart est = 0 := by
  have hpost : (i.withSummary stored).post = i.post.drop (i.tailStart est) := by
    rw [post, post, hstart, List.drop_drop]
    rfl
  rw [tailStart, hpost]
  exact retainedTailStart_drop i.post

theorem compaction_record_none (h : i.delta est = []) : (i.compaction est).record = none := by
  obtain ⟨_, hrecord⟩ | ⟨hdelta, _⟩ := @compaction_cases est i
  · exact hrecord
  · exact absurd h hdelta

theorem CutAt.record_none {p : ContextPlan} {k : Nat} (hcut : CutAt est i p k) (h : i.delta est = []) : p.compacted = none := by
  cases hcut with
  | start hrecord => exact hrecord
  | tail hrecord => exact hrecord.trans (compaction_record_none h)

theorem compacted_some {c : CompactionRecord} (h : (planContext est i).compacted = some c) :
    ∃ found, ∃ hlt : found < i.history.length, found + 1 = i.start + i.tailStart est ∧
      c.lastSequence = i.history[found].sequence ∧ c.messageIds = ((i.history.take (found + 1)).drop i.start).map (·.id) ∧
      (planContext est i).checkpoint = i.checkpoint := by
  obtain ⟨_, hnone⟩ | hsends := planContext_cases est i
  · rw [hnone] at h
    cases h
  · obtain ⟨hcheckpoint, _, hcut, _⟩ := hsends.view
    cases hcut with
    | start hrecord =>
      rw [hrecord] at h
      cases h
    | tail hrecord =>
      rw [hrecord] at h
      have hids := compaction_messageIds h
      obtain ⟨_, hnone⟩ | ⟨hdelta, _, record, hsome, _, hlast⟩ := @compaction_cases est i
      · rw [hnone] at h
        cases h
      · obtain rfl : record = c := Option.some.inj (hsome.symm.trans h)
        obtain ⟨found, hlt, hk, hfound⟩ := delta_last hdelta
        rw [hfound, Option.map_some, Option.getD_some] at hlast
        rw [← hk] at hids
        exact ⟨found, hlt, hk, hlast, hids, hcheckpoint⟩

end PlanInput

/-- A summary of what a round compacted leaves the next plan of that round nothing to compact. -/
theorem planContext_fixed (est : Estimator) (i : PlanInput) (c : CompactionRecord) (text : String)
    (hdistinct : (i.history.map (·.sequence)).Nodup) (hc : (planContext est i).compacted = some c)
    (hfits : (planContext est (i.withSummary ⟨text, c.lastSequence⟩)).fits = true) :
    (planContext est (i.withSummary ⟨text, c.lastSequence⟩)).checkpoint = some c.lastSequence ∧
      (planContext est (i.withSummary ⟨text, c.lastSequence⟩)).compacted = none := by
  obtain ⟨found, hlt, hk, hlast, _⟩ := PlanInput.compacted_some hc
  have happart := @PlanInput.tail_apart est i
  rw [← hk] at happart
  have husable : (i.withSummary ⟨text, c.lastSequence⟩).usableSummary = some (⟨text, c.lastSequence⟩, found + 1) :=
    PlanInput.usableSummary_withSummary hlt hdistinct hlast.symm happart
  have hstart : (i.withSummary ⟨text, c.lastSequence⟩).start = i.start + i.tailStart est := by
    rw [PlanInput.start, husable, ← hk]
    rfl
  have hempty : (i.withSummary ⟨text, c.lastSequence⟩).delta est = [] := by
    rw [PlanInput.delta, PlanInput.tailStart_withSummary hstart, List.take_zero]
  obtain ⟨hcheckpoint, _, hcut, _⟩ := (planContext_sends hfits).view
  constructor
  · rw [hcheckpoint, PlanInput.checkpoint, husable]
    rfl
  · exact hcut.record_none hempty

theorem longTalk_fixed :
    (planContext oneLong (longTalk.withSummary ⟨"what was said", 1⟩)).checkpoint = some 1 ∧
      (planContext oneLong (longTalk.withSummary ⟨"what was said", 1⟩)).compacted = none := by
  have hcompacted : (planContext oneLong longTalk).compacted.map (·.lastSequence) = some 1 := by decide +kernel
  obtain ⟨c, hc, hlast⟩ := Option.map_eq_some_iff.mp hcompacted
  have hfixed := planContext_fixed oneLong longTalk c "what was said" (by decide) hc
  rw [hlast] at hfixed
  exact hfixed (by decide +kernel)

end TinyHermes.Runs.ContextBudget
