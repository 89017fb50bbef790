import TinyHermes.Runs.PlanAccounting

/-! What `/compact` promises, and when the round it forces has something to compact. -/
namespace TinyHermes.Runs.ContextBudget
open Lib
variable {est : Estimator} {i : PlanInput}

/-- `has_compactable_history`. -/
def hasCompactableHistory (est : Estimator) (messages : List CanonicalMessage) : Bool := retainedTail < estimate est messages

namespace PlanInput

/-- The messages after the stored summary, as `request_compaction` reads them. -/
def sinceSummary (i : PlanInput) : List CanonicalMessage :=
  (i.history.filter fun item => i.storedSummary.all (·.lastSequence < item.sequence)).map (·.message)

/-- A cut after the first message that splits no call from its result: what is after it fills the retained tail, or is more than
it with the message before. -/
def Divisible (est : Estimator) (i : PlanInput) : Prop :=
  ∃ cut, 0 < cut ∧ cut < i.post.length ∧ Cuts.Uncut callIds answeredIds i.post cut ∧
    (min retainedTail (i.tailCeiling est) ≤ estimate est (i.post.drop cut) ∨
      i.tailCeiling est < estimate est (i.post.drop (cut - 1)))

end PlanInput

section Tail

theorem messageEstimate_pos (est : Estimator) (m : CanonicalMessage) : 0 < messageEstimate est m := by
  have hblocks : 0 ≤ (m.blocks.map (blockEstimate est)).sum := by
    apply List.sum_nonneg
    intro _ hcost
    obtain ⟨b, _, rfl⟩ := List.mem_map.mp hcost
    cases b with
    | image => exact (by decide : (0 : Int) ≤ imageTokens)
    | text | reasoning | toolCall | toolResult | file => exact Int.natCast_nonneg _
  have hoverhead : messageOverhead = 4 := rfl
  rw [messageEstimate]
  omega

theorem estimate_nonneg (est : Estimator) (messages : List CanonicalMessage) : 0 ≤ estimate est messages := by
  apply List.sum_nonneg
  intro _ hcost
  obtain ⟨m, _, rfl⟩ := List.mem_map.mp hcost
  exact (messageEstimate_pos est m).le

theorem estimate_reverse (messages : List CanonicalMessage) : estimate est messages.reverse = estimate est messages := by
  rw [estimate, List.map_reverse, List.sum_reverse]
  rfl

/-- The tail takes at most `count` more messages where these fill it, or where one more would be too many. -/
theorem keptTail_le_iff {target ceiling total : Int} (htotal : total < target) (older : List CanonicalMessage) (count : Nat) :
    keptTail est target ceiling total older ≤ count ↔
      older.length ≤ count ∨ target ≤ total + estimate est (older.take count) ∨
        (count < older.length ∧ ceiling < total + estimate est (older.take (count + 1))) := by
  induction older generalizing total count with
  | nil => simp [keptTail]
  | cons m older ih =>
    have hpositive := messageEstimate_pos est m
    rw [keptTail]
    cases count with
    | zero =>
      have hnone : estimate est [] = 0 := rfl
      have hone : estimate est [m] = messageEstimate est m := by rw [estimate_cons, hnone, add_zero]
      simp only [List.take_zero, hnone, zero_add, List.take_succ_cons, hone, List.length_cons]
      split_ifs with hceiling htarget
      · simp [hceiling]
      · simp [hceiling, htotal]
      · simp [hceiling, htotal]
    | succ count =>
      have hrest := estimate_nonneg est (older.take count)
      have hmore := estimate_nonneg est (older.take (count + 1))
      simp only [List.take_succ_cons, estimate_cons, List.length_cons, Nat.add_le_add_iff_right, Nat.add_lt_add_iff_right]
      split_ifs with hceiling htarget
      · have hover : ceiling < total + (messageEstimate est m + estimate est (older.take (count + 1))) := by omega
        rcases Nat.lt_or_ge count older.length with hlt | hge
        · simp [hlt, hover]
        · simp [hge]
      · have hfull : target ≤ total + (messageEstimate est m + estimate est (older.take count)) := by omega
        simp [hfull]
      · rw [Nat.add_comm 1, Nat.add_le_add_iff_right, ih (not_le.mp htarget)]
        simp only [add_assoc]

theorem le_tailBySize_iff {target ceiling : Int} {messages : List CanonicalMessage} {cut : Nat} (hcut : 0 < cut) :
    cut ≤ tailBySize est target ceiling messages ↔ cut < messages.length ∧
      (target ≤ estimate est (messages.drop cut) ∨ ceiling < estimate est (messages.drop (cut - 1))) := by
  rw [tailBySize]
  cases hreverse : messages.reverse with
  | nil =>
    rw [List.reverse_eq_nil_iff.mp hreverse]
    simp
    omega
  | cons m older =>
    have hmessages : messages = (m :: older).reverse := by rw [← hreverse, List.reverse_reverse]
    have hlength : messages.length = older.length + 1 := by rw [hmessages, List.length_reverse, List.length_cons]
    -- the messages after a cut are the newest ones
    have hdrop : ∀ count, count ≤ older.length →
        estimate est (messages.drop (older.length - count)) = messageEstimate est m + estimate est (older.take count) := by
      intro count _
      have hsub : older.length + 1 - (older.length - count) = count + 1 := by omega
      rw [hmessages, List.drop_reverse, estimate_reverse, List.length_cons, hsub, List.take_succ_cons, estimate_cons]
    rw [hlength]
    dsimp only
    rcases Nat.lt_or_ge older.length cut with _ | _
    · constructor
      · intro h
        omega
      · intro h
        omega
    · have hfirst := hdrop (older.length - cut) (Nat.sub_le _ _)
      have hsecond := hdrop (older.length - cut + 1) (by omega)
      have hat : older.length - (older.length - cut) = cut := by omega
      have hbefore : older.length - (older.length - cut + 1) = cut - 1 := by omega
      rw [hat] at hfirst
      rw [hbefore] at hsecond
      rw [hfirst, hsecond]
      split_ifs with htarget
      · have hrest := estimate_nonneg est (older.take (older.length - cut))
        constructor
        · intro _
          exact ⟨by omega, .inl (by omega)⟩
        · intro _
          omega
      · have hiff := @keptTail_le_iff est target ceiling _ (not_le.mp htarget) older (older.length - cut)
        constructor
        · intro h
          rcases hiff.mp (by omega) with _ | hfull | ⟨_, hover⟩
          · omega
          · exact ⟨by omega, .inl hfull⟩
          · exact ⟨by omega, .inr hover⟩
        · rintro ⟨_, h⟩
          have hle : keptTail est target ceiling (messageEstimate est m) older ≤ older.length - cut := by
            apply hiff.mpr
            rcases h with hfull | hover
            · exact .inr (.inl hfull)
            · exact .inr (.inr ⟨by omega, hover⟩)
          omega

end Tail

namespace PlanInput

theorem tailStart_pos_iff : 0 < i.tailStart est ↔ i.Divisible est := by
  have hle := tailBySize_le est (min retainedTail (i.tailCeiling est)) (i.tailCeiling est) i.post
  constructor
  · intro h
    have huncut := @Cuts.settle_uncut _ _ _ callIds answeredIds i.post _ _ hle le_rfl
    have hsettled := @Cuts.settle_le _ _ _ callIds answeredIds i.post
      (tailBySize est (min retainedTail (i.tailCeiling est)) (i.tailCeiling est) i.post)
      (tailBySize est (min retainedTail (i.tailCeiling est)) (i.tailCeiling est) i.post)
    obtain ⟨hlt, hsize⟩ := (le_tailBySize_iff h).mp hsettled
    exact ⟨i.tailStart est, h, hlt, huncut, hsize⟩
  · rintro ⟨_, hpos, hlt, huncut, hsize⟩
    exact hpos.trans_le (Cuts.le_settle ((le_tailBySize_iff hpos).mpr ⟨hlt, hsize⟩) hle huncut)

theorem delta_eq_nil_iff : i.delta est = [] ↔ ¬ 0 < i.tailStart est := by
  have hle := @tailStart_le est i
  rw [post_length] at hle
  rw [delta, List.take_eq_nil_iff, List.drop_eq_nil_iff]
  omega

theorem settlePlan_skipped (c : Compacted) : (i.settlePlan est c).compactionSkipped = c.skipped := by
  unfold settlePlan
  dsimp only
  split_ifs
  · rfl
  · split
    · rfl
    · split <;> rfl
  · split <;> rfl

theorem compaction_skipped : (i.compaction est).skipped = some .nothingOutsideTail ↔ i.delta est = [] := by
  unfold compaction
  dsimp only
  split_ifs with hdelta <;> simp [hdelta]

theorem planContext_forced (hforced : i.forced = true) (hfloor : i.floor est ≤ i.allowance) :
    planContext est i = i.settlePlan est (i.compaction est) := by
  have hbelow : ∀ messages, i.belowTrigger est messages = false := by
    intro _
    rw [belowTrigger, hforced]
    rfl
  rw [planContext, if_neg (not_lt.mpr hfloor), hbelow, hbelow]
  rfl

end PlanInput

/-- A compaction that was promised finds something outside the retained tail exactly where the messages can be divided. -/
theorem promise_kept_iff (est : Estimator) (i : PlanInput) (hforced : i.forced = true) (hfloor : i.floor est ≤ i.allowance)
    (_hpromised : hasCompactableHistory est i.sinceSummary = true) :
    (planContext est i).compactionSkipped ≠ some .nothingOutsideTail ↔ i.Divisible est := by
  rw [PlanInput.planContext_forced hforced hfloor, PlanInput.settlePlan_skipped, ne_eq, PlanInput.compaction_skipped,
    PlanInput.delta_eq_nil_iff, not_not, PlanInput.tailStart_pos_iff]

section Example

/-- `estimate_tokens`, where its headroom is a tenth. -/
def estimateTokens (text : String) : Nat :=
  let narrow := (text.toList.filter fun c => c.toNat < 128).length
  (((narrow + 2) / 3 + (text.length - narrow)) * 11 + 9) / 10

def byLength : Estimator where
  tokens := estimateTokens
  shown := fun _ => ""

def pasted : String := String.ofList (List.replicate 90000 'a')

theorem estimateTokens_replicate (n : Nat) : estimateTokens (String.ofList (List.replicate n 'a')) = ((n + 2) / 3 * 11 + 9) / 10 := by
  simp [estimateTokens]

theorem pasted_tokens : estimateTokens pasted = 33000 := estimateTokens_replicate 90000

/-- `/compact` on a talk of these messages. -/
def compacting (messages : List (Role × String)) : PlanInput where
  window := { contextWindow := 200000, reservedOutputTokens := 8000 }
  safetyRules := ""
  personality := ""
  history := messages.zipIdx.map fun e => ⟨e.2, e.2 + 1, spoken e.1.1 e.1.2⟩
  threshold := fun allowance => allowance / 2
  forced := true

theorem spoken_estimate (role : Role) (text : String) : messageEstimate byLength (spoken role text) = 4 + estimateTokens text := by
  have hblocks : messageEstimate byLength (spoken role text) = 4 + ((estimateTokens text : Int) + 0) := rfl
  rw [hblocks, add_zero]

theorem compacting_floor {messages : List (Role × String)} {r : Placed} (hrequest : (compacting messages).request = some r) :
    (compacting messages).floor byLength = 8 + messageEstimate byLength r.2 := by
  have hempty : byLength.tokens "" = 0 := (by decide : estimateTokens "" = 0)
  rw [PlanInput.floor, hrequest]
  simp [PlanInput.fixed, PlanInput.fixedWith, PlanInput.ownSummaries, PlanInput.ownMemories, compacting, summaryEstimate,
    memoryEstimate, segmentEstimate, schemaEstimate, messageOverhead, hempty]

theorem lone_delta (text : String) : (compacting [(.user, text)]).delta byLength = [] := by
  rw [PlanInput.delta_eq_nil_iff, PlanInput.tailStart_pos_iff]
  rintro ⟨_, _, hlt, _⟩
  have hlength : (compacting [(.user, text)]).history.length = 1 := rfl
  rw [PlanInput.post_length, hlength] at hlt
  omega

theorem lone_since (text : String) : estimate byLength (compacting [(.user, text)]).sinceSummary = 4 + estimateTokens text := by
  have hsum : estimate byLength (compacting [(.user, text)]).sinceSummary = messageEstimate byLength (spoken .user text) + 0 := rfl
  rw [hsum, add_zero, spoken_estimate]

/-- One message that was pasted in is promised a compaction, and is the whole retained tail. -/
theorem pasted_skipped : (compacting [(.user, pasted)]).floor byLength ≤ (compacting [(.user, pasted)]).allowance ∧
    hasCompactableHistory byLength (compacting [(.user, pasted)]).sinceSummary = true ∧
    (planContext byLength (compacting [(.user, pasted)])).compactionSkipped = some .nothingOutsideTail := by
  have hallowance : (compacting [(.user, pasted)]).allowance = 192000 := rfl
  have hfits : (compacting [(.user, pasted)]).floor byLength ≤ (compacting [(.user, pasted)]).allowance := by
    rw [@compacting_floor _ (0, spoken .user pasted) rfl, hallowance, spoken_estimate, pasted_tokens]
    decide
  refine ⟨hfits, ?_, ?_⟩
  · rw [hasCompactableHistory, lone_since, pasted_tokens]
    decide
  · rw [PlanInput.planContext_forced rfl hfits, PlanInput.settlePlan_skipped, PlanInput.compaction_skipped]
    exact lone_delta pasted

def talk (text : String) : PlanInput := compacting [(.user, "hello"), (.assistant, text), (.user, "what now")]

theorem talk_since (text : String) : estimate byLength (talk text).sinceSummary =
    messageEstimate byLength (spoken .user "hello") + (messageEstimate byLength (spoken .assistant text) +
      (messageEstimate byLength (spoken .user "what now") + 0)) := rfl

theorem talk_promise : (planContext byLength (talk pasted)).compactionSkipped ≠ some .nothingOutsideTail ↔
    (talk pasted).Divisible byLength := by
  have hallowance : (talk pasted).allowance = 192000 := rfl
  have hfits : (talk pasted).floor byLength ≤ (talk pasted).allowance := by
    rw [talk, @compacting_floor _ (2, spoken .user "what now") rfl, ← talk, hallowance, spoken_estimate]
    decide
  have hpromised : hasCompactableHistory byLength (talk pasted).sinceSummary = true := by
    rw [hasCompactableHistory, talk_since, spoken_estimate, spoken_estimate, spoken_estimate, pasted_tokens]
    decide
  exact promise_kept_iff byLength (talk pasted) rfl hfits hpromised

end Example

end TinyHermes.Runs.ContextBudget
