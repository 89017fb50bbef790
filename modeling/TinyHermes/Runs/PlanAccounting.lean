import TinyHermes.Runs.ContextBudget

/-! What a plan says it costs is what it costs, counted again from what it sends. -/
namespace TinyHermes.Runs.ContextBudget
variable {est : Estimator} {i : PlanInput}

def PlanInput.sentCost (est : Estimator) (i : PlanInput) (p : ContextPlan) : Int :=
  est.tokens i.safetyRules + est.tokens i.personality + schemaEstimate est i.toolSchemas +
    segmentEstimate est p.skillSummaries + segmentEstimate est p.memories + messageOverhead * 2 + estimate est p.messages

section Replacements
variable {f : Block → Option Replacement}

def Exact (est : Estimator) (f : Block → Option Replacement) : Prop :=
  ∀ b r, f b = some r → r.freed = blockEstimate est b - blockEstimate est r.block

theorem replaceResult_exact {result shorter : ToolResultBlock} {r : Replacement}
    (h : replaceResult est result shorter = some r) :
    r.freed = blockEstimate est (.toolResult result) - blockEstimate est r.block := by
  rw [replaceResult] at h
  split_ifs at h
  cases h
  rfl

theorem rescueBlock_exact (est : Estimator) (t : Trimming) (exemptPass : Bool) : Exact est (rescueBlock est t exemptPass) := by
  intro b _ h
  cases b with
  | toolResult =>
    rw [rescueBlock] at h
    split_ifs at h
    exact replaceResult_exact h
  | text | reasoning | image | file | toolCall => cases h

theorem foldl_add_freed (rs : List Replacement) (t : Tally) :
    (rs.foldl Tally.add t).freed = t.freed + (rs.map (·.freed)).sum := by
  induction rs generalizing t with
  | nil => simp
  | cons r rs ih =>
    have hadd : (t.add r).freed = t.freed + r.freed := rfl
    rw [List.foldl_cons, ih, List.map_cons, List.sum_cons]
    omega

theorem blocks_estimate (hf : Exact est f) (blocks : List Block) :
    ((blocks.map fun b => ((f b).map (·.block)).getD b).map (blockEstimate est)).sum +
      ((blocks.filterMap f).map (·.freed)).sum = (blocks.map (blockEstimate est)).sum := by
  induction blocks with
  | nil => rfl
  | cons b =>
    simp only [List.map_cons, List.sum_cons]
    cases h : f b with
    | none =>
      rw [List.filterMap_cons_none h, Option.map_none, Option.getD_none]
      omega
    | some r =>
      rw [List.filterMap_cons_some h, Option.map_some, Option.getD_some, List.map_cons, List.sum_cons, hf b r h]
      omega

theorem rewriteBlocks_estimate (hf : Exact est f) (m : CanonicalMessage) (t : Tally) :
    messageEstimate est (rewriteBlocks f m) + (tallyBlocks f m t).freed = messageEstimate est m + t.freed := by
  have hblocks := blocks_estimate hf m.blocks
  have hrewritten : (rewriteBlocks f m).blocks = m.blocks.map fun b => ((f b).map (·.block)).getD b := rfl
  rw [tallyBlocks, foldl_add_freed, messageEstimate, messageEstimate, hrewritten]
  omega

end Replacements

theorem estimate_cons (m : CanonicalMessage) (rest : List CanonicalMessage) :
    estimate est (m :: rest) = messageEstimate est m + estimate est rest := by
  rw [estimate, estimate, List.map_cons, List.sum_cons]

theorem estimate_append (front back : List CanonicalMessage) :
    estimate est (front ++ back) = estimate est front + estimate est back := by
  rw [estimate, List.map_append, List.sum_append, estimate, estimate]

theorem rescuePass_estimate (est : Estimator) (t : Trimming) (exemptPass : Bool) (spent allowance : Int) (messages : List CanonicalMessage)
    (tally : Tally) :
    estimate est (rescuePass est t exemptPass spent allowance messages tally).1 +
      (rescuePass est t exemptPass spent allowance messages tally).2.freed = estimate est messages + tally.freed := by
  induction messages generalizing tally with
  | nil => rfl
  | cons m rest ih =>
    rw [rescuePass]
    split_ifs
    · rfl
    · have hrest := ih tally
      dsimp only
      rw [estimate_cons, estimate_cons]
      omega
    · have hrest := ih (tallyBlocks (rescueBlock est t exemptPass) m tally)
      have hm := rewriteBlocks_estimate (rescueBlock_exact est t exemptPass) m tally
      dsimp only
      rw [estimate_cons, estimate_cons]
      omega

theorem rescue_accounts {t : Trimming} {view rescued : List CanonicalMessage} {spent allowance left : Int}
    {record : TrimRecord} (h : rescue est t view spent allowance = some (rescued, left, record)) :
    left ≤ allowance ∧ estimate est rescued - estimate est view = left - spent := by
  have hfirst := rescuePass_estimate est t false spent allowance view {}
  have hnone : ({} : Tally).freed = 0 := rfl
  rw [rescue] at h
  dsimp only at h
  generalize rescuePass est t false spent allowance view {} = first at h hfirst
  have hsecond := rescuePass_estimate est t true spent allowance first.1 first.2
  generalize rescuePass est t true spent allowance first.1 first.2 = second at h hsecond
  split_ifs at h with hfull
  cases h
  rw [not_or] at hfull
  constructor
  · omega
  · omega

section Segments

theorem dropUnhit_none {ceiling : Int} {earlier later : List SkillSummary} (h : (dropUnhit est ceiling earlier later).2 = []) :
    (dropUnhit est ceiling earlier later).1 = earlier.reverse ++ later := by
  induction earlier generalizing later with
  | nil => rfl
  | cons s earlier ih =>
    have hlist : (s :: earlier).reverse ++ later = earlier.reverse ++ s :: later := by
      rw [List.reverse_cons, List.append_assoc, List.singleton_append]
    rw [dropUnhit] at h ⊢
    split_ifs at h ⊢
    · exact hlist.symm
    · rw [ih h, hlist]

theorem dropUnhitSummaries_none {ceiling : Int} {kept : List SkillSummary} (h : (dropUnhitSummaries est ceiling kept).2 = none) :
    (dropUnhitSummaries est ceiling kept).1 = kept := by
  rw [dropUnhitSummaries] at h ⊢
  dsimp only at h ⊢
  split_ifs at h with hnone
  rw [dropUnhit_none hnone, List.reverse_reverse, List.append_nil]

theorem popMemories_none {ceiling : Int} {memories : List String} (h : (popMemories est ceiling memories).2 = []) :
    (popMemories est ceiling memories).1 = memories.reverse := by
  cases memories with
  | nil => rfl
  | cons =>
    rw [popMemories] at h ⊢
    split_ifs at h ⊢
    rfl

theorem trimMemories_none {ceiling : Int} {kept : List String} (h : (trimMemories est ceiling kept).2 = none) :
    (trimMemories est ceiling kept).1 = kept := by
  rw [trimMemories] at h ⊢
  dsimp only at h ⊢
  split_ifs at h with hnone
  rw [popMemories_none hnone, List.reverse_reverse]

end Segments

namespace PlanInput

theorem sentCost_eq {p : ContextPlan} {kept : List SkillSummary} (hkept : p.skillSummaries = kept.map (·.text)) :
    i.sentCost est p = i.fixedWith est kept p.memories + estimate est p.messages := by
  rw [sentCost, fixedWith, summaryEstimate, memoryEstimate, hkept]

theorem freed_of_record {α : Type} (cost : α → Int) {kept left : α} {record : Option TrimRecord}
    (h : record = none → left = kept) : (if record.isSome then cost kept - cost left else 0) = cost kept - cost left := by
  cases record with
  | none =>
    rw [h rfl]
    exact (Int.sub_self (cost kept)).symm
  | some => rfl

theorem kept_unless {α : Type} {p : Prop} [Decidable p] {asked : α × Option TrimRecord} {kept : α}
    (h : asked.2 = none → asked.1 = kept) :
    (if p then asked else (kept, none)).2 = none → (if p then asked else (kept, none)).1 = kept := by
  split_ifs
  · exact h
  · intro _
    rfl

theorem squeeze_freed (spent : Int) :
    i.fixedWith est (i.squeeze est spent).summaries (i.squeeze est spent).memories =
      i.fixed est - (i.squeeze est spent).freed := by
  rw [squeeze]
  dsimp only
  rw [freed_of_record (summaryEstimate est), freed_of_record (memoryEstimate est), fixedWith, fixed, fixedWith]
  · omega
  · exact kept_unless trimMemories_none
  · exact kept_unless dropUnhitSummaries_none

theorem compaction_spent : (i.compaction est).spent = i.spentOn est (i.compaction est).view := by
  rw [compaction]
  dsimp only
  split_ifs <;> rfl

theorem own_accounts {p : ContextPlan} (hsummaries : p.skillSummaries = (i.ownSummaries est).1.map (·.text))
    (hmemories : p.memories = (i.ownMemories est).1) : i.sentCost est p = i.spentOn est p.messages := by
  rw [sentCost_eq hsummaries, hmemories]
  rfl

theorem squeezed_accounts {p : ContextPlan} {spent : Int}
    (hsummaries : p.skillSummaries = (i.squeeze est spent).summaries.map (·.text))
    (hmemories : p.memories = (i.squeeze est spent).memories) :
    i.sentCost est p = i.spentOn est p.messages - (i.squeeze est spent).freed := by
  rw [sentCost_eq hsummaries, hmemories, squeeze_freed, spentOn]
  omega

theorem Settles.accounts {c : Compacted} {p : ContextPlan} (hc : c.spent = i.spentOn est c.view) (h : i.Settles est c p) :
    p.inputEstimate ≤ i.allowance ∧ p.inputEstimate = i.spentOn est p.messages - (i.squeeze est c.spent).freed := by
  cases h with
  | asItIs hview hspent hfits =>
    rw [hview, ← hc]
    exact ⟨hfits, hspent⟩
  | rescued _ hrescue =>
    obtain ⟨hfits, hfreed⟩ := rescue_accounts hrescue
    rw [spentOn] at hc ⊢
    exact ⟨hfits, by omega⟩
  | rescuedUncompacted _ hrescue =>
    obtain ⟨hfits, hfreed⟩ := rescue_accounts hrescue
    rw [spentOn] at hfreed ⊢
    exact ⟨hfits, by omega⟩

end PlanInput

/-- A plan that fits is within the allowance, and its estimate is the cost of what it sends. -/
theorem planContext_accounts (est : Estimator) (i : PlanInput) (h : (planContext est i).fits = true) :
    (planContext est i).inputEstimate ≤ i.window.inputAllowance ∧
      (planContext est i).inputEstimate = i.sentCost est (planContext est i) := by
  cases planContext_sends h with
  | untouched _ hspent hfits hsummaries hmemories =>
    exact ⟨hfits, hspent.trans (PlanInput.own_accounts hsummaries hmemories).symm⟩
  | cleaned _ hspent hfits hsummaries hmemories =>
    exact ⟨hfits, hspent.trans (PlanInput.own_accounts hsummaries hmemories).symm⟩
  | settled hsettles hsummaries hmemories =>
    obtain ⟨hfits, hspent⟩ := hsettles.accounts PlanInput.compaction_spent
    exact ⟨hfits, hspent.trans (PlanInput.squeezed_accounts hsummaries hmemories).symm⟩

def spoken (role : Role) (text : String) : CanonicalMessage where
  role := role
  blocks := [.text text]
  blocks_ne := by simp

def oneLong : Estimator where
  tokens := fun text => if text = "long" then 3000 else 1
  shown := fun _ => ""

def longTalk : PlanInput where
  window := { contextWindow := 4000, reservedOutputTokens := 0 }
  safetyRules := "rules"
  personality := "you"
  history := [⟨0, 1, spoken .user "long"⟩, ⟨1, 2, spoken .assistant "yes"⟩, ⟨2, 3, spoken .user "what now"⟩]
  skillSummaries := [{ name := "a", text := "skill a" }]
  memories := ["fact"]
  threshold := fun allowance => allowance / 2

theorem longTalk_accounts :
    (planContext oneLong longTalk).inputEstimate ≤ longTalk.window.inputAllowance ∧
      (planContext oneLong longTalk).inputEstimate = longTalk.sentCost oneLong (planContext oneLong longTalk) :=
  planContext_accounts oneLong longTalk (by decide +kernel)

end TinyHermes.Runs.ContextBudget
