import TinyHermes.Lib.Table
import TinyHermes.Runs.ContextBudget

/-! Whether a table of segments can be served by a window, and what is advised when it cannot. -/
namespace TinyHermes.Runs.ContextBudget
open Lib

structure SegmentBudget where
  minTokens : Nat
  targetTokens : Option Nat
  deriving DecidableEq, Repr

abbrev Segments := Table SegmentName SegmentBudget

structure SegmentAdvice where
  segment : SegmentName
  asked : Nat
  suggested : Int
  deriving DecidableEq, Repr

structure BudgetFit where
  allowance : Int
  floor : Int
  asked : Int
  advice : List SegmentAdvice

def BudgetFit.floorFits (fit : BudgetFit) : Bool := fit.floor ≤ fit.allowance

def BudgetFit.targetsFit (fit : BudgetFit) : Bool := fit.asked ≤ fit.allowance

def floorOf (segments : Segments) : Int := (segments.entries.map fun e => (e.2.minTokens : Int)).sum

def askedOf (segments : Segments) : Int := (segments.entries.filterMap fun e => e.2.targetTokens.map fun target : Nat => (target : Int)).sum

def spanOf (segments : Segments) : Int :=
  askedOf segments - (segments.entries.filterMap fun e => e.2.targetTokens.map fun _ => (e.2.minTokens : Int)).sum

/-- What one segment would have to come down to; nothing where its target is low enough. -/
def advise (room span : Int) (segment : SegmentName) (budget : SegmentBudget) : Option SegmentAdvice :=
  budget.targetTokens.bind fun target =>
    let suggested := budget.minTokens + ((target - budget.minTokens : Int) * room).fdiv span
    if suggested < target then some { segment, asked := target, suggested } else none

def fitBudget (window : ContextWindow) (segments : Segments) : BudgetFit :=
  let allowance := window.inputAllowance
  let floor := floorOf segments
  let asked := askedOf segments
  if allowance < floor ∨ asked ≤ allowance then { allowance, floor, asked, advice := [] }
  else
    { allowance, floor, asked
      advice := segments.entries.filterMap fun e => advise (allowance - floor) (spanOf segments) e.1 e.2 }

def BudgetFit.followed (fit : BudgetFit) (segment : SegmentName) (target : Nat) : Int :=
  ((fit.advice.find? fun advice => advice.segment = segment).map (·.suggested)).getD target

def BudgetFit.total (fit : BudgetFit) (segments : Segments) : Int :=
  (segments.entries.filterMap fun e => e.2.targetTokens.map fun target => fit.followed e.1 target).sum

section Shares
variable {room span : Int} {segment : SegmentName} {budget : SegmentBudget}

/-- The part of the room above its minimum that a segment is left with. -/
def share (room span : Int) (minTokens target : Nat) : Int := ((target - minTokens : Int) * room).fdiv span

theorem advise_eq {target : Nat} (h : budget.targetTokens = some target) : advise room span segment budget =
    if budget.minTokens + share room span budget.minTokens target < target
    then some { segment, asked := target, suggested := budget.minTokens + share room span budget.minTokens target } else none := by
  rw [advise, h]
  rfl

theorem advise_segment {advice : SegmentAdvice} (h : advise room span segment budget = some advice) : advice.segment = segment := by
  obtain ⟨_, _, h⟩ := Option.bind_eq_some_iff.mp h
  dsimp only at h
  split_ifs at h
  rw [← Option.some.inj h]

theorem share_nonneg {minTokens target : Nat} (hroom : 0 ≤ room) (hspan : 0 < span) (hmin : minTokens ≤ target) :
    0 ≤ share room span minTokens target :=
  Int.fdiv_nonneg (mul_nonneg (by omega) hroom) hspan.le

theorem span_mul_share_le (room : Int) {minTokens target : Nat} (hspan : 0 < span) :
    span * share room span minTokens target ≤ room * (target - minTokens) := by
  rw [share, Int.fdiv_eq_ediv_of_nonneg _ hspan.le, mul_comm room]
  exact Int.mul_ediv_self_le hspan.ne'

theorem share_lt {minTokens target : Nat} (hroom : room < span) (hspan : 0 < span) (hmin : minTokens < target) :
    minTokens + share room span minTokens target < target := by
  have hle := @span_mul_share_le span room minTokens target hspan
  have hask : (0 : Int) < target - minTokens := by omega
  have hlt : span * share room span minTokens target < span * (target - minTokens) :=
    hle.trans_lt (mul_lt_mul_of_pos_right hroom hask)
  have := lt_of_mul_lt_mul_left hlt hspan.le
  omega

theorem share_min (minTokens : Nat) : share room span minTokens minTokens = 0 := by
  rw [share, sub_self, zero_mul, Int.zero_fdiv]

theorem advised {target : Nat} (hroom : room < span) (hspan : 0 < span) (h : budget.targetTokens = some target)
    (hmin : budget.minTokens ≤ target) :
    ((advise room span segment budget).map SegmentAdvice.suggested).getD target =
      budget.minTokens + share room span budget.minTokens target := by
  rw [advise_eq h]
  rcases hmin.lt_or_eq with hlt | rfl
  · rw [if_pos (share_lt hroom hspan hlt)]
    rfl
  · rw [share_min, add_zero, if_neg (lt_irrefl _)]
    rfl

theorem find_advice {entries : List (Sigma fun _ : SegmentName => SegmentBudget)} (hkeys : entries.NodupKeys)
    {e : Sigma fun _ : SegmentName => SegmentBudget} (he : e ∈ entries) :
    (entries.filterMap fun e => advise room span e.1 e.2).find? (fun advice => advice.segment = e.1) = advise room span e.1 e.2 := by
  induction entries with
  | nil => cases he
  | cons e' entries ih =>
    rw [List.nodupKeys_cons] at hkeys
    rcases List.mem_cons.mp he with rfl | hmem
    · have hrest : ∀ advice ∈ entries.filterMap fun e => advise room span e.1 e.2, ¬ decide (advice.segment = e.1) = true := by
        intro _ hadvice
        obtain ⟨e', he', hsome⟩ := List.mem_filterMap.mp hadvice
        rw [advise_segment hsome, decide_eq_true_eq]
        intro hsame
        exact hkeys.1 (hsame ▸ List.mem_map_of_mem he')
      cases hadvise : advise room span e.1 e.2 with
      | none =>
        simp only [List.filterMap_cons, hadvise]
        exact List.find?_eq_none.mpr hrest
      | some =>
        simp only [List.filterMap_cons, hadvise]
        exact List.find?_cons_of_pos (decide_eq_true (advise_segment hadvise))
    · have hne : e'.1 ≠ e.1 := by
        intro hsame
        exact hkeys.1 (hsame ▸ List.mem_map_of_mem hmem)
      cases hadvise : advise room span e'.1 e'.2 with
      | none =>
        simp only [List.filterMap_cons, hadvise]
        exact ih hkeys.2 hmem
      | some =>
        simp only [List.filterMap_cons, hadvise]
        rw [List.find?_cons_of_neg]
        · exact ih hkeys.2 hmem
        · rw [advise_segment hadvise, decide_eq_true_eq]
          exact hne

theorem sum_shares_le {α : Type} {followed asked least : α → Int} {rows : List α}
    (h : ∀ e ∈ rows, span * (followed e - least e) ≤ room * (asked e - least e)) :
    span * ((rows.map followed).sum - (rows.map least).sum) ≤ room * ((rows.map asked).sum - (rows.map least).sum) := by
  induction rows with
  | nil => simp
  | cons e rows ih =>
    have hrest := ih fun e' he' => h e' (List.mem_cons_of_mem _ he')
    have hfirst := h e List.mem_cons_self
    simp only [List.map_cons, List.sum_cons]
    calc span * (followed e + (rows.map followed).sum - (least e + (rows.map least).sum))
        = span * (followed e - least e) + span * ((rows.map followed).sum - (rows.map least).sum) := by ring
      _ ≤ room * (asked e - least e) + room * ((rows.map asked).sum - (rows.map least).sum) := add_le_add hfirst hrest
      _ = room * (asked e + (rows.map asked).sum - (least e + (rows.map least).sum)) := by ring

end Shares

section Following
variable {segments : Segments}

theorem sum_targeted (f : (Sigma fun _ : SegmentName => SegmentBudget) → Nat → Int) (rows : List (Sigma fun _ : SegmentName => SegmentBudget)) :
    (rows.filterMap fun e => e.2.targetTokens.map (f e)).sum = (rows.map fun e => (e.2.targetTokens.map (f e)).getD 0).sum := by
  induction rows with
  | nil => rfl
  | cons e rows ih =>
    cases htarget : e.2.targetTokens with
    | none => simp [htarget, ih]
    | some => simp [htarget, ih]

theorem targeted_le_floor (segments : Segments) :
    (segments.entries.filterMap fun e => e.2.targetTokens.map fun _ => (e.2.minTokens : Int)).sum ≤ floorOf segments := by
  rw [sum_targeted (fun e _ => (e.2.minTokens : Int)), floorOf]
  apply List.sum_le_sum
  intro e _
  cases e.2.targetTokens with
  | none => exact Int.natCast_nonneg _
  | some => exact le_rfl

/-- What is advised can be served: each suggestion lies between the minimum and the target, and all of them together are
within the allowance. -/
theorem fit_advice (window : ContextWindow) (segments : Segments)
    (hmin : ∀ e ∈ segments.entries, ∀ target, e.2.targetTokens = some target → e.2.minTokens ≤ target)
    (hfloor : floorOf segments ≤ window.inputAllowance) (hasked : window.inputAllowance < askedOf segments) :
    0 < spanOf segments ∧
      (∀ advice ∈ (fitBudget window segments).advice, ∃ budget, segments.lookup advice.segment = some budget ∧
        budget.targetTokens = some advice.asked ∧ budget.minTokens ≤ advice.suggested ∧ advice.suggested < advice.asked) ∧
      (fitBudget window segments).total segments ≤ window.inputAllowance := by
  have hleast := targeted_le_floor segments
  have hroom : 0 ≤ window.inputAllowance - floorOf segments := by omega
  have hspan : window.inputAllowance - floorOf segments < spanOf segments := by
    rw [spanOf]
    omega
  have hpositive : 0 < spanOf segments := by omega
  have hfit : (fitBudget window segments).advice =
      segments.entries.filterMap fun e => advise (window.inputAllowance - floorOf segments) (spanOf segments) e.1 e.2 := by
    rw [fitBudget, if_neg (by omega)]
  refine ⟨hpositive, ?_, ?_⟩
  · intro _ hadvice
    rw [hfit] at hadvice
    obtain ⟨e, he, hsome⟩ := List.mem_filterMap.mp hadvice
    obtain ⟨target, htarget, _⟩ := Option.bind_eq_some_iff.mp hsome
    have hsegment := advise_segment hsome
    rw [advise_eq htarget] at hsome
    split_ifs at hsome with hlt
    cases hsome
    have hshare := share_nonneg hroom hpositive (hmin e he target htarget)
    refine ⟨e.2, ?_, htarget, ?_, hlt⟩
    · exact AList.mem_lookup_iff.mpr he
    · exact le_add_of_nonneg_right hshare
  · have hfollowed : ∀ e ∈ segments.entries, ∀ target, e.2.targetTokens = some target →
        (fitBudget window segments).followed e.1 target =
          e.2.minTokens + share (window.inputAllowance - floorOf segments) (spanOf segments) e.2.minTokens target := by
      intro e he target htarget
      rw [BudgetFit.followed, hfit, find_advice segments.nodupKeys he]
      exact advised hspan hpositive htarget (hmin e he target htarget)
    have hrows : ∀ e ∈ segments.entries,
        spanOf segments * ((e.2.targetTokens.map fun target => (fitBudget window segments).followed e.1 target).getD 0 -
          (e.2.targetTokens.map fun _ => (e.2.minTokens : Int)).getD 0) ≤
        (window.inputAllowance - floorOf segments) * ((e.2.targetTokens.map fun target : Nat => (target : Int)).getD 0 -
          (e.2.targetTokens.map fun _ => (e.2.minTokens : Int)).getD 0) := by
      intro e he
      cases htarget : e.2.targetTokens with
      | none => simp
      | some target =>
        simp only [Option.map_some, Option.getD_some]
        rw [hfollowed e he target htarget, add_sub_cancel_left]
        exact span_mul_share_le _ hpositive
    have hsums := sum_shares_le hrows
    rw [← sum_targeted (fun e target => (fitBudget window segments).followed e.1 target),
      ← sum_targeted (fun e _ => (e.2.minTokens : Int)), ← sum_targeted (fun _ target => (target : Int))] at hsums
    rw [BudgetFit.total]
    have hshared := le_of_mul_le_mul_left (hsums.trans_eq (mul_comm _ (spanOf segments))) hpositive
    omega

def shortTable : Segments :=
  ((∅ : Segments).insert .safetyRules { minTokens := 512, targetTokens := some 1024 }).insert .toolSchemas
    { minTokens := 0, targetTokens := some 4096 } |>.insert .recentHistory { minTokens := 0, targetTokens := none }

def shortWindow : ContextWindow where
  contextWindow := 4096
  reservedOutputTokens := 1024

theorem fit_advice_short : 0 < spanOf shortTable ∧
    (∀ advice ∈ (fitBudget shortWindow shortTable).advice, ∃ budget, shortTable.lookup advice.segment = some budget ∧
      budget.targetTokens = some advice.asked ∧ budget.minTokens ≤ advice.suggested ∧ advice.suggested < advice.asked) ∧
    (fitBudget shortWindow shortTable).total shortTable ≤ 3072 := by
  refine fit_advice shortWindow shortTable ?_ (by decide) (by decide)
  have hall : ∀ e ∈ shortTable.entries, e.2.targetTokens.all (e.2.minTokens ≤ ·) = true := by decide
  intro e he _ htarget
  have h := hall e he
  rw [htarget] at h
  exact of_decide_eq_true h

end Following

end TinyHermes.Runs.ContextBudget
