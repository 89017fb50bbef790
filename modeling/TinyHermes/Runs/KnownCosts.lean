import TinyHermes.Runs.Calls

/-! What a tree of Runs has cost: a known total stays known as long as every record hands over what its calls cost, in whatever
order. -/
namespace TinyHermes.Runs.KnownCosts
open Lib Tx SqlRunStore Billing Calls
open Worker (costFrom ModelResponse)

def callsModel : Turn → Bool
  | .stop .. => false
  | _ => true

def callCost (phase : Phase) : Turn → Option Cost
  | .summaryAnswered response prices _ | .reviewAnswered response prices _ => some (priced response prices)
  | .lose _ _ prices _ =>
    match phase with
    | .answered response => costFrom response prices
    | _ => none
  | .record .. | .commit .. | .unchanged .. | .undo .. =>
    match phase with
    | .judged after response _ _ => costFrom response after.prices
    | _ => none
  | _ => none

def counts (currency : String) (cost : Cost) (budget : RunBudgetScopeRow) : Bool :=
  cost.amount.isSome && cost.currency = some currency &&
    (budget.costCurrency = none || budget.costCurrency = some currency)

def pricedCalls (currency : String) (w : Floor) : Act → Bool
  | .turn leaseId t =>
    !callsModel t || (w.slices.lookup leaseId).any fun slice =>
      (w.store.budgets.lookup slice.budgetRootRunId).any fun budget =>
        (callCost slice.phase t).any fun cost => counts currency cost budget
  | _ => true

/-- The records that are handed no price: every stop before a round, a checkpoint that found nothing changed, a
failed freeze and a rolled-back round. -/
def handsOver : Act → Bool
  | .turn _ (.stop ..) | .turn _ (.unchanged ..) | .turn _ (.undo ..) => false
  | _ => true

def billsTo (root : Uuid) (log : FloorHistory) : List Bill :=
  (log.filterMap (·.answer)).filter fun bill => bill.rootRunId = root

def amountOf (bill : Bill) : Int := (bill.cost.bind (·.amount)).getD 0

def total (root : Uuid) (log : FloorHistory) : Int := ((billsTo root log).map amountOf).sum

section Sums
variable {root : Uuid} {log : FloorHistory} {c : Commit Floor (Env × Act) (Option Bill)}

theorem billsTo_snoc (log : FloorHistory) (c : Commit Floor (Env × Act) (Option Bill)) :
    billsTo root (log ++ [c]) = billsTo root log ++ c.answer.toList.filter fun bill => bill.rootRunId = root := by
  cases hbill : c.answer <;> simp [billsTo, hbill]

theorem billsTo_quiet (h : ∀ bill, c.answer = some bill → bill.rootRunId ≠ root) :
    billsTo root (log ++ [c]) = billsTo root log := by
  rw [billsTo_snoc]
  cases hbill : c.answer with
  | none => simp
  | some bill => simp [h bill hbill]

theorem total_billed {bill : Bill} (h : c.answer = some bill) (hroot : bill.rootRunId = root) :
    total root (log ++ [c]) = total root log + amountOf bill := by
  rw [total, billsTo_snoc, h]
  simp [hroot, total]

end Sums

section Turns
variable {now : Time} {s : Store} {slice : Slice} {from_ phase : Phase} {t : Turn} {n : Nat} {cost : Option Cost}

theorem took_cost (h : Took now s slice from_ t phase (some (n, cost))) {leaseId : Uuid}
    (hhands : handsOver (.turn leaseId t) = true) : cost = callCost from_ t ∧ callsModel t = true := by
  cases h with
  | summaryAnswered => exact ⟨rfl, rfl⟩
  | stopped => cases hhands
  | lost => exact ⟨rfl, rfl⟩
  | recorded => exact ⟨rfl, rfl⟩
  | committed => exact ⟨rfl, rfl⟩
  | unchanged => cases hhands
  | undone => cases hhands
  | reviewed => exact ⟨rfl, rfl⟩

def Known (spent : Int) (b : RunBudgetScopeRow) : Prop := b.consumedCost = some spent ∧ b.costQuality ≠ .unknown

theorem charge_known {bill : Bill} {b : RunBudgetScopeRow} {spent : Int} {currency : String} {cost : Cost}
    (hknown : Known spent b) (hcost : bill.cost = some cost) (hcounts : counts currency cost b = true) :
    Known (spent + amountOf bill) (bill.charge b) := by
  obtain ⟨hconsumed, hquality⟩ := hknown
  simp only [counts, Bool.and_eq_true, Bool.or_eq_true, decide_eq_true_eq] at hcounts
  obtain ⟨⟨hamount, hcurrency⟩, hscope⟩ := hcounts
  obtain ⟨amount, hamount⟩ := Option.isSome_iff_exists.mp hamount
  have hsame : b.costCurrency.or (some currency) = some currency := by
    rcases hscope with hnone | hsome
    · rw [hnone]
      rfl
    · rw [hsome]
      rfl
  have hfilter : (some cost).filter (fun c => c.amount.isSome) = some cost := by simp [hamount]
  simp only [Known, Bill.charge, amountOf, accumulateCost, hquality, if_false, hcost, hfilter, Cost.plus, hconsumed,
    hamount, hcurrency, hsame, if_true, Option.getD_some, Option.bind_some]
  refine ⟨trivial, ?_⟩
  split_ifs <;> nofun

end Turns

section Runs
variable {env : Env} {w w' : Floor} {root : Uuid} {currency : String} {log : FloorHistory}

/-- A scope is its Run's, nothing is billed before it is opened, and its total is the sum of its bills. -/
structure Tallied (root : Uuid) (log : FloorHistory) (w : Floor) : Prop where
  owned : (w.store.budgets.lookup root).isSome = true → (kinOf w.store root).isSome = true
  unbilled : w.store.budgets.lookup root = none → billsTo root log = []
  known : ∀ b, w.store.budgets.lookup root = some b → Known (total root log) b

theorem Tallied.still {c : Commit Floor (Env × Act) (Option Bill)} (h : Tallied root log w)
    (hkin : ∀ id k, kinOf w.store id = some k → kinOf w'.store id = some k)
    (hbudgets : w'.store.budgets.lookup root = w.store.budgets.lookup root)
    (hquiet : ∀ bill, c.answer = some bill → bill.rootRunId ≠ root) : Tallied root (log ++ [c]) w' := by
  refine ⟨fun hscope => ?_, fun hnone => ?_, fun b hb => ?_⟩
  · rw [hbudgets] at hscope
    obtain ⟨k, hk⟩ := Option.isSome_iff_exists.mp (h.owned hscope)
    exact Option.isSome_of_eq_some (hkin root k hk)
  · rw [hbudgets] at hnone
    rw [billsTo_quiet hquiet]
    exact h.unbilled hnone
  · rw [hbudgets] at hb
    rw [total, billsTo_quiet hquiet]
    exact h.known b hb

theorem beside_cost {op : Op} {a : Answer} {s s' : Store} (hop : besideCalls op = true)
    (h : exec env op s = .ok (a, s')) :
    (∃ f : RunBudgetScopeRow → RunBudgetScopeRow, s'.budgets.lookup root = (s.budgets.lookup root).map f ∧
        ∀ b spent, Known spent b → Known spent (f b)) ∨
      (kinOf s root = none ∧ (kinOf s' root).isSome = true ∧ ∃ b, s'.budgets.lookup root = some b ∧ Known 0 b) := by
  have hsame : (∃ f : RunBudgetScopeRow → RunBudgetScopeRow, s.budgets.lookup root = (s.budgets.lookup root).map f ∧
      ∀ b spent, Known spent b → Known spent (f b)) := ⟨fun b => b, Option.map_id'.symm, fun _ _ hk => hk⟩
  have hmodified {key : Uuid} {f : RunBudgetScopeRow → RunBudgetScopeRow} (hbudgets : s'.budgets = s.budgets.modify key f)
      (hf : ∀ b spent, Known spent b → Known spent (f b)) :
      ∃ f : RunBudgetScopeRow → RunBudgetScopeRow, s'.budgets.lookup root = (s.budgets.lookup root).map f ∧
        ∀ b spent, Known spent b → Known spent (f b) := by
    rw [hbudgets, Table.lookup_modify]
    split
    · exact ⟨f, rfl, hf⟩
    · exact hsame
  by_cases hopens : ∃ cmd runId, op = .acceptRun cmd runId
  · obtain ⟨cmd, runId, rfl⟩ := hopens
    obtain ⟨_, s₁, hrun, hpure⟩ := bind_ok.mp h
    obtain ⟨rfl, rfl⟩ := pure_ok.mp hpure
    rcases acceptRun_bills hrun with hplain | ⟨hjoined, _, _, hbudgets⟩
    · rw [hplain.budgets]
      exact .inl hsame
    · by_cases hid : root = runId
      · subst hid
        have hborn : (kinOf s₁ root).isSome = true := by
          rw [hjoined.2, if_pos rfl]
          rfl
        have hscope := congrArg (fun t : Table Uuid RunBudgetScopeRow => t.lookup root) hbudgets
        exact .inr ⟨hjoined.1, hborn, _, hscope.trans (AList.lookup_insert _), rfl, nofun⟩
      · rw [hbudgets, AList.lookup_insert_ne hid]
        exact .inl hsame
  · have hbills := exec_bills h
    generalize hb : s'.budgets = budgets at hbills
    cases hbills with
    | nothing => exact .inl hsame
    | @opened cmd runId => exact absurd ⟨cmd, runId, rfl⟩ hopens
    | retried => exact .inl (hb ▸ hmodified hb fun _ _ hk => hk)
    | reserved => exact .inl (hb ▸ hmodified hb fun _ _ hk => hk)
    | recorded hcmd =>
      cases op with
      | recordSlice => cases hop
      | recordRound => cases hop
      | commitCheckpoint => cases hop
      | _ => cases hcmd
    | widened => exact .inl (hb ▸ hmodified hb fun _ _ hk => hk)

theorem beside_tallied {op : Op} {c : Commit Floor (Env × Act) (Option Bill)} (htallied : Tallied root log w)
    (hop : besideCalls op = true) (h : ∃ a, exec env op w.store = .ok (a, w'.store)) (hanswer : c.answer = none) :
    Tallied root (log ++ [c]) w' := by
  obtain ⟨_, h⟩ := h
  have hquiet : ∀ bill, c.answer = some bill → bill.rootRunId ≠ root := by
    intro _ hbill
    rw [hanswer] at hbill
    cases hbill
  rcases beside_cost hop h with ⟨_, hbudgets, hf⟩ | ⟨hnew, hborn, b, hb, hknown⟩
  · refine ⟨fun hscope => ?_, fun hnone => ?_, fun b hb => ?_⟩
    · rw [hbudgets, Option.isSome_map] at hscope
      obtain ⟨_, hk⟩ := Option.isSome_iff_exists.mp (htallied.owned hscope)
      exact Option.isSome_of_eq_some (exec_remembers h hk)
    · rw [hbudgets, Option.map_eq_none_iff] at hnone
      rw [billsTo_quiet hquiet]
      exact htallied.unbilled hnone
    · rw [hbudgets] at hb
      obtain ⟨b₀, hb₀, rfl⟩ := Option.map_eq_some_iff.mp hb
      rw [total, billsTo_quiet hquiet]
      exact hf b₀ _ (htallied.known b₀ hb₀)
  · -- the scope is opened now: its Run is new, so that there was none, and nothing was billed to it
    have hnone : w.store.budgets.lookup root = none := by
      by_contra hscope
      have howner := htallied.owned (Option.ne_none_iff_isSome.mp hscope)
      rw [hnew] at howner
      cases howner
    have hbills : billsTo root (log ++ [c]) = [] := by
      rw [billsTo_quiet hquiet]
      exact htallied.unbilled hnone
    refine ⟨fun _ => hborn, fun hgone => ?_, fun b' hb' => ?_⟩
    · rw [hb] at hgone
      cases hgone
    · cases hb.symm.trans hb'
      rw [total, hbills]
      exact hknown

theorem turn_tallied {leaseId : Uuid} {t : Turn} {bill : Option Bill} (htallied : Tallied root log w)
    (hscoped : Scoped w) (h : act env (.turn leaseId t) w = .ok (bill, w'))
    (hpriced : ∀ b, bill = some b → b.rootRunId = root → pricedCalls currency w (.turn leaseId t) = true)
    (hhands : ∀ b, bill = some b → b.rootRunId = root → handsOver (.turn leaseId t) = true) :
    Tallied root (log ++ [⟨w, (env, .turn leaseId t), bill, w'⟩]) w' := by
  have hkin := act_remembers hscoped h
  obtain ⟨slice, _, _, hslice, hturn, hrun, _⟩ := turn_ok h
  obtain ⟨htook, hcharged⟩ := turn_took (hscoped leaseId slice hslice) hturn hrun
  cases bill with
  | none => exact htallied.still hkin (by rw [hcharged.quiet rfl]) nofun
  | some bill =>
    obtain ⟨hroot, hscope, hbudgets, _⟩ := hcharged.billed bill rfl
    by_cases hmine : slice.budgetRootRunId = root
    case neg =>
      refine htallied.still hkin ?_ fun b hb => ?_
      · rw [hbudgets, Table.lookup_modify_of_ne (Ne.symm hmine)]
      · cases hb
        rw [hroot]
        exact hmine
    subst hmine
    obtain ⟨row, hrow⟩ := Option.isSome_iff_exists.mp hscope
    have hhanded := hhands bill rfl hroot
    obtain ⟨hcost, hcalls⟩ := took_cost htook hhanded
    have hcounted := hpriced bill rfl hroot
    simp only [pricedCalls, hcalls, hslice, hrow, Bool.not_true, Bool.false_or, Option.any_some] at hcounted
    obtain ⟨_, hcallCost, hcounts⟩ := (Option.any_eq_true _ _).mp hcounted
    rw [hcallCost] at hcost
    refine ⟨fun _ => ?_, fun hgone => ?_, fun b hb => ?_⟩
    · obtain ⟨k, hk⟩ := Option.isSome_iff_exists.mp (htallied.owned hscope)
      exact Option.isSome_of_eq_some (hkin _ k hk)
    · rw [hbudgets, Table.lookup_modify_self, hrow] at hgone
      cases hgone
    · rw [hbudgets, Table.lookup_modify_self, hrow] at hb
      cases hb
      rw [total_billed rfl hroot]
      exact charge_known (htallied.known row hrow) hcost hcounts

/-- In every run in which each record to a scope hands over the cost of its calls, and each of these is known
and in the scope's currency, the scope's total is known and is the sum of what was recorded. -/
theorem cost_stays_known (h : FloorExecutes log w)
    (hpriced : ∀ c ∈ log, ∀ bill, c.answer = some bill → bill.rootRunId = root →
      pricedCalls currency c.before c.input.2 = true)
    (hhands : ∀ c ∈ log, ∀ bill, c.answer = some bill → bill.rootRunId = root → handsOver c.input.2 = true)
    (budget : RunBudgetScopeRow) (hbudget : w.store.budgets.lookup root = some budget) :
    budget.consumedCost = some (total root log) ∧ budget.costQuality ≠ .unknown := by
  have htallied : Tallied root log w := by
    clear hbudget
    induction h with
    | nil => exact ⟨nofun, fun _ => rfl, fun _ hb => (nomatch hb)⟩
    | @snoc log w w' i bill hrun hstep ih =>
      have hscoped := executes_scoped hrun
      have hbefore := ih (fun c hc => hpriced c (List.mem_append_left _ hc))
        (fun c hc => hhands c (List.mem_append_left _ hc))
      have hlast : (⟨w, i, bill, w'⟩ : Commit Floor (Env × Act) (Option Bill)) ∈ log ++ [⟨w, i, bill, w'⟩] :=
        List.mem_append_right _ (List.mem_singleton_self _)
      obtain ⟨_, a⟩ := i
      cases a with
      | beside =>
        obtain ⟨hop, hanswer, _, hexec⟩ := beside_ok hstep
        exact beside_tallied hbefore hop hexec hanswer
      | claim =>
        have hkin := act_remembers hscoped hstep
        obtain ⟨rfl, ⟨hnone, _⟩ | ⟨_, _, hclaim, _⟩⟩ := claim_ok hstep
        · exact hbefore.still hkin (by rw [(claimHead_plain hnone).budgets]) nofun
        · exact hbefore.still hkin (by rw [(claimHead_plain hclaim).budgets]) nofun
      | turn => exact turn_tallied hbefore hscoped hstep (hpriced _ hlast) (hhands _ hlast)
      | crash =>
        have hkin := act_remembers hscoped hstep
        obtain ⟨rfl, rfl⟩ := crash_ok hstep
        exact hbefore.still hkin rfl nofun
  exact htallied.known budget hbudget

end Runs

section Example
open Worker (ExecutionContext)

def pricedContext : ExecutionContext where
  budget := newBudget {} 0 (none, none)
  prices := some { currency := "USD", inputPerMillion := 1000000, outputPerMillion := 2000000 }

def said (stopReason : Worker.StopReason) : ModelResponse :=
  { stopReason, inputTokens := some 10, outputTokens := some 5 }

def pricedRound (planning : List Turn) (outcome : SlicePolicy.GoalOutcome) : List Turn :=
  [.read pricedContext] ++ planning ++
    [.ask, .reply (fun _ => none) (said .continue_), .judge pricedContext { verdict := { outcome } } 0,
      .record plainRound true]

def acts (turns : List Turn) : List (Env × Act) := (oneClaimed ++ turns.map (Act.turn 5)).map fun a => (clock 0, a)

def overflows : List (Env × Act) :=
  acts (pricedRound [.plan 10] .continue_ ++ [.read pricedContext, .plan 10, .stop .contextOverflow plainRound true])

/-- The only call there was had a price, and yet the total is unknown once the Run paused on its context. -/
theorem overflow_forgets_cost : ∃ log w, FloorExecutes log w ∧
    (∀ c ∈ log, ∀ bill, c.answer = some bill → bill.rootRunId = 3 → pricedCalls "USD" c.before c.input.2 = true) ∧
    ∃ budget, w.store.budgets.lookup 3 = some budget ∧ budget.consumedCost = none := by
  refine ⟨_, _, attemptActs_executes overflows, fun c hc bill hbill _ => ?_, ?_⟩
  · have hall : (attemptActs overflows).1.all
        (fun c => c.answer.isNone || pricedCalls "USD" c.before c.input.2) = true := by decide +kernel
    have hcall := List.all_eq_true.mp hall c hc
    rw [hbill] at hcall
    exact hcall
  · have hscope : ((attemptActs overflows).2.store.budgets.lookup 3).any (fun b => b.consumedCost.isNone) = true := by
      decide +kernel
    obtain ⟨budget, hbudget, hnone⟩ := (Option.any_eq_true _ _).mp hscope
    exact ⟨budget, hbudget, Option.isNone_iff_eq_none.mp hnone⟩

def summarizes : List (Env × Act) :=
  acts (pricedRound [.plan 10] .continue_ ++
    pricedRound
      [.askSummary 10, .summaryAnswered (said .completed) pricedContext.prices { eventType := .contextSummaryBilled }]
      .done)

theorem summarizes_known : ∃ budget, (attemptActs summarizes).2.store.budgets.lookup 3 = some budget ∧
    budget.consumedCost = some (total 3 (attemptActs summarizes).1) ∧ budget.costQuality ≠ .unknown := by
  have hscope : ((attemptActs summarizes).2.store.budgets.lookup 3).isSome = true := by decide +kernel
  have hall : (attemptActs summarizes).1.all
      (fun c => c.answer.isNone || (pricedCalls "USD" c.before c.input.2 && handsOver c.input.2)) = true := by
    decide +kernel
  have hcall {c : Commit Floor (Env × Act) (Option Bill)} {bill : Bill} (hc : c ∈ (attemptActs summarizes).1)
      (hbill : c.answer = some bill) :
      pricedCalls "USD" c.before c.input.2 = true ∧ handsOver c.input.2 = true := by
    have hcommit := List.all_eq_true.mp hall c hc
    rw [hbill] at hcommit
    exact Bool.and_eq_true_iff.mp hcommit
  obtain ⟨budget, hbudget⟩ := Option.isSome_iff_exists.mp hscope
  exact ⟨budget, hbudget, cost_stays_known (attemptActs_executes _) (fun c hc bill hbill _ => (hcall hc hbill).1)
    (fun c hc bill hbill _ => (hcall hc hbill).2) budget hbudget⟩

end Example

end TinyHermes.Runs.KnownCosts
