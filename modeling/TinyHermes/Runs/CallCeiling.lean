import TinyHermes.Runs.BudgetScopes
import TinyHermes.Runs.Calls

/-! The model-call ceiling of a Run that shares its budget with no other: what a round may still ask for, and what is recorded
against it. -/
namespace TinyHermes.Runs.CallCeiling
open Lib Tx SqlRunStore Billing Calls
open Worker (ModelResponse Recovery callsOf receive_again receive_settles budgetAfter_room sideCallAllowed_room)

/-- The scope of `root` belongs to one Run only. -/
def Alone (s : Store) (root : Uuid) : Prop := ∀ id k, kinOf s id = some k → k.root = root → id = root

/-- A round asks again only while the calls it made since its budget was read leave one more under the ceiling it read; a call
outside a round is billed by no slice whose Run was claimed again. -/
def roomLeft (w : Floor) : Act → Bool
  | .turn leaseId (.reply routes response) =>
    match (w.slices.lookup leaseId).map Slice.phase with
    | some (.asking recovery inputEstimate billed) =>
      (recovery.receive routes inputEstimate response).isRight ||
        recovery.context.budget.consumedModelCalls + billed + recovery.made + response.modelCalls <
          recovery.context.budget.maxModelCalls
    | _ => true
  | .turn leaseId t =>
    !t.aside || (w.slices.lookup leaseId).any fun slice => (w.store.leases.lookup slice.runId).any (·.id = leaseId)
  | _ => true

def Affords (b : RunBudgetScopeRow) : Phase → Prop
  | .boundary => b.consumedModelCalls < b.maxModelCalls
  | .planning context =>
    b.consumedModelCalls = context.budget.consumedModelCalls ∧
      context.budget.consumedModelCalls < context.budget.maxModelCalls ∧ context.budget.maxModelCalls ≤ b.maxModelCalls
  | .summarizing context _ =>
    b.consumedModelCalls = context.budget.consumedModelCalls ∧
      context.budget.consumedModelCalls + 1 < context.budget.maxModelCalls ∧
      context.budget.maxModelCalls ≤ b.maxModelCalls
  | .planned context _ billed =>
    b.consumedModelCalls = context.budget.consumedModelCalls + billed ∧
      context.budget.consumedModelCalls + billed < context.budget.maxModelCalls ∧
      context.budget.maxModelCalls ≤ b.maxModelCalls
  | .asking recovery _ billed =>
    b.consumedModelCalls = recovery.context.budget.consumedModelCalls + billed ∧
      recovery.context.budget.consumedModelCalls + billed + recovery.made < recovery.context.budget.maxModelCalls ∧
      recovery.context.budget.maxModelCalls ≤ b.maxModelCalls
  | .answered response => b.consumedModelCalls + response.modelCalls ≤ b.maxModelCalls
  | .judged _ response _ decision =>
    b.consumedModelCalls + response.modelCalls ≤ b.maxModelCalls ∧
      (decision.signal = none → b.consumedModelCalls + response.modelCalls < b.maxModelCalls)
  | .reviewing => b.consumedModelCalls + 1 ≤ b.maxModelCalls
  | .ended | .closed => True

theorem Affords.widen {b b' : RunBudgetScopeRow} {phase : Phase} (h : Affords b phase)
    (hcalls : b'.consumedModelCalls = b.consumedModelCalls) (hmax : b.maxModelCalls ≤ b'.maxModelCalls) :
    Affords b' phase := by
  cases phase with
  | boundary =>
    simp only [Affords] at h ⊢
    omega
  | planning =>
    simp only [Affords] at h ⊢
    omega
  | summarizing =>
    simp only [Affords] at h ⊢
    omega
  | planned =>
    simp only [Affords] at h ⊢
    omega
  | asking =>
    simp only [Affords] at h ⊢
    omega
  | answered =>
    simp only [Affords] at h ⊢
    omega
  | judged =>
    obtain ⟨_, hgoes⟩ := h
    refine ⟨by omega, fun hnone => ?_⟩
    have := hgoes hnone
    omega
  | reviewing =>
    simp only [Affords] at h ⊢
    omega
  | ended => trivial
  | closed => trivial

theorem accumulateCost_calls (row : RunBudgetScopeRow) (cost : Option Cost) :
    (accumulateCost row cost).consumedModelCalls = row.consumedModelCalls ∧
      (accumulateCost row cost).maxModelCalls = row.maxModelCalls := by
  unfold accumulateCost
  split
  · exact ⟨rfl, rfl⟩
  · split <;> exact ⟨rfl, rfl⟩

theorem charge_calls (bill : Bill) (row : RunBudgetScopeRow) :
    (bill.charge row).consumedModelCalls = row.consumedModelCalls + bill.modelCalls ∧
      (bill.charge row).maxModelCalls = row.maxModelCalls :=
  accumulateCost_calls _ _

section Turns
variable {now : Time} {s : Store} {slice : Slice} {from_ phase : Phase} {t : Turn} {n : Nat} {cost : Option Cost}
  {b b' : RunBudgetScopeRow}

/-- What the round's condition says of the turn it is about. -/
def Roomy (from_ : Phase) (t : Turn) : Prop :=
  ∀ recovery estimate billed routes response recovery', from_ = .asking recovery estimate billed →
    t = .reply routes response → recovery.receive routes estimate response = .inl recovery' →
    recovery.context.budget.consumedModelCalls + billed + recovery.made + response.modelCalls <
      recovery.context.budget.maxModelCalls

theorem took_quiet (h : Took now s slice from_ t phase none) (hroom : Roomy from_ t)
    (hb : s.budgets.lookup slice.budgetRootRunId = some b) (haff : Affords b from_) : Affords b phase := by
  cases h with
  | read hbudget =>
    cases hb.symm.trans hbudget
    exact ⟨rfl, haff, le_rfl⟩
  | plan => exact ⟨haff.1, by simpa using haff.2.1, haff.2.2⟩
  | askSummary hprecheck => exact ⟨haff.1, of_decide_eq_true hprecheck, haff.2.2⟩
  | summaryLost =>
    obtain ⟨hsame, hless, hmax⟩ := haff
    exact ⟨hsame, by omega, hmax⟩
  | ask =>
    obtain ⟨hsame, hless, hmax⟩ := haff
    exact ⟨hsame, by simpa [Recovery.made, callsOf] using hless, hmax⟩
  | again hone hagain =>
    obtain ⟨hmade, hbudget⟩ := receive_again hagain
    have hleft := hroom _ _ _ _ _ _ rfl rfl hagain
    obtain ⟨hsame, _, hmax⟩ := haff
    simp only [Affords, hbudget, hmade]
    exact ⟨hsame, by omega, hmax⟩
  | answered hone hfinal =>
    have hcalls := receive_settles hfinal
    obtain ⟨_, _, _⟩ := haff
    simp only [Affords]
    omega
  | judged hbudget hgoes =>
    cases hb.symm.trans hbudget
    exact ⟨haff, fun hnone => budgetAfter_room (hgoes hnone)⟩
  | conflict => exact haff
  | gaveUp hover =>
    rcases hover with rfl | rfl
    · trivial
    · trivial
  | review hbudget hside =>
    cases hb.symm.trans hbudget
    exact sideCallAllowed_room hside

theorem affords_next {decision : SlicePolicy.SliceDecision}
    (h : decision.signal = none → b.consumedModelCalls < b.maxModelCalls) : Affords b (next decision) := by
  unfold next
  split
  · next hnone => exact h hnone
  · trivial

theorem took_billed (h : Took now s slice from_ t phase (some (n, cost))) (haff : Affords b from_)
    (hceiling : b.consumedModelCalls ≤ b.maxModelCalls) (hcalls : b'.consumedModelCalls = b.consumedModelCalls + n)
    (hmax : b'.maxModelCalls = b.maxModelCalls) : b'.consumedModelCalls ≤ b'.maxModelCalls ∧ Affords b' phase := by
  cases h with
  | summaryAnswered =>
    obtain ⟨_, hless, _⟩ := haff
    refine ⟨by omega, ?_⟩
    simp only [Affords]
    omega
  | stopped => exact ⟨by omega, trivial⟩
  | lost =>
    simp only [Affords] at haff
    exact ⟨by omega, trivial⟩
  | recorded hgoes =>
    obtain ⟨hfits, hless⟩ := haff
    refine ⟨by omega, affords_next fun hnone => ?_⟩
    have := hless (hgoes hnone)
    omega
  | committed =>
    obtain ⟨hfits, hless⟩ := haff
    refine ⟨by omega, affords_next fun hnone => ?_⟩
    have := hless hnone
    omega
  | unchanged hgoes =>
    obtain ⟨hfits, hless⟩ := haff
    refine ⟨by omega, affords_next fun hnone => ?_⟩
    have := hless (hgoes hnone)
    omega
  | undone =>
    obtain ⟨_, _⟩ := haff
    exact ⟨by omega, trivial⟩
  | reviewed =>
    simp only [Affords] at haff
    exact ⟨by omega, trivial⟩

end Turns

section Runs
variable {env : Env} {w w' : Floor} {root : Uuid}

/-- The ceiling, and what every slice that still holds its Run may record under it. -/
structure Kept (root : Uuid) (w : Floor) : Prop where
  ceiling : ∀ b, w.store.budgets.lookup root = some b → b.consumedModelCalls ≤ b.maxModelCalls
  affords : ∀ leaseId slice b, w.slices.lookup leaseId = some slice → slice.budgetRootRunId = root →
    Current w.store slice.runId leaseId → w.store.budgets.lookup root = some b → Affords b slice.phase

theorem beside_scope {op : Op} {a : Answer} {s s' : Store} {b' : RunBudgetScopeRow} (hop : besideCalls op = true)
    (h : exec env op s = .ok (a, s')) (hb' : s'.budgets.lookup root = some b') :
    (∃ b, s.budgets.lookup root = some b ∧ b'.consumedModelCalls = b.consumedModelCalls ∧
        b.maxModelCalls ≤ b'.maxModelCalls) ∨
      (s.runs.lookup root = none ∧ b'.consumedModelCalls ≤ b'.maxModelCalls) := by
  have hmodified {key : Uuid} {f : RunBudgetScopeRow → RunBudgetScopeRow}
      (hlookup : (s.budgets.modify key f).lookup root = some b')
      (hf : ∀ b, s.budgets.lookup key = some b →
        (f b).consumedModelCalls = b.consumedModelCalls ∧ b.maxModelCalls ≤ (f b).maxModelCalls) :
      ∃ b, s.budgets.lookup root = some b ∧ b'.consumedModelCalls = b.consumedModelCalls ∧
        b.maxModelCalls ≤ b'.maxModelCalls := by
    rw [Table.lookup_modify] at hlookup
    split at hlookup
    · next hkey =>
      obtain ⟨b, hb, rfl⟩ := Option.map_eq_some_iff.mp hlookup
      exact ⟨b, hb, hf b (hkey ▸ hb)⟩
    · exact ⟨b', hlookup, rfl, le_rfl⟩
  have hbills := exec_bills h
  generalize s'.budgets = budgets at hbills hb'
  cases hbills with
  | nothing => exact .inl ⟨b', hb', rfl, le_rfl⟩
  | @opened cmd runId _ limits hnew =>
    rw [Table.lookup_insert_ite] at hb'
    split at hb'
    · next hroot =>
      cases hb'
      rw [hroot]
      exact .inr ⟨hnew, Nat.zero_le _⟩
    · exact .inl ⟨b', hb', rfl, le_rfl⟩
  | retried => exact .inl (hmodified hb' fun _ _ => ⟨rfl, le_rfl⟩)
  | reserved => exact .inl (hmodified hb' fun _ _ => ⟨rfl, le_rfl⟩)
  | recorded hcmd =>
    cases op with
    | recordSlice => cases hop
    | recordRound => cases hop
    | commitCheckpoint => cases hop
    | _ => cases hcmd
  | widened hrun hbudget hmore =>
    refine .inl (hmodified hb' fun b hb => ⟨rfl, ?_⟩)
    cases hb.symm.trans hbudget
    exact hmore.le

theorem beside_kept {op : Op} (hkept : Kept root w) (hscoped : Scoped w) (halone : Alone w.store root)
    (h : ∃ a, exec env op w.store = .ok (a, w'.store)) (hop : besideCalls op = true) (hslices : w'.slices = w.slices) :
    Kept root w' := by
  obtain ⟨_, h⟩ := h
  have hlease := exec_leases h (by rintro _ leaseId rfl; cases hop)
  refine ⟨fun b' hb' => ?_, fun leaseId slice b' hslice hroot hcurrent hb' => ?_⟩
  · obtain ⟨b, hb, hcalls, hmax⟩ | ⟨_, hfits⟩ := beside_scope hop h hb'
    · have := hkept.ceiling b hb
      omega
    · exact hfits
  · rw [hslices] at hslice
    obtain ⟨b, hb, hcalls, hmax⟩ | ⟨hnew, _⟩ := beside_scope hop h hb'
    · rw [Current, hlease] at hcurrent
      exact (hkept.affords leaseId slice b hslice hroot hcurrent hb).widen hcalls hmax
    · -- the scope was opened just now, so that no slice can have its Run
      obtain ⟨k, hk, hkroot⟩ := hscoped leaseId slice hslice
      have hself := halone slice.runId k hk (hkroot.trans hroot)
      rw [hself, kinOf, hnew] at hk
      cases hk

theorem claimed_kept {cmd : ClaimRunCommand} {leaseId : Uuid} {claimed : ClaimedRun} {row : RunRow}
    (hkept : Kept root w) (h : claimHead env cmd leaseId w.store = .ok (some claimed, w'.store))
    (hrow : w'.store.runs.lookup claimed.runId = some row)
    (hslices : w'.slices = w.slices.insert leaseId
      { workspaceId := row.workspaceId, runId := claimed.runId, budgetRootRunId := row.budgetRootRunId }) :
    Kept root w' := by
  have hplain := claimHead_plain h
  have hexec : exec env (.claimHead cmd leaseId) w.store = .ok (.claimed (some claimed), w'.store) := by
    rw [exec, bind_of_ok h]
    rfl
  have hlease := fun id => LeaseFencing.exec_leaseId hexec id
  obtain ⟨ha, _⟩ | ⟨runId, run, _, _, _, _, _, _, ha, rfl, hid, hrun, _, hbudget, hdecide, _⟩ :=
    claimHead_spec h
  · cases ha
  cases ha
  simp only [LeaseFencing.claimOf, hid] at hlease
  have hroot : row.budgetRootRunId = run.budgetRootRunId := by
    have hkin := hplain.kin claimed.runId
    rw [kinOf, kinOf, hrow, hrun] at hkin
    exact congrArg Kin.root (Option.some.inj hkin)
  refine ⟨fun b hb => ?_, fun leaseId' slice b hslice hslot hcurrent hb => ?_⟩
  · rw [hplain.budgets] at hb
    exact hkept.ceiling b hb
  · rw [hplain.budgets] at hb
    rw [hslices, Table.lookup_insert_ite] at hslice
    split at hslice
    · cases hslice
      simp only at hslot
      rw [← hslot, hroot, hbudget] at hb
      cases hb
      have hrunning := (StateMachine.decide_leaseAcquired hdecide).2
      exact Worker.allowsExecution_room (StateMachine.decide_budget hdecide (by cases run.status <;> rfl) (.inr hrunning))
    · next hother =>
      refine hkept.affords leaseId' slice b hslice hslot ?_ hb
      rw [Current, hlease] at hcurrent
      split at hcurrent
      · exact absurd (Option.some.inj hcurrent).symm hother
      · exact hcurrent

theorem roomy_of_roomLeft {leaseId : Uuid} {t : Turn} {slice : Slice} (hslice : w.slices.lookup leaseId = some slice)
    (h : roomLeft w (.turn leaseId t) = true) : Roomy slice.phase t := by
  rintro _ _ _ _ _ _ hphase rfl hagain
  simp only [roomLeft, hslice, Option.map_some, hphase, hagain, Sum.isRight_inl, Bool.false_or] at h
  exact of_decide_eq_true h

theorem current_of_roomLeft {leaseId : Uuid} {t : Turn} {slice : Slice} (hslice : w.slices.lookup leaseId = some slice)
    (haside : t.aside = true) (h : roomLeft w (.turn leaseId t) = true) : Current w.store slice.runId leaseId := by
  have hany : (w.store.leases.lookup slice.runId).any (·.id = leaseId) = true := by
    cases t with
    | summaryAnswered => simpa [roomLeft, Turn.aside, hslice] using h
    | reviewAnswered => simpa [roomLeft, Turn.aside, hslice] using h
    | _ => cases haside
  obtain ⟨_, hlease, hid⟩ := (Option.any_eq_true _ _).mp hany
  rw [Current, hlease, Option.map_some, of_decide_eq_true hid]

theorem turn_kept {leaseId : Uuid} {t : Turn} {slice : Slice} {commits : TurnTx} {phase : Phase} {bill : Option Bill}
    (hkept : Kept root w) (hscoped : Scoped w) (halone : Alone w.store root)
    (hroom : roomLeft w (.turn leaseId t) = true) (hslice : w.slices.lookup leaseId = some slice)
    (hturn : turn env w.store leaseId slice slice.phase t = some commits)
    (hrun : commits w.store = .ok ((phase, bill), w'.store))
    (hslices : w'.slices = w.slices.insert leaseId { slice with phase }) : Kept root w' := by
  have hspends := hscoped leaseId slice hslice
  obtain ⟨htook, hcharged⟩ := turn_took hspends hturn hrun
  have hsame {id : Uuid} (hid : id ≠ slice.budgetRootRunId) :
      w'.store.budgets.lookup id = w.store.budgets.lookup id := by
    cases hbill : bill with
    | none => rw [hcharged.quiet hbill]
    | some b => rw [(hcharged.billed b hbill).2.2.1, Table.lookup_modify_of_ne hid]
  by_cases hroot : slice.budgetRootRunId = root
  case neg =>
    refine ⟨fun b hb => ?_, fun leaseId' slice' b h hslot hcurrent hb => ?_⟩
    · rw [hsame (Ne.symm hroot)] at hb
      exact hkept.ceiling b hb
    · rw [hsame (Ne.symm hroot)] at hb
      rw [Current, hcharged.leases] at hcurrent
      rw [hslices, Table.lookup_insert_ite] at h
      split at h
      · cases h
        exact absurd hslot hroot
      · exact hkept.affords leaseId' slice' b h hslot hcurrent hb
  subst hroot
  cases bill with
  | none =>
    have hbudgets := hcharged.quiet rfl
    refine ⟨fun b hb => ?_, fun leaseId' slice' b h hslot hcurrent hb => ?_⟩
    · rw [hbudgets] at hb
      exact hkept.ceiling b hb
    · rw [hbudgets] at hb
      rw [Current, hcharged.leases] at hcurrent
      rw [hslices, Table.lookup_insert_ite] at h
      split at h
      · next hid =>
        cases h
        have haff := hkept.affords leaseId slice b hslice rfl (hid ▸ hcurrent) hb
        exact took_quiet htook (roomy_of_roomLeft hslice hroom) hb haff
      · exact hkept.affords leaseId' slice' b h hslot hcurrent hb
  | some bill =>
    obtain ⟨_, _, hbudgets, hfenced⟩ := hcharged.billed bill rfl
    -- whoever bills the scope holds its Run, so that no other slice has anything left to record
    have hcurrent : Current w.store slice.runId leaseId := by
      cases haside : t.aside with
      | false => exact hfenced haside
      | true => exact current_of_roomLeft hslice haside hroom
    have hbilled {b' : RunBudgetScopeRow} (hb' : w'.store.budgets.lookup slice.budgetRootRunId = some b') :
        b'.consumedModelCalls ≤ b'.maxModelCalls ∧ Affords b' phase := by
      rw [hbudgets, Table.lookup_modify_self] at hb'
      obtain ⟨b, hb, rfl⟩ := Option.map_eq_some_iff.mp hb'
      have haff := hkept.affords leaseId slice b hslice rfl hcurrent hb
      exact took_billed htook haff (hkept.ceiling b hb) (charge_calls bill b).1 (charge_calls bill b).2
    refine ⟨fun b hb => (hbilled hb).1, fun leaseId' slice' b h hslot hcurrent' hb => ?_⟩
    rw [hslices, Table.lookup_insert_ite] at h
    split at h
    · cases h
      exact (hbilled hb).2
    · next hother =>
      have hself {sl : Slice} (hsp : Spends w.store sl) (hsl : sl.budgetRootRunId = slice.budgetRootRunId) :
          sl.runId = slice.budgetRootRunId := by
        obtain ⟨k, hk, hkroot⟩ := hsp
        exact halone sl.runId k hk (hkroot.trans hsl)
      rw [Current, hcharged.leases, hself (hscoped leaseId' slice' h) hslot] at hcurrent'
      rw [Current, hself hspends rfl] at hcurrent
      exact absurd (Option.some.inj (hcurrent'.symm.trans hcurrent)) hother

theorem step_kept {a : Act} {bill : Option Bill} (hkept : Kept root w) (hscoped : Scoped w)
    (halone : Alone w.store root) (hroom : roomLeft w a = true) (h : act env a w = .ok (bill, w')) : Kept root w' := by
  cases a with
  | beside =>
    obtain ⟨hop, _, hslices, hexec⟩ := beside_ok h
    exact beside_kept hkept hscoped halone hexec hop hslices
  | claim =>
    obtain ⟨_, ⟨hnone, hslices⟩ | ⟨_, _, hclaim, hrow, hslices⟩⟩ := claim_ok h
    · obtain ⟨_, hsame⟩ | ⟨_, _, _, _, _, _, _, _, hsome, _⟩ := claimHead_spec hnone
      · refine ⟨?_, ?_⟩
        · rw [hsame]
          exact hkept.ceiling
        · rw [hsame, hslices]
          exact hkept.affords
      · cases hsome
    · exact claimed_kept hkept hclaim hrow hslices
  | turn =>
    obtain ⟨slice, _, _, hslice, hturn, hrun, hslices⟩ := turn_ok h
    exact turn_kept hkept hscoped halone hroom hslice hturn hrun hslices
  | crash leaseId =>
    obtain ⟨_, rfl⟩ := crash_ok h
    have hold {leaseId' : Uuid} {slice : Slice} (hslice : (w.slices.erase leaseId).lookup leaseId' = some slice) :
        w.slices.lookup leaseId' = some slice := by
      by_cases hid : leaseId' = leaseId
      · rw [hid, AList.lookup_erase] at hslice
        cases hslice
      · rwa [AList.lookup_erase_ne hid] at hslice
    exact ⟨hkept.ceiling, fun leaseId' slice b hs => hkept.affords leaseId' slice b (hold hs)⟩

theorem executes_kept {log : FloorHistory} (h : FloorExecutes log w)
    (hroom : ∀ c ∈ log, roomLeft c.before c.input.2 = true) (halone : Alone w.store root) : Kept root w := by
  induction h with
  | nil => exact ⟨fun _ h => (nomatch h), fun _ _ _ h => (nomatch h)⟩
  | snoc hrun hstep ih =>
    have hscoped := executes_scoped hrun
    have hbefore : Alone _ root := fun id k hk => halone id k (act_remembers hscoped hstep id k hk)
    have hkept := ih (fun c hc => hroom c (List.mem_append_left _ hc)) hbefore
    have hleft := hroom _ (List.mem_append_right _ (List.mem_singleton_self _))
    exact step_kept hkept hscoped hbefore hleft hstep

/-- In every run whose rounds ask again only while there is room, and whose side calls are billed by the slice
that holds the Run, a Run that is alone in its scope stays under the model-call ceiling. -/
theorem calls_within_ceiling {log : FloorHistory} (h : FloorExecutes log w)
    (hroom : ∀ c ∈ log, roomLeft c.before c.input.2 = true) (halone : Alone w.store root)
    (budget : RunBudgetScopeRow) (hbudget : w.store.budgets.lookup root = some budget) :
    budget.consumedModelCalls ≤ budget.maxModelCalls :=
  (executes_kept h hroom halone).ceiling budget hbudget

end Runs

section Example
open Agents
open Worker (Routes ExecutionContext)

def callsAllowed (maxModelCalls : Nat) : Env where
  catalog := { oneAgent with
    version := fun id =>
      if id = 100 then some { agentId := 10, spec := { limits := { maxModelCalls } } } else none }
  now := 0

def withFallback : ExecutionContext where
  budget := newBudget {} 0 (none, none)
  fallbackEndpointIds := [9]

def anywhere : Routes := fun _ => some ({ contextWindow := 100, reservedOutputTokens := 0 }, none)

def answeredElsewhere (planning : List Turn) : List Turn :=
  [.read withFallback] ++ planning ++
    [.ask, .reply anywhere { stopReason := .failed, transient := true }, .reply anywhere { stopReason := .completed },
      .judge withFallback { verdict := { outcome := .done } } 0, .record plainRound true]

def fallsBack (maxModelCalls : Nat) (planning : List Turn) : List (Env × Act) :=
  (oneClaimed ++ (answeredElsewhere planning).map (Act.turn 5)).map fun a => (callsAllowed maxModelCalls, a)

theorem alone_of_keys {s : Store} {root : Uuid} (h : s.runs.keys = [root]) : Alone s root := by
  intro id _ hk _
  obtain ⟨_, hrow, _⟩ := Option.map_eq_some_iff.mp hk
  have hmem : id ∈ s.runs.keys := AList.mem_keys.mp (AList.lookup_isSome.mp (by rw [hrow]; rfl))
  rw [h] at hmem
  exact List.mem_singleton.mp hmem

theorem fallback_passes_ceiling : ∃ log w, FloorExecutes log w ∧ Alone w.store 3 ∧
    ∃ budget, w.store.budgets.lookup 3 = some budget ∧ budget.maxModelCalls < budget.consumedModelCalls := by
  refine ⟨_, _, attemptActs_executes (fallsBack 1 [.plan 10]), alone_of_keys (by decide +kernel), ?_⟩
  have hscope : ((attemptActs (fallsBack 1 [.plan 10])).2.store.budgets.lookup 3).any
      (fun b => b.maxModelCalls < b.consumedModelCalls) = true := by decide +kernel
  obtain ⟨budget, hbudget, hpassed⟩ := (Option.any_eq_true _ _).mp hscope
  exact ⟨budget, hbudget, of_decide_eq_true hpassed⟩

def summaryFirst : List Turn :=
  [.askSummary 10, .summaryAnswered { stopReason := .completed } none { eventType := .contextSummaryBilled }]

/-- With room for the summary and both calls, all three are recorded and the ceiling is reached, not passed. -/
theorem fallback_within_ceiling : ∃ budget,
    (attemptActs (fallsBack 3 summaryFirst)).2.store.budgets.lookup 3 = some budget ∧
      budget.consumedModelCalls ≤ budget.maxModelCalls := by
  have hscope : ((attemptActs (fallsBack 3 summaryFirst)).2.store.budgets.lookup 3).isSome = true := by decide +kernel
  obtain ⟨budget, hbudget⟩ := Option.isSome_iff_exists.mp hscope
  refine ⟨budget, hbudget, calls_within_ceiling (attemptActs_executes _) ?_ (alone_of_keys ?_) budget hbudget⟩
  · apply List.all_eq_true.mp
    decide +kernel
  · decide +kernel

end Example

end TinyHermes.Runs.CallCeiling
