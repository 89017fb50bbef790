import TinyHermes.Runs.Billing

/-! The budget a tree of Runs shares: one scope, whose counters only grow, whose ceilings only a person raises, and which is never
overdrawn where a reservation or a retry asks first. -/
namespace TinyHermes.Runs.BudgetScopes
open Lib Tx SqlRunStore Billing Relation

structure Maxima where
  executionSeconds : Nat
  elapsedSeconds : Nat
  modelCalls : Nat
  toolCalls : Nat
  tokens : Option Nat
  derivedRetries : Nat
  cost : Option Int
  deriving DecidableEq

def maxima (b : RunBudgetScopeRow) : Maxima where
  executionSeconds := b.maxExecutionSeconds
  elapsedSeconds := b.maxElapsedSeconds
  modelCalls := b.maxModelCalls
  toolCalls := b.maxToolCalls
  tokens := b.maxTokens
  derivedRetries := b.maxDerivedRetries
  cost := b.maxCost

def widens : Op → Bool
  | .widenBudget .. => true
  | _ => false

/-- What one transaction may do to a scope: no counter falls, and only a widening touches a ceiling, which it raises. -/
structure Spent (widening : Bool) (b b' : RunBudgetScopeRow) : Prop where
  executionMs : b.consumedExecutionMs ≤ b'.consumedExecutionMs
  modelCalls : b.consumedModelCalls ≤ b'.consumedModelCalls
  tokens : b.consumedTokens ≤ b'.consumedTokens
  toolCalls : b.consumedToolCalls ≤ b'.consumedToolCalls
  retries : b.derivedRetryCount ≤ b'.derivedRetryCount
  ceilings : maxima b' = maxima b ∨
    (widening = true ∧ b.maxModelCalls < b'.maxModelCalls ∧
      maxima b' = { maxima b with modelCalls := b'.maxModelCalls })

/-- Whether a transaction granted a reservation to a Run of the scope. -/
def grantedIn (s : Store) (op : Op) (a : Answer) (root : Uuid) : Bool :=
  (granted op a).any fun runId => (kinOf s runId).any fun k => k.root = root

def grants (log : History) (root : Uuid) : Nat := log.countP fun c => grantedIn c.before c.input.2 c.answer root

/-- Every Run spends one scope that exists, its parent's and its retry source's own. -/
structure Rooted (s : Store) : Prop where
  scope : ∀ id k, kinOf s id = some k → (s.budgets.lookup k.root).isSome
  owner : ∀ root, (s.budgets.lookup root).isSome → (kinOf s root).isSome
  parent : ∀ id k p, kinOf s id = some k → k.parent = some p → ∃ k', kinOf s p = some k' ∧ k'.root = k.root
  source : ∀ id k r, kinOf s id = some k → k.retryOf = some r → ∃ k', kinOf s r = some k' ∧ k'.root = k.root

variable {budgets : Table Uuid RunBudgetScopeRow}

section Trees
variable {env : Env} {s s' : Store}

theorem Rooted.congr (h : Rooted s) (hkin : ∀ id, kinOf s' id = kinOf s id)
    (hscopes : ∀ root, (s'.budgets.lookup root).isSome = (s.budgets.lookup root).isSome) : Rooted s' where
  scope id k hk := by
    rw [hscopes]
    exact h.scope id k (hkin id ▸ hk)
  owner root hroot := by
    rw [hkin]
    rw [hscopes] at hroot
    exact h.owner root hroot
  parent id k p hk hp := by
    rw [hkin]
    exact h.parent id k p (hkin id ▸ hk) hp
  source id k r hk hr := by
    rw [hkin]
    exact h.source id k r (hkin id ▸ hk) hr

theorem Rooted.join {runId : Uuid} {k : Kin} (h : Rooted s) (hjoined : Joined runId k s s')
    (hscopes : ∀ root, (s'.budgets.lookup root).isSome = true ↔ (s.budgets.lookup root).isSome = true ∨ root = runId ∧
      k.root = runId)
    (hscope : k.root = runId ∨ (s.budgets.lookup k.root).isSome)
    (hparent : ∀ p, k.parent = some p → ∃ k', kinOf s p = some k' ∧ k'.root = k.root)
    (hsource : ∀ r, k.retryOf = some r → ∃ k', kinOf s r = some k' ∧ k'.root = k.root) : Rooted s' := by
  have hkept {id : Uuid} {k' : Kin} (hk : kinOf s id = some k') : kinOf s' id = some k' := hjoined.remembers hk
  obtain ⟨_, hkin⟩ := hjoined
  have hold {id : Uuid} {k' : Kin} (hk : kinOf s' id = some k') : (id = runId ∧ k' = k) ∨ kinOf s id = some k' := by
    rw [hkin] at hk
    split at hk
    · next hid => exact .inl ⟨hid, (Option.some.inj hk).symm⟩
    · exact .inr hk
  refine ⟨fun id k' hk => ?_, fun root hroot => ?_, fun id k' p hk hp => ?_, fun id k' r hk hr => ?_⟩
  · rw [hscopes]
    rcases hold hk with ⟨_, rfl⟩ | hk
    · exact hscope.elim (fun hown => .inr ⟨hown, hown⟩) .inl
    · exact .inl (h.scope id k' hk)
  · rcases (hscopes root).mp hroot with hroot | ⟨rfl, _⟩
    · obtain ⟨k', hk⟩ := Option.isSome_iff_exists.mp (h.owner root hroot)
      rw [hkept hk]
      rfl
    · rw [hkin, if_pos rfl]
      rfl
  · rcases hold hk with ⟨_, rfl⟩ | hk
    · obtain ⟨k'', hk'', hroot⟩ := hparent p hp
      exact ⟨k'', hkept hk'', hroot⟩
    · obtain ⟨k'', hk'', hroot⟩ := h.parent id k' p hk hp
      exact ⟨k'', hkept hk'', hroot⟩
  · rcases hold hk with ⟨_, rfl⟩ | hk
    · obtain ⟨k'', hk'', hroot⟩ := hsource r hr
      exact ⟨k'', hkept hk'', hroot⟩
    · obtain ⟨k'', hk'', hroot⟩ := h.source id k' r hk hr
      exact ⟨k'', hkept hk'', hroot⟩

theorem isSome_modify (t : Table Uuid RunBudgetScopeRow) (k root : Uuid) (f : RunBudgetScopeRow → RunBudgetScopeRow) :
    ((t.modify k f).lookup root).isSome = (t.lookup root).isSome := by
  rw [Table.lookup_modify]
  split
  · exact Option.isSome_map
  · rfl

theorem Rooted.sires {parentRunId : Uuid} {parent : Kin} (h : Rooted s) (hparent : kinOf s parentRunId = some parent)
    (hsires : ReflTransGen (Sires parentRunId parent.root) s s') :
    Rooted s' ∧ ∃ k, kinOf s' parentRunId = some k ∧ k.root = parent.root := by
  induction hsires with
  | refl => exact ⟨h, parent, hparent, rfl⟩
  | tail _ hlast ih =>
    obtain ⟨hrooted, k, hk, hroot⟩ := ih
    obtain ⟨hbudgets, _, hjoined⟩ := hlast
    refine ⟨hrooted.join hjoined (fun root => ?_) (.inr ?_) ?_ nofun, k, ?_, hroot⟩
    · rw [hbudgets]
      refine ⟨.inl, fun hsome => hsome.elim id ?_⟩
      rintro ⟨rfl, hown⟩
      have hscope := hrooted.scope parentRunId k hk
      rw [hroot] at hscope
      have howner := hrooted.owner parent.root hscope
      rw [show parent.root = root from hown, hjoined.1] at howner
      cases howner
    · have hscope := hrooted.scope parentRunId k hk
      rwa [hroot] at hscope
    · rintro _ ⟨rfl⟩
      exact ⟨k, hk, hroot⟩
    · rw [hjoined.2, if_neg, hk]
      rintro rfl
      rw [hjoined.1] at hk
      cases hk

theorem bills_isSome {op : Op} {a : Answer} (h : Bills env s op a budgets)
    (hop : makesRuns op = false) (root : Uuid) : (budgets.lookup root).isSome = (s.budgets.lookup root).isSome := by
  cases h with
  | nothing => rfl
  | opened => cases hop
  | retried => cases hop
  | reserved => exact isSome_modify _ _ _ _
  | recorded => exact isSome_modify _ _ _ _
  | widened => exact isSome_modify _ _ _ _

theorem exec_rooted {op : Op} {a : Answer} (h : Rooted s) (hexec : exec env op s = .ok (a, s')) : Rooted s' := by
  by_cases hop : makesRuns op = false
  · exact h.congr (exec_kin hop hexec) (bills_isSome (exec_bills hexec) hop)
  cases op with
  | acceptRun =>
    obtain ⟨accepted, _, hrun, hpure⟩ := bind_ok.mp hexec
    obtain ⟨rfl, rfl⟩ := pure_ok.mp hpure
    rcases acceptRun_bills hrun with hkept | ⟨hjoined, _, _, hopened⟩
    · exact h.congr hkept.kin fun root => by rw [hkept.budgets]
    · refine h.join hjoined (fun root => ?_) (.inl rfl) nofun nofun
      rw [hopened, Table.lookup_insert_ite]
      split
      · next hroot => simp [hroot]
      · next hroot => simp [hroot]
  | deriveRetry =>
    obtain ⟨_, _, hrun, hpure⟩ := bind_ok.mp hexec
    obtain ⟨rfl, rfl⟩ := pure_ok.mp hpure
    rcases deriveRetry_bills hrun with hkept | ⟨source, _, hsource, hbudget, _, hbilled, hjoined⟩
    · exact h.congr hkept.kin fun root => by rw [hkept.budgets]
    · refine h.join hjoined (fun root => ?_) (.inr (by rw [hbudget]; rfl)) nofun ?_
      · rw [hbilled, isSome_modify]
        refine ⟨.inl, fun hsome => hsome.elim id ?_⟩
        rintro ⟨rfl, hown⟩
        rw [← hown, hbudget]
        rfl
      · rintro _ ⟨rfl⟩
        exact ⟨source, hsource, rfl⟩
  | delegateChildren =>
    obtain ⟨_, _, hrun, hpure⟩ := bind_ok.mp hexec
    obtain ⟨rfl, rfl⟩ := pure_ok.mp hpure
    rcases delegateChildren_sires hrun with rfl | ⟨_, hparent, hsires⟩
    · exact h
    · exact (h.sires hparent hsires).1
  | _ => exact absurd rfl hop

end Trees

section Steps
variable {env : Env} {s s' : Store} {b : RunBudgetScopeRow}

/-- A transaction that may have granted a call of the scope: the call is counted, and neither the calls nor the
retries go over their ceilings. -/
structure Billed (widening granted : Bool) (b b' : RunBudgetScopeRow) : Prop extends Spent widening b b' where
  counted : b'.consumedToolCalls = b.consumedToolCalls + granted.toNat
  callsWithin : b.consumedToolCalls ≤ b.maxToolCalls → b'.consumedToolCalls ≤ b'.maxToolCalls
  retriesWithin : b.derivedRetryCount ≤ b.maxDerivedRetries → b'.derivedRetryCount ≤ b'.maxDerivedRetries

theorem Billed.refl (widening : Bool) (b : RunBudgetScopeRow) : Billed widening false b b :=
  ⟨⟨le_rfl, le_rfl, le_rfl, le_rfl, le_rfl, .inl rfl⟩, rfl, id, id⟩

/-- Cost is the only thing `_accumulate_cost` writes. -/
theorem accumulateCost_eq (b : RunBudgetScopeRow) (cost : Option Cost) :
    ∃ consumedCost costQuality costCurrency, accumulateCost b cost = { b with consumedCost, costQuality, costCurrency } := by
  unfold accumulateCost
  split
  · exact ⟨_, _, _, rfl⟩
  · split
    · exact ⟨_, _, _, rfl⟩
    · exact ⟨_, _, _, rfl⟩

theorem consumed_billed (cmd : RecordSliceCommand) (widening : Bool) (b : RunBudgetScopeRow) :
    Billed widening false b (consumed cmd b) := by
  obtain ⟨_, _, _, heq⟩ := accumulateCost_eq { b with
    consumedExecutionMs := b.consumedExecutionMs + cmd.executedMs
    consumedModelCalls := b.consumedModelCalls + cmd.modelCalls
    consumedTokens := b.consumedTokens + cmd.tokens
    version := b.version + 1 } cmd.cost
  rw [consumed, heq]
  refine ⟨⟨?_, ?_, ?_, le_rfl, le_rfl, .inl rfl⟩, rfl, id, id⟩
  · exact Nat.le_add_right _ _
  · exact Nat.le_add_right _ _
  · exact Nat.le_add_right _ _

theorem granted_of_recorded {op : Op} {a : Answer} {cmd : RecordSliceCommand} (h : recordedBy op a = some cmd) :
    granted op a = none := by
  cases op <;> first
    | rfl
    | cases h

theorem bills_billed {op : Op} {a : Answer} {root : Uuid}
    (h : Bills env s op a budgets) (hb : s.budgets.lookup root = some b) (howner : (kinOf s root).isSome = true) :
    ∃ b', budgets.lookup root = some b' ∧ Billed (widens op) (grantedIn s op a root) b b' := by
  have hmodify {k : Uuid} {f : RunBudgetScopeRow → RunBudgetScopeRow} {widening grant : Bool}
      (hf : k = root → Billed widening grant b (f b)) (hnot : k ≠ root → grant = false) :
      ∃ b', (s.budgets.modify k f).lookup root = some b' ∧ Billed widening grant b b' := by
    rw [Table.lookup_modify, hb]
    split
    · next hroot => exact ⟨_, rfl, hf hroot.symm⟩
    · next hroot =>
      rw [hnot (Ne.symm hroot)]
      exact ⟨b, rfl, .refl _ _⟩
  have hquiet (hnone : granted op a = none) : grantedIn s op a root = false := by rw [grantedIn, hnone]; rfl
  cases h with
  | nothing hnone =>
    rw [hquiet hnone]
    exact ⟨b, hb, .refl _ _⟩
  | @opened cmd runId _ limits hnew =>
    have hroot : root ≠ runId := by
      rintro rfl
      rw [kinOf, hnew] at howner
      cases howner
    rw [AList.lookup_insert_ne hroot, hquiet rfl]
    exact ⟨b, hb, .refl _ _⟩
  | retried hbudget hroom =>
    rw [hquiet rfl]
    refine hmodify (fun hk => ⟨⟨le_rfl, le_rfl, le_rfl, le_rfl, Nat.le_succ _, .inl rfl⟩, rfl, id, fun _ => ?_⟩) fun _ => rfl
    rw [hk, hb] at hbudget
    cases hbudget
    exact hroom
  | @reserved _ _ runId run _ hgranted hrun hbudget hroom =>
    have hin : grantedIn s op a root = decide (run.budgetRootRunId = root) := by
      rw [grantedIn, hgranted, Option.any_some, kinOf, hrun]
      rfl
    rw [hin]
    refine hmodify (fun hk => ?_) fun hk => decide_eq_false hk
    rw [hk, hb] at hbudget
    cases hbudget
    rw [decide_eq_true hk]
    exact ⟨⟨le_rfl, le_rfl, le_rfl, Nat.le_succ _, le_rfl, .inl rfl⟩, rfl, fun _ => hroom, id⟩
  | recorded hcmd =>
    rw [hquiet (granted_of_recorded hcmd)]
    exact hmodify (fun _ => consumed_billed _ _ _) fun _ => rfl
  | widened hrun hbudget hmore =>
    rw [hquiet rfl]
    refine hmodify (fun hk => ⟨⟨le_rfl, le_rfl, le_rfl, le_rfl, le_rfl, .inr ⟨rfl, ?_, rfl⟩⟩, rfl, id, id⟩) fun _ => rfl
    rw [hk, hb] at hbudget
    cases hbudget
    exact hmore

theorem bills_opened {op : Op} {a : Answer} {root : Uuid}
    (h : Bills env s op a budgets) (hnone : s.budgets.lookup root = none) :
    grantedIn s op a root = false ∧
      ∀ b', budgets.lookup root = some b' → b'.consumedToolCalls = 0 ∧ b'.derivedRetryCount = 0 := by
  have hmodify {k : Uuid} {f : RunBudgetScopeRow → RunBudgetScopeRow} {b' : RunBudgetScopeRow}
      (hb' : (s.budgets.modify k f).lookup root = some b') : False := by
    rw [Table.lookup_modify, hnone] at hb'
    split at hb' <;> cases hb'
  have hquiet (hgranted : granted op a = none) : grantedIn s op a root = false := by rw [grantedIn, hgranted]; rfl
  cases h with
  | nothing hgranted =>
    refine ⟨hquiet hgranted, fun b' hb' => ?_⟩
    rw [hnone] at hb'
    cases hb'
  | @opened cmd runId _ limits hnew =>
    refine ⟨hquiet rfl, fun b' hb' => ?_⟩
    rw [Table.lookup_insert_ite] at hb'
    split at hb'
    · cases hb'
      exact ⟨rfl, rfl⟩
    · rw [hnone] at hb'
      cases hb'
  | retried => exact ⟨hquiet rfl, fun b' hb' => (hmodify hb').elim⟩
  | @reserved _ _ runId run _ hgranted hrun hbudget hroom =>
    refine ⟨?_, fun b' hb' => (hmodify hb').elim⟩
    rw [grantedIn, hgranted, Option.any_some, kinOf, hrun]
    apply decide_eq_false
    rintro rfl
    rw [show (kin run).root = run.budgetRootRunId from rfl, hbudget] at hnone
    cases hnone
  | recorded hcmd => exact ⟨hquiet (granted_of_recorded hcmd), fun b' hb' => (hmodify hb').elim⟩
  | widened => exact ⟨hquiet rfl, fun b' hb' => (hmodify hb').elim⟩

end Steps

section Runs
variable {log : History} {s : Store}

/-- The scopes as a run leaves them: their calls are the reservations it granted. -/
structure Balanced (log : History) (s : Store) : Prop where
  counted : ∀ root b, s.budgets.lookup root = some b → b.consumedToolCalls = grants log root
  callsWithin : ∀ root b, s.budgets.lookup root = some b → b.consumedToolCalls ≤ b.maxToolCalls
  retriesWithin : ∀ root b, s.budgets.lookup root = some b → b.derivedRetryCount ≤ b.maxDerivedRetries
  unopened : ∀ root, s.budgets.lookup root = none → grants log root = 0
  rooted : Rooted s

theorem grants_snoc (log : History) (c : Commit Store (Env × Op) Answer) (root : Uuid) :
    grants (log ++ [c]) root = grants log root + (grantedIn c.before c.input.2 c.answer root).toNat := by
  rw [grants, List.countP_append, List.countP_singleton, grants]
  cases grantedIn c.before c.input.2 c.answer root <;> rfl

theorem Balanced.step {s' : Store} {env : Env} {op : Op} {a : Answer} (h : Balanced log s)
    (hexec : exec env op s = .ok (a, s')) : Balanced (log ++ [⟨s, (env, op), a, s'⟩]) s' := by
  have hbills := exec_bills hexec
  have hscope (root : Uuid) (b' : RunBudgetScopeRow) (hb' : s'.budgets.lookup root = some b') :
      b'.consumedToolCalls = grants log root + (grantedIn s op a root).toNat ∧
        b'.consumedToolCalls ≤ b'.maxToolCalls ∧ b'.derivedRetryCount ≤ b'.maxDerivedRetries := by
    cases hb : s.budgets.lookup root with
    | none =>
      obtain ⟨hquiet, hfresh⟩ := bills_opened hbills hb
      obtain ⟨hcalls, hretries⟩ := hfresh b' hb'
      rw [hquiet, h.unopened root hb, hcalls, hretries]
      exact ⟨rfl, Nat.zero_le _, Nat.zero_le _⟩
    | some b =>
      have howner := h.rooted.owner root (by rw [hb]; rfl)
      obtain ⟨_, hb'', hbilled⟩ := bills_billed hbills hb howner
      cases hb'.symm.trans hb''
      refine ⟨?_, hbilled.callsWithin (h.callsWithin root b hb), hbilled.retriesWithin (h.retriesWithin root b hb)⟩
      rw [hbilled.counted, h.counted root b hb]
  refine ⟨fun root b' hb' => ?_, fun root b' hb' => (hscope root b' hb').2.1, fun root b' hb' => (hscope root b' hb').2.2,
    fun root hnone => ?_, exec_rooted h.rooted hexec⟩
  · rw [grants_snoc]
    exact (hscope root b' hb').1
  · have hbefore : s.budgets.lookup root = none := by
      by_contra hsome
      obtain ⟨_, hb⟩ := Option.ne_none_iff_exists'.mp hsome
      obtain ⟨_, hb', _⟩ := bills_billed hbills hb (h.rooted.owner root (by rw [hb]; rfl))
      rw [hnone] at hb'
      cases hb'
    rw [grants_snoc, h.unopened root hbefore, (bills_opened hbills hbefore).1]
    rfl

theorem executes_balanced (h : Executes log s) : Balanced log s := by
  induction h with
  | nil =>
    have hnone (root : Uuid) : ({} : Store).budgets.lookup root = none := AList.lookup_empty root
    have hkin (id : Uuid) : kinOf {} id = none := rfl
    refine ⟨?_, ?_, ?_, fun _ _ => rfl, ⟨?_, ?_, ?_, ?_⟩⟩
    · exact fun root b hb => by rw [hnone] at hb; cases hb
    · exact fun root b hb => by rw [hnone] at hb; cases hb
    · exact fun root b hb => by rw [hnone] at hb; cases hb
    · exact fun id k hk => by rw [hkin] at hk; cases hk
    · exact fun root hroot => by rw [hnone] at hroot; cases hroot
    · exact fun id k p hk => by rw [hkin] at hk; cases hk
    · exact fun id k r hk => by rw [hkin] at hk; cases hk
  | snoc _ hstep ih => exact ih.step hstep

end Runs

section Example

end Example

end TinyHermes.Runs.BudgetScopes
