import TinyHermes.Runs.Billing

/-! The life of a Run, from the transaction that makes it on: its state moves only where the state machine lets it, one
version a decision, and the columns that go with a state are there when it is. -/
namespace TinyHermes.Runs.RunLives
open Lib StateMachine SqlRunStore RunMoves Tx Relation

structure Columns where
  status : RunState := .queued
  pauseReason : Option PauseReason := none
  waitKind : Option String := none
  waitDeadlineAt : Option Time := none
  pauseRequestedAt : Option Time := none
  cancelRequestedAt : Option Time := none
  queuedAt : Time
  startedAt : Option Time := none
  finishedAt : Option Time := none

def columns (row : RunRow) : Columns where
  status := row.status
  pauseReason := row.pauseReason
  waitKind := row.waitKind
  waitDeadlineAt := row.waitDeadlineAt
  pauseRequestedAt := row.pauseRequestedAt
  cancelRequestedAt := row.cancelRequestedAt
  queuedAt := row.queuedAt
  startedAt := row.startedAt
  finishedAt := row.finishedAt

def waits (st : RunState) : Prop := st = .waitingApproval ∨ st = .waitingExternal

/-- The columns agree with the state. -/
structure Coherent (c : Columns) : Prop where
  paused : c.pauseReason.isSome ↔ c.status = .paused
  waiting : c.waitKind.isSome ↔ waits c.status
  deadline : c.waitDeadlineAt.isSome → waits c.status
  external : c.status = .waitingExternal → c.waitDeadlineAt.isSome
  started : c.status = .running → c.startedAt.isSome
  finished : c.finishedAt.isSome ↔ c.status.isTerminal
  granted : (c.status = .paused → c.pauseRequestedAt = none) ∧ (c.status = .cancelled → c.cancelRequestedAt = none)

section Decisions
variable {view : RunStateView} {signal : RunSignal} {reason : Option PauseReason} {kind : Option String}
  {deadline : Option Time} {d : StateDecision}

structure Carries (before : RunState) (d : StateDecision) : Prop where
  reason : d.pauseReason.isSome ↔ d.state = .paused
  kind : d.waitKind.isSome ↔ waits d.state
  deadline : d.waitDeadlineAt.isSome → waits d.state
  external : d.state = .waitingExternal → d.waitDeadlineAt.isSome
  starts : d.state = .running → before = .running ∨ d.startsExecution = true
  clears : (d.state = .paused → d.clearPauseRequest = true) ∧ (d.state = .cancelled → d.clearCancelRequest = true)

theorem requestOnly_carries (h : requestOnly view signal = some d) : Carries view.state d := by
  unfold requestOnly at h
  split at h
  · next hs =>
    cases h
    exact ⟨by simp, by simp [waits], by simp, by simp, fun _ => .inl hs, by simp⟩
  · next hs =>
    cases h
    exact ⟨by simp, by simp [waits], by simp, by simp, fun _ => .inl hs, by simp⟩
  · cases h

theorem settleReason_isSome {target : RunState} {settled : Option PauseReason}
    (h : settleReason target signal reason = .ok settled) : settled.isSome ↔ target = .paused := by
  unfold settleReason at h
  split at h
  · next hp =>
    cases hr : pauseReasonFor signal reason with
    | error =>
      rw [hr] at h
      cases h
    | ok =>
      rw [hr] at h
      cases h
      simp [hp]
  · next hp =>
    split at h
    · cases h
    · cases h
      simp [hp]

theorem enter_carries {target : RunState} {settled : Option PauseReason} (hsettled : settled.isSome ↔ target = .paused)
    (h : enter view signal target settled kind deadline = .ok d) : Carries view.state d := by
  unfold enter at h
  split at h
  · cases h
  cases target with
  | waitingApproval =>
    simp only [waitingApproval] at h
    split at h
    · cases h
    · split at h
      · cases h
      · cases h
        exact ⟨by simp, by simp [waits], by simp [waits], by simp, by simp, by simp⟩
  | waitingExternal =>
    simp only [waitingExternal] at h
    split at h
    · cases h
    · cases h
      exact ⟨by simp, by simp [waits], by simp [waits], by simp, by simp, by simp⟩
  | _ =>
    simp only at h
    split at h
    · cases h
    · cases h
      exact ⟨hsettled, by simp [waits], by simp, by simp, by simp, by simp⟩

theorem decide_carries (h : RunStateMachine.decide view signal reason kind deadline = .ok d) : Carries view.state d := by
  cases hr : requestOnly view signal with
  | some request =>
    unfold RunStateMachine.decide at h
    rw [hr] at h
    cases h
    exact requestOnly_carries hr
  | none =>
    cases ht : transitions view.state signal with
    | none =>
      unfold RunStateMachine.decide at h
      rw [hr] at h
      simp only [ht] at h
      cases h
    | some target =>
      rw [decide_move hr ht] at h
      cases hs : settleReason target signal reason with
      | error =>
        rw [hs] at h
        cases h
      | ok settled =>
        rw [hs] at h
        exact enter_carries (settleReason_isSome hs) h

theorem Coherent.decided {row : RunRow} (h : Coherent (columns row)) (hd : Decides row signal d) (now : Time) :
    Coherent (columns (applyDecision row d now)) := by
  obtain ⟨view, _, _, _, hstate, hdecide⟩ := hd
  have hcarries := decide_carries hdecide
  have hlive := decide_live hdecide
  rw [hstate] at hcarries hlive
  refine ⟨hcarries.reason, hcarries.kind, hcarries.deadline, hcarries.external, fun hrunning => ?_, ?_, ?_, ?_⟩
  · change (if d.startsExecution ∧ row.startedAt = none then some now else row.startedAt).isSome
    split
    · rfl
    · next hnot =>
      rcases hcarries.starts hrunning with hbefore | hstarts
      · exact h.started hbefore
      · rw [hstarts] at hnot
        exact Option.isSome_iff_ne_none.mpr fun hnone => hnot ⟨rfl, hnone⟩
  · change (if d.isTerminal then some now else row.finishedAt).isSome = true ↔ d.state.isTerminal = true
    have hunfinished : row.finishedAt.isSome = false := by
      rw [Bool.eq_false_iff]
      exact fun hsome => Bool.eq_false_iff.mp hlive (h.finished.mp hsome)
    unfold StateDecision.isTerminal
    split
    · next hover => simp [hover]
    · next hover => simp [hover, hunfinished]
  · intro hpaused
    change (if d.clearPauseRequest then none else _) = none
    rw [hcarries.clears.1 hpaused]
    rfl
  · intro hcancelled
    change (if d.clearCancelRequest then none else _) = none
    rw [hcarries.clears.2 hcancelled]
    rfl

end Decisions

def Leads (before after : RunState) : Prop :=
  (before = .running ∧ after = .running) ∨ ∃ signal, transitions before signal = some after

inductive Journey (first : RunState) : Nat → RunState → Prop where
  | start : Journey first 0 first
  | step {n : Nat} {before after : RunState} (h : Journey first n before) (hleads : Leads before after) :
      Journey first (n + 1) after

theorem Journey.trans {first middle last : RunState} {m n : Nat} (h : Journey first m middle)
    (h' : Journey middle n last) : Journey first (m + n) last := by
  induction h' with
  | start => exact h
  | step _ hleads ih => exact .step ih hleads

theorem Journey.ended {first last : RunState} {n : Nat} (hover : first.isTerminal = true) (h : Journey first n last) :
    n = 0 := by
  induction h with
  | start => rfl
  | step hbefore hleads ih =>
    subst ih
    cases hbefore
    rcases hleads with ⟨rfl, _⟩ | ⟨_, ht⟩
    · cases hover
    · rw [transitions_live ht] at hover
      cases hover

/-- What becomes of a Run's row: it is the same Run, its version counts the decisions about it, and without a decision the
columns of its state stand still. -/
structure Lived (row row' : RunRow) : Prop where
  identity : identity row' = identity row
  version : row.stateVersion ≤ row'.stateVersion
  journey : Journey row.status (row'.stateVersion - row.stateVersion) row'.status
  still : row'.stateVersion = row.stateVersion → columns row' = columns row

theorem Lived.of_same {row row' : RunRow} (hid : RunMoves.identity row' = RunMoves.identity row)
    (hversion : row'.stateVersion = row.stateVersion) (hcolumns : columns row' = columns row) : Lived row row' := by
  refine ⟨hid, hversion.ge, ?_, fun _ => hcolumns⟩
  have hstatus : row'.status = row.status := congrArg Columns.status hcolumns
  rw [hversion, Nat.sub_self, hstatus]
  exact .start

theorem Lived.of_decided {row row' : RunRow} {signal : RunSignal} {d : StateDecision}
    (hid : RunMoves.identity row' = RunMoves.identity row) (hd : Decides row signal d)
    (hversion : row'.stateVersion = row.stateVersion + 1) (hstatus : row'.status = d.state) : Lived row row' := by
  refine ⟨hid, by omega, ?_, fun h => by omega⟩
  rw [hversion, Nat.add_sub_cancel_left, hstatus]
  refine .step .start ?_
  rcases hd.cases with ⟨hbefore, hafter, _⟩ | ht
  · exact .inl ⟨hbefore, hafter⟩
  · exact .inr ⟨_, ht⟩

theorem Lived.refl (row : RunRow) : Lived row row := .of_same rfl rfl rfl

theorem Lived.trans {r₁ r₂ r₃ : RunRow} (h₁ : Lived r₁ r₂) (h₂ : Lived r₂ r₃) : Lived r₁ r₃ := by
  have hle₁ := h₁.version
  have hle₂ := h₂.version
  refine ⟨h₂.identity.trans h₁.identity, hle₁.trans hle₂, ?_, fun h => ?_⟩
  · have hsum : r₃.stateVersion - r₁.stateVersion =
        (r₂.stateVersion - r₁.stateVersion) + (r₃.stateVersion - r₂.stateVersion) := by omega
    rw [hsum]
    exact h₁.journey.trans h₂.journey
  · exact (h₂.still (by omega)).trans (h₁.still (by omega))

inductive Turned (row row' : RunRow) : Prop where
  | still (hversion : row'.stateVersion = row.stateVersion) (hcolumns : columns row' = columns row)
  | decided {signal : RunSignal} {d : StateDecision} (now : Time) (hd : Decides row signal d)
      (hversion : row'.stateVersion = row.stateVersion + 1) (hcolumns : columns row' = columns (applyDecision row d now))

theorem columns_beside {row row' : RunRow} (h : row.Beside row') : columns row' = columns row := by
  rw [h]
  rfl

theorem version_beside {row row' : RunRow} (h : row.Beside row') : row'.stateVersion = row.stateVersion := by
  rw [h]

theorem move_turned {A : Allowed} {v v' : RunView} {row : RunRow} (hmove : RunMove A v v') (hrow : v.row = some row) :
    ∃ row', v'.row = some row' ∧ Turned row row' ∧ v.said <+: v'.said := by
  cases hmove with
  | beside hb =>
    have hrows := hb.row
    rw [hrow] at hrows
    obtain ⟨row', hrow', hk⟩ := hrows.of_some
    exact ⟨row', hrow', .still (version_beside hk) (columns_beside hk), hb.said⟩
  | born hnew =>
    rw [hrow] at hnew
    cases hnew
  | claimed now hr hd =>
    cases hrow.symm.trans hr
    exact ⟨_, rfl, .decided now hd rfl rfl, List.prefix_rfl⟩
  | renewed => exact ⟨row, hrow, .still rfl rfl, List.prefix_rfl⟩
  | sent hr =>
    cases hrow.symm.trans hr
    exact ⟨_, rfl, .still rfl rfl, List.prefix_rfl⟩
  | recorded now hr =>
    cases hrow.symm.trans hr
    exact ⟨_, rfl, .still rfl rfl, List.prefix_append _ _⟩
  | ended now hr hrecord hsignal hlease hheld hd =>
    cases hrow.symm.trans hr
    exact ⟨_, rfl, .decided now hd rfl rfl, List.prefix_append _ _⟩
  | signalled clears now hr happly hd =>
    cases hrow.symm.trans hr
    refine ⟨_, rfl, .decided now hd ?_ ?_, List.prefix_rfl⟩ <;> cases clears <;> rfl
  | swept now hr hsignal hd =>
    cases hrow.symm.trans hr
    exact ⟨_, rfl, .decided now hd rfl rfl, List.prefix_rfl⟩
  | reclaimed now hr hd =>
    cases hrow.symm.trans hr
    exact ⟨_, rfl, .decided now hd rfl rfl, List.prefix_rfl⟩
  | told hr =>
    cases hrow.symm.trans hr
    exact ⟨_, rfl, .still rfl rfl, List.prefix_append _ _⟩

/-- The Run lived on, its own turns are still those it began with, and its columns are as coherent as they were. -/
structure LivedOn (row : RunRow) (said : List CanonicalMessage) (v : RunView) (row' : RunRow) : Prop where
  found : v.row = some row'
  lived : Lived row row'
  said : said <+: v.said
  coherent : Coherent (columns row) → Coherent (columns row')

variable {s s' : Store} {runId : Uuid} {row : RunRow}

theorem moves_lived {A : Allowed} {v v' : RunView} (h : ReflTransGen (RunMove A) v v') (hrow : v.row = some row) :
    ∃ row', LivedOn row v.said v' row' := by
  refine keep_moves (I := fun w => ∃ row', LivedOn row v.said w row') (fun w w' hmove hw => ?_) h
    ⟨row, hrow, .refl row, List.prefix_rfl, id⟩
  obtain ⟨row₁, hrow₁, hlived, hsaid, hcoherent⟩ := hw
  obtain ⟨row₂, hrow₂, hturned, hsaid'⟩ := move_turned hmove hrow₁
  have hid : identity row₂ = identity row₁ := by
    rcases identity_move hmove hrow₂ with ⟨hnone, _⟩ | ⟨_, hsome, hid⟩
    · rw [hrow₁] at hnone
      cases hnone
    · cases hrow₁.symm.trans hsome
      exact hid
  refine ⟨row₂, hrow₂, hlived.trans ?_, hsaid.trans hsaid', fun h => ?_⟩
  · cases hturned with
    | still hversion hcolumns => exact .of_same hid hversion hcolumns
    | decided now hd hversion hcolumns => exact .of_decided hid hd hversion (congrArg Columns.status hcolumns)
  · cases hturned with
    | still hversion hcolumns =>
      rw [hcolumns]
      exact hcoherent h
    | decided now hd hversion hcolumns =>
      rw [hcolumns]
      exact (hcoherent h).decided hd now

theorem execution_lived {log : History} (h : Execution Step s log s') (hrow : s.runs.lookup runId = some row) :
    ∃ row', LivedOn row (ownTurns s runId) (view s' runId) row' := by
  refine h.invariant (I := fun t => ∃ row', LivedOn row (ownTurns s runId) (view t runId) row')
    ⟨row, hrow, .refl row, List.prefix_rfl, id⟩ fun _ i _ _ hstep hbefore => ?_
  obtain ⟨row₁, hrow₁, hlived, hsaid, hcoherent⟩ := hbefore
  obtain ⟨row₂, hrow₂, hlived', hsaid', hcoherent'⟩ := moves_lived (exec_moves i.2 hstep runId) hrow₁
  exact ⟨row₂, hrow₂, hlived.trans hlived', hsaid.trans hsaid', hcoherent' ∘ hcoherent⟩

/-- Whatever is committed after a Run was seen: it is still there and the same Run, each of its turns is where it was, its
version has counted the decisions that led to its state, and one that had ended shows what it showed. -/
theorem lives_kept {log : History} (h : Execution Step s log s') (hrow : s.runs.lookup runId = some row) :
    ∃ row', s'.runs.lookup runId = some row' ∧ Lived row row' ∧ ownTurns s runId <+: ownTurns s' runId ∧
      (row.status.isTerminal = true → row'.stateVersion = row.stateVersion ∧ columns row' = columns row) := by
  obtain ⟨row', hrow', hlived, hsaid, _⟩ := execution_lived h hrow
  refine ⟨row', hrow', hlived, hsaid, fun hover => ?_⟩
  have hnone := hlived.journey.ended hover
  have hsame : row'.stateVersion = row.stateVersion := by
    have := hlived.version
    omega
  exact ⟨hsame, hlived.still hsame⟩

section Admissions
variable {env : Env} {sessionId : Uuid}

/-- A row as an admission leaves it. -/
structure Fresh (row : RunRow) : Prop where
  version : row.stateVersion = 1
  queued : row.status = .queued
  coherent : Coherent (columns row)

theorem Fresh.beside {row' : RunRow} (h : Fresh row) (hb : row.Beside row') : Fresh row' := by
  refine ⟨(version_beside hb).trans h.version, (congrArg Columns.status (columns_beside hb)).trans h.queued, ?_⟩
  rw [columns_beside hb]
  exact h.coherent

def Admits (s s' : Store) : Prop :=
  ∀ id row', s'.runs.lookup id = some row' → Fresh row' ∨ ∃ row, s.runs.lookup id = some row ∧ row.Beside row'

instance : Std.Refl Admits := ⟨fun _ _ row hrow => .inr ⟨row, hrow, .refl row⟩⟩

instance : IsTrans Store Admits := by
  refine ⟨fun _ _ _ h₁ h₂ id row' hrow' => ?_⟩
  rcases h₂ id row' hrow' with hfresh | ⟨row₁, hrow₁, hb₁⟩
  · exact .inl hfresh
  · rcases h₁ id row₁ hrow₁ with hfresh | ⟨row, hrow, hb⟩
    · exact .inl (hfresh.beside hb₁)
    · exact .inr ⟨row, hrow, hb.trans hb₁⟩

theorem write_admits {f : Store → Store} (hruns : ∀ s, (f s).runs = s.runs) : Within Admits (Tx.write f : StoreTx Unit) := by
  refine Within.write fun s id row' hrow' => .inr ⟨row', ?_, .refl row'⟩
  rw [← hruns]
  exact hrow'

theorem mint_admits {id : Uuid} : Within Admits (mint id) :=
  Within.bind Within.get fun _ => Within.bind (Within.require _ _) fun _ => write_admits fun _ => rfl

theorem around_admits : Operations.Around env Admits where
  mints _ := mint_admits
  opens _ _ _ _ := Within.bind Within.get fun _ => Within.bind (Within.require _ _) fun _ => write_admits fun _ => rfl
  message _ _ _ := Within.bind (Within.fetch _ _) fun _ => Within.bind (write_admits fun _ => rfl) fun _ =>
    write_admits fun _ => rfl
  events _ _ _ := by
    intro s _ s' h id row' hrow'
    have hkept := (Housekeeping.of_appendEvents h).runs id
    rw [hrow'] at hkept
    obtain ⟨row, hrow, hk⟩ := hkept.to_some
    exact .inr ⟨row, hrow, hk.beside⟩
  grants _ _ := by
    refine write_admits fun s => ?_
    split <;> rfl

theorem Admitted.fresh (h : Operations.Admitted env row) (sequence : Nat) (blockedBy : Option Uuid) :
    Fresh { row with sessionId, sessionSequence := sequence, blockedByRunId := blockedBy } := by
  have hqueued (queuedAt : Time) : Coherent { queuedAt } :=
    ⟨by simp, by simp [waits], by simp, nofun, nofun, by simp [RunState.isTerminal], nofun, nofun⟩
  cases h <;> exact ⟨rfl, rfl, hqueued env.now⟩

theorem joins_admits : Operations.Joins env Admits := by
  intro sessionId runId row h s _ s' hs
  simp only [joinSession, insertRun, modifySession, bind_assoc, fetch_bind_ok, get_bind, require_bind_ok, write_bind,
    write_ok] at hs
  obtain ⟨session, _, _, _, rfl⟩ := hs
  intro id row' hrow'
  simp only [Table.lookup_insert_ite] at hrow'
  split at hrow'
  · cases hrow'
    exact .inl (Admitted.fresh h _ _)
  · exact .inr ⟨row', hrow', .refl row'⟩

theorem files_admits : Operations.Files Admits := fun _ => write_admits fun _ => rfl

theorem bills_admits : Operations.Bills Admits := fun _ => write_admits fun _ => rfl

theorem exec_admits {op : Op} {a : Answer} (hop : Billing.makesRuns op = true) (h : exec env op s = .ok (a, s')) :
    Admits s s' := by
  have hwithin : Within Admits (exec env op) := by
    cases op with
    | acceptRun =>
      exact Within.bind (Operations.acceptRun_within around_admits joins_admits files_admits bills_admits) fun _ =>
        Within.pure _
    | deriveRetry =>
      exact Within.bind (Operations.deriveRetry_within around_admits joins_admits files_admits bills_admits) fun _ =>
        Within.pure _
    | delegateChildren =>
      exact Within.bind (Operations.delegateChildren_within around_admits joins_admits) fun _ => Within.pure _
    | _ => cases hop
  exact hwithin h

end Admissions

/-- What the store says of a Run's state hangs together, and its version counts the decisions since it was queued. -/
structure Told (row : RunRow) : Prop where
  coherent : Coherent (columns row)
  version : 1 ≤ row.stateVersion
  journey : Journey .queued (row.stateVersion - 1) row.status

theorem Fresh.told (h : Fresh row) : Told row := by
  refine ⟨h.coherent, h.version.ge, ?_⟩
  rw [h.version, h.queued]
  exact .start

theorem Told.lived {row' : RunRow} (h : Told row) (hlived : Lived row row')
    (hcoherent : Coherent (columns row) → Coherent (columns row')) : Told row' := by
  have hle := hlived.version
  have hone := h.version
  refine ⟨hcoherent h.coherent, hone.trans hle, ?_⟩
  have hsum : row'.stateVersion - 1 = (row.stateVersion - 1) + (row'.stateVersion - row.stateVersion) := by omega
  rw [hsum]
  exact h.journey.trans hlived.journey

theorem exec_told {env : Env} {op : Op} {a : Answer} (h : exec env op s = .ok (a, s'))
    (hs : ∀ id r, s.runs.lookup id = some r → Told r) (hrow : s'.runs.lookup runId = some row) : Told row := by
  have hbefore : Fresh row ∨ ∃ before, s.runs.lookup runId = some before := by
    cases hop : Billing.makesRuns op with
    | true =>
      rcases exec_admits hop h runId row hrow with hfresh | ⟨before, hbefore, _⟩
      · exact .inl hfresh
      · exact .inr ⟨before, hbefore⟩
    | false =>
      -- no Run is made, so this one was there
      have hkin := Billing.exec_kin hop h runId
      rw [Billing.kinOf, Billing.kinOf, hrow, Option.map_some] at hkin
      obtain ⟨before, hbefore, _⟩ := Option.map_eq_some_iff.mp hkin.symm
      exact .inr ⟨before, hbefore⟩
  rcases hbefore with hfresh | ⟨before, hbefore⟩
  · exact hfresh.told
  · obtain ⟨row', hrow', hlived, _, hcoherent⟩ := moves_lived (exec_moves op h runId) hbefore
    cases hrow.symm.trans hrow'
    exact (hs runId before hbefore).lived hlived hcoherent

theorem reachable_told (h : ReachableStore s) (hrow : s.runs.lookup runId = some row) : Told row := by
  refine h.invariant (I := fun s => ∀ id r, s.runs.lookup id = some r → Told r) ?_ ?_ runId row hrow
  · intro _ _ hr
    cases hr
  · exact fun _ _ _ _ hstep hs _ _ hr => exec_told hstep hs hr

section Example

def answered : List (Env × Op) := [(clock 0, openSession 2), (clock 1, ask 2 3 "question"), (clock 2, take 5)]

def finish : List (Env × Op) := [(clock 3, .recordSlice (slice 3 5 2 (some .completed)))]

theorem answered_lived : ∃ row row', (attempt answered).2.runs.lookup 3 = some row ∧
    (replay perform (attempt answered).2 finish).2.runs.lookup 3 = some row' ∧ Lived row row' := by
  have hthere : ((attempt answered).2.runs.lookup 3).isSome = true := by decide +kernel
  obtain ⟨row, hrow⟩ := Option.isSome_iff_exists.mp hthere
  have hrun : Execution Step (attempt answered).2 (replay perform (attempt answered).2 finish).1
      (replay perform (attempt answered).2 finish).2 :=
    replay_execution perform (fun _ _ _ _ h => ok_of_toOption h) _ _
  obtain ⟨row', hrow', hlived, _⟩ := lives_kept hrun hrow
  exact ⟨row, row', hrow, hrow', hlived⟩

theorem answered_told : ∃ row, (attempt answered).2.runs.lookup 3 = some row ∧ Told row := by
  have hthere : ((attempt answered).2.runs.lookup 3).isSome = true := by decide +kernel
  obtain ⟨row, hrow⟩ := Option.isSome_iff_exists.mp hthere
  exact ⟨row, hrow, reachable_told ⟨_, attempt_executes answered⟩ hrow⟩

end Example
end TinyHermes.Runs.RunLives
