import TinyHermes.Runs.RunMoves
import TinyHermes.Runs.SlicePolicy

/-! Lease fencing: who may write for a Run, over any interleaving of Workers and the Scheduler. -/
namespace TinyHermes.Runs.LeaseFencing
open Lib StateMachine SlicePolicy SqlRunStore RunMoves Tx

/-- A recorded slice leaves `running` when it changes the state at all. -/
def LeavesRunning (signal : RunSignal) : Prop := (transitions .running signal).isSome = true

/-- The signals the callers of the store really send: only `claim_head` acquires a lease, the control routes pause, resume and
cancel, a round ends as the slice policy decides, and a committed checkpoint carries none. -/
def AsCalled : Op → Prop
  | .applySignal cmd => cmd.signal ≠ .leaseAcquired
  | .controlRun _ _ _ signal _ _ => signal ∈ [.pauseRequested, .resumeRequested, .cancelRequested]
  | .recordSlice cmd | .recordRound cmd => ∀ signal, cmd.signal = some signal → LeavesRunning signal
  | .commitCheckpoint commit => commit.slice.signal = none
  | _ => True

variable {row : RunRow} {env : Env} {s s' : Store}

section Leases
variable {A : Allowed}

/-- The part of an operation whose signals are those its callers send. -/
structure Fenced (A : Allowed) : Prop where
  applies : ∀ signal, A.applies signal → signal ≠ .leaseAcquired
  records : ∀ cmd, A.records cmd → ∀ signal, cmd.signal = some signal → LeavesRunning signal

theorem AsCalled.fenced {op : Op} (h : AsCalled op) (runId : Uuid) : Fenced (op.allows runId) := by
  cases op with
  | applySignal =>
    refine ⟨?_, fun _ hr => hr.elim⟩
    rintro signal ⟨_, rfl⟩
    exact h
  | controlRun _ _ _ signal =>
    refine ⟨?_, fun _ hr => hr.elim⟩
    rintro signal ⟨_, rfl⟩ rfl
    simp [AsCalled] at h
  | recordSlice cmd =>
    refine ⟨fun _ ha => ha.elim, ?_⟩
    rintro cmd ⟨_, rfl⟩
    exact h
  | recordRound cmd =>
    refine ⟨?_, ?_⟩
    · rintro signal ⟨_, _, rfl⟩
      decide
    · rintro cmd ⟨_, rfl⟩
      exact h
  | commitCheckpoint commit =>
    refine ⟨fun _ ha => ha.elim, ?_⟩
    rintro _ ⟨_, rfl⟩ signal hs
    have hnone : commit.slice.signal = none := h
    rw [hnone] at hs
    cases hs
  | _ => exact ⟨fun _ ha => ha.elim, fun _ hr => hr.elim⟩

structure LeaseSound (v : RunView) : Prop where
  unborn : v.row = none → v.lease = none
  held : ∀ row, v.row = some row → row.status = .running → ∃ lease, v.lease = some lease ∧ lease.releasedAt = none
  free : ∀ row lease, v.row = some row → row.status ≠ .running → v.lease = some lease → lease.releasedAt ≠ none

theorem LeaseSound.congr {v v' : RunView} (h : LeaseSound v) (hlease : v'.lease = v.lease)
    (hrow : v'.row.map (·.status) = v.row.map (·.status)) : LeaseSound v' where
  unborn hnone := by
    rw [hlease]
    refine h.unborn ?_
    rw [hnone] at hrow
    simpa using hrow.symm
  held row hr hs := by
    rw [hlease]
    rw [hr, Option.map_some] at hrow
    obtain ⟨row₀, hr₀, heq⟩ := Option.map_eq_some_iff.mp hrow.symm
    exact h.held row₀ hr₀ (heq.trans hs)
  free row lease hr hs hl := by
    rw [hlease] at hl
    rw [hr, Option.map_some] at hrow
    obtain ⟨row₀, hr₀, heq⟩ := Option.map_eq_some_iff.mp hrow.symm
    exact h.free row₀ lease hr₀ (by rwa [heq]) hl

theorem LeaseSound.of_released {v : RunView} (hrow : v.row = some row) (hs : row.status ≠ .running)
    (hlease : ∀ lease, v.lease = some lease → lease.releasedAt ≠ none) : LeaseSound v where
  unborn hnone := by
    rw [hrow] at hnone
    cases hnone
  held row' hr' hs' := by
    cases hrow.symm.trans hr'
    exact absurd hs' hs
  free _ lease _ _ hl := hlease lease hl

theorem released_ne_none (now : Time) (lease : WorkerLeaseRow) : (released now lease).releasedAt ≠ none := by
  unfold released
  split
  · simp
  · assumption

theorem transitions_to_running {st : RunState} {signal : RunSignal} (h : transitions st signal = some .running) :
    signal = .leaseAcquired := by
  cases st <;> cases signal <;> simp [transitions] at h ⊢

theorem sweep_not_running {signal : RunSignal} (h : signal ∈ sweepSignals) :
    transitions .running signal = none ∧ signal ≠ .leaseAcquired := by
  simp only [sweepSignals, List.mem_cons, List.not_mem_nil, or_false] at h
  rcases h with rfl | rfl | rfl | rfl | rfl | rfl <;> exact ⟨rfl, by decide⟩

theorem leaseSound_move {v v' : RunView} (hA : Fenced A) (hmove : RunMove A v v') (h : LeaseSound v) :
    LeaseSound v' := by
  cases hmove with
  | beside hb =>
    exact h.congr hb.lease (hb.map_row fun r r' hr => by rw [hr])
  | born hnew hrow =>
    refine .of_released rfl ?_ fun lease hl => ?_
    · rw [hrow.queued]
      decide
    · rw [h.unborn hnew] at hl
      cases hl
  | @claimed row d lease now hrow hd _ _ hheld =>
    have hrunning : d.state = .running := by
      obtain ⟨_, _, _, _, _, hd⟩ := hd
      exact (decide_leaseAcquired hd).2
    refine ⟨fun hnone => (nomatch hnone), fun _ _ _ => ⟨lease, rfl, hheld⟩, fun row' _ hr hs _ => ?_⟩
    cases hr
    exact absurd hrunning hs
  | @renewed lease lease' hlease hheld _ hheld' =>
    refine ⟨fun hnone => ?_, fun row hr hs => ⟨lease', rfl, hheld'⟩, fun row l hr hs _ => ?_⟩
    · rw [h.unborn hnone] at hlease
      cases hlease
    · exact absurd hheld (h.free row lease hr hs hlease)
  | @sent row lease sending key waiting drawn hrow =>
    exact h.congr rfl (by rw [hrow]; rfl)
  | @recorded row lease cmd now hrow =>
    exact h.congr rfl (by rw [hrow]; rfl)
  | @ended row lease cmd signal d now hrow hrecord hsignal hlease hheld hd =>
    have hleaves := hA.records cmd hrecord signal hsignal
    refine .of_released rfl (fun hs => ?_) fun l hl => ?_
    · have hstate : d.state = .running := hs
      rcases hd.cases with ⟨_, _, rfl | rfl⟩ | ht
      · cases hleaves
      · cases hleaves
      · rw [hstate] at ht
        obtain rfl := transitions_to_running ht
        cases hleaves
    · cases hl
      exact released_ne_none now lease
  | @signalled row signal d clears now hrow happly hd _ =>
    by_cases hs : d.state = .running
    · have hbefore : row.status = .running := by
        rcases hd.cases with ⟨hr, _, _⟩ | ht
        · exact hr
        · rw [hs] at ht
          exact absurd (transitions_to_running ht) (hA.applies signal happly)
      refine h.congr (if_pos hs) ?_
      rw [hrow, Option.map_some, Option.map_some, hbefore, cleaned_status]
      exact congrArg some hs
    · refine .of_released rfl (by rwa [cleaned_status]) fun l hl => ?_
      rw [if_neg hs] at hl
      obtain ⟨lease, _, rfl⟩ := Option.map_eq_some_iff.mp hl
      exact released_ne_none now lease
  | @swept row signal d now hrow hsignal hd _ =>
    obtain ⟨hnone, hne⟩ := sweep_not_running hsignal
    rcases hd.cases with ⟨hbefore, hafter, _⟩ | ht
    · refine h.congr rfl ?_
      rw [hrow, Option.map_some, Option.map_some, hbefore]
      exact congrArg some hafter
    · have hbefore : row.status ≠ .running := by
        intro hr
        rw [hr, hnone] at ht
        cases ht
      refine .of_released rfl (fun hs => ?_) fun l hl => h.free row l hrow hbefore hl
      have hstate : d.state = .running := hs
      rw [hstate] at ht
      exact hne (transitions_to_running ht)
  | @reclaimed row d now hrow hd =>
    refine .of_released rfl (fun hs => ?_) fun l hl => ?_
    · have hstate : d.state = .running := hs
      rcases hd.cases with ⟨_, _, hc | hc⟩ | ht
      · cases hc
      · cases hc
      · rw [hstate] at ht
        cases transitions_to_running ht
    · obtain ⟨lease, _, rfl⟩ := Option.map_eq_some_iff.mp hl
      exact released_ne_none now lease
  | @told row sending turn answers hrow =>
    exact h.congr rfl (by rw [hrow]; rfl)

theorem exec_leaseSound {op : Op} {a : Answer} (hop : AsCalled op)
    (h : exec env op s = .ok (a, s')) (hs : ∀ id, LeaseSound (view s id)) (id : Uuid) : LeaseSound (view s' id) :=
  keep_moves (fun _ _ => leaseSound_move (hop.fenced id)) (exec_moves op h id) (hs id)

theorem leaseId_move {v v' : RunView} (hA : ∀ id, ¬ A.claims id) (hmove : RunMove A v v') :
    v'.lease.map (·.id) = v.lease.map (·.id) := by
  have hreleased : ∀ (now : Time) (lease : WorkerLeaseRow), (released now lease).id = lease.id := by
    intro now lease
    unfold released
    split <;> rfl
  cases hmove with
  | beside hb => rw [hb.lease]
  | born => rfl
  | @claimed row d lease now _ _ hclaim => exact absurd hclaim (hA lease.id)
  | @renewed lease lease' hlease _ hid _ => rw [hlease, Option.map_some, Option.map_some, hid]
  | sent => rfl
  | recorded => rfl
  | @ended row lease cmd signal d now _ _ _ hlease => rw [hlease, Option.map_some, Option.map_some, hreleased]
  | @signalled row signal d clears now =>
    by_cases hs : d.state = .running
    · simp [hs]
    · simp only [hs, if_false, Option.map_map]
      exact congrArg (Option.map · _) (funext fun lease => hreleased now lease)
  | swept => rfl
  | @reclaimed row d now =>
    simp only [Option.map_map]
    exact congrArg (Option.map · _) (funext fun lease => hreleased now lease)
  | told => rfl

end Leases

def claimOf (c : Commit Store (Env × Op) Answer) : Option (Uuid × Uuid) :=
  match c.answer with
  | .claimed (some run) => some (run.runId, run.leaseId)
  | _ => none

def lastClaim (log : History) (runId : Uuid) : Option Uuid :=
  ((log.filterMap claimOf).filter fun e => e.1 = runId).getLast?.map (·.2)

theorem lastClaim_snoc (log : History) (c : Commit Store (Env × Op) Answer) (runId : Uuid) :
    lastClaim (log ++ [c]) runId =
      match claimOf c with
      | some (id, leaseId) => if id = runId then some leaseId else lastClaim log runId
      | none => lastClaim log runId := by
  unfold lastClaim
  cases hc : claimOf c with
  | none => simp [hc]
  | some e =>
    obtain ⟨id, _⟩ := e
    by_cases hid : id = runId
    · simp [hc, hid]
    · simp [hc, hid]

theorem claimOf_eq_none {op : Op} {a : Answer} (h : exec env op s = .ok (a, s'))
    (hop : ¬ ∃ cmd leaseId, op = .claimHead cmd leaseId) : claimOf ⟨s, (env, op), a, s'⟩ = none := by
  cases op with
  | claimHead cmd leaseId => exact absurd ⟨cmd, leaseId, rfl⟩ hop
  | _ =>
    obtain ⟨_, _, _, hpure⟩ := bind_ok.mp h
    obtain ⟨rfl, _⟩ := pure_ok.mp hpure
    rfl

theorem exec_leaseId {op : Op} {a : Answer} (h : exec env op s = .ok (a, s')) (runId : Uuid) :
    (s'.leases.lookup runId).map (·.id) =
      match claimOf ⟨s, (env, op), a, s'⟩ with
      | some (id, leaseId) => if id = runId then some leaseId else (s.leases.lookup runId).map (·.id)
      | none => (s.leases.lookup runId).map (·.id) := by
  by_cases hclaim : ∃ cmd leaseId, op = .claimHead cmd leaseId
  · obtain ⟨cmd, leaseId, rfl⟩ := hclaim
    obtain ⟨_, _, hrun, hpure⟩ := bind_ok.mp h
    obtain ⟨rfl, rfl⟩ := pure_ok.mp hpure
    rcases claimHead_spec hrun with ⟨rfl, rfl⟩ | ⟨id, _, _, _, _, _, _, _, rfl, rfl, rfl, _, _, _, _, _,
      rfl, rfl, hev⟩
    · rfl
    · simp only [claimOf]
      rw [(Housekeeping.of_appendEvents hev).leases]
      split
      · next hid => simp [hid, leaseFor]
      · next hid => rw [AList.lookup_insert_ne (Ne.symm hid)]
  · have hnone : ∀ id, ¬ (op.allows runId).claims id := by
      intro id hid
      cases op with
      | claimHead cmd leaseId => exact hclaim ⟨cmd, leaseId, rfl⟩
      | _ => exact hid
    have hkeep := keep_moves (I := fun v => v.lease.map (·.id) = (s.leases.lookup runId).map (·.id))
      (fun v v' hm hv => (leaseId_move hnone hm).trans hv) (exec_moves op h runId) rfl
    rw [claimOf_eq_none h hclaim]
    exact hkeep

theorem executes_leaseSound {log : History} (h : Executes log s) (hcalled : ∀ c ∈ log, AsCalled c.input.2)
    (id : Uuid) : LeaseSound (view s id) := by
  induction h generalizing id with
  | nil => exact ⟨fun _ => rfl, fun _ hr => (nomatch hr), fun _ _ hr => (nomatch hr)⟩
  | snoc _ hstep ih =>
    refine exec_leaseSound (hcalled _ (List.mem_append_right _ (List.mem_singleton_self _))) hstep (fun id' => ?_) id
    exact ih (fun c hc => hcalled c (List.mem_append_left _ hc)) id'

theorem executes_lastClaim {log : History} (h : Executes log s) (runId : Uuid) :
    (s.leases.lookup runId).map (·.id) = lastClaim log runId := by
  induction h with
  | nil => rfl
  | snoc _ hstep ih => rw [exec_leaseId hstep, lastClaim_snoc, ih]

def presents : Op → Option (Uuid × Uuid)
  | .reserveToolCall _ runId leaseId => some (runId, leaseId)
  | .reserveOutsideCall _ runId leaseId _ _ => some (runId, leaseId)
  | .recordSlice cmd | .recordRound cmd => some (cmd.runId, cmd.leaseId)
  | .commitCheckpoint commit => some (commit.slice.runId, commit.slice.leaseId)
  | _ => none

/-- The transaction wrote what it was asked to; only a checkpoint whose revision is no longer the
Session's ends without having written anything. -/
def Wrote (a : Answer) : Prop := a ≠ .committed false

theorem recordSlice_held {cmd : RecordSliceCommand} {u : Unit}
    (h : recordSlice env cmd s = .ok (u, s')) : ∃ row lease, SliceHeld s cmd row lease := by
  obtain ⟨row, lease, _, held, _⟩ := recordSlice_cases h
  exact ⟨row, lease, held⟩

theorem commitCheckpoint_held {commit : CommitCheckpoint} {moved : Bool}
    (h : commitCheckpoint env commit s = .ok (moved, s')) :
    (moved = false ∧ s' = s) ∨ (moved = true ∧ ∃ row lease, SliceHeld s commit.slice row lease) := by
  simp only [commitCheckpoint, lockSession, fetch_bind_ok] at h
  obtain ⟨_, _, h⟩ := h
  split at h
  · obtain ⟨rfl, rfl⟩ := pure_ok.mp h
    exact .inl ⟨rfl, rfl⟩
  · simp only [mint, modifySession, modifyRun, bind_assoc, get_bind, require_bind_ok, write_bind] at h
    obtain ⟨_, h⟩ := h
    obtain ⟨_, _, hrec, h⟩ := bind_ok.mp h
    rw [write_bind, pure_ok] at h
    obtain ⟨row, lease, held⟩ := recordSlice_held hrec
    exact .inr ⟨h.1.symm, row, lease, held.stored, held.version, held.leased, held.leaseId, held.unreleased⟩

theorem presents_held {op : Op} {a : Answer} {runId leaseId : Uuid}
    (h : exec env op s = .ok (a, s')) (hp : presents op = some (runId, leaseId)) (hw : Wrote a) :
    ∃ lease, s.leases.lookup runId = some lease ∧ lease.id = leaseId ∧ lease.releasedAt = none := by
  cases op with
  | reserveToolCall =>
    cases hp
    obtain ⟨_, _, hrun, _⟩ := bind_ok.mp h
    obtain ⟨_, lease, _, _, hlease, hid, hheld, _, _⟩ := chargeToolCall_spec hrun
    exact ⟨lease, hlease, hid, hheld⟩
  | reserveOutsideCall =>
    cases hp
    obtain ⟨_, _, hrun, _⟩ := bind_ok.mp h
    obtain ⟨_, lease, _, _, hlease, hid, hheld, _, _⟩ := reserveOutsideCall_spec hrun
    exact ⟨lease, hlease, hid, hheld⟩
  | recordSlice =>
    cases hp
    obtain ⟨_, _, hrun, _⟩ := bind_ok.mp h
    obtain ⟨_, lease, held⟩ := recordSlice_held hrun
    exact ⟨lease, held.leased, held.leaseId, held.unreleased⟩
  | recordRound =>
    cases hp
    obtain ⟨_, _, hround, _⟩ := bind_ok.mp h
    obtain ⟨_, _, hrun, _⟩ := bind_ok.mp hround
    obtain ⟨_, lease, held⟩ := recordSlice_held hrun
    exact ⟨lease, held.leased, held.leaseId, held.unreleased⟩
  | commitCheckpoint =>
    cases hp
    obtain ⟨_, _, hrun, hpure⟩ := bind_ok.mp h
    obtain ⟨rfl, rfl⟩ := pure_ok.mp hpure
    rcases commitCheckpoint_held hrun with ⟨rfl, _⟩ | ⟨_, _, lease, held⟩
    · exact absurd rfl hw
    · exact ⟨lease, held.leased, held.leaseId, held.unreleased⟩
  | _ => cases hp

section Versions
variable {A : Allowed}

/-- The version never goes back, and a change of state moves it forward. -/
def Advanced (row row' : RunRow) : Prop :=
  row.stateVersion ≤ row'.stateVersion ∧ (row'.status ≠ row.status → row.stateVersion < row'.stateVersion)

theorem Advanced.refl (row : RunRow) : Advanced row row := ⟨le_rfl, fun h => absurd rfl h⟩

theorem Advanced.of_succ {row' : RunRow} (h : row'.stateVersion = row.stateVersion + 1) : Advanced row row' :=
  ⟨by omega, fun _ => by omega⟩

theorem Advanced.of_same {row' : RunRow} (hv : row'.stateVersion = row.stateVersion)
    (hs : row'.status = row.status) : Advanced row row' :=
  ⟨hv.ge, fun h => absurd hs h⟩

theorem Advanced.trans {r₁ r₂ r₃ : RunRow} (h₁ : Advanced r₁ r₂) (h₂ : Advanced r₂ r₃) : Advanced r₁ r₃ := by
  refine ⟨h₁.1.trans h₂.1, fun hne => ?_⟩
  by_cases hs : r₂.status = r₁.status
  · rw [← hs] at hne
    exact lt_of_le_of_lt h₁.1 (h₂.2 hne)
  · exact lt_of_lt_of_le (h₁.2 hs) h₂.1

theorem version_move {v v' : RunView} (hmove : RunMove A v v') (hrow : v.row = some row) :
    ∃ row', v'.row = some row' ∧ Advanced row row' := by
  cases hmove with
  | beside hb =>
    have hb := hb.row
    rw [hrow] at hb
    obtain ⟨row', hrow', hk⟩ := hb.of_some
    exact ⟨row', hrow', .of_same (by rw [hk]) (by rw [hk])⟩
  | born hnew =>
    rw [hrow] at hnew
    cases hnew
  | claimed now hr =>
    cases hrow.symm.trans hr
    exact ⟨_, rfl, .of_succ rfl⟩
  | renewed => exact ⟨row, hrow, .refl row⟩
  | sent hr =>
    cases hrow.symm.trans hr
    exact ⟨_, rfl, .of_same rfl rfl⟩
  | recorded now hr =>
    cases hrow.symm.trans hr
    exact ⟨_, rfl, .of_same rfl rfl⟩
  | ended now hr =>
    cases hrow.symm.trans hr
    exact ⟨_, rfl, .of_succ rfl⟩
  | signalled clears now hr =>
    cases hrow.symm.trans hr
    exact ⟨_, rfl, .of_succ (by cases clears <;> rfl)⟩
  | swept now hr =>
    cases hrow.symm.trans hr
    exact ⟨_, rfl, .of_succ rfl⟩
  | reclaimed now hr =>
    cases hrow.symm.trans hr
    exact ⟨_, rfl, .of_succ rfl⟩
  | told hr =>
    cases hrow.symm.trans hr
    exact ⟨_, rfl, .of_same rfl rfl⟩

theorem exec_advances {op : Op} {a : Answer} {runId : Uuid}
    (h : exec env op s = .ok (a, s')) (hrow : s.runs.lookup runId = some row) :
    ∃ row', s'.runs.lookup runId = some row' ∧ Advanced row row' := by
  refine keep_moves (I := fun v => ∃ row', v.row = some row' ∧ Advanced row row') (fun v v' hm hv => ?_)
    (exec_moves op h runId) ⟨row, hrow, .refl row⟩
  obtain ⟨_, hrow₁, h₁⟩ := hv
  obtain ⟨row₂, hrow₂, h₂⟩ := version_move hm hrow₁
  exact ⟨row₂, hrow₂, h₁.trans h₂⟩

end Versions

def expects : Op → Option (Uuid × Nat)
  | .applySignal cmd => cmd.expectedStateVersion.map fun version => (cmd.runId, version)
  | .controlRun _ _ runId _ _ version => some (runId, version)
  | .widenBudget _ _ runId version _ => some (runId, version)
  | .recordSlice cmd | .recordRound cmd => some (cmd.runId, cmd.expectedStateVersion)
  | .commitCheckpoint commit => some (commit.slice.runId, commit.slice.expectedStateVersion)
  | _ => none

theorem applySignal_version {cmd : ApplySignalCommand} {version : Nat} {u : Unit}
    (h : applySignal env cmd s = .ok (u, s')) (hv : cmd.expectedStateVersion = some version) :
    ∃ row, s.runs.lookup cmd.runId = some row ∧ row.stateVersion = version := by
  simp only [applySignal, lockRun, fetch_bind_ok, require_bind_ok] at h
  obtain ⟨row, hrow, hversion, _⟩ := h
  refine ⟨row, (Option.filter_eq_some_iff.mp hrow).1, ?_⟩
  simpa [hv, eq_comm] using hversion

theorem expects_version {op : Op} {a : Answer} {runId : Uuid} {version : Nat}
    (h : exec env op s = .ok (a, s')) (hp : expects op = some (runId, version)) :
    s' = s ∨ ∃ row, s.runs.lookup runId = some row ∧ row.stateVersion = version := by
  cases op with
  | applySignal =>
    obtain ⟨_, hv, heq⟩ := Option.map_eq_some_iff.mp hp
    cases heq
    obtain ⟨_, _, hrun, _⟩ := bind_ok.mp h
    exact .inr (applySignal_version hrun hv)
  | controlRun =>
    cases hp
    obtain ⟨_, _, hrun, _⟩ := bind_ok.mp h
    rw [controlRun, require_bind_ok] at hrun
    exact .inr (applySignal_version hrun.2 rfl)
  | widenBudget =>
    cases hp
    obtain ⟨_, _, hrun, _⟩ := bind_ok.mp h
    simp only [widenBudget, lockRun, require_bind_ok, fetch_bind_ok] at hrun
    obtain ⟨_, row, hrow, hversion, _⟩ := hrun
    exact .inr ⟨row, (Option.filter_eq_some_iff.mp hrow).1, hversion⟩
  | recordSlice =>
    cases hp
    obtain ⟨_, _, hrun, _⟩ := bind_ok.mp h
    obtain ⟨row, _, held⟩ := recordSlice_held hrun
    exact .inr ⟨row, held.stored, held.version⟩
  | recordRound =>
    cases hp
    obtain ⟨_, _, hround, _⟩ := bind_ok.mp h
    obtain ⟨_, _, hrun, _⟩ := bind_ok.mp hround
    obtain ⟨row, _, held⟩ := recordSlice_held hrun
    exact .inr ⟨row, held.stored, held.version⟩
  | commitCheckpoint =>
    cases hp
    obtain ⟨_, _, hrun, hpure⟩ := bind_ok.mp h
    obtain ⟨_, rfl⟩ := pure_ok.mp hpure
    rcases commitCheckpoint_held hrun with ⟨_, rfl⟩ | ⟨_, row, _, held⟩
    · exact .inl rfl
    · exact .inr ⟨row, held.stored, held.version⟩
  | _ => cases hp

def Moved (c : Commit Store (Env × Op) Answer) (runId : Uuid) : Prop :=
  ∃ row row', c.before.runs.lookup runId = some row ∧ c.after.runs.lookup runId = some row' ∧
    (row'.status ≠ row.status ∨ row'.stateVersion ≠ row.stateVersion)

theorem execution_advances {log : History} {runId : Uuid}
    (h : Execution Step s log s') (hrow : s.runs.lookup runId = some row) :
    ∃ row', s'.runs.lookup runId = some row' ∧ Advanced row row' := by
  refine h.invariant (I := fun t => ∃ row', t.runs.lookup runId = some row' ∧ Advanced row row') ⟨row, hrow, .refl row⟩ ?_
  rintro _ _ _ _ hstep ⟨_, hrow₁, h₁⟩
  obtain ⟨row₂, hrow₂, h₂⟩ := exec_advances hstep hrow₁
  exact ⟨row₂, hrow₂, h₁.trans h₂⟩

def heldLeases (s : Store) (runId : Uuid) : Nat :=
  s.leases.count fun id lease => decide (id = runId) && lease.releasedAt.isNone

theorem LeaseSound.heldLeases {runId : Uuid} (h : LeaseSound (view s runId))
    (hrow : s.runs.lookup runId = some row) :
    heldLeases s runId = if row.status = .running then 1 else 0 := by
  rw [LeaseFencing.heldLeases, Table.count_key]
  by_cases hs : row.status = .running
  · obtain ⟨lease, hlease, hheld⟩ := h.held row hrow hs
    have hlease : s.leases.lookup runId = some lease := hlease
    simp [hlease, hheld, hs]
  · rw [if_neg hs]
    cases hlease : s.leases.lookup runId with
    | none => rfl
    | some lease =>
      have hreleased := h.free row lease hrow hs hlease
      cases hr : lease.releasedAt with
      | none => exact absurd hr hreleased
      | some => simp [hr]

/-- Fencing over whole histories. A Run has one unreleased lease while it is running and none
otherwise; a slice or a reservation is only ever written under the lease the Run's latest claim
minted, while that lease is unreleased; and a change of state moves the version forward, so that
of two commands made for one version of a Run the earlier cannot have moved it. -/
theorem leases_fence (log : History) (s : Store) (h : Executes log s) (hcalled : ∀ c ∈ log, AsCalled c.input.2) :
    (∀ runId row, s.runs.lookup runId = some row → heldLeases s runId = if row.status = .running then 1 else 0) ∧
      (∀ l c r, log = l ++ c :: r → ∀ runId leaseId, presents c.input.2 = some (runId, leaseId) → Wrote c.answer →
        lastClaim l runId = some leaseId ∧
          ∃ lease, c.before.leases.lookup runId = some lease ∧ lease.id = leaseId ∧ lease.releasedAt = none) ∧
      (∀ c ∈ log, ∀ runId row row', c.before.runs.lookup runId = some row → c.after.runs.lookup runId = some row' →
        row'.status ≠ row.status → row.stateVersion < row'.stateVersion) ∧
      (∀ l₁ c₁ l₂ c₂ l₃, log = l₁ ++ c₁ :: (l₂ ++ c₂ :: l₃) → ∀ runId version,
        expects c₁.input.2 = some (runId, version) → expects c₂.input.2 = some (runId, version) →
          ¬ (Moved c₁ runId ∧ Moved c₂ runId)) := by
  refine ⟨fun runId row hrow => ?_, ?_, ?_, ?_⟩
  · exact (executes_leaseSound h hcalled runId).heldLeases hrow
  · rintro l c r rfl runId _ hp hw
    obtain ⟨hl, hstep, _⟩ := h.split
    obtain ⟨lease, hlease, hid, hheld⟩ := presents_held hstep hp hw
    refine ⟨?_, lease, hlease, hid, hheld⟩
    rw [← executes_lastClaim hl, hlease, Option.map_some, hid]
  · intro _ hc runId row row' hrow hrow' hne
    obtain ⟨_, r, rfl⟩ := List.append_of_mem hc
    obtain ⟨_, hstep, _⟩ := h.split
    obtain ⟨row₁, hrow₁, hadv⟩ := exec_advances hstep hrow
    cases hrow'.symm.trans hrow₁
    exact hadv.2 hne
  · rintro _ _ _ _ _ rfl _ version h₁ h₂ ⟨⟨row, row', hrow, hrow', hmoved⟩, row₂, _, hrow₂, hrow₂', hmoved₂⟩
    obtain ⟨_, hstep₁, hrest⟩ := h.split
    obtain ⟨hbetween, hstep₂, _⟩ := hrest.split
    -- the first command found the version it was made for, and left a later one behind
    obtain ⟨_, hrow₁, hadv⟩ := exec_advances hstep₁ hrow
    cases hrow'.symm.trans hrow₁
    have hlater : row.stateVersion < row'.stateVersion := by
      rcases hmoved with hs | hv
      · exact hadv.2 hs
      · exact lt_of_le_of_ne hadv.1 (Ne.symm hv)
    have hfirst : row.stateVersion = version := by
      rcases expects_version hstep₁ h₁ with hsame | ⟨r, hr, hv⟩
      · rw [hsame, hrow] at hrow'
        rw [Option.some.inj hrow'] at hlater
        exact absurd hlater (lt_irrefl _)
      · rw [Option.some.inj (hrow.symm.trans hr)]
        exact hv
    -- the second one can only have found a later version still
    obtain ⟨_, hrow₃, hadv₃⟩ := execution_advances hbetween hrow'
    cases hrow₂.symm.trans hrow₃
    have hsecond : row₂.stateVersion = version := by
      rcases expects_version hstep₂ h₂ with hsame | ⟨_, hr, hv⟩
      · rw [hsame, hrow₂] at hrow₂'
        cases hrow₂'
        simp at hmoved₂
      · rw [Option.some.inj (hrow₂.symm.trans hr)]
        exact hv
    have := hadv₃.1
    omega

def takenTwice : List (Env × Op) :=
  [(clock 0, openSession 2), (clock 1, ask 2 3 "question"), (clock 2, take 5),
    (clock 3, .recordSlice (slice 3 5 2 (some .sliceEnded))), (clock 4, take 6)]

theorem taken_twice_fenced :
    (attempt takenTwice).1.length = 5 ∧ lastClaim (attempt takenTwice).1 3 = some 6 ∧
      heldLeases (attempt takenTwice).2 3 = 1 := by
  refine ⟨by decide, by decide, ?_⟩
  have h := (leases_fence _ _ (attempt_executes takenTwice) fun c hc => ?_).1
  · exact h 3 _ rfl
  · have hin := attempt_inputs takenTwice c hc
    simp only [takenTwice, List.mem_cons, List.not_mem_nil, or_false] at hin
    rcases hin with h | h | h | h | h
    · rw [h]
      trivial
    · rw [h]
      trivial
    · rw [h]
      trivial
    · rw [h]
      intro _ hs
      cases hs
      rfl
    · rw [h]
      trivial

end TinyHermes.Runs.LeaseFencing
