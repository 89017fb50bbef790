import TinyHermes.Lib.LimitedEntry
import TinyHermes.Runs.ConcurrentClaims

/-! How many Runs of a workspace, and of one person in it, are running while claims overlap. -/
namespace TinyHermes.Runs.RunningLimits
open Lib Tx SqlRunStore StateMachine ConcurrentClaims RunMoves LeaseFencing ClaimProgress LimitedEntry

section Committed
variable {env : Env} {s s' : Store}

def NoneStarts (s s' : Store) : Prop :=
  ∀ id row', s'.runs.lookup id = some row' → row'.status = .running →
    ∃ row, s.runs.lookup id = some row ∧ row.status = .running ∧ row'.workspaceId = row.workspaceId ∧
      row'.sessionId = row.sessionId

theorem running_move {A : Allowed} {v v' : RunView} {row' : RunRow} (hA : Fenced A) (hclaim : ∀ id, ¬ A.claims id)
    (hmove : RunMove A v v') (hrow' : v'.row = some row') (hrunning : row'.status = .running) :
    ∃ row, v.row = some row ∧ row.status = .running := by
  have hdecided : ∀ {row : RunRow} {signal : RunSignal} {d : StateDecision}, Decides row signal d →
      signal ≠ .leaseAcquired → d.state = .running → row.status = .running := by
    intro row _ _ hd hne hstate
    rcases hd.cases with ⟨hbefore, _, _⟩ | ht
    · exact hbefore
    · rw [hstate] at ht
      exact absurd (transitions_to_running ht) hne
  cases hmove with
  | beside hb =>
    have hb := hb.row
    rw [hrow'] at hb
    obtain ⟨row, hrow, hk⟩ := hb.to_some
    refine ⟨row, hrow, ?_⟩
    rw [hk] at hrunning
    exact hrunning
  | born hnew hborn =>
    cases hrow'
    rw [hborn.queued] at hrunning
    cases hrunning
  | claimed now hr hd hallowed => exact absurd hallowed (hclaim _)
  | renewed => exact ⟨row', hrow', hrunning⟩
  | sent hr =>
    cases hrow'
    exact ⟨_, hr, hrunning⟩
  | recorded now hr =>
    cases hrow'
    exact ⟨_, hr, hrunning⟩
  | ended now hr hrecord hsignal hlease hheld hd =>
    cases hrow'
    refine ⟨_, hr, hdecided hd ?_ hrunning⟩
    rintro rfl
    cases hA.records _ hrecord _ hsignal
  | signalled clears now hr happly hd =>
    cases hrow'
    rw [cleaned_status] at hrunning
    exact ⟨_, hr, hdecided hd (hA.applies _ happly) hrunning⟩
  | swept now hr hsignal hd =>
    cases hrow'
    exact ⟨_, hr, hdecided hd (sweep_not_running hsignal).2 hrunning⟩
  | reclaimed now hr hd =>
    cases hrow'
    exact ⟨_, hr, hdecided hd (by decide) hrunning⟩
  | told hr =>
    cases hrow'
    exact ⟨_, hr, hrunning⟩

theorem running_moves {A : Allowed} {v v' : RunView} {row' : RunRow} (hA : Fenced A) (hclaim : ∀ id, ¬ A.claims id)
    (h : Relation.ReflTransGen (RunMove A) v v') (hrow' : v'.row = some row') (hrunning : row'.status = .running) :
    ∃ row, v.row = some row ∧ row.status = .running ∧ identity row' = identity row := by
  induction h generalizing row' with
  | refl => exact ⟨row', hrow', hrunning, rfl⟩
  | tail _ hlast ih =>
    obtain ⟨_, hmid, hmidrunning⟩ := running_move hA hclaim hlast hrow' hrunning
    obtain ⟨row, hrow, hrowrunning, hsame⟩ := ih hmid hmidrunning
    refine ⟨row, hrow, hrowrunning, ?_⟩
    rcases identity_move hlast hrow' with ⟨hnone, _⟩ | ⟨_, hmid', hsame'⟩
    · rw [hmid] at hnone
      cases hnone
    · cases hmid.symm.trans hmid'
      exact hsame'.trans hsame

theorem exec_noneStarts {op : Op} {answer : Answer} (hperm : (Act.beside op).Permitted)
    (h : exec env op s = .ok (answer, s')) : NoneStarts s s' := by
  intro id _ hrow' hrunning
  have hcalled : AsCalled op ∧ ∀ leaseId, ¬ (op.allows id).claims leaseId := by
    cases op with
    | claimHead => exact hperm.elim
    | _ => exact ⟨hperm, fun _ hclaim => hclaim⟩
  obtain ⟨row, hrow, hbefore, hsame⟩ :=
    running_moves (hcalled.1.fenced id) hcalled.2 (exec_moves op h id) hrow' hrunning
  exact ⟨row, hrow, hbefore, congrArg Identity.workspaceId hsame, congrArg Identity.sessionId hsame⟩

def KeepsCallers (s s' : Store) : Prop :=
  ∀ id row, s.sessions.lookup id = some row → ∃ row', s'.sessions.lookup id = some row' ∧ row'.caller = row.caller

instance : Std.Refl KeepsCallers := ⟨fun _ _ row h => ⟨row, h, rfl⟩⟩

instance : IsTrans Store KeepsCallers where
  trans _ _ _ h₁ h₂ id row hrow := by
    obtain ⟨mid, hmid, hcaller⟩ := h₁ id row hrow
    obtain ⟨row', hrow', hcaller'⟩ := h₂ id mid hmid
    exact ⟨row', hrow', hcaller'.trans hcaller⟩

theorem keepsCallers_modify {sessionId : Uuid} {f : SessionRow → SessionRow} (hf : ∀ r, (f r).caller = r.caller)
    {runs : Table Uuid RunRow} : KeepsCallers s { s with runs, sessions := s.sessions.modify sessionId f } := by
  intro id row hrow
  change ∃ row', (s.sessions.modify sessionId f).lookup id = some row' ∧ _
  rw [Table.lookup_modify, hrow]
  split
  · exact ⟨f row, rfl, hf row⟩
  · exact ⟨row, rfl, rfl⟩

theorem keepsCallers_housekeeping (h : Housekeeping s s') : KeepsCallers s s' := by
  intro id _ hrow
  have hsession := h.sessions id
  rw [hrow] at hsession
  obtain ⟨row', hrow', hkept⟩ := hsession.of_some
  refine ⟨row', hrow', ?_⟩
  rw [hkept]

theorem keepsCallers_closed : Closed KeepsCallers where
  aside s s' _ hsessions id row hrow := ⟨row, by rw [hsessions, hrow], rfl⟩
  run s runId f _ id row hrow := ⟨row, hrow, rfl⟩
  session s sessionId f h := keepsCallers_modify fun r => (h r).caller
  opens sessionId row _ _ s u s' h id old hold := by
    simp only [insertSession, get_bind, require_bind_ok, write_ok] at h
    obtain ⟨hfree, rfl⟩ := h
    have hne : id ≠ sessionId := by
      intro heq
      rw [heq, hfree] at hold
      cases hold
    refine ⟨old, ?_, rfl⟩
    rw [AList.lookup_insert_ne hne]
    exact hold
  joins sessionId runId row _ s u s' h := by
    simp only [joinSession, insertRun, modifySession, bind_assoc, fetch_bind_ok, get_bind, require_bind_ok, write_bind,
      write_ok] at h
    obtain ⟨_, _, _, _, rfl⟩ := h
    apply keepsCallers_modify
    intro _
    rfl
  decides env runId signal args s u s' h := by
    obtain ⟨_, _, _, _, _, _, hkeep⟩ := decideAndWrite_spec h
    exact fun id row hrow => keepsCallers_housekeeping hkeep id row hrow
  repairs env sessionId s u s' h := keepsCallers_housekeeping (Housekeeping.of_repairSessionHead h)

theorem sessionCaller_kept {row row' : RunRow} {caller : CallerIdentity} (h : KeepsCallers s s')
    (hsession : row'.sessionId = row.sessionId) (hcaller : sessionCaller s row = some caller) :
    sessionCaller s' row' = some caller := by
  obtain ⟨_, hlookup, rfl⟩ := Option.map_eq_some_iff.mp hcaller
  obtain ⟨_, hlookup', hsame⟩ := h _ _ hlookup
  rw [sessionCaller, hsession, hlookup', Option.map_some, hsame]

theorem workspaceRunning_le (h : NoneStarts s s') (workspaceId : Uuid) :
    workspaceRunning s' workspaceId ≤ workspaceRunning s workspaceId := by
  refine (Table.count_le [] fun id row' hrow' hp => .inr ?_).trans_eq (Nat.zero_add _)
  simp only [Bool.and_eq_true, decide_eq_true_eq] at hp
  obtain ⟨row, hrow, hrunning, hworkspace, _⟩ := h id row' hrow' hp.2
  exact ⟨row, hrow, by simp [hrunning, ← hworkspace, hp.1]⟩

theorem callerRunning_le (h : NoneStarts s s') (hcallers : KeepsCallers s s') (hhomed : Homed s) (workspaceId : Uuid)
    (caller : CallerIdentity) : callerRunning s' workspaceId caller ≤ callerRunning s workspaceId caller := by
  refine (Table.count_le [] fun id row' hrow' hp => .inr ?_).trans_eq (Nat.zero_add _)
  simp only [Bool.and_eq_true, decide_eq_true_eq] at hp
  obtain ⟨row, hrow, hrunning, hworkspace, hsession⟩ := h id row' hrow' hp.1.2
  obtain ⟨session, hlookup, _⟩ := hhomed id row hrow
  have hbefore : sessionCaller s row = some session.caller := by rw [sessionCaller, hlookup, Option.map_some]
  have hsame : session.caller = caller :=
    Option.some.inj ((sessionCaller_kept hcallers hsession hbefore).symm.trans hp.2)
  exact ⟨row, hrow, by simp [hrunning, ← hworkspace, hp.1.1, hbefore, hsame]⟩

/-- What a claim commits: its own row, and nothing of any Session. -/
structure Takes (c : Candidate) (s s' : Store) : Prop where
  sessions : s'.sessions = s.sessions
  others : ∀ id, id ≠ c.runId → s'.runs.lookup id = s.runs.lookup id
  own : ∀ row', s'.runs.lookup c.runId = some row' →
    ∃ row, s.runs.lookup c.runId = some row ∧ row'.workspaceId = row.workspaceId ∧ row'.sessionId = row.sessionId

theorem takeRun_takes {cmd : ClaimRunCommand} {c : Candidate} {d : StateDecision} {leaseId : Uuid} {claimed : ClaimedRun}
    (h : takeRun env cmd c d leaseId s = .ok (claimed, s')) : Takes c s s' := by
  simp only [takeRun, modifyRun, mint, upsertLease, bind_assoc, write_bind, get_bind, require_bind_ok, pure_bind] at h
  obtain ⟨_, h⟩ := h
  obtain ⟨_, _, hev, hpure⟩ := bind_ok.mp h
  obtain ⟨_, rfl⟩ := pure_ok.mp hpure
  simp only [appendEvents, modifyRun, lockRun, List.cons_ne_self, if_false, fetch_bind_ok, write_bind,
    write_ok] at hev
  obtain ⟨_, _, rfl⟩ := hev
  refine ⟨rfl, fun id hid => ?_, fun row' hrow' => ?_⟩
  · simp only [Table.lookup_modify_of_ne hid]
  · simp only [Table.lookup_modify_self, Option.map_map, Option.map_eq_some_iff] at hrow'
    obtain ⟨row, hrow, rfl⟩ := hrow'
    exact ⟨row, hrow, rfl, rfl⟩

end Committed

section Claimers
variable {hash : KeyHash} {env : Env} {w w' : World} {id : Nat} {a a' : Claimer} {x : Act} {c : Candidate}

def candidateOf : Phase → Option Candidate
  | .selecting _ | .finished => none
  | .lockingWorkspace _ c _ | .countingWorkspace _ c _ | .lockingCaller _ c | .countingCaller _ c | .chosen c
  | .claimed c _ => some c

/-- The candidate of a claimer that found room in the workspace, or no limit. -/
def clearedOf : Phase → Option Candidate
  | .lockingCaller _ c | .countingCaller _ c | .chosen c | .claimed c _ => some c
  | _ => none

/-- The candidate of a claimer that found room for the person too. -/
def settledOf : Phase → Option Candidate
  | .chosen c | .claimed c _ => some c
  | _ => none

theorem candidateOf_cleared {phase : Phase} (h : clearedOf phase = some c) : candidateOf phase = some c := by
  cases phase <;> first | exact h | cases h

theorem clearedOf_settled {phase : Phase} (h : settledOf phase = some c) : clearedOf phase = some c := by
  cases phase <;> first | exact h | cases h

def HoldsWorkspace (hash : KeyHash) (a : Claimer) (c : Candidate) : Prop :=
  c.limits.maxRunningRuns ≠ none → hash c.workspaceKey ∈ a.held

def HoldsCaller (hash : KeyHash) (a : Claimer) (c : Candidate) : Prop :=
  c.caller.callerType ≠ .serviceAccount → hash c.callerKey ∈ a.held

def LocksHeld (hash : KeyHash) (a : Claimer) : Prop :=
  match a.phase with
  | .selecting _ | .finished => True
  | .lockingWorkspace _ c cap => c.limits.maxRunningRuns = some cap
  | .countingWorkspace _ c cap => c.limits.maxRunningRuns = some cap ∧ hash c.workspaceKey ∈ a.held
  | .lockingCaller _ c => HoldsWorkspace hash a c
  | .countingCaller _ c => HoldsWorkspace hash a c ∧ hash c.callerKey ∈ a.held
  | .chosen c | .claimed c _ => HoldsWorkspace hash a c ∧ HoldsCaller hash a c

theorem LocksHeld.cleared (h : LocksHeld hash a) (hc : clearedOf a.phase = some c) : HoldsWorkspace hash a c := by
  unfold LocksHeld at h
  cases hphase : a.phase <;> rw [hphase] at h hc <;> cases hc
  · exact h
  · exact h.1
  · exact h.1
  · exact h.1

theorem LocksHeld.settled (h : LocksHeld hash a) (hc : settledOf a.phase = some c) : HoldsCaller hash a c := by
  unfold LocksHeld at h
  cases hphase : a.phase <;> rw [hphase] at h hc <;> cases hc
  · exact h.2
  · exact h.2

theorem locksHeld_afterWorkspace {attempts : Nat} (h : HoldsWorkspace hash a c) :
    LocksHeld hash { a with phase := afterWorkspace attempts c } := by
  unfold afterWorkspace
  split_ifs with hservice
  · exact h
  · exact ⟨h, fun hne => absurd hne hservice⟩

theorem locksHeld_step (hstep : Advances hash env w id a x a') (h : LocksHeld hash a) : LocksHeld hash a' := by
  cases hstep with
  | gaveUp => trivial
  | @selected attempts c busy hphase hc =>
    unfold afterSelect
    cases hlimit : c.limits.maxRunningRuns with
    | none => exact locksHeld_afterWorkspace fun hne => absurd hlimit hne
    | some => exact hlimit
  | locked hasks =>
    unfold LocksHeld at h
    unfold Phase.granted
    cases hphase : a.phase <;> rw [hphase] at h hasks <;> cases hasks
    · exact ⟨h, List.mem_cons_self⟩
    · exact ⟨fun hne => List.mem_cons_of_mem _ (h hne), List.mem_cons_self⟩
  | wentOn => trivial
  | workspaceFree hphase =>
    unfold LocksHeld at h
    rw [hphase] at h
    exact locksHeld_afterWorkspace fun _ => h.2
  | callerFree hphase =>
    unfold LocksHeld at h
    rw [hphase] at h
    exact ⟨h.1, fun _ => h.2⟩
  | decided hphase =>
    unfold LocksHeld at h
    rw [hphase] at h
    exact h

theorem candidateOf_afterWorkspace {attempts : Nat} : candidateOf (afterWorkspace attempts c) = some c := by
  unfold afterWorkspace
  split_ifs <;> rfl

theorem candidate_step (hstep : Advances hash env w id a x a') (hc : candidateOf a'.phase = some c) :
    candidateOf a.phase = some c ∨ (c.runId ∈ a'.rows ∧
      ∃ busy, x = .select id busy ∧ ConcurrentClaims.candidate { env with now := a.now } w.store a.command a.aside
        (lockedByOthers w id ++ busy) = some c) := by
  cases hstep with
  | gaveUp => cases hc
  | @selected attempts c' busy hphase hsel =>
    have heq : c' = c := by
      unfold afterSelect at hc
      dsimp only at hc
      cases hlimit : c'.limits.maxRunningRuns with
      | none =>
        rw [hlimit] at hc
        exact Option.some.inj (candidateOf_afterWorkspace.symm.trans hc)
      | some =>
        rw [hlimit] at hc
        exact Option.some.inj hc
    subst heq
    exact .inr ⟨List.mem_cons_self, busy, rfl, hsel⟩
  | locked hasks =>
    unfold Phase.granted at hc
    dsimp only at hc
    cases hphase : a.phase <;> rw [hphase] at hasks hc <;> cases hasks
    · exact .inl hc
    · exact .inl hc
  | wentOn => cases hc
  | workspaceFree hphase =>
    rw [candidateOf_afterWorkspace] at hc
    rw [hphase]
    exact .inl hc
  | callerFree hphase =>
    rw [hphase]
    exact .inl hc
  | decided hphase =>
    rw [hphase]
    exact .inl hc

theorem command_step (hstep : Advances hash env w id a x a') : a'.command = a.command := by
  cases hstep <;> rfl

theorem rows_step (hstep : Advances hash env w id a x a') {runId : Uuid} (h : runId ∈ a.rows) :
    runId ∈ a'.rows := by
  cases hstep with
  | selected => exact List.mem_cons_of_mem _ h
  | _ => exact h

theorem cleared_step (hstep : Advances hash env w id a x a') (h : LocksHeld hash a) (hc : clearedOf a'.phase = some c) :
    clearedOf a.phase = some c ∨ c.limits.maxRunningRuns = none ∨
      ∃ cap, c.limits.maxRunningRuns = some cap ∧ workspaceRunning w.store c.row.workspaceId < cap := by
  cases hstep with
  | gaveUp => cases hc
  | @selected attempts c' busy hphase hsel =>
    unfold afterSelect at hc
    dsimp only at hc
    cases hlimit : c'.limits.maxRunningRuns with
    | none =>
      rw [hlimit] at hc
      have heq := candidateOf_afterWorkspace.symm.trans (candidateOf_cleared hc)
      rw [← Option.some.inj heq]
      exact .inr (.inl hlimit)
    | some =>
      rw [hlimit] at hc
      cases hc
  | locked hasks =>
    unfold Phase.granted at hc
    dsimp only at hc
    cases hphase : a.phase <;> rw [hphase] at hasks hc <;> cases hasks
    · cases hc
    · exact .inl hc
  | wentOn => cases hc
  | workspaceFree hphase hroom =>
    unfold LocksHeld at h
    rw [hphase] at h
    have heq := candidateOf_afterWorkspace.symm.trans (candidateOf_cleared hc)
    rw [← Option.some.inj heq]
    exact .inr (.inr ⟨_, h.1, hroom⟩)
  | callerFree hphase =>
    rw [hphase]
    exact .inl hc
  | decided hphase =>
    rw [hphase]
    exact .inl hc

theorem settled_step (hstep : Advances hash env w id a x a') (hc : settledOf a'.phase = some c) :
    settledOf a.phase = some c ∨ c.caller.callerType = .serviceAccount ∨
      callerRunning w.store c.row.workspaceId c.caller < c.callerCap a.command := by
  have hservice : ∀ {attempts : Nat} {c' : Candidate}, settledOf (afterWorkspace attempts c') = some c →
      c.caller.callerType = .serviceAccount := by
    intro attempts c' h
    unfold afterWorkspace at h
    split_ifs at h with hne
    · cases h
    · rw [← Option.some.inj h]
      exact not_not.mp hne
  cases hstep with
  | gaveUp => cases hc
  | @selected attempts c' busy hphase hsel =>
    unfold afterSelect at hc
    dsimp only at hc
    cases hlimit : c'.limits.maxRunningRuns with
    | none =>
      rw [hlimit] at hc
      exact .inr (.inl (hservice hc))
    | some =>
      rw [hlimit] at hc
      cases hc
  | locked hasks =>
    unfold Phase.granted at hc
    dsimp only at hc
    cases hphase : a.phase <;> rw [hphase] at hasks hc <;> cases hasks
    · cases hc
    · cases hc
  | wentOn => cases hc
  | workspaceFree => exact .inr (.inl (hservice hc))
  | callerFree hphase hroom =>
    cases hc
    exact .inr (.inr hroom)
  | decided hphase =>
    rw [hphase]
    exact .inl hc

def Found (s : Store) (a : Claimer) (c : Candidate) : Prop :=
  c.runId ∈ a.rows ∧ s.runs.lookup c.runId = some c.row ∧ sessionCaller s c.row = some c.caller

structure Orderly (hash : KeyHash) (w : World) : Prop where
  apart : Apart w.claimers
  homed : Homed w.store
  locks : ∀ id a, w.claimers.lookup id = some a → LocksHeld hash a
  found : ∀ id a c, w.claimers.lookup id = some a → candidateOf a.phase = some c → Found w.store a c

theorem homed_takes {s s' : Store} (h : Homed s) (ht : Takes c s s') : Homed s' := by
  intro id row' hrow'
  rw [ht.sessions]
  by_cases hid : id = c.runId
  · subst hid
    obtain ⟨row, hrow, hworkspace, hsession⟩ := ht.own row' hrow'
    rw [hworkspace, hsession]
    exact h _ row hrow
  · rw [ht.others id hid] at hrow'
    exact h id row' hrow'

theorem orderly_step (hperm : x.Permitted) (hmove : Moves hash env w x w') (h : Orderly hash w) : Orderly hash w' := by
  refine ⟨hmove.apart h.apart, ?_, ?_, ?_⟩
  · cases hmove with
    | committed ha hphase htake => exact homed_takes h.homed (takeRun_takes htake)
    | besides hexec => exact Operations.exec_within homed_closed _ hexec h.homed
    | _ => exact h.homed
  · cases hmove with
    | arrived =>
      intro j b hb
      rw [Table.lookup_insert_ite] at hb
      split_ifs at hb
      · rw [← Option.some.inj hb]
        trivial
      · exact h.locks j b hb
    | advanced ha hstep =>
      intro j b hb
      rcases Table.lookup_modify_cases ha hb with ⟨_, rfl⟩ | ⟨_, hb⟩
      · exact locksHeld_step hstep (h.locks _ _ ha)
      · exact h.locks j b hb
    | committed => exact fun j b hb => h.locks j b (Table.lookup_erase_some hb).2
    | ended => exact fun j b hb => h.locks j b (Table.lookup_erase_some hb).2
    | besides => exact h.locks
  · cases hmove with
    | arrived =>
      intro j b c hb hc
      rw [Table.lookup_insert_ite] at hb
      split_ifs at hb
      · rw [← Option.some.inj hb] at hc
        cases hc
      · exact h.found j b c hb hc
    | advanced ha hstep =>
      intro j b c hb hc
      rcases Table.lookup_modify_cases ha hb with ⟨_, rfl⟩ | ⟨_, hb⟩
      · rcases candidate_step hstep hc with hold | ⟨hrow, _, _, hsel⟩
        · obtain ⟨hmem, hfound⟩ := h.found _ _ c ha hold
          exact ⟨rows_step hstep hmem, hfound⟩
        · obtain ⟨hlookup, _, _, _, hcaller⟩ := candidate_spec hsel
          exact ⟨hrow, hlookup, hcaller⟩
      · exact h.found j b c hb hc
    | @committed id leaseId a c₀ d s claimed ha hphase htake =>
      intro j b c hb hc
      obtain ⟨hj, hb⟩ := Table.lookup_erase_some hb
      obtain ⟨hmem, hlookup, hcaller⟩ := h.found j b c hb hc
      have ht := takeRun_takes htake
      have hne : c.runId ≠ c₀.runId := by
        intro heq
        have hmine := h.found id a c₀ ha (by rw [hphase]; rfl)
        rw [heq] at hmem
        exact hj (h.apart.rows j id b a _ hb ha hmem hmine.1)
      refine ⟨hmem, (ht.others _ hne).trans hlookup, ?_⟩
      rw [sessionCaller, ht.sessions]
      exact hcaller
    | ended => exact fun j b c hb hc => h.found j b c (Table.lookup_erase_some hb).2 hc
    | besides hexec hrows =>
      intro j b c hb hc
      obtain ⟨hmem, hlookup, hcaller⟩ := h.found j b c hb hc
      refine ⟨hmem, (hrows j b hb _ hmem).trans hlookup, ?_⟩
      exact sessionCaller_kept (Operations.exec_within keepsCallers_closed _ hexec) rfl hcaller

theorem orderly_run {log : WorldHistory} (h : WorldExecutes hash log w) : Orderly hash w := by
  apply h.invariant
  · refine ⟨@apart_run hash _ _ .nil, ?_, ?_, ?_⟩
    · intro id _ hrow
      cases hrow
    · intro id a ha
      cases ha
    · intro _ _ _ ha
      cases ha
  · intro _ _ _ _ hs hw
    exact orderly_step hs.1 (act_moves hs.2) hw

end Claimers

section Limits
variable {hash : KeyHash} {env : Env} {w w' : World} {x : Act}

def ClearedFor (past : Phase → Option Candidate) (P : Candidate → Prop) (w : World) (id : Nat) : Prop :=
  ∃ a c, w.claimers.lookup id = some a ∧ past a.phase = some c ∧ P c

/-- One limit: what is counted, for which candidates, under which lock, and where a claimer has found room. -/
structure Limit where
  past : Phase → Option Candidate
  applies : Candidate → Prop
  counted : Store → Nat
  lock : Int
  past_claimed : ∀ c d, past (.claimed c d) = some c
  past_selecting : ∀ attempts, past (.selecting attempts) = none
  quiet : ∀ s s', NoneStarts s s' → KeepsCallers s s' → Homed s → counted s' ≤ counted s
  starts : ∀ s s' a c, Found s a c → Takes c s s' → applies c → counted s' ≤ counted s + 1
  beside : ∀ s s' a c, Found s a c → Takes c s s' → ¬ applies c → counted s' ≤ counted s

def Limit.Room (limit : Limit) (cap : Nat) (w : World) : Prop :=
  LimitedEntry.Room (fun w => limit.counted w.store) (ClearedFor limit.past limit.applies) cap w

def Limit.Checked (limit : Limit) (hash : KeyHash) (cap : Nat) (env : Env) (w : World) (x : Act) : Prop :=
  ∀ id a a' c, w.claimers.lookup id = some a → Advances hash env w id a x a' → limit.past a'.phase = some c →
    limit.applies c → limit.past a.phase = some c ∨ limit.counted w.store < cap

def Limit.Locked (limit : Limit) (w : World) : Prop :=
  ∀ id a c, w.claimers.lookup id = some a → limit.past a.phase = some c → limit.applies c → limit.lock ∈ a.held

theorem Limit.room_step {limit : Limit} {cap : Nat} (hw : Orderly hash w) (hperm : x.Permitted)
    (hmove : Moves hash env w x w') (hchecked : limit.Checked hash cap env w x) (hlocked : limit.Locked w)
    (h : limit.Room cap w) : limit.Room cap w' := by
  cases hmove with
  | arrived =>
    refine h.quiet le_rfl ?_
    rintro i ⟨a, c, ha, hpast, happlies⟩
    rw [Table.lookup_insert_ite] at ha
    split_ifs at ha
    · rw [← Option.some.inj ha, limit.past_selecting] at hpast
      cases hpast
    · exact .inl ⟨a, c, ha, hpast, happlies⟩
  | advanced ha hstep =>
    refine h.quiet le_rfl ?_
    rintro _ ⟨b, c, hb, hpast, happlies⟩
    rcases Table.lookup_modify_cases ha hb with ⟨rfl, rfl⟩ | ⟨_, hb⟩
    · rcases hchecked _ _ _ c ha hstep hpast happlies with hold | hroom
      · exact .inl ⟨_, c, ha, hold, happlies⟩
      · exact .inr hroom
    · exact .inl ⟨b, c, hb, hpast, happlies⟩
  | @committed id leaseId a c d s claimed ha hphase htake =>
    have htakes := takeRun_takes htake
    have hfound := hw.found id a c ha (by rw [hphase]; rfl)
    have hpast : limit.past a.phase = some c := by rw [hphase, limit.past_claimed]
    by_cases happlies : limit.applies c
    · refine h.enter ⟨a, c, ha, hpast, happlies⟩ (limit.starts _ _ a c hfound htakes happlies) ?_
      -- the lock of the count was this claimer's, so nobody else is past it
      rintro j ⟨b, c', hb, hpast', happlies'⟩
      obtain ⟨hj, hb⟩ := Table.lookup_erase_some hb
      have hmine := hlocked id a c ha hpast happlies
      have hother := hlocked j b c' hb hpast' happlies'
      exact hj (hw.apart.locks j id b a _ hb ha hother hmine)
    · refine h.quiet (limit.beside _ _ a c hfound htakes happlies) ?_
      rintro j ⟨b, c', hb, hpast', happlies'⟩
      exact .inl ⟨b, c', (Table.lookup_erase_some hb).2, hpast', happlies'⟩
  | ended =>
    refine h.quiet le_rfl ?_
    rintro j ⟨b, c, hb, hpast, happlies⟩
    exact .inl ⟨b, c, (Table.lookup_erase_some hb).2, hpast, happlies⟩
  | besides hexec =>
    have hcallers := Operations.exec_within keepsCallers_closed _ hexec
    refine h.quiet (limit.quiet _ _ (exec_noneStarts hperm hexec) hcallers hw.homed) ?_
    rintro _ ⟨b, c, hb, hpast, happlies⟩
    exact .inl ⟨b, c, hb, hpast, happlies⟩

/-- Every candidate is as the selections of this run make them. -/
def Chose (Q : ClaimRunCommand → Candidate → Prop) (w : World) : Prop :=
  ∀ id a c, w.claimers.lookup id = some a → candidateOf a.phase = some c → Q a.command c

theorem chose_step {Q : ClaimRunCommand → Candidate → Prop} (hmove : Moves hash env w x w') (h : Chose Q w)
    (hselect : ∀ id a c locked, w.claimers.lookup id = some a →
      candidate { env with now := a.now } w.store a.command a.aside locked = some c → Q a.command c) : Chose Q w' := by
  cases hmove with
  | arrived =>
    intro j b c hb hc
    rw [Table.lookup_insert_ite] at hb
    split_ifs at hb
    · rw [← Option.some.inj hb] at hc
      cases hc
    · exact h j b c hb hc
  | advanced ha hstep =>
    intro j b c hb hc
    rcases Table.lookup_modify_cases ha hb with ⟨_, rfl⟩ | ⟨_, hb⟩
    · rw [command_step hstep]
      rcases candidate_step hstep hc with hold | ⟨_, _, _, hsel⟩
      · exact h _ _ c ha hold
      · exact hselect _ _ c _ ha hsel
    · exact h j b c hb hc
  | committed => exact fun j b c hb hc => h j b c (Table.lookup_erase_some hb).2 hc
  | ended => exact fun j b c hb hc => h j b c (Table.lookup_erase_some hb).2 hc
  | besides => exact h

def workspaceLimit (hash : KeyHash) (workspaceId : Uuid) : Limit where
  past := clearedOf
  applies c := c.row.workspaceId = workspaceId
  counted s := workspaceRunning s workspaceId
  lock := hash (.workspace workspaceId)
  past_claimed _ _ := rfl
  past_selecting _ := rfl
  quiet _ _ h _ _ := workspaceRunning_le h workspaceId
  starts s s' a c _ ht _ := by
    refine (Table.count_le [c.runId] fun id row' hrow' hp => ?_).trans_eq (Nat.add_comm _ _)
    by_cases hid : id = c.runId
    · exact .inl (List.mem_singleton.mpr hid)
    · rw [ht.others id hid] at hrow'
      exact .inr ⟨row', hrow', hp⟩
  beside s s' a c hfound ht hnot := by
    refine (Table.count_le [] fun id row' hrow' hp => .inr ?_).trans_eq (Nat.zero_add _)
    by_cases hid : id = c.runId
    · subst hid
      obtain ⟨row, hrow, hworkspace, _⟩ := ht.own row' hrow'
      cases hfound.2.1.symm.trans hrow
      simp only [Bool.and_eq_true, decide_eq_true_eq] at hp
      exact absurd (hworkspace.symm.trans hp.1) hnot
    · rw [ht.others id hid] at hrow'
      exact ⟨row', hrow', hp⟩

def personLimit (hash : KeyHash) (workspaceId : Uuid) (caller : CallerIdentity) : Limit where
  past := settledOf
  applies c := c.row.workspaceId = workspaceId ∧ c.caller = caller
  counted s := callerRunning s workspaceId caller
  lock := hash (.caller workspaceId caller)
  past_claimed _ _ := rfl
  past_selecting _ := rfl
  quiet _ _ h hcallers hhomed := callerRunning_le h hcallers hhomed workspaceId caller
  starts s s' a c _ ht _ := by
    refine (Table.count_le [c.runId] fun id row' hrow' hp => ?_).trans_eq (Nat.add_comm _ _)
    by_cases hid : id = c.runId
    · exact .inl (List.mem_singleton.mpr hid)
    · rw [ht.others id hid] at hrow'
      refine .inr ⟨row', hrow', ?_⟩
      rwa [sessionCaller, ht.sessions] at hp
  beside s s' a c hfound ht hnot := by
    refine (Table.count_le [] fun id row' hrow' hp => .inr ?_).trans_eq (Nat.zero_add _)
    rw [sessionCaller, ht.sessions] at hp
    by_cases hid : id = c.runId
    · subst hid
      obtain ⟨row, hrow, hworkspace, hsession⟩ := ht.own row' hrow'
      cases hfound.2.1.symm.trans hrow
      simp only [Bool.and_eq_true, decide_eq_true_eq] at hp
      rw [hsession] at hp
      exact absurd ⟨hworkspace.symm.trans hp.1.1, Option.some.inj (hfound.2.2.symm.trans hp.2)⟩ hnot
    · rw [ht.others id hid] at hrow'
      exact ⟨row', hrow', hp⟩

/-- The workspace has this limit, whenever its row is read. -/
def CapIs (workspaceId : Uuid) (cap : Nat) (env : Env) : Prop :=
  ∀ limits, env.catalog.workspaceLimits workspaceId = some limits → limits.maxRunningRuns = some cap

def PerCallerIs (workspaceId : Uuid) (perCaller : Option Nat) (env : Env) : Prop :=
  ∀ limits, env.catalog.workspaceLimits workspaceId = some limits → limits.maxRunningRunsPerCaller = perCaller

def DefaultIs (default : Nat) : Act → Prop
  | .arrive _ cmd => cmd.perCallerDefault = default
  | _ => True

theorem room_start (limit : Limit) {cap : Nat} (hempty : limit.counted {} = 0) : limit.Room cap {} := by
  refine ⟨?_, ?_⟩
  · dsimp only
    omega
  · rintro _ ⟨_, _, ha, _⟩
    cases ha

theorem chose_advances {Q : ClaimRunCommand → Candidate → Prop} {id : Nat} {a a' : Claimer} {c : Candidate}
    (h : Chose Q w) (ha : w.claimers.lookup id = some a) (hstep : Advances hash env w id a x a')
    (hc : candidateOf a'.phase = some c)
    (hselect : ∀ locked, candidate { env with now := a.now } w.store a.command a.aside locked = some c → Q a.command c) :
    Q a.command c := by
  rcases candidate_step hstep hc with hold | ⟨_, _, _, hsel⟩
  · exact h id a c ha hold
  · exact hselect _ hsel

theorem workspace_run {log : WorldHistory} {workspaceId : Uuid} {cap : Nat} (h : WorldExecutes hash log w)
    (hcap : ∀ c ∈ log, CapIs workspaceId cap c.input.1) :
    Chose (fun _ c => c.row.workspaceId = workspaceId → c.limits.maxRunningRuns = some cap) w ∧
      (workspaceLimit hash workspaceId).Room cap w := by
  induction h with
  | nil => exact ⟨fun id a c ha => (nomatch ha), room_start _ rfl⟩
  | @snoc log w w' i u hrun hs ih =>
    obtain ⟨hchose, hroom⟩ := ih fun c hc => hcap c (List.mem_append_left _ hc)
    have henv := hcap _ (List.mem_append_right _ (List.mem_singleton_self _))
    have hselect : ∀ {a : Claimer} {c : Candidate} {locked : List Uuid},
        candidate { i.1 with now := a.now } w.store a.command a.aside locked = some c →
          c.row.workspaceId = workspaceId → c.limits.maxRunningRuns = some cap := by
      rintro a c _ hsel rfl
      exact henv _ (candidate_spec hsel).2.2.2.1
    have hmove := act_moves hs.2
    have hw := orderly_run hrun
    refine ⟨chose_step hmove hchose fun _ _ _ _ _ => hselect, Limit.room_step hw hs.1 hmove ?_ ?_ hroom⟩
    · intro id a _ c ha hstep hpast happlies
      have hlimits := chose_advances hchose ha hstep (candidateOf_cleared hpast) (fun _ => hselect) happlies
      rcases cleared_step hstep (hw.locks id a ha) hpast with hold | hnone | ⟨_, hcap', hfree⟩
      · exact .inl hold
      · rw [hlimits] at hnone
        cases hnone
      · cases hlimits.symm.trans hcap'
        rw [happlies] at hfree
        exact .inr hfree
    · intro id a c ha hpast happlies
      have hlimits := hchose id a c ha (candidateOf_cleared hpast) happlies
      have hheld := (hw.locks id a ha).cleared hpast (by rw [hlimits]; nofun)
      rwa [Candidate.workspaceKey, happlies] at hheld

theorem default_run {log : WorldHistory} {default : Nat} (h : WorldExecutes hash log w)
    (hdefault : ∀ c ∈ log, DefaultIs default c.input.2) :
    ∀ id a, w.claimers.lookup id = some a → a.command.perCallerDefault = default := by
  induction h with
  | nil => exact fun id a ha => nomatch ha
  | @snoc log w w' i u hrun hs ih =>
    have hbefore := ih fun c hc => hdefault c (List.mem_append_left _ hc)
    have hthis := hdefault _ (List.mem_append_right _ (List.mem_singleton_self _))
    obtain ⟨env, x⟩ := i
    have hmove : Moves hash env w x w' := act_moves hs.2
    intro j b hb
    cases hmove with
    | arrived =>
      rw [Table.lookup_insert_ite] at hb
      split_ifs at hb
      · rw [← Option.some.inj hb]
        exact hthis
      · exact hbefore j b hb
    | advanced ha hstep =>
      rcases Table.lookup_modify_cases ha hb with ⟨_, rfl⟩ | ⟨_, hb⟩
      · rw [command_step hstep]
        exact hbefore _ _ ha
      · exact hbefore j b hb
    | committed => exact hbefore j b (Table.lookup_erase_some hb).2
    | ended => exact hbefore j b (Table.lookup_erase_some hb).2
    | besides => exact hbefore j b hb

theorem callerCap_of_selected {s : Store} {cmd : ClaimRunCommand} {aside : SetAside} {locked : List Uuid} {c : Candidate}
    (h : candidate env s cmd aside locked = some c) (hperson : c.caller.callerType ≠ .serviceAccount) :
    c.callerCap cmd = c.limits.maxRunningRunsPerCaller.getD cmd.perCallerDefault := by
  obtain ⟨_, helig, _, hlimits, hcaller⟩ := candidate_spec h
  simp only [eligible, underLimits, hlimits, hcaller, Bool.and_eq_true, Bool.or_eq_true, decide_eq_true_eq] at helig
  have hroom : callerRunning s c.row.workspaceId c.caller < callerLimit c.limits cmd :=
    helig.1.2.1.resolve_left hperson
  unfold Candidate.callerCap
  cases hcap : c.limits.maxRunningRunsPerCaller with
  | none => rfl
  | some cap =>
    cases cap with
    | zero =>
      rw [callerLimit, hcap] at hroom
      exact absurd hroom (Nat.not_lt_zero _)
    | succ => rfl

theorem person_run {log : WorldHistory} {workspaceId : Uuid} {perCaller : Option Nat} {default : Nat}
    {caller : CallerIdentity} (h : WorldExecutes hash log w) (hperson : caller.callerType ≠ .serviceAccount)
    (hfixed : ∀ c ∈ log, PerCallerIs workspaceId perCaller c.input.1 ∧ DefaultIs default c.input.2) :
    Chose (fun cmd c => c.row.workspaceId = workspaceId ∧ c.caller = caller → c.callerCap cmd = perCaller.getD default) w ∧
      (personLimit hash workspaceId caller).Room (perCaller.getD default) w := by
  induction h with
  | nil => exact ⟨fun id a c ha => (nomatch ha), room_start _ rfl⟩
  | @snoc log w w' i u hrun hs ih =>
    have hbefore : ∀ c ∈ log, PerCallerIs workspaceId perCaller c.input.1 ∧ DefaultIs default c.input.2 :=
      fun c hc => hfixed c (List.mem_append_left _ hc)
    obtain ⟨hchose, hroom⟩ := ih hbefore
    have henv := (hfixed _ (List.mem_append_right _ (List.mem_singleton_self _))).1
    have hselect : ∀ {id : Nat} {a : Claimer} {c : Candidate} {locked : List Uuid}, w.claimers.lookup id = some a →
        candidate { i.1 with now := a.now } w.store a.command a.aside locked = some c →
          c.row.workspaceId = workspaceId ∧ c.caller = caller → c.callerCap a.command = perCaller.getD default := by
      rintro id a c _ ha hsel ⟨rfl, rfl⟩
      rw [callerCap_of_selected hsel hperson, henv _ (candidate_spec hsel).2.2.2.1,
        default_run hrun (fun c hc => (hbefore c hc).2) id a ha]
    have hmove := act_moves hs.2
    have hw := orderly_run hrun
    refine ⟨chose_step hmove hchose fun _ _ _ _ ha => hselect ha, Limit.room_step hw hs.1 hmove ?_ ?_ hroom⟩
    · intro id a _ c ha hstep hpast happlies
      have hlimits := chose_advances hchose ha hstep (candidateOf_cleared (clearedOf_settled hpast))
        (fun _ => hselect ha) happlies
      rcases settled_step hstep hpast with hold | hservice | hfree
      · exact .inl hold
      · rw [happlies.2] at hservice
        exact absurd hservice hperson
      · rw [hlimits, happlies.1, happlies.2] at hfree
        exact .inr hfree
    · intro id a _ ha hpast happlies
      have hheld := (hw.locks id a ha).settled hpast (by rw [happlies.2]; exact hperson)
      rwa [Candidate.callerKey, happlies.1, happlies.2] at hheld

/-- However claims overlap with each other and with everything else, no more Runs of a workspace are running than
its limit, and no more of one person than the workspace's limit for a person, or the default. -/
theorem running_limits_hold {log : WorldHistory} (h : WorldExecutes hash log w) (workspaceId : Uuid) :
    (∀ cap, (∀ c ∈ log, CapIs workspaceId cap c.input.1) → workspaceRunning w.store workspaceId ≤ cap) ∧
      ∀ perCaller default,
        (∀ c ∈ log, PerCallerIs workspaceId perCaller c.input.1 ∧ DefaultIs default c.input.2) →
        ∀ caller : CallerIdentity, caller.callerType ≠ .serviceAccount →
          callerRunning w.store workspaceId caller ≤ perCaller.getD default := by
  constructor
  · intro _ hcap
    exact (workspace_run h hcap).2.bound
  · intro _ _ hfixed _ hperson
    exact (person_run h hperson hfixed).2.bound

end Limits

def firstCommits : List Act := fourClaimers ++ [.commit 1 91]

theorem firstCommits_permitted : ∀ x ∈ firstCommits, x.Permitted := by
  intro x hx
  rcases List.mem_append.mp hx with hfour | hcommit
  · exact fourClaimers_permitted x hfour
  · rw [List.mem_singleton.mp hcommit]
    trivial

theorem firstCommits_full : workspaceRunning (attemptActs plainHash (timed firstCommits)).2.store 1 = 1 ∧
    workspaceRunning (attemptActs plainHash (timed firstCommits)).2.store 1 ≤ 1 := by
  refine ⟨by decide +kernel, ?_⟩
  have hrun := @attemptActs_executes plainHash _ (timed_permitted firstCommits_permitted)
  refine (running_limits_hold hrun 1).1 1 fun c hc limits hlimits => ?_
  have hin := replay_inputs _ _ _ c hc
  obtain ⟨⟨_, _⟩, _, heq⟩ := List.mem_map.mp hin
  rw [← heq] at hlimits
  rw [← Option.some.inj hlimits]

end TinyHermes.Runs.RunningLimits
