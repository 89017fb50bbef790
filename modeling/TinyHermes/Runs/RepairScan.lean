import TinyHermes.Runs.Sweeps

/-! Which Sessions the Scheduler's scan finds to repair, against what the repair of one would write. -/
namespace TinyHermes.Runs.RepairScan
open Lib SqlRunStore Tx

/-- `live.c.smallest`: where the first unfinished Run of a Session is in its line. -/
def smallest (s : Store) (sessionId : Uuid) : Option Nat :=
  ((s.runs.select fun _ run => run.sessionId = sessionId && !run.status.isTerminal).map (·.2.sessionSequence)).min?

/-- The Sessions with an unfinished Run, not the head, that another Run than the head blocks. Nothing differs from a head
that is NULL. -/
def misblocked (s : Store) : List Uuid :=
  (s.runs.select fun id run => !run.status.isTerminal && (s.sessions.lookup run.sessionId).any fun owner =>
    owner.headRunId.any (fun head => id ≠ head) && decide (run.blockedByRunId ≠ owner.headRunId)).map (·.2.sessionId)

/-- The `where` of the scan; the head is joined by its id alone. -/
def disagrees (s : Store) (sessionId : Uuid) (session : SessionRow) : Bool :=
  let head := session.headRunId.bind s.runs.lookup
  session.headRunId.isNone && (smallest s sessionId).isSome ||
    session.headRunId.isSome && (smallest s sessionId).isNone ||
    decide (sessionId ∈ misblocked s) ||
    head.any (fun run => run.sessionId = sessionId && (smallest s sessionId).any fun first => first < run.sessionSequence) ||
    head.any fun run => run.status.isTerminal

def needingRepair (s : Store) : List Uuid :=
  (s.sessions.select fun id session =>
    (session.headRunId.isSome || (smallest s id).isSome) && disagrees s id session).map (·.1)

/-- Sessions whose head or blockers disagree with the FIFO invariant. -/
def sessionsNeedingRepair (limit : Nat) (s : Store) : List Uuid := (needingRepair s).take limit

/-- What the tables themselves hold of any rows: `uq_runs_session_sequence` and `fk_runs_session`. -/
structure Constrained (s : Store) : Prop where
  sequences : ∀ id id' row row', s.runs.lookup id = some row → s.runs.lookup id' = some row' →
    row.sessionId = row'.sessionId → row.sessionSequence = row'.sessionSequence → id = id'
  workspaces : ∀ id row, s.runs.lookup id = some row →
    ∃ session, s.sessions.lookup row.sessionId = some session ∧ session.workspaceId = row.workspaceId

/-- A repair would write another head, or another blocker to some Run. -/
def RepairChanges (env : Env) (s : Store) (sessionId : Uuid) : Prop :=
  ∃ result s', repairSessionHead env sessionId s = .ok (result, s') ∧
    ((s'.sessions.lookup sessionId).map (·.headRunId) ≠ (s.sessions.lookup sessionId).map (·.headRunId) ∨
      ∃ id, (s'.runs.lookup id).map (·.blockedByRunId) ≠ (s.runs.lookup id).map (·.blockedByRunId))

def expectedHead (s : Store) (sessionId : Uuid) : Option Uuid := (liveRuns s sessionId).head?.map (·.1)

def expectedBlocker (s : Store) (sessionId id : Uuid) : Option Uuid :=
  if some id = expectedHead s sessionId then none else expectedHead s sessionId

section Repair
variable {env : Env} {s : Store} {sessionId : Uuid}

theorem forEach_block (wrong : List (Uuid × RunRow)) (blocker : Uuid → Option Uuid) (s : Store) :
    ∃ s', Tx.forEach wrong (fun e => modifyRun e.1 fun row => { row with blockedByRunId := blocker e.1, updatedAt := env.now }) s =
        .ok ((), s') ∧
      s'.sessions = s.sessions ∧
      ∀ id, (s'.runs.lookup id).map (·.workspaceId) = (s.runs.lookup id).map (·.workspaceId) ∧
        (s'.runs.lookup id).map (·.blockedByRunId) =
          (s.runs.lookup id).map fun row => if id ∈ wrong.map (·.1) then blocker id else row.blockedByRunId := by
  induction wrong generalizing s with
  | nil => exact ⟨s, rfl, rfl, fun id => ⟨rfl, by simp⟩⟩
  | cons e rest ih =>
    obtain ⟨s', hrun, hsessions, hrows⟩ := ih { s with runs := s.runs.modify e.1 fun row =>
      { row with blockedByRunId := blocker e.1, updatedAt := env.now } }
    refine ⟨s', hrun, hsessions, fun id => ?_⟩
    obtain ⟨hworkspace, hblocked⟩ := hrows id
    rw [hworkspace, hblocked, Table.lookup_modify]
    by_cases hid : id = e.1
    · subst hid
      cases s.runs.lookup e.1 <;> simp
    · simp only [hid, if_false, List.map_cons, List.mem_cons, false_or]
      exact ⟨trivial, trivial⟩

theorem appendEvents_beside {events : List ReservedEvent} {workspaceId runId : Uuid} {row : RunRow}
    (hrow : s.runs.lookup runId = some row) (hworkspace : row.workspaceId = workspaceId) :
    ∃ s', appendEvents env workspaceId runId events s = .ok ((), s') ∧ s'.sessions = s.sessions ∧
      ∀ id, (s'.runs.lookup id).map (·.blockedByRunId) = (s.runs.lookup id).map (·.blockedByRunId) := by
  unfold appendEvents
  split
  · exact ⟨s, rfl, rfl, fun _ => rfl⟩
  · have hlocked : (s.runs.lookup runId).filter (fun run => decide (run.workspaceId = workspaceId)) = some row := by
      rw [hrow, Option.filter_some]
      exact if_pos (decide_eq_true hworkspace)
    simp only [lockRun, modifyRun, fetch_bind_run, hlocked]
    refine ⟨_, rfl, rfl, fun id => ?_⟩
    rw [Table.lookup_modify]
    split
    · rw [Option.map_map]
      rfl
    · rfl

theorem lookup_of_head {head : Uuid} (h : expectedHead s sessionId = some head) :
    ∃ row, s.runs.lookup head = some row ∧ row.sessionId = sessionId ∧ row.status.isTerminal = false := by
  obtain ⟨⟨_, row⟩, hfirst, rfl⟩ := Option.map_eq_some_iff.mp h
  exact ⟨row, mem_liveRuns.mp (List.mem_of_head? hfirst)⟩

theorem blocker_after_marking (id : Uuid) :
    ((s.runs.lookup id).map fun row =>
      if id ∈ (((liveRuns s sessionId).filter fun e => e.2.blockedByRunId ≠ expectedBlocker s sessionId e.1).map (·.1)) then
        expectedBlocker s sessionId id
      else row.blockedByRunId) =
    (s.runs.lookup id).map fun row =>
      if row.sessionId = sessionId ∧ row.status.isTerminal = false then expectedBlocker s sessionId id else row.blockedByRunId := by
  cases hrow : s.runs.lookup id with
  | none => rfl
  | some row =>
    simp only [Option.map_some, Option.some.injEq]
    have hwrong : id ∈ (((liveRuns s sessionId).filter fun e => e.2.blockedByRunId ≠ expectedBlocker s sessionId e.1).map (·.1)) ↔
        (row.sessionId = sessionId ∧ row.status.isTerminal = false) ∧ row.blockedByRunId ≠ expectedBlocker s sessionId id := by
      constructor
      · intro hmem
        obtain ⟨⟨_, _⟩, hfiltered, rfl⟩ := List.mem_map.mp hmem
        obtain ⟨hmem', hblocked⟩ := List.mem_filter.mp hfiltered
        obtain ⟨hrow', hlive⟩ := mem_liveRuns.mp hmem'
        cases hrow.symm.trans hrow'
        exact ⟨hlive, of_decide_eq_true hblocked⟩
      · rintro ⟨hlive, hblocked⟩
        exact List.mem_map.mpr ⟨(id, row), List.mem_filter.mpr ⟨mem_liveRuns.mpr ⟨hrow, hlive⟩, decide_eq_true hblocked⟩, rfl⟩
    by_cases hlive : row.sessionId = sessionId ∧ row.status.isTerminal = false
    · by_cases hblocked : row.blockedByRunId = expectedBlocker s sessionId id
      · simp [hlive, hblocked]
      · rw [if_pos (hwrong.mpr ⟨hlive, hblocked⟩), if_pos hlive]
    · rw [if_neg fun hmem => hlive (hwrong.mp hmem).1, if_neg hlive]

theorem repairSessionHead_run {session : SessionRow} (hconstrained : Constrained s)
    (hsession : s.sessions.lookup sessionId = some session) :
    ∃ result s', repairSessionHead env sessionId s = .ok (result, s') ∧
      (s'.sessions.lookup sessionId).map (·.headRunId) = some (expectedHead s sessionId) ∧
      ∀ id, (s'.runs.lookup id).map (·.blockedByRunId) = (s.runs.lookup id).map fun row =>
        if row.sessionId = sessionId ∧ row.status.isTerminal = false then expectedBlocker s sessionId id else row.blockedByRunId := by
  simp only [repairSessionHead, fetch_bind_run, hsession, get_bind]
  split
  · next hright =>
    refine ⟨_, s, rfl, ?_, fun id => ?_⟩
    · rw [hsession, Option.map_some, hright.1, expectedHead]
    · have hnone : ((liveRuns s sessionId).filter fun e => e.2.blockedByRunId ≠ expectedBlocker s sessionId e.1) = [] := hright.2
      rw [← blocker_after_marking id, hnone]
      rfl
  · obtain ⟨marked, hmarked, hsessions, hrows⟩ := @forEach_block env
      ((liveRuns s sessionId).filter fun e => e.2.blockedByRunId ≠ expectedBlocker s sessionId e.1) (expectedBlocker s sessionId) s
    have hblockers := fun id => (hrows id).2.trans (blocker_after_marking id)
    have hhoused : ∀ head ∈ expectedHead s sessionId, ∃ row, marked.runs.lookup head = some row ∧ row.workspaceId = session.workspaceId := by
      intro head hhead
      obtain ⟨row, hrow, rfl, -⟩ := lookup_of_head hhead
      obtain ⟨_, howner, hworkspace⟩ := hconstrained.workspaces head row hrow
      cases hsession.symm.trans howner
      have hsame := (hrows head).1
      rw [hrow, Option.map_some] at hsame
      obtain ⟨row', hrow', heq⟩ := Option.map_eq_some_iff.mp hsame
      exact ⟨row', hrow', heq.trans hworkspace.symm⟩
    let handed : Store :=
      { marked with sessions := marked.sessions.modify sessionId fun row => { row with headRunId := expectedHead s sessionId } }
    have htold : ∃ s', Tx.forEach (expectedHead s sessionId).toList (fun head =>
          appendEvents env session.workspaceId head [{ eventType := .sessionHeadRepaired }]) handed = .ok ((), s') ∧
        s'.sessions = handed.sessions ∧
        ∀ id, (s'.runs.lookup id).map (·.blockedByRunId) = (marked.runs.lookup id).map (·.blockedByRunId) := by
      cases hhead : expectedHead s sessionId with
      | none => exact ⟨handed, rfl, rfl, fun _ => rfl⟩
      | some head =>
        obtain ⟨row, hrow, hworkspace⟩ := hhoused head hhead
        obtain ⟨s', hevents, hbeside, hblocked⟩ :=
          @appendEvents_beside env handed [{ eventType := .sessionHeadRepaired }] session.workspaceId head row hrow hworkspace
        exact ⟨s', bind_of_ok hevents, hbeside, hblocked⟩
    obtain ⟨s', hevents, hbeside, hblocked⟩ := htold
    refine ⟨{ changed := true, headRunId := expectedHead s sessionId }, s', ?_, ?_, fun id => (hblocked id).trans (hblockers id)⟩
    · exact (bind_of_ok hmarked).trans (write_bind.trans (bind_of_ok hevents))
    · rw [hbeside, Table.lookup_modify_self, hsessions, hsession]
      rfl

theorem repairChanges_iff {session : SessionRow} (hconstrained : Constrained s)
    (hsession : s.sessions.lookup sessionId = some session) :
    RepairChanges env s sessionId ↔ session.headRunId ≠ expectedHead s sessionId ∨
      ∃ id row, (id, row) ∈ liveRuns s sessionId ∧ row.blockedByRunId ≠ expectedBlocker s sessionId id := by
  obtain ⟨result, s', hrun, hhead, hrows⟩ := @repairSessionHead_run env s sessionId session hconstrained hsession
  constructor
  · rintro ⟨_, _, hrun', hchanged⟩
    obtain ⟨-, rfl⟩ := Prod.mk.inj (Except.ok.inj (hrun.symm.trans hrun'))
    rcases hchanged with hother | ⟨id, hother⟩
    · left
      rw [hhead, hsession] at hother
      intro heq
      exact hother (congrArg some heq.symm)
    · right
      rw [hrows] at hother
      cases hrow : s.runs.lookup id with
      | none =>
        rw [hrow] at hother
        exact absurd rfl hother
      | some row =>
        rw [hrow, Option.map_some, Option.map_some] at hother
        by_cases hlive : row.sessionId = sessionId ∧ row.status.isTerminal = false
        · rw [if_pos hlive] at hother
          exact ⟨id, row, mem_liveRuns.mpr ⟨hrow, hlive⟩, fun heq => hother (congrArg some heq.symm)⟩
        · rw [if_neg hlive] at hother
          exact absurd rfl hother
  · intro hwrong
    refine ⟨result, s', hrun, ?_⟩
    rcases hwrong with hother | ⟨id, _, hmem, hother⟩
    · left
      rw [hhead, hsession]
      exact fun heq => hother (Option.some.inj heq).symm
    · right
      obtain ⟨hrow, hlive⟩ := mem_liveRuns.mp hmem
      refine ⟨id, ?_⟩
      rw [hrows, hrow, Option.map_some, Option.map_some, if_pos hlive]
      exact fun heq => hother (Option.some.inj heq).symm

end Repair

section Scan
variable {s : Store} {sessionId : Uuid} {session : SessionRow}

theorem smallest_eq (s : Store) (sessionId : Uuid) :
    smallest s sessionId = (liveRuns s sessionId).head?.map (·.2.sessionSequence) := by
  have hperm : List.Perm (liveRuns s sessionId) (s.runs.select fun _ run => run.sessionId = sessionId && !run.status.isTerminal) :=
    List.mergeSort_perm _ _
  have hsorted := liveRuns_sorted s sessionId
  unfold smallest
  cases hlive : liveRuns s sessionId with
  | nil =>
    rw [hlive] at hperm
    rw [hperm.symm.eq_nil]
    rfl
  | cons =>
    rw [hlive] at hperm hsorted
    refine List.min?_eq_some_iff.mpr ⟨?_, ?_⟩
    · exact List.mem_map_of_mem (hperm.mem_iff.mp List.mem_cons_self)
    · intro _ hmem
      obtain ⟨_, he, rfl⟩ := List.mem_map.mp hmem
      rcases List.mem_cons.mp (hperm.mem_iff.mpr he) with rfl | hrest
      · exact Nat.le_refl _
      · exact List.rel_of_pairwise_cons hsorted hrest

theorem mem_misblocked (hsession : s.sessions.lookup sessionId = some session) {head : Uuid} (hhead : session.headRunId = some head) :
    sessionId ∈ misblocked s ↔ ∃ e ∈ liveRuns s sessionId, e.1 ≠ head ∧ e.2.blockedByRunId ≠ some head := by
  constructor
  · intro hmem
    obtain ⟨⟨id, row⟩, hselected, hid⟩ := List.mem_map.mp hmem
    obtain ⟨hrow, hwhere⟩ := Table.mem_select.mp hselected
    obtain rfl : row.sessionId = sessionId := hid
    rw [hsession, Option.any_some, hhead, Option.any_some, Bool.and_eq_true, Bool.and_eq_true] at hwhere
    obtain ⟨hlive, hother, hblocked⟩ := hwhere
    refine ⟨(id, row), mem_liveRuns.mpr ⟨hrow, rfl, ?_⟩, of_decide_eq_true hother, of_decide_eq_true hblocked⟩
    simpa using hlive
  · rintro ⟨⟨id, row⟩, hmem, hother, hblocked⟩
    obtain ⟨hrow, rfl, hlive⟩ := mem_liveRuns.mp hmem
    refine List.mem_map.mpr ⟨(id, row), Table.mem_select.mpr ⟨hrow, ?_⟩, rfl⟩
    rw [hsession, Option.any_some, hhead, Option.any_some, hlive, decide_eq_true hother, decide_eq_true hblocked]
    rfl

theorem mem_needingRepair (hsession : s.sessions.lookup sessionId = some session) :
    sessionId ∈ needingRepair s ↔
      (session.headRunId.isSome || (smallest s sessionId).isSome) = true ∧ disagrees s sessionId session = true := by
  rw [needingRepair, List.mem_map]
  constructor
  · rintro ⟨⟨_, _⟩, hselected, rfl⟩
    obtain ⟨hrow, hwhere⟩ := Table.mem_select.mp hselected
    cases hsession.symm.trans hrow
    exact Bool.and_eq_true_iff.mp hwhere
  · intro hwhere
    exact ⟨(sessionId, session), Table.mem_select.mpr ⟨hsession, Bool.and_eq_true_iff.mpr hwhere⟩, rfl⟩

variable {first : Uuid × RunRow}

theorem disagrees_of_live (hsession : s.sessions.lookup sessionId = some session) {head : Uuid}
    (hhead : session.headRunId = some head) (hfirst : (liveRuns s sessionId).head? = some first) :
    disagrees s sessionId session = true ↔
      (∃ e ∈ liveRuns s sessionId, e.1 ≠ head ∧ e.2.blockedByRunId ≠ some head) ∨
        ∃ run, s.runs.lookup head = some run ∧
          (run.sessionId = sessionId ∧ first.2.sessionSequence < run.sessionSequence ∨ run.status.isTerminal = true) := by
  rw [disagrees, smallest_eq, hfirst, hhead, ← mem_misblocked hsession hhead]
  cases hrun : s.runs.lookup head with
  | none => simp [hrun]
  | some => simp [hrun, or_assoc]

def BlockedHead (s : Store) (sessionId : Uuid) (session : SessionRow) : Prop :=
  ∃ first, (liveRuns s sessionId).head? = some first ∧ session.headRunId = some first.1 ∧ first.2.blockedByRunId ≠ none ∧
    ∀ e ∈ liveRuns s sessionId, e.1 ≠ first.1 → e.2.blockedByRunId = some first.1

/-- The head is no Run, or an unfinished one of another Session, and every unfinished Run here is blocked by it. -/
def LostHead (s : Store) (sessionId : Uuid) (session : SessionRow) : Prop :=
  ∃ head, session.headRunId = some head ∧ liveRuns s sessionId ≠ [] ∧
    (∀ run, s.runs.lookup head = some run → run.sessionId ≠ sessionId ∧ run.status.isTerminal = false) ∧
    ∀ e ∈ liveRuns s sessionId, e.2.blockedByRunId = some head

theorem expectedBlocker_of_ne (hfirst : (liveRuns s sessionId).head? = some first) {id : Uuid}
    (hne : id ≠ first.1) : expectedBlocker s sessionId id = some first.1 := by
  rw [expectedBlocker, expectedHead, hfirst, Option.map_some, if_neg fun heq => hne (Option.some.inj heq)]

theorem expectedBlocker_first (hfirst : (liveRuns s sessionId).head? = some first) :
    expectedBlocker s sessionId first.1 = none := by
  rw [expectedBlocker, expectedHead, hfirst, Option.map_some, if_pos rfl]

theorem head_le_of_sorted {e : Uuid × RunRow} (hfirst : (liveRuns s sessionId).head? = some first)
    (he : e ∈ liveRuns s sessionId) : first.2.sessionSequence ≤ e.2.sessionSequence := by
  have hsorted := liveRuns_sorted s sessionId
  obtain ⟨_, hlive⟩ := List.head?_eq_some_iff.mp hfirst
  rw [hlive] at hsorted he
  rcases List.mem_cons.mp he with rfl | hrest
  · exact Nat.le_refl _
  · exact List.rel_of_pairwise_cons hsorted hrest

theorem liveRuns_row {e : Uuid × RunRow} {row : RunRow} (he : e ∈ liveRuns s sessionId) (hrow : s.runs.lookup e.1 = some row) :
    e.2 = row :=
  Option.some.inj ((mem_liveRuns.mp he).1.symm.trans hrow)

variable {env : Env}

theorem agrees_at_head (hconstrained : Constrained s) (hsession : s.sessions.lookup sessionId = some session)
    (hfirst : (liveRuns s sessionId).head? = some first) (hhead : session.headRunId = some first.1) :
    (disagrees s sessionId session = true ↔ RepairChanges env s sessionId) ↔ ¬ BlockedHead s sessionId session := by
  have hmem := List.mem_of_head? hfirst
  obtain ⟨hrow, _, hlive⟩ := mem_liveRuns.mp hmem
  have hscan : disagrees s sessionId session = true ↔
      ∃ e ∈ liveRuns s sessionId, e.1 ≠ first.1 ∧ e.2.blockedByRunId ≠ some first.1 := by
    rw [disagrees_of_live hsession hhead hfirst]
    refine or_iff_left ?_
    rintro ⟨_, hrun, hlater | hended⟩
    · obtain rfl := liveRuns_row hmem hrun
      exact Nat.lt_irrefl _ hlater.2
    · obtain rfl := liveRuns_row hmem hrun
      rw [hlive] at hended
      cases hended
  have hrepair : RepairChanges env s sessionId ↔ first.2.blockedByRunId ≠ none ∨
      ∃ e ∈ liveRuns s sessionId, e.1 ≠ first.1 ∧ e.2.blockedByRunId ≠ some first.1 := by
    have hexpected : session.headRunId = expectedHead s sessionId := by rw [hhead, expectedHead, hfirst, Option.map_some]
    rw [repairChanges_iff hconstrained hsession, or_iff_right (not_not_intro hexpected)]
    constructor
    · rintro ⟨id, row, he, hblocked⟩
      by_cases hid : id = first.1
      · subst hid
        rw [expectedBlocker_first hfirst] at hblocked
        obtain rfl : row = first.2 := liveRuns_row he hrow
        exact .inl hblocked
      · rw [expectedBlocker_of_ne hfirst hid] at hblocked
        exact .inr ⟨(id, row), he, hid, hblocked⟩
    · rintro (hblocked | ⟨e, he, hne, hblocked⟩)
      · refine ⟨first.1, first.2, hmem, ?_⟩
        rwa [expectedBlocker_first hfirst]
      · refine ⟨e.1, e.2, he, ?_⟩
        rwa [expectedBlocker_of_ne hfirst hne]
  rw [hscan, hrepair]
  constructor
  · rintro hiff ⟨_, hfirst', -, hblocked, hbehind⟩
    cases hfirst.symm.trans hfirst'
    obtain ⟨e, he, hne, hother⟩ := hiff.mpr (.inl hblocked)
    exact hother (hbehind e he hne)
  · intro hnot
    refine ⟨.inr, ?_⟩
    rintro (hblocked | hbehind)
    · by_contra hnone
      refine hnot ⟨first, hfirst, hhead, hblocked, fun e he hne => ?_⟩
      by_contra hother
      exact hnone ⟨e, he, hne, hother⟩
    · exact hbehind

theorem agrees_off_head (hconstrained : Constrained s) (hsession : s.sessions.lookup sessionId = some session)
    {head : Uuid} (hfirst : (liveRuns s sessionId).head? = some first) (hhead : session.headRunId = some head)
    (hne : head ≠ first.1) :
    (disagrees s sessionId session = true ↔ RepairChanges env s sessionId) ↔ ¬ LostHead s sessionId session := by
  have hmem := List.mem_of_head? hfirst
  obtain ⟨hrow, hhere, _⟩ := mem_liveRuns.mp hmem
  have hrepair : RepairChanges env s sessionId := by
    refine (repairChanges_iff hconstrained hsession).mpr (.inl ?_)
    rw [hhead, expectedHead, hfirst, Option.map_some]
    exact fun heq => hne (Option.some.inj heq)
  rw [iff_true_right hrepair, disagrees_of_live hsession hhead hfirst]
  constructor
  · rintro hfound ⟨_, hhead', -, hlost, hblocked⟩
    cases hhead.symm.trans hhead'
    rcases hfound with ⟨e, he, -, hother⟩ | ⟨run, hrun, hlater | hended⟩
    · exact hother (hblocked e he)
    · exact (hlost run hrun).1 hlater.1
    · rw [(hlost run hrun).2] at hended
      cases hended
  · intro hnot
    by_contra hunfound
    have hlost : ∀ run, s.runs.lookup head = some run → run.sessionId ≠ sessionId ∧ run.status.isTerminal = false := by
      intro run hrun
      have hopen : run.status.isTerminal = false :=
        Bool.eq_false_iff.mpr fun hended => hunfound (.inr ⟨run, hrun, .inr hended⟩)
      refine ⟨fun hsame => ?_, hopen⟩
      have hle := head_le_of_sorted hfirst (mem_liveRuns.mpr ⟨hrun, hsame, hopen⟩)
      have hapart : first.2.sessionSequence ≠ run.sessionSequence := fun heq =>
        hne (hconstrained.sequences head first.1 run first.2 hrun hrow (hsame.trans hhere.symm) heq.symm)
      exact hunfound (.inr ⟨run, hrun, .inl ⟨hsame, Nat.lt_of_le_of_ne hle hapart⟩⟩)
    refine hnot ⟨head, hhead, List.ne_nil_of_mem hmem, hlost, fun e he => ?_⟩
    by_contra hother
    refine hunfound (.inl ⟨e, he, fun hid => ?_, hother⟩)
    obtain ⟨herow, hehere, -⟩ := mem_liveRuns.mp he
    rw [hid] at herow
    exact (hlost e.2 herow).1 hehere

/-- The scan finds a Session exactly when its repair would write something, except for a first Run that is blocked although it
is the head, and a head that is not here and that everything here waits for. -/
theorem scan_agrees_iff (env : Env) (limit : Nat) (hconstrained : Constrained s)
    (hsession : s.sessions.lookup sessionId = some session) (hlimit : (needingRepair s).length ≤ limit) :
    (sessionId ∈ sessionsNeedingRepair limit s ↔ RepairChanges env s sessionId) ↔
      ¬ BlockedHead s sessionId session ∧ ¬ LostHead s sessionId session := by
  rw [sessionsNeedingRepair, List.take_of_length_le hlimit, mem_needingRepair hsession]
  cases hfirst : (liveRuns s sessionId).head? with
  | none =>
    have hempty : liveRuns s sessionId = [] := List.head?_eq_none_iff.mp hfirst
    have hblocked : ¬ BlockedHead s sessionId session := by
      rintro ⟨first, hsome, -⟩
      rw [hfirst] at hsome
      cases hsome
    have hlost : ¬ LostHead s sessionId session := fun ⟨_, _, hlive, _⟩ => hlive hempty
    have hexpected : expectedHead s sessionId = none := by rw [expectedHead, hfirst, Option.map_none]
    refine iff_of_true ?_ ⟨hblocked, hlost⟩
    rw [repairChanges_iff hconstrained hsession, hexpected, hempty, disagrees, smallest_eq, hfirst]
    cases hhead : session.headRunId <;> simp
  | some first =>
    have hcandidate : (session.headRunId.isSome || (smallest s sessionId).isSome) = true := by
      rw [smallest_eq, hfirst, Option.map_some, Option.isSome_some, Bool.or_true]
    rw [and_iff_right hcandidate]
    cases hhead : session.headRunId with
    | none =>
      refine iff_of_true (iff_of_true ?_ ?_) ⟨?_, ?_⟩
      · rw [disagrees, smallest_eq, hfirst, hhead]
        rfl
      · refine (repairChanges_iff hconstrained hsession).mpr (.inl ?_)
        rw [hhead, expectedHead, hfirst]
        exact (Option.some_ne_none first.1).symm
      · rintro ⟨_, _, hsome, _⟩
        rw [hhead] at hsome
        cases hsome
      · rintro ⟨_, hsome, _⟩
        rw [hhead] at hsome
        cases hsome
    | some head =>
      by_cases hne : head = first.1
      · subst hne
        rw [agrees_at_head hconstrained hsession hfirst hhead]
        refine (and_iff_left ?_).symm
        rintro ⟨_, hhead', -, hlost, -⟩
        cases hhead.symm.trans hhead'
        obtain ⟨hrow, hhere, -⟩ := mem_liveRuns.mp (List.mem_of_head? hfirst)
        exact (hlost first.2 hrow).1 hhere
      · rw [agrees_off_head hconstrained hsession hfirst hhead hne]
        refine (and_iff_right ?_).symm
        rintro ⟨_, hfirst', hhead', -⟩
        cases hfirst.symm.trans hfirst'
        exact hne (Option.some.inj (hhead.symm.trans hhead'))

end Scan

section Crossed

def lineRun (sequence : Nat) (blockedByRunId : Option Uuid) : RunRow where
  workspaceId := 1
  sessionId := 1
  agentVersionId := 1
  sessionSequence := sequence
  blockedByRunId := blockedByRunId
  budgetRootRunId := 10
  queuedAt := 0
  updatedAt := 0
  createdAt := 0

def lineSession (headRunId : Option Uuid) : SessionRow where
  workspaceId := 1
  agentId := 1
  sessionMode := .persistent
  caller := { callerType := .user, callerId := 7 }
  headRunId := headRunId

def pair (headRunId firstBlockedBy : Option Uuid) : Store where
  sessions := AList.insert 1 (lineSession headRunId) ∅
  runs := (AList.insert 10 (lineRun 1 firstBlockedBy) ∅).insert 11 (lineRun 2 (some 10))

theorem pair_lookup {headRunId firstBlockedBy : Option Uuid} {id : Uuid} {row : RunRow}
    (h : (pair headRunId firstBlockedBy).runs.lookup id = some row) :
    id = 10 ∧ row = lineRun 1 firstBlockedBy ∨ id = 11 ∧ row = lineRun 2 (some 10) := by
  rw [pair, Table.lookup_insert_ite, Table.lookup_insert_ite, AList.lookup_empty] at h
  split at h
  · next hid => exact .inr ⟨hid, (Option.some.inj h).symm⟩
  · split at h
    · next hid => exact .inl ⟨hid, (Option.some.inj h).symm⟩
    · cases h

theorem pair_constrained (headRunId firstBlockedBy : Option Uuid) : Constrained (pair headRunId firstBlockedBy) where
  sequences id id' row row' hrow hrow' _ hsequence := by
    rcases pair_lookup hrow with ⟨rfl, rfl⟩ | ⟨rfl, rfl⟩ <;> rcases pair_lookup hrow' with ⟨rfl, rfl⟩ | ⟨rfl, rfl⟩
    · rfl
    · cases hsequence
    · cases hsequence
    · rfl
  workspaces id row hrow := by
    rcases pair_lookup hrow with ⟨rfl, rfl⟩ | ⟨rfl, rfl⟩
    · exact ⟨lineSession headRunId, rfl, rfl⟩
    · exact ⟨lineSession headRunId, rfl, rfl⟩

theorem pair_first (headRunId firstBlockedBy : Option Uuid) :
    (liveRuns (pair headRunId firstBlockedBy) 1).head? = some (10, lineRun 1 firstBlockedBy) := by
  have hmem : (10, lineRun 1 firstBlockedBy) ∈ liveRuns (pair headRunId firstBlockedBy) 1 := mem_liveRuns.mpr ⟨rfl, rfl, rfl⟩
  cases hfirst : (liveRuns (pair headRunId firstBlockedBy) 1).head? with
  | none =>
    rw [List.head?_eq_none_iff.mp hfirst] at hmem
    cases hmem
  | some first =>
    obtain ⟨_, _⟩ := first
    obtain ⟨hrow, -⟩ := mem_liveRuns.mp (List.mem_of_head? hfirst)
    rcases pair_lookup hrow with ⟨rfl, rfl⟩ | ⟨rfl, rfl⟩
    · rfl
    · exact absurd (head_le_of_sorted hfirst hmem) (Nat.not_succ_le_self 1)

/-- A Session that has lost its head: the scan finds it and the repair writes. -/
theorem headless_agrees : Constrained (pair none none) ∧
    ∀ env, 1 ∈ sessionsNeedingRepair 50 (pair none none) ↔ RepairChanges env (pair none none) 1 := by
  refine ⟨pair_constrained none none, fun env => ?_⟩
  refine (scan_agrees_iff env 50 (pair_constrained none none) rfl (by decide)).mpr ⟨?_, ?_⟩
  · rintro ⟨_, _, hhead, _⟩
    cases hhead
  · rintro ⟨_, hhead, _⟩
    cases hhead

/-- The first of two Runs is the head and waits for the second, which waits for it: nothing finds it, and a repair would free it. -/
theorem crossed_unseen : ∃ (s : Store) (session : SessionRow), Constrained s ∧ s.sessions.lookup 1 = some session ∧
    session.headRunId.isSome = true ∧ sessionsNeedingRepair 50 s = [] ∧ ∀ env, RepairChanges env s 1 := by
  refine ⟨pair (some 10) (some 11), lineSession (some 10), pair_constrained _ _, rfl, rfl, by decide, fun env => ?_⟩
  refine (repairChanges_iff (pair_constrained _ _) rfl).mpr (.inr ⟨10, lineRun 1 (some 11), mem_liveRuns.mpr ⟨rfl, rfl, rfl⟩, ?_⟩)
  rw [expectedBlocker_first (pair_first (some 10) (some 11))]
  exact Option.some_ne_none 11

end Crossed

end TinyHermes.Runs.RepairScan
