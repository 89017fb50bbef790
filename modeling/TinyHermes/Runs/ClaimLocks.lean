import TinyHermes.Lib.LockOrder
import TinyHermes.Runs.ConcurrentClaims

/-! Whether claimers can wait for each other's locks. A recount that fails keeps its locks, and the next
candidate may ask for others. -/
namespace TinyHermes.Runs.ClaimLocks
open Lib Tx SqlRunStore StateMachine ConcurrentClaims LockOrder

def holds (w : World) (id : Nat) (lock : Int) : Prop := ∃ a, w.claimers.lookup id = some a ∧ lock ∈ a.held

def waits (hash : KeyHash) (w : World) (id : Nat) (lock : Int) : Prop :=
  ∃ a key, w.claimers.lookup id = some a ∧ a.phase.asks = some key ∧ hash key = lock

def keys (c : Candidate) : List RunningKey :=
  (if c.limits.maxRunningRuns.isSome then [c.workspaceKey] else []) ++
    if c.caller.callerType ≠ .serviceAccount then [c.callerKey] else []

def WorkspaceFirst (hash : KeyHash) (rank : Int → Nat) : Prop :=
  ∀ workspaceId caller, rank (hash (.workspace workspaceId)) < rank (hash (.caller workspaceId caller))

def Later (rank : Int → Nat) (held : List Int) (lock : Int) : Prop := lock ∈ held ∨ ∀ l ∈ held, rank l < rank lock

def AsksUpwards (hash : KeyHash) (rank : Int → Nat) (commit : Commit World (Env × Act) Unit) : Prop :=
  match commit.input with
  | (env, .select id busy) => ∀ a c, commit.before.claimers.lookup id = some a →
      candidate { env with now := a.now } commit.before.store a.command a.aside
        (lockedByOthers commit.before id ++ busy) = some c →
      ∀ key ∈ keys c, Later rank a.held (hash key)
  | _ => True

variable {key : RunningKey}

section Order
variable {hash : KeyHash} {rank : Int → Nat} {env : Env} {w w' : World} {x : Act}

def ahead : Phase → List RunningKey
  | .lockingWorkspace _ c _ | .countingWorkspace _ c _ => c.workspaceKey :: keys c
  | .lockingCaller _ c => [c.callerKey]
  | _ => []

def Rising (hash : KeyHash) (rank : Int → Nat) (w : World) : Prop :=
  ∀ id a, w.claimers.lookup id = some a → ∀ key ∈ ahead a.phase, Later rank a.held (hash key)

theorem Later.of_cons {held : List Int} {lock next : Int} (h : Later rank held next) (hle : rank lock < rank next) :
    Later rank (lock :: held) next := by
  rcases h with hmem | hup
  · exact .inl (List.mem_cons_of_mem _ hmem)
  · refine .inr fun l hl => ?_
    rcases List.mem_cons.mp hl with rfl | hl
    · exact hle
    · exact hup l hl

theorem ahead_afterWorkspace {attempts : Nat} {c : Candidate}
    (h : key ∈ ahead (afterWorkspace attempts c)) : key ∈ keys c := by
  unfold afterWorkspace at h
  split_ifs at h with hservice
  · rw [List.mem_singleton.mp h]
    exact List.mem_append_right _ (by simp [hservice])
  · cases h

theorem ahead_afterSelect {attempts : Nat} {c : Candidate}
    (h : key ∈ ahead (afterSelect attempts c)) : key ∈ keys c := by
  unfold afterSelect at h
  cases hlimit : c.limits.maxRunningRuns with
  | none =>
    rw [hlimit] at h
    exact ahead_afterWorkspace h
  | some =>
    rw [hlimit] at h
    rcases List.mem_cons.mp h with rfl | h
    · exact List.mem_append_left _ (by simp [hlimit])
    · exact h

theorem mem_keys {c : Candidate} (h : key ∈ keys c) : key = c.workspaceKey ∨ key = c.callerKey := by
  rcases List.mem_append.mp h with h | h
  · split_ifs at h
    · exact .inl (List.mem_singleton.mp h)
    · cases h
  · split_ifs at h
    · exact .inr (List.mem_singleton.mp h)
    · cases h

theorem later_granted {phase : Phase} {held : List Int} {granted next : RunningKey} (hfirst : WorkspaceFirst hash rank)
    (h : ∀ key ∈ ahead phase, Later rank held (hash key)) (hasks : phase.asks = some granted)
    (hnext : next ∈ ahead phase.granted) : Later rank (hash granted :: held) (hash next) := by
  cases phase with
  | lockingWorkspace _ c =>
    cases hasks
    have hkeys : next = c.workspaceKey ∨ next = c.callerKey := by
      rcases List.mem_cons.mp hnext with rfl | hmem
      · exact .inl rfl
      · exact mem_keys hmem
    rcases hkeys with rfl | rfl
    · exact .inl List.mem_cons_self
    · exact (h _ hnext).of_cons (hfirst c.row.workspaceId c.caller)
  | lockingCaller => cases hnext
  | _ => cases hasks

theorem rising_step (hfirst : WorkspaceFirst hash rank) (hmove : Moves hash env w x w')
    (hup : AsksUpwards hash rank ⟨w, (env, x), (), w'⟩) (h : Rising hash rank w) : Rising hash rank w' := by
  cases hmove with
  | arrived =>
    intro j b hb key hkey
    rw [Table.lookup_insert_ite] at hb
    split_ifs at hb
    · cases hb
      cases hkey
    · exact h j b hb key hkey
  | @advanced _ id a f ha hstep =>
    intro j b hb key hkey
    rcases Table.lookup_modify_cases ha hb with ⟨rfl, rfl⟩ | ⟨_, hb⟩
    · have hmine := h j a ha
      generalize hfa : f a = a' at hstep hkey ⊢
      cases hstep with
      | gaveUp => cases hkey
      | selected hphase hc => exact hup a _ ha hc key (ahead_afterSelect hkey)
      | locked hasks => exact later_granted hfirst hmine hasks hkey
      | wentOn => cases hkey
      | workspaceFree hphase =>
        apply hmine
        rw [hphase]
        exact List.mem_cons_of_mem _ (ahead_afterWorkspace hkey)
      | callerFree => cases hkey
      | decided => cases hkey
    · exact h j b hb key hkey
  | committed => exact fun j b hb => h j b (Table.lookup_erase_some hb).2
  | ended => exact fun j b hb => h j b (Table.lookup_erase_some hb).2
  | besides => exact h

theorem rising_run {log : WorldHistory} (hfirst : WorkspaceFirst hash rank) (h : WorldExecutes hash log w)
    (hup : ∀ c ∈ log, AsksUpwards hash rank c) : Rising hash rank w := by
  induction h with
  | nil => exact fun id a ha => nomatch ha
  | snoc _ hs ih =>
    have hbefore := ih fun c hc => hup c (List.mem_append_left _ hc)
    exact rising_step hfirst (act_moves hs.2) (hup _ (List.mem_append_right _ (List.mem_singleton_self _))) hbefore

theorem asks_ahead {phase : Phase} (h : phase.asks = some key) : key ∈ ahead phase := by
  cases phase with
  | lockingWorkspace =>
    cases h
    exact List.mem_cons_self
  | lockingCaller =>
    cases h
    exact List.mem_singleton_self _
  | _ => cases h

/-- Claimers that ask for locks in one order never wait for each other in a circle. -/
theorem claims_never_deadlock {log : WorldHistory} (h : WorldExecutes hash log w) (hfirst : WorkspaceFirst hash rank)
    (hup : ∀ c ∈ log, AsksUpwards hash rank c) (group : Finset Nat) : ¬ Deadlock (holds w) (waits hash w) group := by
  have hrising := rising_run hfirst h hup
  have hapart := apart_run h
  apply not_deadlock rank
  rintro i j _ l ⟨a, key, ha, hasks, rfl⟩ hj ⟨b, hb, hlock⟩ ⟨_, ha', hl⟩
  cases ha.symm.trans ha'
  rcases hrising i a ha key (asks_ahead hasks) with hown | hlater
  · exact absurd (hapart.locks j i b a _ hb ha hlock hown) hj
  · exact hlater l hl

def FirstCandidate (c : Commit World (Env × Act) Unit) : Bool :=
  match c.input.2 with
  | .select id _ => (c.before.claimers.lookup id).all fun a => a.held = []
  | _ => true

theorem asksUpwards_of_first {c : Commit World (Env × Act) Unit} (h : FirstCandidate c = true) :
    AsksUpwards hash rank c := by
  obtain ⟨_, ⟨_, x⟩, _, _⟩ := c
  cases x with
  | select =>
    intro _ _ ha _ _ _
    simp only [FirstCandidate] at h
    rw [ha, Option.all_some, decide_eq_true_eq] at h
    rw [h]
    exact .inr fun l hl => nomatch hl
  | _ => trivial

end Order

section Example
open Agents

def crossing : List Act :=
  fourClaimers ++ [.commit 1 91] ++ locks 3 ++ [.select 3 [], .commit 2 92] ++ locks 4 ++
    [.beside (.recordSlice (slice 11 91 2 (some .sliceEnded))), .select 4 []]

theorem crossing_permitted : ∀ x ∈ crossing, x.Permitted := by
  intro x hx
  simp only [crossing, List.append_assoc] at hx
  rcases List.mem_append.mp hx with hfour | _
  · exact fourClaimers_permitted x hfour
  · clear hx
    revert x
    simp [locks, slice, Act.Permitted, LeaseFencing.AsCalled, LeaseFencing.LeavesRunning, transitions]

def standing (w : World) (id : Nat) : Option (List Int × Option RunningKey) :=
  (w.claimers.lookup id).map fun a => (a.held, a.phase.asks)

theorem holds_of_standing {w : World} {id : Nat} {held : List Int} {asked : Option RunningKey} {lock : Int}
    (h : standing w id = some (held, asked)) (hlock : lock ∈ held) : holds w id lock := by
  obtain ⟨a, ha, heq⟩ := Option.map_eq_some_iff.mp h
  obtain ⟨rfl, _⟩ := Prod.mk.inj heq
  exact ⟨a, ha, hlock⟩

theorem waits_of_standing {hash : KeyHash} {w : World} {id : Nat} {held : List Int}
    (h : standing w id = some (held, some key)) : waits hash w id (hash key) := by
  obtain ⟨a, ha, heq⟩ := Option.map_eq_some_iff.mp h
  exact ⟨a, key, ha, (Prod.mk.inj heq).2, rfl⟩

/-- Claimers 3 and 4 wait for each other. -/
theorem crossing_deadlocks : ∃ log w, WorldExecutes plainHash log w ∧ Deadlock (holds w) (waits plainHash w) {3, 4} := by
  refine ⟨_, _, attemptActs_executes (timed_permitted crossing_permitted), ⟨3, by simp⟩, ?_⟩
  have h₃ : standing (attemptActs plainHash (timed crossing)).2 3 = some ([1], some (.workspace 2)) := by decide +kernel
  have h₄ : standing (attemptActs plainHash (timed crossing)).2 4 = some ([2], some (.workspace 1)) := by decide +kernel
  generalize (attemptActs plainHash (timed crossing)).2 = w at h₃ h₄ ⊢
  intro _ hi
  rcases Finset.mem_insert.mp hi with rfl | hi
  · exact ⟨2, waits_of_standing h₃, 4, by simp, by simp, holds_of_standing h₄ (by simp)⟩
  · rw [Finset.mem_singleton.mp hi]
    exact ⟨1, waits_of_standing h₄, 3, by simp, by simp, holds_of_standing h₃ (by simp)⟩

def workspacesFirst (lock : Int) : Nat := if 0 ≤ lock then 0 else 1

theorem plain_workspacesFirst : WorkspaceFirst plainHash workspacesFirst := by
  intro workspaceId caller
  have hworkspace : (0 : Int) ≤ plainHash (.workspace workspaceId) := Int.natCast_nonneg _
  have hcaller : ¬ (0 : Int) ≤ plainHash (.caller workspaceId caller) := by
    rw [plainHash]
    omega
  simp only [workspacesFirst, if_pos hworkspace, if_neg hcaller, Nat.zero_lt_one]

/-- Before anybody goes on to a second candidate two claimers wait, and not for each other. -/
theorem fourClaimers_wait : waits plainHash (attemptActs plainHash (timed fourClaimers)).2 3 1 ∧
    ¬ Deadlock (holds (attemptActs plainHash (timed fourClaimers)).2)
      (waits plainHash (attemptActs plainHash (timed fourClaimers)).2) {1, 2, 3, 4} := by
  have hfirst : (attemptActs plainHash (timed fourClaimers)).1.all FirstCandidate = true := by decide +kernel
  have h₃ : standing (attemptActs plainHash (timed fourClaimers)).2 3 = some ([], some (.workspace 1)) := by
    decide +kernel
  refine ⟨waits_of_standing h₃, ?_⟩
  refine claims_never_deadlock (attemptActs_executes (timed_permitted fourClaimers_permitted))
    plain_workspacesFirst (fun c hc => ?_) _
  exact asksUpwards_of_first (List.all_eq_true.mp hfirst c hc)

end Example
end TinyHermes.Runs.ClaimLocks
