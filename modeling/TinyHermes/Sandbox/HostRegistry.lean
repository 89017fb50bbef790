import TinyHermes.Lib.Execution
import TinyHermes.Outbound.Scope
import TinyHermes.Sandbox.HostPool

/-! The registry of the sandbox hosts, and when the pools of those in use are apart. -/
namespace TinyHermes.Outbound.Network

/-- `network.overlaps(other)`: one of the two has an end of the other. -/
def overlaps (n other : Network) : Bool :=
  n.version == other.version && (n.has other.address || n.has (other.address + other.size - 1) ||
    other.has n.address || other.has (n.address + n.size - 1))

theorem overlaps_iff {n other : Network} :
    n.overlaps other = true ↔ n.version = other.version ∧ ∃ value, n.has value = true ∧ other.has value = true := by
  have hpos := n.size_pos
  have hpos' := other.size_pos
  simp only [overlaps, Bool.and_eq_true, Bool.or_eq_true, beq_iff_eq]
  refine and_congr_right fun _ => ?_
  constructor
  · rintro (((h | h) | h) | h)
    · exact ⟨_, h, has_iff.mpr ⟨Nat.le_refl _, by omega⟩⟩
    · exact ⟨_, h, has_iff.mpr ⟨by omega, by omega⟩⟩
    · exact ⟨_, has_iff.mpr ⟨Nat.le_refl _, by omega⟩, h⟩
    · exact ⟨_, has_iff.mpr ⟨by omega, by omega⟩, h⟩
  · rintro ⟨_, h, h'⟩
    rw [has_iff] at h h'
    obtain hle | _ : n.address ≤ other.address ∨ other.address < n.address := by omega
    · exact .inl (.inl (.inl (has_iff.mpr ⟨hle, by omega⟩)))
    · exact .inl (.inr (has_iff.mpr ⟨by omega, by omega⟩))

end TinyHermes.Outbound.Network

namespace TinyHermes.Sandbox.HostRegistry
open Lib SqlSandboxStore
open Outbound (Network)
open Runs (Uuid Time)

structure HostRow extends SandboxHost where
  networkPool : Option String

structure Registry where
  hosts : Table String HostRow := ∅
  sandboxes : Sandboxes := .empty

inductive HostFault where
  /-- `ip_network` raised. -/
  | notANetwork (pool : String)
  | networkPoolOverlap (other otherPool : String)
  | unknownSandboxHost (name : String)
  | tables (fault : Fault)

abbrev HostTx := Tx Registry HostFault

def onSandboxes {α : Type} (x : SandboxTx α) : HostTx α := fun r =>
  match x r.sandboxes with
  | .error fault => .error (.tables fault)
  | .ok (a, sandboxes) => .ok (a, { r with sandboxes })

/-- `_IN_USE`. -/
def HostState.inUse (state : HostState) : Bool := state == .active || state == .draining

section Commands
variable (network : String → Option Network)

/-- One row of `_refuse_overlap`. -/
def refuseOther (mine : Network) (other : String × HostRow) : HostTx Unit :=
  match other.2.networkPool with
  | none => pure ()
  | some otherPool =>
    match network otherPool with
    | none => throw (.notANetwork otherPool)
    | some theirs => if mine.overlaps theirs then throw (.networkPoolOverlap other.1 otherPool) else pure ()

/-- `_refuse_overlap`. -/
def refuseOverlap (name pool : String) : HostTx Unit :=
  match network pool with
  | none => throw (.notANetwork pool)
  | some mine => do
    let r ← get
    Tx.forEach (r.hosts.select fun other row => other ≠ name && row.networkPool.isSome && HostState.inUse row.state)
      (refuseOther network mine)

structure Registration where
  name : String
  url : Option String
  memoryBudgetMb : Option Nat
  networkPool : Option String

/-- `INSERT … ON CONFLICT DO UPDATE`: a new host is active, and a known one keeps its state. -/
def upsert (said : Registration) (now : Time) (hosts : Table String HostRow) : Table String HostRow :=
  let state := match hosts.lookup said.name with
    | none => .active
    | some row => row.state
  hosts.insert said.name
    { url := said.url, memoryBudgetMb := said.memoryBudgetMb, networkPool := said.networkPool, seenAt := now, state }

def checkPool (said : Registration) : HostTx Unit :=
  match said.networkPool with
  | none => pure ()
  | some pool => refuseOverlap network said.name pool

/-- `register`. -/
def register (said : Registration) (now : Time) : HostTx Unit := do
  checkPool network said
  Tx.write fun r => { r with hosts := upsert said now r.hosts }

def heartbeat (name : String) (now : Time) : HostTx Unit :=
  Tx.write fun r => { r with hosts := r.hosts.modify name fun row => { row with seenAt := now } }

def inState (name : String) (state : HostState) (r : Registry) : Registry :=
  { r with hosts := r.hosts.modify name fun row => { row with state } }

/-- `_set_state`. -/
def setState (name : String) (state : HostState) : HostTx Unit := do
  let _ ← Tx.fetch (fun r => r.hosts.lookup name) (.unknownSandboxHost name)
  Tx.write (inState name state)

/-- `_live_on`. -/
def liveOn (name : String) (s : Sandboxes) : List (Uuid × SandboxReservation) :=
  s.reservations.select fun _ row => row.status.live &&
    (s.instances.lookup row.instanceId).any fun sandbox => sandbox.controller == name

def drainHost (name : String) : HostTx Nat := do
  setState name .draining
  let r ← get
  return (liveOn name r.sandboxes).length

def activateHost (name : String) : HostTx Unit := setState name .active

/-- `retire_host`: every sandbox recorded on the host is destroyed and its claim released. -/
def retireHost (name : String) : HostTx Nat := do
  setState name .retired
  let r ← get
  Tx.forEach (liveOn name r.sandboxes) fun claim => do
    onSandboxes (setInstanceStatus claim.2.instanceId .destroyed)
    onSandboxes (release claim.1)
  return (liveOn name r.sandboxes).length

inductive Command where
  | register (said : Registration) (now : Time)
  | heartbeat (name : String) (now : Time)
  | drain (name : String)
  | activate (name : String)
  | retire (name : String)

def Command.tx : Command → HostTx Unit
  | .register said now => HostRegistry.register network said now
  | .heartbeat name now => HostRegistry.heartbeat name now
  | .drain name => do
    let _ ← drainHost name
  | .activate name => activateHost name
  | .retire name => do
    let _ ← retireHost name

/-- A command is one transaction; one that raises leaves everything as it was. -/
def Step (r : Registry) (command : Command) (_ : Unit) (r' : Registry) : Prop := r' = (command.tx network).commit r

end Commands

section Apart
variable {network : String → Option Network} {r r' : Registry} {name other : String} {row row' : HostRow} {command : Command}
  {log : List (Commit Registry Command Unit)}

def Shares (network : String → Option Network) (row row' : HostRow) : Prop :=
  ∃ pool ∈ row.networkPool, ∃ pool' ∈ row'.networkPool, ∃ n ∈ network pool, ∃ n' ∈ network pool',
    n.version = n'.version ∧ ∃ value, n.has value = true ∧ n'.has value = true

def Apart (network : String → Option Network) (r : Registry) : Prop :=
  ∀ name other row row', name ≠ other → r.hosts.lookup name = some row → r.hosts.lookup other = some row' →
    row.state ≠ .retired → row'.state ≠ .retired → ¬ Shares network row row'

/-- The pool of `row` is apart from those of all hosts in use but `name`. -/
def Fits (network : String → Option Network) (r : Registry) (name : String) (row : HostRow) : Prop :=
  ∀ other row', other ≠ name → r.hosts.lookup other = some row' → row'.state ≠ .retired → ¬ Shares network row row'

/-- A retired host is taken back into use only while its pool is free. -/
def Meets (network : String → Option Network) (r : Registry) : Command → Prop
  | .drain name | .activate name => ∀ row, r.hosts.lookup name = some row → row.state = .retired → Fits network r name row
  | _ => True

theorem Shares.symm (h : Shares network row row') : Shares network row' row := by
  obtain ⟨pool, hpool, pool', hpool', n, hn, n', hn', hversion, value, hvalue, hvalue'⟩ := h
  exact ⟨pool', hpool', pool, hpool, n', hn', n, hn, hversion.symm, value, hvalue', hvalue⟩

theorem Shares.of_pool {row₁ : HostRow} (hpool : row₁.networkPool = row.networkPool) (h : Shares network row₁ row') :
    Shares network row row' := by
  unfold Shares at h ⊢
  rw [hpool] at h
  exact h

theorem inUse_iff {state : HostState} : HostState.inUse state = true ↔ state ≠ .retired := by
  cases state <;> decide

theorem Apart.change (h : Apart network r) (hothers : ∀ other, other ≠ name → r'.hosts.lookup other = r.hosts.lookup other)
    (hfits : ∀ row, r'.hosts.lookup name = some row → row.state ≠ .retired → Fits network r name row) : Apart network r' := by
  intro a b row row' hne ha hb hrow hrow'
  by_cases hname : a = name
  · subst hname
    rw [hothers b hne.symm] at hb
    exact hfits row ha hrow b row' hne.symm hb hrow'
  · rw [hothers a hname] at ha
    by_cases hother : b = name
    · subst hother
      exact fun hshares => hfits row' hb hrow' a row hname ha hrow hshares.symm
    · rw [hothers b hother] at hb
      exact h a b row row' hne ha hb hrow hrow'

theorem onSandboxes_hosts {α : Type} (x : SandboxTx α) : Tx.Within (fun r r' => r'.hosts = r.hosts) (onSandboxes x) := by
  intro _ _ _ h
  unfold onSandboxes at h
  split at h
  · cases h
  · cases h
    rfl

variable {u : Unit}

theorem refuseOther_ok {mine : Network} {entry : String × HostRow} (h : refuseOther network mine entry r = .ok (u, r')) :
    r' = r ∧ ∀ pool ∈ entry.2.networkPool, ∀ theirs ∈ network pool, mine.overlaps theirs = false := by
  unfold refuseOther at h
  cases hpool : entry.2.networkPool with
  | none =>
    rw [hpool] at h
    exact ⟨(Tx.pure_ok.mp h).2.symm, by simp⟩
  | some pool =>
    rw [hpool] at h
    cases hnetwork : network pool with
    | none =>
      simp only [hnetwork] at h
      exact absurd h Tx.throw_ok
    | some theirs =>
      simp only [hnetwork] at h
      cases hoverlaps : mine.overlaps theirs with
      | true =>
        rw [hoverlaps, if_pos rfl] at h
        exact absurd h Tx.throw_ok
      | false =>
        rw [hoverlaps, if_neg Bool.false_ne_true] at h
        refine ⟨(Tx.pure_ok.mp h).2.symm, ?_⟩
        intro _ hpool' _ htheirs'
        cases hpool'
        rw [hnetwork] at htheirs'
        cases htheirs'
        exact hoverlaps

theorem refuseOthers_ok {mine : Network} {entries : List (String × HostRow)}
    (h : Tx.forEach entries (refuseOther network mine) r = .ok (u, r')) :
    r' = r ∧ ∀ entry ∈ entries, ∀ pool ∈ entry.2.networkPool, ∀ theirs ∈ network pool, mine.overlaps theirs = false := by
  induction entries generalizing r with
  | nil => exact ⟨(Tx.pure_ok.mp h).2.symm, by simp⟩
  | cons entry rest ih =>
    obtain ⟨_, _, hone, hrest⟩ := Tx.bind_ok.mp h
    obtain ⟨rfl, hentry⟩ := refuseOther_ok hone
    obtain ⟨rfl, hothers⟩ := ih hrest
    refine ⟨rfl, ?_⟩
    intro e he
    rcases List.mem_cons.mp he with rfl | he
    · exact hentry
    · exact hothers e he

theorem refuseOverlap_ok {pool : String} (h : refuseOverlap network name pool r = .ok (u, r'))
    (hpool : row.networkPool = some pool) : r' = r ∧ Fits network r name row := by
  unfold refuseOverlap at h
  cases hmine : network pool with
  | none =>
    rw [hmine] at h
    exact absurd h Tx.throw_ok
  | some =>
    rw [hmine] at h
    obtain ⟨_, _, hget, hothers⟩ := Tx.bind_ok.mp h
    obtain ⟨rfl, rfl⟩ := Tx.get_ok.mp hget
    obtain ⟨rfl, hapart⟩ := refuseOthers_ok hothers
    refine ⟨rfl, ?_⟩
    rintro other row' hne hrow' hinUse ⟨_, hp, p', hp', _, hn, n', hn', hversion, hvalue⟩
    rw [hpool] at hp
    cases hp
    rw [hmine] at hn
    cases hn
    have hsome : row'.networkPool.isSome = true := Option.isSome_iff_exists.mpr ⟨p', hp'⟩
    have hin : (other, row') ∈ r'.hosts.select fun other row => other ≠ name && row.networkPool.isSome && HostState.inUse row.state := by
      apply Table.mem_select.mpr
      refine ⟨hrow', ?_⟩
      rw [hsome, inUse_iff.mpr hinUse]
      simp [hne]
    have hoverlaps := hapart _ hin p' hp' n' hn'
    rw [Network.overlaps_iff.mpr ⟨hversion, hvalue⟩] at hoverlaps
    cases hoverlaps

theorem checkPool_ok {said : Registration} (h : checkPool network said r = .ok (u, r'))
    (hpool : row.networkPool = said.networkPool) : r' = r ∧ Fits network r said.name row := by
  unfold checkPool at h
  cases hsaid : said.networkPool with
  | none =>
    rw [hsaid] at h hpool
    refine ⟨(Tx.pure_ok.mp h).2.symm, ?_⟩
    rintro _ _ _ _ _ ⟨_, hsome, _⟩
    rw [hpool] at hsome
    cases hsome
  | some =>
    rw [hsaid] at h hpool
    exact refuseOverlap_ok h hpool

theorem register_ok {said : Registration} {now : Time} (h : register network said now r = .ok (u, r')) :
    (∀ other, other ≠ said.name → r'.hosts.lookup other = r.hosts.lookup other) ∧
      ∀ row, r'.hosts.lookup said.name = some row → Fits network r said.name row := by
  obtain ⟨_, _, hcheck, hwrite⟩ := Tx.bind_ok.mp h
  rw [Tx.write_ok] at hwrite
  subst hwrite
  constructor
  · intro _ hne
    let asked : HostRow := ⟨⟨none, none, .active, 0⟩, said.networkPool⟩
    obtain ⟨rfl, _⟩ := checkPool_ok hcheck (show asked.networkPool = said.networkPool from rfl)
    exact AList.lookup_insert_ne hne
  · intro row hrow
    have hpool : row.networkPool = said.networkPool := by
      simp only [upsert, AList.lookup_insert, Option.some.injEq] at hrow
      rw [← hrow]
    exact (checkPool_ok hcheck hpool).2

theorem setState_ok {state : HostState} (h : setState name state r = .ok (u, r')) :
    ∃ row, r.hosts.lookup name = some row ∧ r' = inState name state r := by
  obtain ⟨row, hrow, hwrite⟩ := Tx.fetch_bind_ok.mp h
  exact ⟨row, hrow, Tx.write_ok.mp hwrite⟩

theorem setState_known (state : HostState) (h : r.hosts.lookup name = some row) :
    setState name state r = .ok ((), inState name state r) :=
  Tx.fetch_bind_ok.mpr ⟨row, h, rfl⟩

instance : Std.Refl fun r r' : Registry => r'.hosts = r.hosts := ⟨fun _ => rfl⟩

instance : IsTrans Registry fun r r' => r'.hosts = r.hosts := ⟨fun _ _ _ h h' => h'.trans h⟩

theorem retireHost_hosts {n : Nat} (h : retireHost name r = .ok (n, r')) :
    ∃ row, r.hosts.lookup name = some row ∧ r'.hosts = r.hosts.modify name fun row => { row with state := .retired } := by
  obtain ⟨_, _, hstate, h⟩ := Tx.bind_ok.mp h
  obtain ⟨row, hrow, rfl⟩ := setState_ok hstate
  obtain ⟨_, _, hget, h⟩ := Tx.bind_ok.mp h
  obtain ⟨rfl, rfl⟩ := Tx.get_ok.mp hget
  obtain ⟨_, _, hreleases, h⟩ := Tx.bind_ok.mp h
  obtain ⟨_, rfl⟩ := Tx.pure_ok.mp h
  refine ⟨row, hrow, ?_⟩
  have hhosts : Tx.Within (fun r r' : Registry => r'.hosts = r.hosts)
      (Tx.forEach (liveOn name r.sandboxes) fun claim => do
        onSandboxes (setInstanceStatus claim.2.instanceId .destroyed)
        onSandboxes (release claim.1)) :=
    Tx.Within.forEach _ fun _ _ => (onSandboxes_hosts _).bind fun _ => onSandboxes_hosts _
  exact hhosts hreleases

theorem lookup_modify_other (f : HostRow → HostRow) (h : other ≠ name) : (r.hosts.modify name f).lookup other = r.hosts.lookup other :=
  Table.lookup_modify_of_ne h f r.hosts

theorem Apart.modify {f : HostRow → HostRow} (h : Apart network r) (hhosts : r'.hosts = r.hosts.modify name f)
    (hpool : ∀ row, (f row).networkPool = row.networkPool)
    (hreturns : ∀ row, r.hosts.lookup name = some row → (f row).state ≠ .retired → row.state = .retired → Fits network r name row) :
    Apart network r' := by
  refine h.change (fun other (hne : other ≠ name) => ?_) ?_
  · rw [hhosts]
    exact lookup_modify_other f hne
  · intro _ hrow' hinUse other row₂ hne hrow₂ hinUse₂ hshares
    rw [hhosts, Table.lookup_modify_self, Option.map_eq_some_iff] at hrow'
    obtain ⟨row, hrow, rfl⟩ := hrow'
    have hshares := hshares.of_pool (hpool row)
    by_cases hretired : row.state = .retired
    · exact hreturns row hrow hinUse hretired other row₂ hne hrow₂ hinUse₂ hshares
    · exact h name other row row₂ hne.symm hrow hrow₂ hretired hinUse₂ hshares

theorem Apart.tx (h : Apart network r) (hmeets : Meets network r command)
    (hcommand : command.tx network r = .ok (u, r')) : Apart network r' := by
  cases command with
  | register =>
    obtain ⟨hothers, hfits⟩ := register_ok hcommand
    exact h.change hothers fun row hrow _ => hfits row hrow
  | heartbeat name now =>
    have hwrite := Tx.write_ok.mp (show heartbeat name now r = .ok (u, r') from hcommand)
    apply h.modify (f := fun row => { row with seenAt := now }) (congrArg Registry.hosts hwrite) fun _ => rfl
    exact fun row _ hinUse hretired => absurd hretired hinUse
  | drain =>
    obtain ⟨_, r₁, hdrain, hpure⟩ := Tx.bind_ok.mp hcommand
    obtain ⟨_, _, hstate, hdrain⟩ := Tx.bind_ok.mp hdrain
    obtain ⟨row, hrow, rfl⟩ := setState_ok hstate
    cases hdrain
    cases hpure
    apply h.modify (f := fun row => { row with state := .draining }) rfl fun _ => rfl
    exact fun row hrow _ hretired => hmeets row hrow hretired
  | activate =>
    obtain ⟨row, hrow, rfl⟩ := setState_ok hcommand
    apply h.modify (f := fun row => { row with state := .active }) rfl fun _ => rfl
    exact fun row hrow _ hretired => hmeets row hrow hretired
  | retire =>
    obtain ⟨_, _, hretire, hpure⟩ := Tx.bind_ok.mp hcommand
    obtain ⟨row, _, hhosts⟩ := retireHost_hosts hretire
    cases hpure
    exact h.modify hhosts (fun _ => rfl) fun row _ hinUse => absurd rfl hinUse

theorem Meets.of_apart {state : HostState} (hinUse : state ≠ .retired) (h : setState name state r = .ok (u, r'))
    (hapart : Apart network r') {row : HostRow} (hrow : r.hosts.lookup name = some row) : Fits network r name row := by
  obtain ⟨_, _, rfl⟩ := setState_ok h
  intro other row' hne hrow' hother hshares
  have hnow : (r.hosts.modify name fun row => { row with state }).lookup name = some { row with state } := by
    rw [Table.lookup_modify_self, hrow]
    rfl
  refine hapart name other _ row' hne.symm hnow ?_ hinUse hother (hshares.of_pool rfl)
  rw [← hrow']
  exact lookup_modify_other _ hne

theorem Meets.of_commit (h : Apart network ((command.tx network).commit r)) : Meets network r command := by
  cases command with
  | register => trivial
  | heartbeat => trivial
  | retire => trivial
  | drain name =>
    intro row hrow _
    have hstate := setState_known .draining hrow
    have hcommand : (Command.drain name).tx network r = .ok ((), inState name .draining r) :=
      Tx.bind_ok.mpr ⟨_, _, Tx.bind_ok.mpr ⟨_, _, hstate, rfl⟩, rfl⟩
    rw [Tx.commit_of_ok hcommand] at h
    exact Meets.of_apart (by decide) hstate h hrow
  | activate name =>
    intro _ hrow _
    have hstate := setState_known .active hrow
    rw [Tx.commit_of_ok (x := (Command.activate name).tx network) hstate] at h
    exact Meets.of_apart (by decide) hstate h hrow

theorem Apart.commit (h : Apart network r) (hmeets : Meets network r command) : Apart network ((command.tx network).commit r) := by
  cases htx : command.tx network r with
  | error =>
    rw [Tx.commit_of_error htx]
    exact h
  | ok done =>
    obtain ⟨_, _⟩ := done
    rw [Tx.commit_of_ok htx]
    exact h.tx hmeets htx

theorem apart_empty : Apart network {} := by
  intro _ _ _ _ _ ha
  cases ha

/-- From an empty registry on, the pools in use are apart in every state of a run exactly when every command of it that
takes a retired host back meets a free pool. -/
theorem apart_iff (h : Execution (Step network) {} log r) :
    (∀ c ∈ log, Apart network c.after) ↔ ∀ c ∈ log, Meets network c.before c.input := by
  constructor
  · intro hapart c hc
    obtain ⟨_, after, rfl⟩ := List.append_of_mem hc
    obtain ⟨_, hstep, _⟩ := h.split
    have hafter := hapart c hc
    rw [hstep] at hafter
    exact Meets.of_commit hafter
  · intro hmeets
    have hstates : Apart network r ∧ ∀ c ∈ log, Apart network c.after := by
      induction h with
      | nil => exact ⟨apart_empty, fun c hc => absurd hc List.not_mem_nil⟩
      | snoc _ hstep ih =>
        obtain ⟨hbefore, hall⟩ := ih fun c hc => hmeets c (List.mem_append_left _ hc)
        have hafter : Apart network _ := hbefore.commit (hmeets _ (List.mem_append_right _ (List.mem_singleton_self _)))
        rw [← hstep] at hafter
        refine ⟨hafter, fun c hc => ?_⟩
        rcases List.mem_append.mp hc with hc | hc
        · exact hall c hc
        · rw [List.mem_singleton.mp hc]
          exact hafter
    exact hstates.2

def runOf (network : String → Option Network) (commands : List Command) : List (Commit Registry Command Unit) × Registry :=
  replay (fun r command => some ((), (command.tx network).commit r)) {} commands

theorem runOf_execution (network : String → Option Network) (commands : List Command) :
    Execution (Step network) {} (runOf network commands).1 (runOf network commands).2 := by
  apply replay_execution
  intro _ _ _ _ h
  cases h
  rfl

end Apart

section Example

def privateNetwork : Network where
  version := .v4
  length := 24
  address := 0x0A000000
  length_le := by decide
  address_lt := by decide
  aligned := by decide

def readPool (pool : String) : Option Network := if pool = "10.0.0.0/24" then some privateNetwork else none

def registration (name : String) : Registration where
  name := name
  url := none
  memoryBudgetMb := none
  networkPool := some "10.0.0.0/24"

def reuse : List Command := [.register (registration "a") 0, .retire "a", .register (registration "b") 1, .activate "a"]

def hostRow (now : Time) : HostRow where
  url := none
  memoryBudgetMb := none
  state := .active
  seenAt := now
  networkPool := some "10.0.0.0/24"

/-- Two hosts in use hold the same pool. -/
theorem reuse_overlaps : ¬ ∀ c ∈ (runOf readPool reuse).1, Apart readPool c.after := by
  intro h
  have hlast : (runOf readPool reuse).1.getLast?.map (·.after.hosts.lookup "a") = some (some (hostRow 0)) ∧
      (runOf readPool reuse).1.getLast?.map (·.after.hosts.lookup "b") = some (some (hostRow 1)) := ⟨rfl, rfl⟩
  obtain ⟨c, hc, ha⟩ := Option.map_eq_some_iff.mp hlast.1
  have hb := hlast.2
  rw [hc, Option.map_some, Option.some.injEq] at hb
  refine h c (List.mem_of_mem_getLast? hc) "a" "b" _ _ (by decide) ha hb (by decide) (by decide) ?_
  exact ⟨_, rfl, _, rfl, privateNetwork, rfl, privateNetwork, rfl, rfl, 0x0A000000, by decide, by decide⟩

def replaced : List Command := [.register (registration "a") 0, .retire "a", .register (registration "b") 1]

theorem replaced_apart :
    (runOf readPool replaced).1.length = 3 ∧ ∀ c ∈ (runOf readPool replaced).1, Apart readPool c.after := by
  refine ⟨by decide +kernel, (apart_iff (runOf_execution readPool replaced)).mpr ?_⟩
  intro c hc
  have hinput := replay_inputs _ _ _ c hc
  simp only [replaced, List.mem_cons, List.not_mem_nil, or_false] at hinput
  rcases hinput with hinput | hinput | hinput
  all_goals
    rw [hinput]
    trivial

end Example

end TinyHermes.Sandbox.HostRegistry
