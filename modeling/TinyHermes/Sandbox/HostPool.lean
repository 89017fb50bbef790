import TinyHermes.Sandbox.MemoryBudget

/-! Where a new sandbox goes: `SqlHostDirectory` and `SandboxPool.acquire`. -/
namespace TinyHermes.Sandbox
open Lib Sandboxes SqlSandboxStore SandboxController
open Runs (Uuid Time)

inductive HostState where
  | active | draining | retired
  deriving DecidableEq, Repr

structure SandboxHost where
  url : Option String
  memoryBudgetMb : Option Nat
  state : HostState
  seenAt : Time

structure HostDirectory where
  /-- The tables at the read of the Run's claim, and at the read of the loads. -/
  claims : Sandboxes
  loads : Sandboxes
  hosts : Table String SandboxHost
  now : Time
  stale : Time
  /-- Where the shuffle puts a host among those with equal room. -/
  draw : String → Nat

namespace HostDirectory
variable (d : HostDirectory)

def hostOfRun (runId : Uuid) : Option String :=
  (liveForRun runId d.claims).bind fun found => (d.claims.instances.lookup found.2.instanceId).map (·.controller)

/-- A host that did not say its budget sorts last, not first. -/
def room (e : String × SandboxHost) : Int :=
  match e.2.memoryBudgetMb with
  | none => -1
  | some budget => budget - committedMemoryMb e.1 d.loads

def roomier (a b : String × SandboxHost) : Prop := d.room b < d.room a ∨ (d.room a = d.room b ∧ d.draw a.1 ≤ d.draw b.1)

instance : DecidableRel d.roomier := fun a b =>
  inferInstanceAs (Decidable (d.room b < d.room a ∨ (d.room a = d.room b ∧ d.draw a.1 ≤ d.draw b.1)))

/-- Only `active` hosts heard from lately and with an address to dial. -/
def placement : List String :=
  ((d.hosts.select fun _ host => host.state = .active && host.url.isSome && d.now - d.stale ≤ host.seenAt).insertionSort
    d.roomier).map (·.1)

/-- A Run with a live claim goes back to it and nowhere else. -/
def hostsFor (runId : Uuid) : List String :=
  match d.hostOfRun runId with
  | some claimed => [claimed]
  | none => d.placement

end HostDirectory

inductive Line where
  /-- No connection was made, so nothing was sent. -/
  | notConnected
  | lost (received : Bool)
  | answered
  deriving DecidableEq, Repr

/-- What fails a build: every attempted subnet is taken, or the daemon. -/
inductive BuildFailure where
  | networkPoolExhausted
  | fault (fault : Fault)
  deriving DecidableEq, Repr

abbrev HostReply := Reply Fault RefusalReason Uuid

def BuildFailure.reply : BuildFailure → HostReply
  | networkPoolExhausted => .refused .networkPoolExhausted
  | fault failed => .raised failed

/-- One attempt at a host: how the call travels, what the host finds, the ids it draws, what Docker makes of the build and what
others commit meanwhile. -/
structure Attempt where
  line : Line
  outside : Outside
  tables : Sandboxes
  instanceId : Uuid
  reservationId : Uuid
  docker : Except BuildFailure String
  meanwhile : Sandboxes → Sandboxes

inductive Told where
  | made (sandboxId : Uuid)
  | refused (reason : RefusalReason)
  | unreachable (sent : Bool)
  | failed (fault : Fault)
  deriving DecidableEq, Repr

section Hosts
variable (self : SandboxController) (cmd : AcquireCommand) (a : Attempt)

/-- `SandboxController.acquire` from its first read to its answer. A failed build is undone before its failure is raised; what
raises is rolled back. -/
def hostAcquire : HostReply × Sandboxes :=
  match Call.dispatch (acquire self a.outside cmd a.instanceId a.reservationId) a.tables with
  | (.answered (.reused sandboxId), s) => (.answered sandboxId, s)
  | (.answered (.registered build), s) =>
    match a.docker with
    | .ok containerId =>
      match completeBuild a.outside build containerId (a.meanwhile s) with
      | .ok (_, s') => (.answered build.instanceId, s')
      | .error fault => (.raised fault, a.meanwhile s)
    | .error failure =>
      match abandon self a.outside build (a.meanwhile s) with
      | .ok (_, s') => (failure.reply, s')
      | .error fault => (.raised fault, a.meanwhile s)
  | (.refused reason, s) => (.refused reason, s)
  | (.raised fault, s) => (.raised fault, s)

/-- The call as the transport carries it, and the tables it leaves. -/
def ask : Told × Sandboxes :=
  match a.line with
  | .notConnected => (.unreachable false, a.tables)
  | .lost received => (.unreachable true, if received then (hostAcquire self cmd a).2 else a.tables)
  | .answered =>
    match hostAcquire self cmd a with
    | (.answered sandboxId, s) => (.made sandboxId, s)
    | (.refused reason, s) => (.refused reason, s)
    | (.raised fault, s) => (.failed fault, s)

def leaves : Bool :=
  (a.tables.instances.lookup a.instanceId).isNone &&
    ((ask self cmd a).2.instances.lookup a.instanceId).any fun sandbox =>
      sandbox.controller = self.name && sandbox.status ≠ .destroyed

end Hosts

namespace SandboxPool
variable (hosts : String → HostSettings) (cmd : AcquireCommand) (attempts : String → Attempt)

/-- The loop over the hosts, with whether one was full and one never connected to so far; what the Run is told, and the hosts that
were asked. -/
def search : List String → Bool → Bool → Told × List String
  | [], exhausted, unreachable =>
    (if exhausted || !unreachable then .refused .memoryBudgetExhausted else .unreachable false, [])
  | name :: rest, exhausted, unreachable =>
    match (ask (controllerOn hosts name) cmd (attempts name)).1 with
    | .made sandboxId => (.made sandboxId, [name])
    | .refused reason =>
      if reason ≠ .memoryBudgetExhausted then (.refused reason, [name])
      else
        let later := search rest true unreachable
        (later.1, name :: later.2)
    | .unreachable sent =>
      if sent then (.unreachable sent, [name])
      else
        let later := search rest exhausted true
        (later.1, name :: later.2)
    | .failed fault => (.failed fault, [name])

def acquire (d : HostDirectory) : Told × List String := search hosts cmd attempts (d.hostsFor cmd.runId) false false

end SandboxPool

/-- The memory asked of a host: its own default where the Agent declares none. -/
def requestedMb (host : HostSettings) (cmd : AcquireCommand) : Int := cmd.memoryMb.getD host.ceiling.memoryMb

def Exceeds (host : HostSettings) (cmd : AcquireCommand) : Prop :=
  ∃ budget ∈ host.memoryBudgetMb, (budget : Int) < requestedMb host cmd

/-- At most one host is left with a new sandbox, and only a size that no host has the budget for is refused for good. -/
structure Placed (hosts : String → HostSettings) (cmd : AcquireCommand) (attempts : String → Attempt) (d : HostDirectory) :
    Prop where
  oneSandbox : (SandboxPool.acquire hosts cmd attempts d).1 ≠ .unreachable true →
    ((SandboxPool.acquire hosts cmd attempts d).2.filter fun name =>
      leaves (controllerOn hosts name) cmd (attempts name)).length ≤ 1
  tooLarge : (SandboxPool.acquire hosts cmd attempts d).1 = .refused .memoryOutOfRange →
    ∀ name ∈ d.hostsFor cmd.runId, Exceeds (hosts name) cmd

variable {reason : RefusalReason}

section Answers
variable (self : SandboxController) (cmd : AcquireCommand) (outside : Outside)

/-- From `s`, no claim of the Run stands in the way of a new sandbox: it has none, or a cold one here, discarded first. -/
def Free (s s₁ : Sandboxes) : Prop :=
  outside.holds cmd.runId cmd.leaseId = true ∧
    ((liveForRun cmd.runId s = none ∧ s₁ = s) ∨
      ∃ existing, liveForRun cmd.runId s = some existing ∧ self.here (readInstance existing.2.instanceId s) ∧
        thawIfWarm outside existing.2 s = .ok (.ok none, s) ∧ discard self outside existing s = .ok ((), s₁))

/-- A declared size is one this host makes sandboxes of. -/
def InRange : Prop := ∀ memoryMb ∈ cmd.memoryMb, (minSandboxMemoryMb : Int) ≤ memoryMb ∧ memoryMb ≤ self.memoryCeilingMb

instance : Decidable (InRange self cmd) :=
  inferInstanceAs (Decidable (∀ memoryMb ∈ cmd.memoryMb, (minSandboxMemoryMb : Int) ≤ memoryMb ∧ memoryMb ≤ self.memoryCeilingMb))

def neededMb : Nat := (requestedMb self.toHostSettings cmd).toNat

def profileFor : ResourceProfile := { self.ceiling with name := "default", memoryMb := neededMb self cmd }

def Approved : Prop :=
  (isDigest self.digest = true ∧ self.digest ∈ self.approvedDigests) ∧
    ¬ (profileFor self cmd).exceeds { self.ceiling with memoryMb := self.memoryCeilingMb }

def SizeRefused : Prop :=
  cmd.profile = "default" ∧ (¬ InRange self cmd ∨ (InRange self cmd ∧ Approved self cmd ∧ Exceeds self.toHostSettings cmd))

/-- Within the budget, but however much is evicted there is no room left of it. -/
def Crowded (s : Sandboxes) : Prop :=
  cmd.profile = "default" ∧ InRange self cmd ∧ Approved self cmd ∧ ∃ budget ∈ self.memoryBudgetMb,
    neededMb self cmd ≤ budget ∧
      (choose outside s (committedMemoryMb self.name s + neededMb self cmd - budget)
        (evictableKeeps self.name outside.locked s) [] 0).2 < committedMemoryMb self.name s + neededMb self cmd - budget

variable {self cmd outside} {s s' s₁ : Sandboxes} {instanceId reservationId : Uuid}

theorem chosenProfile_run : chosenProfile self cmd s =
    .ok (if cmd.profile ≠ "default" then .error .imageNotApproved
      else if InRange self cmd then .ok (profileFor self cmd) else .error .memoryOutOfRange, s) := by
  unfold chosenProfile
  rw [Call.demand_bind]
  by_cases hprofile : cmd.profile = "default"
  · rw [if_pos hprofile, if_neg (not_not.mpr hprofile)]
    cases hmemory : cmd.memoryMb with
    | none =>
      have hrange : InRange self cmd := by
        intro memoryMb h
        rw [hmemory] at h
        cases h
      rw [if_pos hrange, profileFor, neededMb, requestedMb, hmemory]
      rfl
    | some memoryMb =>
      have hrange : InRange self cmd ↔ (minSandboxMemoryMb : Int) ≤ memoryMb ∧ memoryMb ≤ self.memoryCeilingMb := by
        constructor
        · intro h
          exact h memoryMb hmemory
        · intro h _ hm
          rw [hmemory] at hm
          cases hm
          exact h
      simp only
      rw [Call.demand_bind]
      by_cases hin : (minSandboxMemoryMb : Int) ≤ memoryMb ∧ memoryMb ≤ self.memoryCeilingMb
      · rw [if_pos hin, if_pos (hrange.mpr hin), profileFor, neededMb, requestedMb, hmemory]
        rfl
      · rw [if_neg hin, if_neg (mt hrange.mp hin)]
  · rw [if_neg hprofile, if_pos hprofile]

theorem admitMemory_refused {needed : Nat} (h : admitMemory self outside needed s = .ok (.error reason, s')) :
    ∃ budget ∈ self.memoryBudgetMb, (reason = .memoryOutOfRange ∧ budget < needed) ∨
      (reason = .memoryBudgetExhausted ∧ needed ≤ budget ∧
        (choose outside s (committedMemoryMb self.name s + needed - budget)
          (evictableKeeps self.name outside.locked s) [] 0).2 < committedMemoryMb self.name s + needed - budget) := by
  unfold admitMemory at h
  cases hbudget : self.memoryBudgetMb with
  | none =>
    rw [hbudget] at h
    cases h
  | some budget =>
    refine ⟨budget, rfl, ?_⟩
    simp only [hbudget] at h
    rw [Call.demand_bind] at h
    by_cases hfits : needed ≤ budget
    · rw [if_pos hfits, Call.read_bind] at h
      by_cases hroom : committedMemoryMb self.name s + needed - budget = 0
      · rw [if_pos hroom] at h
        cases h
      · rw [if_neg hroom, Call.demand_bind] at h
        split at h
        · obtain ⟨_, _, hresult⟩ := Call.tx_run h
          cases hresult
        · next hfull =>
          cases h
          exact .inr ⟨rfl, hfits, not_le.mp hfull⟩
    · rw [if_neg hfits] at h
      cases h
      exact .inl ⟨rfl, not_le.mp hfits⟩

theorem admitMemory_tooLarge {budget needed : Nat} (hbudget : budget ∈ self.memoryBudgetMb) (h : budget < needed) :
    admitMemory self outside needed s = .ok (.error .memoryOutOfRange, s) := by
  unfold admitMemory
  simp only [Option.mem_def.mp hbudget]
  rw [Call.demand_bind, if_neg (not_le.mpr h)]

theorem admitMemory_full {budget needed : Nat} (hbudget : budget ∈ self.memoryBudgetMb) (hfits : needed ≤ budget)
    (h : (choose outside s (committedMemoryMb self.name s + needed - budget)
      (evictableKeeps self.name outside.locked s) [] 0).2 < committedMemoryMb self.name s + needed - budget) :
    admitMemory self outside needed s = .ok (.error .memoryBudgetExhausted, s) := by
  have hroom : committedMemoryMb self.name s + needed - budget ≠ 0 := by omega
  unfold admitMemory
  simp only [Option.mem_def.mp hbudget]
  rw [Call.demand_bind, if_pos hfits, Call.read_bind, if_neg hroom, Call.demand_bind, if_neg (not_le.mpr h)]

theorem needed_of_inRange (h : InRange self cmd) : (neededMb self cmd : Int) = requestedMb self.toHostSettings cmd := by
  unfold neededMb requestedMb
  cases hmemory : cmd.memoryMb with
  | none => simp
  | some memoryMb =>
    obtain ⟨hleast, _⟩ := h memoryMb hmemory
    have hsmallest : (0 : Int) ≤ minSandboxMemoryMb := Int.natCast_nonneg _
    simp only [Option.getD_some]
    exact Int.toNat_of_nonneg (hsmallest.trans hleast)

theorem register_refused
    (h : register self outside cmd instanceId reservationId s = .ok (.error reason, s')) :
    (reason = .memoryOutOfRange ∧ SizeRefused self cmd) ∨ (reason = .memoryBudgetExhausted ∧ Crowded self cmd outside s) ∨
      reason = .imageNotApproved := by
  unfold register at h
  rw [Call.bind_run, chosenProfile_run] at h
  by_cases hprofile : cmd.profile = "default"
  case neg =>
    rw [if_pos hprofile] at h
    cases h
    exact .inr (.inr rfl)
  rw [if_neg (not_not.mpr hprofile)] at h
  by_cases hrange : InRange self cmd
  case neg =>
    rw [if_neg hrange] at h
    cases h
    exact .inl ⟨rfl, hprofile, .inl hrange⟩
  simp only [if_pos hrange] at h
  rw [Call.demand_bind] at h
  split at h
  case isFalse =>
    cases h
    exact .inr (.inr rfl)
  next hdigest =>
  rw [Call.demand_bind] at h
  split at h
  case isFalse =>
    cases h
    exact .inr (.inr rfl)
  next hceiling =>
  rcases Call.bind_cases h with ⟨_, hadmit, hreason⟩ | ⟨_, _, hadmit, hreserve⟩
  · cases hreason
    obtain ⟨budget, hbudget, ⟨rfl, hlarge⟩ | ⟨rfl, hfits, hfull⟩⟩ := admitMemory_refused hadmit
    · refine .inl ⟨rfl, hprofile, .inr ⟨hrange, ⟨hdigest, hceiling⟩, budget, hbudget, ?_⟩⟩
      rw [← needed_of_inRange hrange]
      exact Int.ofNat_lt.mpr hlarge
    · exact .inr (.inl ⟨rfl, hprofile, hrange, ⟨hdigest, hceiling⟩, budget, hbudget, hfits, hfull⟩)
  · obtain ⟨_, _, _, hpure⟩ := Call.tx_bind_run hreserve
    cases hpure

theorem register_of_sizeRefused (h : SizeRefused self cmd) :
    register self outside cmd instanceId reservationId s = .ok (.error .memoryOutOfRange, s) := by
  obtain ⟨hprofile, hsize⟩ := h
  unfold register
  rw [Call.bind_run, chosenProfile_run, if_neg (not_not.mpr hprofile)]
  rcases hsize with hrange | ⟨hrange, ⟨hdigest, hceiling⟩, _, hbudget, hlarge⟩
  · rw [if_neg hrange]
  · simp only [if_pos hrange]
    rw [← needed_of_inRange hrange] at hlarge
    have hadmit : admitMemory self outside (neededMb self cmd) s = .ok (.error .memoryOutOfRange, s) :=
      admitMemory_tooLarge hbudget (Int.ofNat_lt.mp hlarge)
    rw [Call.demand_bind, if_pos hdigest, Call.demand_bind, if_pos hceiling, Call.bind_run]
    simp only [profileFor, hadmit]

theorem register_of_crowded (h : Crowded self cmd outside s) :
    register self outside cmd instanceId reservationId s = .ok (.error .memoryBudgetExhausted, s) := by
  obtain ⟨hprofile, hrange, ⟨hdigest, hceiling⟩, _, hbudget, hfits, hfull⟩ := h
  unfold register
  rw [Call.bind_run, chosenProfile_run, if_neg (not_not.mpr hprofile)]
  simp only [if_pos hrange]
  rw [Call.demand_bind, if_pos hdigest, Call.demand_bind, if_pos hceiling, Call.bind_run]
  simp only [profileFor, admitMemory_full hbudget hfits hfull]

theorem thawIfWarm_refused {existing : SandboxReservation}
    (h : thawIfWarm outside existing s = .ok (.error reason, s')) : reason = .alreadyReserved ∨ reason = .notRunning := by
  unfold thawIfWarm at h
  rw [Call.demand_bind] at h
  split at h
  case isFalse =>
    cases h
    exact .inl rfl
  split at h
  · cases h
  rw [Call.read_bind] at h
  cases hread : readInstance existing.instanceId s with
  | none =>
    rw [hread] at h
    cases h
  | some sandbox =>
    simp only [hread] at h
    rcases Call.bind_cases h with ⟨_, hcontainer, hreason⟩ | ⟨containerId, _, _, hrest⟩
    · cases hreason
      unfold container at hcontainer
      cases hid : sandbox.containerId with
      | none =>
        rw [hid] at hcontainer
        cases hcontainer
        exact .inr rfl
      | some =>
        rw [hid] at hcontainer
        cases hcontainer
    · obtain ⟨found, _, _, hrest⟩ := Call.tx_bind_run hrest
      cases found with
      | false => cases hrest
      | true =>
        obtain ⟨_, _, _, hrest⟩ := Call.tx_bind_run hrest
        obtain ⟨_, _, _, hrest⟩ := Call.tx_bind_run hrest
        cases hrest

theorem acquire_of_free (h : Free self cmd outside s s₁) :
    SandboxController.acquire self outside cmd instanceId reservationId s = register self outside cmd instanceId reservationId s₁ := by
  obtain ⟨hholds, ⟨hlive, rfl⟩ | ⟨_, hlive, hhere, hcold, hdiscard⟩⟩ := h
  · unfold SandboxController.acquire
    rw [requireLease, Call.demand_bind, if_pos hholds, Call.read_bind]
    simp only [hlive]
  · unfold SandboxController.acquire
    rw [requireLease, Call.demand_bind, if_pos hholds, Call.read_bind]
    simp only [hlive]
    rw [refuseElsewhere, Call.demand_bind, if_pos hhere, Call.bind_run, hcold]
    simp only
    rw [Call.tx_bind, hdiscard]

theorem acquire_refused
    (h : SandboxController.acquire self outside cmd instanceId reservationId s = .ok (.error reason, s')) :
    (∃ s₁, Free self cmd outside s s₁ ∧ register self outside cmd instanceId reservationId s₁ = .ok (.error reason, s')) ∨
      (reason ≠ .memoryOutOfRange ∧ reason ≠ .memoryBudgetExhausted) := by
  unfold SandboxController.acquire at h
  rw [requireLease, Call.demand_bind] at h
  split at h
  case isFalse =>
    cases h
    exact .inr (by decide)
  next hholds =>
  rw [Call.read_bind] at h
  cases hlive : liveForRun cmd.runId s with
  | none =>
    simp only [hlive] at h
    exact .inl ⟨s, ⟨hholds, .inl ⟨hlive, rfl⟩⟩, h⟩
  | some existing =>
    simp only [hlive] at h
    rw [refuseElsewhere, Call.demand_bind] at h
    split at h
    case isFalse =>
      cases h
      exact .inr (by decide)
    next hhere =>
    rcases Call.bind_cases h with ⟨_, hthaw, hreason⟩ | ⟨_, _, hthaw, hrest⟩
    · cases hreason
      rcases thawIfWarm_refused hthaw with rfl | rfl
      · exact .inr (by decide)
      · exact .inr (by decide)
    · rcases thawIfWarm_cases hthaw with ⟨_, herror, _⟩ | ⟨hcold, _, rfl⟩ | ⟨_, hwarm, _⟩
      · cases herror
      · cases hcold
        obtain ⟨_, s₂, hdiscard, hrest⟩ := Call.tx_bind_run hrest
        exact .inl ⟨s₂, ⟨hholds, .inr ⟨existing, hlive, hhere, hthaw, hdiscard⟩⟩, hrest⟩
      · cases hwarm
        cases hrest

end Answers

section Attempts
variable (self : SandboxController) (cmd : AcquireCommand) (a : Attempt)

def Full : Prop := a.line = .answered ∧ ∃ s₁, Free self cmd a.outside a.tables s₁ ∧ Crowded self cmd a.outside s₁

/-- Certainly nothing happened there, so the next host is tried. -/
def PassedOver : Prop := a.line = .notConnected ∨ Full self cmd a

def RefusesSize : Prop := a.line = .answered ∧ (∃ s₁, Free self cmd a.outside a.tables s₁) ∧ SizeRefused self cmd

def Told.passes (told : Told) : Prop := told = .refused .memoryBudgetExhausted ∨ told = .unreachable false

instance (told : Told) : Decidable told.passes :=
  inferInstanceAs (Decidable (told = .refused .memoryBudgetExhausted ∨ told = .unreachable false))

variable {self cmd a}

theorem hostAcquire_refused {s : Sandboxes} (hreason : reason ≠ .networkPoolExhausted) :
    hostAcquire self cmd a = (.refused reason, s) ↔
      SandboxController.acquire self a.outside cmd a.instanceId a.reservationId a.tables = .ok (.error reason, s) := by
  unfold hostAcquire Call.dispatch
  rcases hacquire : SandboxController.acquire self a.outside cmd a.instanceId a.reservationId a.tables with
    e | ⟨refusal | ⟨sandboxId | build⟩, s₁⟩
  · simp
  · simp [Prod.ext_iff]
  · simp
  · simp only [Except.ok.injEq, Prod.mk.injEq, reduceCtorEq, false_and, iff_false]
    intro h
    cases hdocker : a.docker with
    | ok =>
      simp only [hdocker] at h
      split at h
      · cases h
      · cases h
    | error failure =>
      simp only [hdocker] at h
      split at h
      · cases failure with
        | networkPoolExhausted => exact hreason (Reply.refused.inj (Prod.ext_iff.mp h).1).symm
        | fault => cases (Prod.ext_iff.mp h).1
      · cases h

theorem ask_refused (hreason : reason ≠ .networkPoolExhausted) :
    (ask self cmd a).1 = .refused reason ↔ a.line = .answered ∧
      SandboxController.acquire self a.outside cmd a.instanceId a.reservationId a.tables = .ok (.error reason, (ask self cmd a).2) := by
  unfold ask
  cases hline : a.line with
  | notConnected => simp
  | lost => simp
  | answered =>
    rw [← hostAcquire_refused hreason]
    rcases hhost : hostAcquire self cmd a with ⟨_ | _ | _, _⟩
    · simp
    · simp
    · simp

theorem ask_full : (ask self cmd a).1 = .refused .memoryBudgetExhausted ↔ Full self cmd a := by
  rw [ask_refused (by decide)]
  constructor
  · rintro ⟨hline, hacquire⟩
    rcases acquire_refused hacquire with ⟨s₁, hfree, hregister⟩ | ⟨_, hnot⟩
    · rcases register_refused hregister with ⟨hreason, _⟩ | ⟨_, hcrowded⟩ | hreason
      · cases hreason
      · exact ⟨hline, s₁, hfree, hcrowded⟩
      · cases hreason
    · exact absurd rfl hnot
  · rintro ⟨hline, s₁, hfree, hcrowded⟩
    have hacquire : SandboxController.acquire self a.outside cmd a.instanceId a.reservationId a.tables =
        .ok (.error .memoryBudgetExhausted, s₁) := (acquire_of_free hfree).trans (register_of_crowded hcrowded)
    have hhost := (hostAcquire_refused (by decide)).mpr hacquire
    refine ⟨hline, ?_⟩
    unfold ask
    rw [hline, hhost]
    exact hacquire

theorem ask_refusesSize : (ask self cmd a).1 = .refused .memoryOutOfRange ↔ RefusesSize self cmd a := by
  rw [ask_refused (by decide)]
  constructor
  · rintro ⟨hline, hacquire⟩
    rcases acquire_refused hacquire with ⟨s₁, hfree, hregister⟩ | ⟨hnot, _⟩
    · rcases register_refused hregister with ⟨_, hsize⟩ | ⟨hreason, _⟩ | hreason
      · exact ⟨hline, ⟨s₁, hfree⟩, hsize⟩
      · cases hreason
      · cases hreason
    · exact absurd rfl hnot
  · rintro ⟨hline, ⟨s₁, hfree⟩, hsize⟩
    have hacquire : SandboxController.acquire self a.outside cmd a.instanceId a.reservationId a.tables =
        .ok (.error .memoryOutOfRange, s₁) := (acquire_of_free hfree).trans (register_of_sizeRefused hsize)
    have hhost := (hostAcquire_refused (by decide)).mpr hacquire
    refine ⟨hline, ?_⟩
    unfold ask
    rw [hline, hhost]
    exact hacquire

theorem ask_unsent : (ask self cmd a).1 = .unreachable false ↔ a.line = .notConnected := by
  unfold ask
  cases a.line with
  | notConnected => simp
  | lost => simp
  | answered => rcases hostAcquire self cmd a with ⟨_ | _ | _, _⟩ <;> simp

theorem ask_passes : (ask self cmd a).1.passes ↔ PassedOver self cmd a := by
  unfold Told.passes PassedOver
  rw [ask_full, ask_unsent, or_comm]

theorem PassedOver.leaves (h : PassedOver self cmd a) : leaves self cmd a = false := by
  have hlookup : a.tables.instances.lookup a.instanceId = none →
      (ask self cmd a).2.instances.lookup a.instanceId = none := by
    intro hnone
    rcases h with hline | hfull
    · unfold ask
      rw [hline]
      exact hnone
    · obtain ⟨_, hacquire⟩ := (ask_refused (by decide)).mp (ask_full.mpr hfull)
      rcases acquire_cases hacquire with ⟨_, _, hsame | hdiscarded⟩ | ⟨_, _, hok, _⟩ | ⟨_, _, _, hok, _⟩
      · rw [hsame, hnone]
      · have hrel := hdiscarded.lowers.instances a.instanceId
        rw [hnone] at hrel
        cases hafter : (ask self cmd a).2.instances.lookup a.instanceId with
        | none => rfl
        | some =>
          rw [hafter] at hrel
          cases hrel
      · cases hok
      · cases hok
  unfold Sandbox.leaves
  cases hbefore : a.tables.instances.lookup a.instanceId with
  | none => simp [hlookup hbefore]
  | some => rfl

end Attempts

namespace SandboxPool
variable {hosts : String → HostSettings} {cmd : AcquireCommand} {attempts : String → Attempt} {names : List String}
  {exhausted unreachable : Bool}

theorem search_cons (hosts : String → HostSettings) (cmd : AcquireCommand) (attempts : String → Attempt) (name : String)
    (rest : List String) (exhausted unreachable : Bool) : ∃ exhausted' unreachable',
    search hosts cmd attempts (name :: rest) exhausted unreachable =
      if (ask (controllerOn hosts name) cmd (attempts name)).1.passes then
        ((search hosts cmd attempts rest exhausted' unreachable').1,
          name :: (search hosts cmd attempts rest exhausted' unreachable').2)
      else ((ask (controllerOn hosts name) cmd (attempts name)).1, [name]) := by
  rw [search]
  cases (ask (controllerOn hosts name) cmd (attempts name)).1 with
  | made => exact ⟨exhausted, unreachable, rfl⟩
  | failed => exact ⟨exhausted, unreachable, rfl⟩
  | refused reason =>
    refine ⟨true, unreachable, ?_⟩
    by_cases hreason : reason = .memoryBudgetExhausted
    · subst hreason
      rfl
    · have hpasses : ¬ (Told.refused reason).passes := by
        rintro (h | h)
        · cases h
          exact hreason rfl
        · cases h
      simp only [if_pos hreason, if_neg hpasses]
  | unreachable sent =>
    refine ⟨exhausted, true, ?_⟩
    cases sent with
    | true => rfl
    | false => rfl

theorem search_leaves : ((search hosts cmd attempts names exhausted unreachable).2.filter fun name =>
    leaves (controllerOn hosts name) cmd (attempts name)).length ≤ 1 := by
  induction names generalizing exhausted unreachable with
  | nil => exact Nat.zero_le 1
  | cons name rest ih =>
    obtain ⟨_, _, hsearch⟩ := search_cons hosts cmd attempts name rest exhausted unreachable
    rw [hsearch]
    split
    · next hpasses =>
      have hleft : leaves (controllerOn hosts name) cmd (attempts name) = false := (ask_passes.mp hpasses).leaves
      rw [List.filter_cons_of_neg (by rw [hleft]; decide)]
      exact ih
    · exact List.length_filter_le _ [name]

theorem search_tooLarge : (search hosts cmd attempts names exhausted unreachable).1 = .refused .memoryOutOfRange ↔
    ∃ before name after, names = before ++ name :: after ∧
      (∀ n ∈ before, PassedOver (controllerOn hosts n) cmd (attempts n)) ∧
        RefusesSize (controllerOn hosts name) cmd (attempts name) := by
  induction names generalizing exhausted unreachable with
  | nil =>
    constructor
    · intro h
      rw [search] at h
      split at h
      · cases h
      · cases h
    · rintro ⟨before, name, after, h, _⟩
      exact absurd h (by simp)
  | cons first rest ih =>
    obtain ⟨_, _, hsearch⟩ := search_cons hosts cmd attempts first rest exhausted unreachable
    rw [hsearch]
    by_cases hpasses : (ask (controllerOn hosts first) cmd (attempts first)).1.passes
    · rw [if_pos hpasses, ih]
      have hover := ask_passes.mp hpasses
      constructor
      · rintro ⟨before, name, after, rfl, hbefore, hsize⟩
        refine ⟨first :: before, name, after, rfl, ?_, hsize⟩
        intro n hn
        rcases List.mem_cons.mp hn with rfl | hn
        · exact hover
        · exact hbefore n hn
      · rintro ⟨before, name, after, heq, hbefore, hsize⟩
        cases before with
        | nil =>
          cases heq
          rcases hpasses with hfull | hunsent
          · rw [ask_refusesSize.mpr hsize] at hfull
            cases hfull
          · rw [ask_refusesSize.mpr hsize] at hunsent
            cases hunsent
        | cons b before =>
          cases heq
          exact ⟨before, name, after, rfl, fun n hn => hbefore n (List.mem_cons_of_mem _ hn), hsize⟩
    · rw [if_neg hpasses, ask_refusesSize]
      constructor
      · intro hsize
        exact ⟨[], first, rest, rfl, by simp, hsize⟩
      · rintro ⟨before, _, _, heq, hbefore, hsize⟩
        cases before with
        | nil =>
          cases heq
          exact hsize
        | cons =>
          cases heq
          exact absurd (ask_passes.mpr (hbefore first List.mem_cons_self)) hpasses

end SandboxPool

/-- Where the hosts asked first are passed over and the next one refuses the size, no host of the list has the budget. -/
def NoneLargeEnough (hosts : String → HostSettings) (cmd : AcquireCommand) (attempts : String → Attempt) (d : HostDirectory) :
    Prop :=
  ∀ before name after, d.hostsFor cmd.runId = before ++ name :: after →
    (∀ n ∈ before, PassedOver (controllerOn hosts n) cmd (attempts n)) →
      RefusesSize (controllerOn hosts name) cmd (attempts name) → ∀ n ∈ d.hostsFor cmd.runId, Exceeds (hosts n) cmd

theorem placed_iff (hosts : String → HostSettings) (cmd : AcquireCommand) (attempts : String → Attempt) (d : HostDirectory) :
    Placed hosts cmd attempts d ↔ NoneLargeEnough hosts cmd attempts d := by
  constructor
  · intro hplaced before name after hsplit hbefore hsize
    apply hplaced.tooLarge
    exact SandboxPool.search_tooLarge.mpr ⟨before, name, after, hsplit, hbefore, hsize⟩
  · intro hnone
    constructor
    · intro _
      exact SandboxPool.search_leaves
    · intro hrefused
      obtain ⟨before, name, after, hsplit, hbefore, hsize⟩ := SandboxPool.search_tooLarge.mp hrefused
      exact hnone before name after hsplit hbefore hsize

section Example

/-- A sandbox of 3000 MB on `large`. -/
def busy : Sandboxes :=
  Tx.commit (reserve 900 9 90 { containerId := some "old", status := .running, memoryMb := 3000, controller := "large" }) .empty

def sized (name : String) : HostSettings where
  approvedDigests := smallHost.approvedDigests
  memoryBudgetMb := some (if name = "small" then 2048 else 4096)
  memoryCeilingMb := 4096

def registered (name : String) : SandboxHost where
  url := some "tls://host"
  memoryBudgetMb := (sized name).memoryBudgetMb
  state := .active
  seenAt := 0

def directory : HostDirectory where
  claims := busy
  loads := busy
  hosts := ((∅ : Table String SandboxHost).insert "large" (registered "large")).insert "small" (registered "small")
  now := 0
  stale := 30
  draw _ := 0

def reached : Attempt where
  line := .answered
  outside := calm [1, 9]
  tables := busy
  instanceId := 101
  reservationId := 201
  docker := .ok "new"
  meanwhile s := s

/-- A Run of 3000 MB meets the empty host of 2048 MB first, and fails for good although the other has the budget. -/
theorem smallFirst_failed : ¬ Placed sized { runId := 1, leaseId := 1, memoryMb := some 3000 } (fun _ => reached) directory := by
  intro h
  have hrefused : (SandboxPool.acquire sized { runId := 1, leaseId := 1, memoryMb := some 3000 } (fun _ => reached) directory).1 =
      .refused .memoryOutOfRange := by decide +kernel
  have hlarge : "large" ∈ directory.hostsFor 1 := by decide +kernel
  obtain ⟨_, hbudget, hsmall⟩ := h.tooLarge hrefused "large" hlarge
  cases hbudget
  exact absurd hsmall (by decide)

end Example

end TinyHermes.Sandbox
