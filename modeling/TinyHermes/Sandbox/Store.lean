import TinyHermes.Lib.Totals
import TinyHermes.Lib.Transaction
import TinyHermes.Runs.Models

/-! The claims and instances of the sandbox hosts, and the statements `SqlSandboxStore` runs on them. -/
namespace TinyHermes.Sandbox
open Lib
open Runs (Uuid Time)

inductive ReservationStatus where
  | active | kept | isolated | released
  deriving DecidableEq, Repr

/-- `LIVE_RESERVATIONS`: a claim that still holds its Run's one slot. -/
def ReservationStatus.live : ReservationStatus → Bool
  | .active | .kept | .isolated => true
  | .released => false

inductive InstanceStatus where
  | creating | running | frozen | isolated | destroyed
  deriving DecidableEq, Repr

structure SandboxInstance where
  /-- None while `creating`: the row is written before the container exists. -/
  containerId : Option String := none
  status : InstanceStatus
  memoryMb : Nat
  controller : String
  deriving DecidableEq, Repr

/-- The last two fields are the check constraints of the table. -/
structure SandboxReservation where
  runId : Uuid
  instanceId : Uuid
  status : ReservationStatus
  idleExpiresAt : Option Time
  isolationReason : Option String
  keepDeadline : status = .kept ↔ idleExpiresAt.isSome = true
  reasonIsolated : status = .isolated ∨ isolationReason = none

inductive AuditAction where
  | evict | cleanup | volumeRemove | importFailed
  deriving DecidableEq, Repr

structure AuditEntry where
  action : AuditAction
  runId : Uuid
  sandboxId : Uuid
  deriving DecidableEq, Repr

/-- What rolls a transaction back: any exception but a refusal. -/
inductive Fault where
  | integrityError | unknownReservation | unknownInstance | dockerUnavailable | sandboxGone | streamAborted | cancelled
  deriving DecidableEq, Repr

namespace SandboxReservation

theorem kept_deadline (deadline : Time) : ReservationStatus.kept = .kept ↔ (some deadline).isSome = true := by simp

theorem no_deadline {status : ReservationStatus} (h : status ≠ .kept) : status = .kept ↔ (none : Option Time).isSome = true := by
  simp [h]

theorem active_ne_kept : ReservationStatus.active ≠ .kept := by decide

theorem isolated_ne_kept : ReservationStatus.isolated ≠ .kept := by decide

theorem released_ne_kept : ReservationStatus.released ≠ .kept := by decide

/-- A new claim of `runId`. -/
def new (runId instanceId : Uuid) : SandboxReservation where
  runId
  instanceId
  status := .active
  idleExpiresAt := none
  isolationReason := none
  keepDeadline := no_deadline active_ne_kept
  reasonIsolated := .inr rfl

/-- The row `keep` writes. It leaves the isolation reason, which a kept row may not have. -/
def keep (row : SandboxReservation) (idleExpiresAt : Time) (h : row.isolationReason = none) : SandboxReservation where
  runId := row.runId
  instanceId := row.instanceId
  status := .kept
  idleExpiresAt := some idleExpiresAt
  isolationReason := row.isolationReason
  keepDeadline := kept_deadline idleExpiresAt
  reasonIsolated := .inr h

def isolate (row : SandboxReservation) (reason : String) : SandboxReservation where
  runId := row.runId
  instanceId := row.instanceId
  status := .isolated
  idleExpiresAt := none
  isolationReason := some reason
  keepDeadline := no_deadline isolated_ne_kept
  reasonIsolated := .inl rfl

def release (row : SandboxReservation) : SandboxReservation where
  runId := row.runId
  instanceId := row.instanceId
  status := .released
  idleExpiresAt := none
  isolationReason := none
  keepDeadline := no_deadline released_ne_kept
  reasonIsolated := .inr rfl

def Takes (row : SandboxReservation) (runId : Uuid) : Prop := row.status.live = true ∧ row.runId = runId

/-- What becomes of a row whose Run it cannot give a slot it does not have: the same claim, live only if it was. -/
structure Lower (row row' : SandboxReservation) : Prop where
  runId : row'.runId = row.runId
  instanceId : row'.instanceId = row.instanceId
  live : row'.status.live = true → row.status.live = true

theorem Lower.refl (row : SandboxReservation) : Lower row row := ⟨rfl, rfl, id⟩

theorem Lower.trans {r₁ r₂ r₃ : SandboxReservation} (h₁ : Lower r₁ r₂) (h₂ : Lower r₂ r₃) : Lower r₁ r₃ :=
  ⟨h₂.runId.trans h₁.runId, h₂.instanceId.trans h₁.instanceId, fun h => h₁.live (h₂.live h)⟩

theorem Lower.takes {row row' : SandboxReservation} (h : Lower row row') {runId : Uuid} (ht : row'.Takes runId) :
    row.Takes runId :=
  ⟨h.live ht.1, h.runId ▸ ht.2⟩

theorem release_lower (row : SandboxReservation) : Lower row row.release := ⟨rfl, rfl, fun h => nomatch h⟩

end SandboxReservation

open SandboxReservation

/-- The database, with the partial unique index over live claims. -/
structure Sandboxes where
  instances : Table Uuid SandboxInstance
  reservations : Table Uuid SandboxReservation
  audit : List AuditEntry
  liveRun : Table.Exclusive Takes reservations

abbrev SandboxTx := Tx Sandboxes Fault

theorem exclusive_empty : Table.Exclusive Takes (∅ : Table Uuid SandboxReservation) := by
  intro k k' row row' runId h
  cases h

def Sandboxes.empty : Sandboxes where
  instances := ∅
  reservations := ∅
  audit := []
  liveRun := exclusive_empty

namespace Sandboxes
variable {s : Sandboxes} {k runId instanceId : Uuid} {row : SandboxReservation}

theorem exclusive_modify (f : SandboxReservation → SandboxReservation) (hf : ∀ row, s.reservations.lookup k = some row → Lower row (f row)) :
    Table.Exclusive Takes (s.reservations.modify k f) := by
  cases h : s.reservations.lookup k with
  | some row => exact s.liveRun.modify h fun runId ht => .inl ((hf row h).takes ht)
  | none =>
    have hsame : ∀ k', (s.reservations.modify k f).lookup k' = s.reservations.lookup k' := by
      intro k'
      by_cases hk : k' = k
      · subst hk
        rw [Table.lookup_modify_self, h]
        rfl
      · rw [Table.lookup_modify_of_ne hk]
    intro i j b c runId hb hc
    rw [hsame] at hb hc
    exact s.liveRun i j b c runId hb hc

/-- `scalar_one_or_none` over the Run's live claims: there is at most one. -/
def liveForRun (runId : Uuid) (s : Sandboxes) : Option (Uuid × SandboxReservation) :=
  (s.reservations.select fun _ row => row.status.live && row.runId = runId).head?

theorem liveForRun_some : liveForRun runId s = some (k, row) ↔ s.reservations.lookup k = some row ∧ row.Takes runId := by
  have hmem : ∀ e ∈ s.reservations.select (fun _ row => row.status.live && row.runId = runId),
      s.reservations.lookup e.1 = some e.2 ∧ e.2.Takes runId := by
    intro e he
    obtain ⟨hrow, hp⟩ := Table.mem_select.mp he
    simp only [Bool.and_eq_true, decide_eq_true_eq] at hp
    exact ⟨hrow, hp⟩
  constructor
  · intro h
    exact hmem (k, row) (List.mem_of_mem_head? (Option.mem_def.mpr h))
  · rintro ⟨hrow, htakes⟩
    have hin : (k, row) ∈ s.reservations.select (fun _ row => row.status.live && row.runId = runId) := by
      apply Table.mem_select.mpr
      refine ⟨hrow, ?_⟩
      rw [htakes.1, htakes.2]
      simp
    unfold liveForRun
    cases hlist : s.reservations.select (fun _ row => row.status.live && row.runId = runId) with
    | nil =>
      rw [hlist] at hin
      cases hin
    | cons e =>
      obtain ⟨k', row'⟩ := e
      obtain ⟨hrow', htakes'⟩ := hmem (k', row') (by rw [hlist]; exact List.mem_cons_self)
      obtain rfl := s.liveRun k k' row row' runId hrow hrow' htakes htakes'
      rw [hrow] at hrow'
      cases hrow'
      rfl

theorem liveForRun_none (h : liveForRun runId s = none) (hrow : s.reservations.lookup k = some row) : ¬ row.Takes runId := by
  intro ht
  rw [liveForRun_some.mpr ⟨hrow, ht⟩] at h
  cases h

theorem exclusive_insert (h : liveForRun runId s = none) :
    Table.Exclusive Takes (s.reservations.insert k (new runId instanceId)) := by
  have hold : ∀ {j b r}, (s.reservations.insert k (new runId instanceId)).lookup j = some b → b.Takes r →
      (j = k ∧ r = runId) ∨ (s.reservations.lookup j = some b ∧ r ≠ runId) := by
    intro j b r hb ht
    rw [Table.lookup_insert_ite] at hb
    split_ifs at hb with hj
    · cases hb
      exact .inl ⟨hj, ht.2.symm⟩
    · refine .inr ⟨hb, ?_⟩
      rintro rfl
      exact liveForRun_none h hb ht
  intro i j b c r hb hc hxb hxc
  rcases hold hb hxb with ⟨hi, hr⟩ | ⟨hb, hr⟩
  · rcases hold hc hxc with ⟨hj, _⟩ | ⟨_, hr'⟩
    · rw [hi, hj]
    · exact absurd hr hr'
  · rcases hold hc hxc with ⟨_, hr'⟩ | ⟨hc, _⟩
    · exact absurd hr' hr
    · exact s.liveRun i j b c r hb hc hxb hxc

theorem exclusive_keep {idleExpiresAt : Time} (h : row.isolationReason = none) (hrow : s.reservations.lookup k = some row)
    (hslot : row.status.live = true ∨ liveForRun row.runId s = none) :
    Table.Exclusive Takes (s.reservations.modify k fun _ => row.keep idleExpiresAt h) := by
  apply s.liveRun.modify hrow
  rintro r ⟨_, rfl⟩
  rcases hslot with hlive | hfree
  · exact .inl ⟨hlive, rfl⟩
  · exact .inr fun k' row' _ hrow' => liveForRun_none hfree hrow'

/-- What `host` answers for of an instance: its limit where it lives there. -/
def limitOn (host : String) (instanceId : Uuid) (s : Sandboxes) : Nat :=
  match s.instances.lookup instanceId with
  | some sandbox => if sandbox.controller = host then sandbox.memoryMb else 0
  | none => 0

/-- `SUM(memory_mb)` over the live claims joined with their instances on `host`. -/
def committedMemoryMb (host : String) (s : Sandboxes) : Nat :=
  s.reservations.total fun _ row => if row.status.live then limitOn host row.instanceId s else 0

/-- `ORDER BY idle_expires_at, id`; a kept claim has a deadline. -/
def expiresBefore (a b : Uuid × SandboxReservation) : Prop :=
  a.2.idleExpiresAt.getD 0 < b.2.idleExpiresAt.getD 0 ∨ (a.2.idleExpiresAt.getD 0 = b.2.idleExpiresAt.getD 0 ∧ a.1 ≤ b.1)

instance : DecidableRel expiresBefore := fun a b =>
  inferInstanceAs (Decidable (a.2.idleExpiresAt.getD 0 < b.2.idleExpiresAt.getD 0 ∨
    (a.2.idleExpiresAt.getD 0 = b.2.idleExpiresAt.getD 0 ∧ a.1 ≤ b.1)))

/-- A frozen instance of `host` under a kept claim. -/
def evictable (host : String) (s : Sandboxes) (row : SandboxReservation) : Bool :=
  row.status = .kept && (s.instances.lookup row.instanceId).any fun sandbox => sandbox.status = .frozen && sandbox.controller = host

/-- `SKIP LOCKED`: `locked` holds of the rows another transaction has. -/
def evictableKeeps (host : String) (locked : Uuid → Bool) (s : Sandboxes) : List (Uuid × SandboxReservation) :=
  (s.reservations.select fun k row => evictable host s row && !locked k).insertionSort expiresBefore

theorem mem_evictableKeeps {host : String} {locked : Uuid → Bool} (h : (k, row) ∈ evictableKeeps host locked s) :
    s.reservations.lookup k = some row ∧ evictable host s row = true := by
  unfold evictableKeeps at h
  rw [List.mem_insertionSort] at h
  obtain ⟨hrow, hp⟩ := Table.mem_select.mp h
  exact ⟨hrow, (Bool.and_eq_true _ _ ▸ hp).1⟩

theorem nodup_evictableKeeps (host : String) (locked : Uuid → Bool) (s : Sandboxes) :
    ((evictableKeeps host locked s).map (·.1)).Nodup := by
  have hperm := (List.perm_insertionSort expiresBefore
    (s.reservations.select fun k row => evictable host s row && !locked k)).map (·.1)
  exact hperm.nodup_iff.mpr (Table.nodup_select _ _)

end Sandboxes

namespace SqlSandboxStore
open Sandboxes

def readInstance (instanceId : Uuid) (s : Sandboxes) : Option SandboxInstance := s.instances.lookup instanceId

/-- Both rows at once. A taken id or a Run that has a live claim breaks a constraint. -/
def reserve (reservationId runId instanceId : Uuid) (sandbox : SandboxInstance) : SandboxTx Unit := fun s =>
  if h : s.instances.lookup instanceId = none ∧ s.reservations.lookup reservationId = none ∧ liveForRun runId s = none then
    .ok ((), { s with
      instances := s.instances.insert instanceId sandbox
      reservations := s.reservations.insert reservationId (.new runId instanceId)
      liveRun := exclusive_insert h.2.2 })
  else .error .integrityError

def keep (reservationId : Uuid) (idleExpiresAt : Time) : SandboxTx Unit := fun s =>
  match hrow : s.reservations.lookup reservationId with
  | none => .error .unknownReservation
  | some row =>
    if h : row.isolationReason = none ∧ (row.status.live = true ∨ liveForRun row.runId s = none) then
      .ok ((), { s with
        reservations := s.reservations.modify reservationId fun _ => row.keep idleExpiresAt h.1
        liveRun := exclusive_keep h.1 hrow h.2 })
    else .error .integrityError

def isolateLive (reason : String) (row : SandboxReservation) : SandboxReservation :=
  if row.status.live then row.isolate reason else row

theorem isolateLive_lower (reason : String) (row : SandboxReservation) : Lower row (isolateLive reason row) := by
  unfold isolateLive
  split
  · next h => exact ⟨rfl, rfl, fun _ => h⟩
  · exact .refl row

/-- Rewrite a claim by `f`, which gives its Run nothing it did not have. -/
def lowerClaim (reservationId : Uuid) (f : SandboxReservation → SandboxReservation) (hf : ∀ row, Lower row (f row))
    (s : Sandboxes) : Sandboxes :=
  { s with
    reservations := s.reservations.modify reservationId f
    liveRun := exclusive_modify f fun row _ => hf row }

def isolate (reservationId : Uuid) (reason : String) : SandboxTx Unit := do
  let _ ← Tx.fetch (fun s => s.reservations.lookup reservationId) .unknownReservation
  Tx.write (lowerClaim reservationId (isolateLive reason) (isolateLive_lower reason))

def release (reservationId : Uuid) : SandboxTx Unit := do
  let _ ← Tx.fetch (fun s => s.reservations.lookup reservationId) .unknownReservation
  Tx.write (lowerClaim reservationId SandboxReservation.release release_lower)

def updateInstance (instanceId : Uuid) (f : SandboxInstance → SandboxInstance) (s : Sandboxes) : Sandboxes :=
  { s with instances := s.instances.modify instanceId f }

def setInstanceStatus (instanceId : Uuid) (status : InstanceStatus) : SandboxTx Unit := do
  let _ ← Tx.fetch (readInstance instanceId) .unknownInstance
  Tx.write (updateInstance instanceId fun sandbox => { sandbox with status })

/-- A `creating` instance's container is built: record it, now running. -/
def completeInstance (instanceId : Uuid) (containerId : String) : SandboxTx Unit := do
  let _ ← Tx.fetch (readInstance instanceId) .unknownInstance
  Tx.write (updateInstance instanceId fun sandbox => { sandbox with containerId := some containerId, status := .running })

def record (entry : AuditEntry) : SandboxTx Unit := Tx.write fun s => { s with audit := s.audit ++ [entry] }

end SqlSandboxStore
end TinyHermes.Sandbox
