import TinyHermes.Sandbox.Dispatch

/-! What the transactions leave alone: every one but a new registration only lowers claims. -/
namespace TinyHermes.Sandbox
open Lib Sandboxes SqlSandboxStore SandboxController SandboxReservation
open Runs (Uuid Time)

/-- The same sandbox, whatever its status: its size and its host never change, and a container once built is known. -/
structure SandboxInstance.Same (i i' : SandboxInstance) : Prop where
  memoryMb : i'.memoryMb = i.memoryMb
  controller : i'.controller = i.controller
  containerId : i.containerId.isSome = true → i'.containerId.isSome = true

theorem SandboxInstance.Same.refl (i : SandboxInstance) : i.Same i := ⟨rfl, rfl, id⟩

theorem SandboxInstance.Same.trans {i₁ i₂ i₃ : SandboxInstance} (h₁ : i₁.Same i₂) (h₂ : i₂.Same i₃) : i₁.Same i₃ :=
  ⟨h₂.memoryMb.trans h₁.memoryMb, h₂.controller.trans h₁.controller, fun h => h₂.containerId (h₁.containerId h)⟩

/-- No row is new or gone, no sandbox grew or moved, and no claim came back. -/
structure Lowers (s s' : Sandboxes) : Prop where
  instances : ∀ id, Option.Rel SandboxInstance.Same (s.instances.lookup id) (s'.instances.lookup id)
  reservations : ∀ k, Option.Rel Lower (s.reservations.lookup k) (s'.reservations.lookup k)

section Rel
variable {α : Type} {R : α → α → Prop}

theorem rel_refl (h : ∀ x, R x x) (a : Option α) : Option.Rel R a a := by
  cases a with
  | none => exact .none
  | some x => exact .some (h x)

theorem rel_trans (h : ∀ {x y z}, R x y → R y z → R x z) {a b c : Option α} (h₁ : Option.Rel R a b)
    (h₂ : Option.Rel R b c) : Option.Rel R a c := by
  cases h₁ with
  | none => exact h₂
  | some hxy =>
    cases h₂ with
    | some hyz => exact .some (h hxy hyz)

theorem rel_map {f : α → α} (h : ∀ x, R x (f x)) (a : Option α) : Option.Rel R a (a.map f) := by
  cases a with
  | none => exact .none
  | some x => exact .some (h x)

theorem rel_modify (hrefl : ∀ x, R x x) {f : α → α} (h : ∀ x, R x (f x)) (t : Table Uuid α) (k id : Uuid) :
    Option.Rel R (t.lookup id) ((t.modify k f).lookup id) := by
  rw [Table.lookup_modify]
  split
  · exact rel_map h _
  · exact rel_refl hrefl _

theorem rel_some {x : α} {b : Option α} (h : Option.Rel R (some x) b) : ∃ y, b = some y ∧ R x y := by
  cases h with
  | some h => exact ⟨_, rfl, h⟩

theorem some_rel {y : α} {a : Option α} (h : Option.Rel R a (some y)) : ∃ x, a = some x ∧ R x y := by
  cases h with
  | some h => exact ⟨_, rfl, h⟩

end Rel

namespace Lowers

instance : Std.Refl Lowers where
  refl _ := ⟨fun _ => rel_refl .refl _, fun _ => rel_refl .refl _⟩

instance : IsTrans Sandboxes Lowers where
  trans _ _ _ h₁ h₂ :=
    ⟨fun id => rel_trans .trans (h₁.instances id) (h₂.instances id),
      fun k => rel_trans .trans (h₁.reservations k) (h₂.reservations k)⟩

theorem lowerClaim (k : Uuid) {f : SandboxReservation → SandboxReservation} (hf : ∀ row, Lower row (f row)) (s : Sandboxes) :
    Lowers s (lowerClaim k f hf s) :=
  ⟨fun _ => rel_refl .refl _, fun id => rel_modify .refl hf s.reservations k id⟩

theorem updateInstance (id : Uuid) {f : SandboxInstance → SandboxInstance} (hf : ∀ i : SandboxInstance, i.Same (f i))
    (s : Sandboxes) :
    Lowers s (updateInstance id f s) :=
  ⟨fun id' => rel_modify .refl hf s.instances id id', fun _ => rel_refl .refl _⟩

end Lowers

/-! What each statement may do. -/

theorem isolate_lowers (k : Uuid) (reason : String) : Tx.Within Lowers (SqlSandboxStore.isolate k reason) :=
  .bind (.fetch _ _) fun _ => .write (Lowers.lowerClaim k (isolateLive_lower reason))

theorem release_lowers (k : Uuid) : Tx.Within Lowers (SqlSandboxStore.release k) :=
  .bind (.fetch _ _) fun _ => .write (Lowers.lowerClaim k release_lower)

theorem setInstanceStatus_lowers (id : Uuid) (status : InstanceStatus) : Tx.Within Lowers (setInstanceStatus id status) :=
  .bind (.fetch _ _) fun _ => .write (Lowers.updateInstance id fun _ => ⟨rfl, rfl, fun h => h⟩)

theorem completeInstance_lowers (id : Uuid) (containerId : String) : Tx.Within Lowers (completeInstance id containerId) :=
  .bind (.fetch _ _) fun _ => .write (Lowers.updateInstance id fun _ => ⟨rfl, rfl, fun _ => rfl⟩)

theorem record_lowers (entry : AuditEntry) : Tx.Within Lowers (record entry) :=
  .write fun _ => ⟨fun _ => rel_refl .refl _, fun _ => rel_refl .refl _⟩

theorem keep_lowers {k : Uuid} {idleExpiresAt : Time} {s s' : Sandboxes} {row : SandboxReservation} {u : Unit}
    (h : SqlSandboxStore.keep k idleExpiresAt s = .ok (u, s')) (hrow : s.reservations.lookup k = some row)
    (hlive : row.status.live = true) : Lowers s s' := by
  unfold SqlSandboxStore.keep at h
  split at h
  · cases h
  · next found hfound =>
    rw [hrow] at hfound
    cases hfound
    split at h
    · cases h
      refine ⟨fun _ => rel_refl .refl _, fun id => ?_⟩
      change Option.Rel Lower _ ((s.reservations.modify k _).lookup id)
      rw [Table.lookup_modify]
      split
      · next hid =>
        subst hid
        rw [hrow]
        exact .some ⟨rfl, rfl, fun _ => hlive⟩
      · exact rel_refl .refl _
    · cases h

variable (self : SandboxController) (outside : Outside)

section Checks
variable {R : Sandboxes → Sandboxes → Prop} [Std.Refl R] [IsTrans Sandboxes R] (caller : Caller)

/-! The checks write nothing, and a call stays inside a relation when its writes do. -/

omit [IsTrans Sandboxes R] in
theorem ask_within (call : EngineCall) : Tx.Within R (ask outside call) := .lift _

omit [IsTrans Sandboxes R] in
theorem requireLease_within (runId leaseId : Uuid) : Call.Within R (requireLease outside runId leaseId) := .demand _ _

theorem claim_within (runId sandboxId : Uuid) : Call.Within R (claim self runId sandboxId) :=
  .bind (.find _ _) fun _ => .bind (.demand _ _) fun _ => .bind .read fun _ => .bind (.demand _ _) fun _ => .pure _

theorem requireOwned_within (runId sandboxId : Uuid) : Call.Within R (requireOwned self runId sandboxId) := by
  refine .bind (claim_within self runId sandboxId) ?_
  rintro ⟨_, _ | _⟩
  · exact .refuse _
  · exact .pure _

theorem requireRunning_within (runId sandboxId : Uuid) : Call.Within R (requireRunning self runId sandboxId) :=
  .bind (requireOwned_within self runId sandboxId) fun _ => .bind (.demand _ _) fun _ => .pure _

theorem requireFrozen_within (runId sandboxId : Uuid) : Call.Within R (requireFrozen self runId sandboxId) :=
  .bind (requireOwned_within self runId sandboxId) fun _ =>
    .bind (.demand _ _) fun _ => .bind (.demand _ _) fun _ => .pure _

omit [IsTrans Sandboxes R] in
theorem container_within (sandbox : SandboxInstance) : Call.Within R (container sandbox) := by
  unfold container
  cases sandbox.containerId with
  | some => exact .pure _
  | none => exact .refuse _

theorem registerAddress_within (containerId : String) : Tx.Within R (registerAddress outside containerId) :=
  .bind (ask_within outside _) fun _ => .pure ()

theorem executeStream_within (cwd : String) : Call.Within R (executeStream self outside caller cwd) :=
  .bind (requireLease_within outside _ _) fun _ => .bind (requireRunning_within self _ _) fun sandbox =>
    .bind (.demand _ _) fun _ => container_within sandbox

theorem execute_within (cwd : String) : Call.Within R (execute self outside caller cwd) :=
  .bind (executeStream_within self outside caller cwd) fun _ => .bind (.tx (ask_within outside _)) fun _ => .pure _

theorem workspaceExport_within : Call.Within R (workspaceExport self outside caller) :=
  .bind (requireLease_within outside _ _) fun _ => .bind (requireFrozen_within self _ _) fun sandbox =>
    container_within sandbox

theorem workspaceScan_within : Call.Within R (workspaceScan self outside caller) :=
  .bind (workspaceExport_within self outside caller) fun _ => .bind (.tx (ask_within outside _)) fun _ => .pure _

theorem workspaceImport_within (declaredTotal : Int) :
    Call.Within R (workspaceImport self outside caller declaredTotal) :=
  .bind (requireLease_within outside _ _) fun _ => .bind (requireFrozen_within self _ _) fun sandbox =>
    .bind (.demand _ _) fun _ => container_within sandbox

section Writes
variable {outside} {self}

theorem completeBuild_within {build : Build} {containerId : String}
    (hcomplete : Tx.Within R (completeInstance build.instanceId containerId)) :
    Tx.Within R (completeBuild outside build containerId) :=
  .bind hcomplete fun _ => registerAddress_within outside containerId

theorem volumeRemove_within {runId sandboxId : Uuid} (hrecord : ∀ entry, Tx.Within R (record entry)) :
    Call.Within R (volumeRemove self outside runId sandboxId) := by
  have hrest : Call.Within R (do
      let _ ← Call.tx (ask outside (.removeVolumeIfPresent runId))
      Call.tx (record { action := .volumeRemove, runId, sandboxId }) : SandboxCall Unit) :=
    .bind (.tx (ask_within outside _)) fun _ => .tx (hrecord _)
  refine .bind (.demand _ _) fun _ => .bind .read fun s => ?_
  cases liveForRun runId s with
  | none => exact hrest
  | some =>
    exact .bind (.demand _ _) fun _ => .bind (.demand _ _) fun _ => .bind (.demand _ _) fun _ => hrest

theorem freeze_within {caller : Caller} (hset : Tx.Within R (setInstanceStatus caller.sandboxId .frozen)) :
    Call.Within R (freeze self outside caller) :=
  .bind (requireLease_within outside _ _) fun _ => .bind (requireRunning_within self _ _) fun sandbox =>
    .bind (container_within sandbox) fun _ => .bind (.tx (ask_within outside _)) fun _ => .tx hset

theorem thaw_within {caller : Caller} (hset : Tx.Within R (setInstanceStatus caller.sandboxId .running)) :
    Call.Within R (thaw self outside caller) :=
  .bind (requireLease_within outside _ _) fun _ => .bind (requireOwned_within self _ _) fun sandbox =>
    .bind (container_within sandbox) fun _ => .bind (.tx (ask_within outside _)) fun _ =>
      .bind (.tx hset) fun _ => .tx (registerAddress_within outside _)

end Writes

end Checks


theorem removeContainer_lowers (id : Uuid) (sandbox : SandboxInstance) : Tx.Within Lowers (removeContainer outside id sandbox) := by
  unfold removeContainer
  cases sandbox.containerId with
  | some => exact .bind (ask_within outside _) fun _ => .pure ()
  | none => exact .bind (ask_within outside _) fun _ => .pure ()

theorem closeNetwork_lowers (id : Uuid) : Tx.Within Lowers (closeNetwork self outside id) :=
  .onlyIf fun _ => .bind (ask_within outside _) fun _ => .pure ()

theorem takeDown_lowers (id : Uuid) (sandbox : SandboxInstance) : Tx.Within Lowers (takeDown self outside id sandbox) :=
  .bind (removeContainer_lowers outside id sandbox) fun _ =>
    .bind (closeNetwork_lowers self outside id) fun _ => setInstanceStatus_lowers id .destroyed

theorem takeDownIfThere_lowers (id : Uuid) : Tx.Within Lowers (takeDownIfThere self outside id) := by
  refine .bind .get fun s => ?_
  cases readInstance id s with
  | some sandbox => exact takeDown_lowers self outside id sandbox
  | none => exact .pure ()

theorem discard_lowers (claim : Uuid × SandboxReservation) : Tx.Within Lowers (discard self outside claim) :=
  .bind (takeDownIfThere_lowers self outside _) fun _ => release_lowers _

theorem evict_lowers (claim : Uuid × SandboxReservation) (sandbox : SandboxInstance) :
    Tx.Within Lowers (evict self outside claim sandbox) :=
  .bind (takeDown_lowers self outside _ sandbox) fun _ => .bind (release_lowers _) fun _ => record_lowers _

theorem abandon_lowers (build : Build) : Tx.Within Lowers (abandon self outside build) :=
  .bind (takeDownIfThere_lowers self outside _) fun _ =>
    .bind (ask_within outside _) fun _ => release_lowers _

theorem destroyAndRelease_lowers (found : Uuid × SandboxReservation) : Tx.Within Lowers (destroyAndRelease found) :=
  .bind (setInstanceStatus_lowers _ _) fun _ => release_lowers _

theorem retireHost_lowers (name : String) : Tx.Within Lowers (retireHost name) :=
  .bind .get fun _ => .forEach _ fun found _ => destroyAndRelease_lowers found

theorem confirmCleanup_lowers (k : Uuid) : Tx.Within Lowers (confirmCleanup k) :=
  .bind (.fetch _ _) fun _ => destroyAndRelease_lowers _

structure OnlyInstance (id : Uuid) (s s' : Sandboxes) : Prop where
  reservations : s'.reservations = s.reservations
  audit : s'.audit = s.audit
  others : ∀ id', id' ≠ id → s'.instances.lookup id' = s.instances.lookup id'

namespace OnlyInstance
variable {id : Uuid}

instance : Std.Refl (OnlyInstance id) where
  refl _ := ⟨rfl, rfl, fun _ _ => rfl⟩

instance : IsTrans Sandboxes (OnlyInstance id) where
  trans _ _ _ h₁ h₂ :=
    ⟨h₂.reservations.trans h₁.reservations, h₂.audit.trans h₁.audit,
      fun id' h => (h₂.others id' h).trans (h₁.others id' h)⟩

end OnlyInstance

theorem takeDown_only (id : Uuid) (sandbox : SandboxInstance) :
    Tx.Within (OnlyInstance id) (takeDown self outside id sandbox) := by
  have hask : ∀ call, Tx.Within (OnlyInstance id) (ask outside call) := fun _ => .lift _
  have hremove : Tx.Within (OnlyInstance id) (removeContainer outside id sandbox) := by
    unfold removeContainer
    cases sandbox.containerId with
    | some => exact .bind (hask _) fun _ => .pure ()
    | none => exact .bind (hask _) fun _ => .pure ()
  refine .bind hremove fun _ => .bind (.onlyIf fun _ => .bind (hask _) fun _ => .pure ()) fun _ => ?_
  exact .bind (.fetch _ _) fun _ => .write fun s => ⟨rfl, rfl, fun id' h => Table.lookup_modify_of_ne h _ _⟩

theorem takeDownIfThere_only (id : Uuid) : Tx.Within (OnlyInstance id) (takeDownIfThere self outside id) := by
  refine .bind .get fun s => ?_
  cases readInstance id s with
  | some sandbox => exact takeDown_only self outside id sandbox
  | none => exact .pure ()

/-! The calls that take sandboxes down. -/

theorem remove_lowers (runId sandboxId : Uuid) : Call.Within Lowers (remove self outside runId sandboxId) :=
  .bind (claim_within self runId sandboxId) fun _ => .bind (.tx (takeDownIfThere_lowers self outside _)) fun _ =>
    .bind (.tx (release_lowers _)) fun _ => .bind (.tx (ask_within outside _)) fun _ => .tx (record_lowers _)

theorem destroy_lowers (caller : Caller) : Call.Within Lowers (destroy self outside caller) :=
  .bind (requireLease_within outside _ _) fun _ => remove_lowers self outside _ _

theorem cleanup_lowers (runId sandboxId : Uuid) : Call.Within Lowers (cleanup self outside runId sandboxId) :=
  .bind (.demand _ _) fun _ => .bind (remove_lowers self outside _ _) fun _ => .tx (record_lowers _)

/-! Registrations. -/

theorem reserve_ok {reservationId runId instanceId : Uuid} {sandbox : SandboxInstance} {s s' : Sandboxes} {u : Unit}
    (h : reserve reservationId runId instanceId sandbox s = .ok (u, s')) :
    s.instances.lookup instanceId = none ∧ s.reservations.lookup reservationId = none ∧ liveForRun runId s = none ∧
      s'.instances = s.instances.insert instanceId sandbox ∧
      s'.reservations = s.reservations.insert reservationId (.new runId instanceId) ∧ s'.audit = s.audit := by
  unfold reserve at h
  split at h
  · next hfree =>
    cases h
    exact ⟨hfree.1, hfree.2.1, hfree.2.2, rfl, rfl, rfl⟩
  · cases h

/-- Every claim is on a recorded instance, and no two on the same one. -/
structure Recorded (s : Sandboxes) : Prop where
  present : ∀ k row, s.reservations.lookup k = some row → ∃ sandbox, s.instances.lookup row.instanceId = some sandbox
  single : ∀ k k' row row', s.reservations.lookup k = some row → s.reservations.lookup k' = some row' →
    row.instanceId = row'.instanceId → k = k'

namespace Recorded
variable {s s' : Sandboxes}

theorem empty : Recorded .empty :=
  ⟨fun _ _ h => (nomatch h), fun _ _ _ _ h => (nomatch h)⟩

theorem lowers (h : Recorded s) (hlowers : Lowers s s') : Recorded s' := by
  constructor
  · intro k row' hrow'
    obtain ⟨row, hrow, hlower⟩ := some_rel (hrow' ▸ hlowers.reservations k)
    obtain ⟨_, hsandbox⟩ := h.present k row hrow
    obtain ⟨sandbox', hsandbox', _⟩ := rel_some (hsandbox ▸ hlowers.instances row.instanceId)
    exact ⟨sandbox', by rw [hlower.instanceId, hsandbox']⟩
  · intro k j _ _ hrow' hroj' hsame
    obtain ⟨row, hrow, hlower⟩ := some_rel (hrow' ▸ hlowers.reservations k)
    obtain ⟨roj, hroj, hlower'⟩ := some_rel (hroj' ▸ hlowers.reservations j)
    apply h.single k j row roj hrow hroj
    rw [← hlower.instanceId, ← hlower'.instanceId, hsame]

theorem reserve {reservationId runId instanceId : Uuid} {sandbox : SandboxInstance} {u : Unit} (h : Recorded s)
    (hreserve : reserve reservationId runId instanceId sandbox s = .ok (u, s')) : Recorded s' := by
  obtain ⟨hinstance, _, _, hinstances, hreservations, _⟩ := reserve_ok hreserve
  have hcases : ∀ {k row}, s'.reservations.lookup k = some row →
      (k = reservationId ∧ row = .new runId instanceId) ∨ (s.reservations.lookup k = some row ∧ row.instanceId ≠ instanceId) := by
    intro k row hrow
    rw [hreservations, Table.lookup_insert_ite] at hrow
    split_ifs at hrow with hk
    · cases hrow
      exact .inl ⟨hk, rfl⟩
    · refine .inr ⟨hrow, fun heq => ?_⟩
      obtain ⟨_, hfound⟩ := h.present k row hrow
      rw [heq, hinstance] at hfound
      cases hfound
  constructor
  · intro k row hrow
    rcases hcases hrow with ⟨_, rfl⟩ | ⟨hrow, hne⟩
    · exact ⟨sandbox, by rw [hinstances]; exact AList.lookup_insert s.instances⟩
    · rw [hinstances, AList.lookup_insert_ne hne]
      exact h.present k row hrow
  · intro k j row roj hrow hroj hsame
    rcases hcases hrow with ⟨hk, rfl⟩ | ⟨hrow, hne⟩
    · rcases hcases hroj with ⟨hj, rfl⟩ | ⟨_, hne⟩
      · rw [hk, hj]
      · exact absurd hsame.symm hne
    · rcases hcases hroj with ⟨_, rfl⟩ | ⟨hroj, _⟩
      · exact absurd hsame hne
      · exact h.single k j row roj hrow hroj hsame

end Recorded

/-! What each call found when it was answered. -/

variable {self outside} {s s' : Sandboxes}

theorem claim_ok {runId sandboxId k : Uuid} {sandbox : Option SandboxInstance}
    (h : claim self runId sandboxId s = .ok (.ok (k, sandbox), s')) :
    s' = s ∧ sandbox = readInstance sandboxId s ∧ self.here sandbox ∧
      ∃ row, s.reservations.lookup k = some row ∧ row.Takes runId ∧ row.instanceId = sandboxId := by
  obtain ⟨found, hlive, h⟩ := Call.find_bind_ok.mp h
  obtain ⟨howned, h⟩ := Call.demand_bind_ok.mp h
  obtain ⟨hhere, h⟩ := Call.demand_bind_ok.mp h
  cases h
  obtain ⟨hrow, htakes⟩ := liveForRun_some.mp hlive
  exact ⟨rfl, rfl, hhere, found.2, hrow, htakes, howned⟩

theorem keepClaim_lowers (runId sandboxId : Uuid) (idleExpiresAt : Time) :
    Call.Within Lowers (SandboxController.keep self runId sandboxId idleExpiresAt) := by
  intro _ _ _ h
  rcases Call.bind_cases h with ⟨_, h, _⟩ | ⟨⟨_, _⟩, _, hclaim, hkeep⟩
  · exact claim_within self runId sandboxId h
  · obtain ⟨rfl, _, _, _, hrow, htakes, _⟩ := claim_ok hclaim
    obtain ⟨_, hkeep, _⟩ := Call.tx_run hkeep
    exact keep_lowers hkeep hrow htakes.1

theorem transaction_lowers (hosts : String → HostSettings) (outside : Outside) (act : Act)
    (h : ∀ host cmd i r, act ≠ .acquire host cmd i r) : Call.Within Lowers (transaction hosts outside act) := by
  cases act with
  | acquire host cmd i r => exact absurd rfl (h host cmd i r)
  | built => exact .bind (.tx (completeBuild_within (completeInstance_lowers _ _))) fun _ => .pure _
  | buildFailed => exact .bind (.tx (abandon_lowers _ _ _)) fun _ => .pure _
  | execute => exact .bind (execute_within _ _ _ _) fun _ => .pure _
  | executeStream => exact .bind (executeStream_within _ _ _ _) fun _ => .pure _
  | workspaceScan => exact .bind (workspaceScan_within _ _ _) fun _ => .pure _
  | workspaceExport => exact .bind (workspaceExport_within _ _ _) fun _ => .pure _
  | workspaceImport => exact .bind (workspaceImport_within _ _ _ _) fun _ => .pure _
  | importReceived => exact .pure _
  | importFailed host caller fault =>
    refine .bind ?_ fun _ => .tx (.throw fault)
    exact .bind (claim_within _ _ _) fun _ => .bind (.tx (setInstanceStatus_lowers _ _)) fun _ =>
      .bind (.tx (isolate_lowers _ _)) fun _ => .tx (record_lowers _)
  | freeze => exact .bind (freeze_within (setInstanceStatus_lowers _ _)) fun _ => .pure _
  | thaw => exact .bind (thaw_within (setInstanceStatus_lowers _ _)) fun _ => .pure _
  | destroy => exact .bind (destroy_lowers _ _ _) fun _ => .pure _
  | keep => exact .bind (keepClaim_lowers _ _ _) fun _ => .pure _
  | cleanup => exact .bind (cleanup_lowers _ _ _ _) fun _ => .pure _
  | volumeRemove => exact .bind (volumeRemove_within record_lowers) fun _ => .pure _
  | isolate => exact .bind (.tx (isolate_lowers _ _)) fun _ => .pure _
  | confirmCleanup => exact .bind (.tx (confirmCleanup_lowers _)) fun _ => .pure _
  | retireHost name => exact .bind (.tx (retireHost_lowers name)) fun _ => .pure _

end TinyHermes.Sandbox
