import TinyHermes.Sandbox.MemoryBudget

/-! Sandboxes an import left dirty. The mark of `workspace_import_failed` is rolled back with the stream, so only the end of its
claim keeps such a sandbox from running again. -/
namespace TinyHermes.Sandbox
open Lib Sandboxes SqlSandboxStore SandboxController SandboxReservation
open Runs (Uuid Time)

variable {s s' : Sandboxes} {k : Uuid}

/-- A built sandbox under a live claim is running or frozen: none is ever isolated, or destroyed and still claimed. -/
def Healthy (s : Sandboxes) : Prop :=
  ∀ k row sandbox, s.reservations.lookup k = some row → row.status.live = true →
    s.instances.lookup row.instanceId = some sandbox → sandbox.containerId.isSome = true →
    sandbox.status = .running ∨ sandbox.status = .frozen

theorem Healthy.empty : Healthy .empty := fun _ _ _ h => nomatch h

theorem healthy_lowerClaim (k : Uuid) {f : SandboxReservation → SandboxReservation} (hf : ∀ row, Lower row (f row)) :
    Tx.Within (Tx.Keeping Healthy) (Tx.write (lowerClaim k f hf) : SandboxTx Unit) := by
  apply Tx.Within.write
  intro s h j _ sandbox hrow' hlive hsandbox
  obtain ⟨row, hrow, hlower⟩ := some_rel (hrow' ▸ (Lowers.lowerClaim k hf s).reservations j)
  rw [hlower.instanceId] at hsandbox
  exact h j row sandbox hrow (hlower.live hlive) hsandbox

theorem healthy_isolate (k : Uuid) (reason : String) : Tx.Within (Tx.Keeping Healthy) (SqlSandboxStore.isolate k reason) :=
  .bind (.fetch _ _) fun _ => healthy_lowerClaim k (isolateLive_lower reason)

theorem healthy_update (id : Uuid) {f : SandboxInstance → SandboxInstance}
    (hf : ∀ sandbox, (f sandbox).status = .running ∨ (f sandbox).status = .frozen) :
    Tx.Within (Tx.Keeping Healthy) (Tx.write (updateInstance id f) : SandboxTx Unit) := by
  apply Tx.Within.write
  intro s h k row sandbox' hrow hlive hsandbox' hbuilt
  by_cases hid : row.instanceId = id
  · change (s.instances.modify id f).lookup row.instanceId = _ at hsandbox'
    rw [hid, Table.lookup_modify_self] at hsandbox'
    obtain ⟨sandbox, _, rfl⟩ := Option.map_eq_some_iff.mp hsandbox'
    exact hf sandbox
  · change (s.instances.modify id f).lookup row.instanceId = _ at hsandbox'
    rw [Table.lookup_modify_of_ne hid] at hsandbox'
    exact h k row sandbox' hrow hlive hsandbox' hbuilt

theorem healthy_setStatus (id : Uuid) {status : InstanceStatus} (h : status = .running ∨ status = .frozen) :
    Tx.Within (Tx.Keeping Healthy) (setInstanceStatus id status) :=
  .bind (.fetch _ _) fun _ => healthy_update id fun _ => h

theorem healthy_complete (id : Uuid) (containerId : String) :
    Tx.Within (Tx.Keeping Healthy) (completeInstance id containerId) :=
  .bind (.fetch _ _) fun _ => healthy_update id fun _ => .inl rfl

theorem healthy_record (entry : AuditEntry) : Tx.Within (Tx.Keeping Healthy) (record entry) :=
  .write fun _ h => h

variable {row : SandboxReservation} {u : Unit}

theorem healthy_keep {idleExpiresAt : Time} (h : Healthy s)
    (hkeep : SqlSandboxStore.keep k idleExpiresAt s = .ok (u, s')) (hrow : s.reservations.lookup k = some row)
    (hlive : row.status.live = true) : Healthy s' := by
  have hlowers := keep_lowers hkeep hrow hlive
  have hinstances : s'.instances = s.instances := by
    unfold SqlSandboxStore.keep at hkeep
    split at hkeep
    · cases hkeep
    · split at hkeep
      · cases hkeep
        rfl
      · cases hkeep
  intro j _ sandbox hrow' hlive' hsandbox
  obtain ⟨old, hold, hlower⟩ := some_rel (hrow' ▸ hlowers.reservations j)
  rw [hinstances, hlower.instanceId] at hsandbox
  exact h j old sandbox hold (hlower.live hlive') hsandbox

variable {runId : Uuid}

theorem healthy_reserve {reservationId instanceId : Uuid} {memoryMb : Nat} {controller : String}
    (h : Healthy s)
    (hreserve : reserve reservationId runId instanceId { status := .creating, memoryMb, controller } s = .ok (u, s')) :
    Healthy s' := by
  obtain ⟨_, _, _, hinstances, hreservations, _⟩ := reserve_ok hreserve
  intro k row sandbox hrow hlive hsandbox hbuilt
  rw [hinstances, Table.lookup_insert_ite] at hsandbox
  split_ifs at hsandbox with hid
  · cases hsandbox
    cases hbuilt
  · rw [hreservations, Table.lookup_insert_ite] at hrow
    split_ifs at hrow with hk
    · cases hrow
      exact absurd rfl hid
    · exact h k row sandbox hrow hlive hsandbox hbuilt

variable {result : Except RefusalReason Unit}

section TakeDowns

/-- A claim is released, and no instance but its own is touched. -/
def TakesDown (k : Uuid) (s s' : Sandboxes) : Prop :=
  ∃ row, s.reservations.lookup k = some row ∧ s'.reservations = s.reservations.modify k SandboxReservation.release ∧
    ∀ id, id ≠ row.instanceId → s'.instances.lookup id = s.instances.lookup id

theorem TakesDown.healthy (h : TakesDown k s s') (hrecorded : Recorded s) (hhealthy : Healthy s) : Healthy s' := by
  obtain ⟨row, hrow, hreservations, hothers⟩ := h
  intro j other sandbox hother hlive hsandbox
  rw [hreservations] at hother
  rcases Table.lookup_modify_cases hrow hother with ⟨_, rfl⟩ | ⟨hj, hother⟩
  · cases hlive
  · have hne : other.instanceId ≠ row.instanceId := fun heq => hj (hrecorded.single j k other row hother hrow heq)
    rw [hothers _ hne] at hsandbox
    exact hhealthy j other sandbox hother hlive hsandbox

theorem takesDown_of_only {s₁ : Sandboxes} {id : Uuid} (honly : OnlyInstance id s s₁)
    (hrelease : SqlSandboxStore.release k s₁ = .ok (u, s')) (hrow : s.reservations.lookup k = some row)
    (hid : row.instanceId = id) : TakesDown k s s' := by
  obtain ⟨_, _, hrelease⟩ := Tx.fetch_bind_ok.mp hrelease
  obtain rfl := Tx.write_ok.mp hrelease
  refine ⟨row, hrow, ?_, fun id' hne => honly.others id' (hid ▸ hne)⟩
  change s₁.reservations.modify k SandboxReservation.release = _
  rw [honly.reservations]

variable {self : SandboxController} {outside : Outside}

theorem discard_takesDown {claim : Uuid × SandboxReservation} (h : discard self outside claim s = .ok (u, s'))
    (hrow : s.reservations.lookup claim.1 = some claim.2) : TakesDown claim.1 s s' := by
  obtain ⟨_, _, hdown, hrelease⟩ := Tx.bind_ok.mp h
  exact takesDown_of_only (takeDownIfThere_only self outside _ hdown) hrelease hrow rfl

theorem evict_takesDown {c : Candidate} (h : evict self outside c.1 c.2 s = .ok (u, s'))
    (hrow : s.reservations.lookup c.1.1 = some row) (hid : row.instanceId = c.1.2.instanceId) : TakesDown c.1.1 s s' := by
  obtain ⟨_, _, hdown, h⟩ := Tx.bind_ok.mp h
  obtain ⟨_, _, hrelease, hrecord⟩ := Tx.bind_ok.mp h
  have hdowns := takesDown_of_only (takeDown_only self outside _ _ hdown) hrelease hrow hid
  rw [Tx.write_ok.mp hrecord]
  exact hdowns

theorem abandon_takesDown {build : Build} (h : abandon self outside build s = .ok (u, s'))
    (hrow : s.reservations.lookup build.reservationId = some row) (hid : row.instanceId = build.instanceId) :
    TakesDown build.reservationId s s' := by
  obtain ⟨_, _, hdown, h⟩ := Tx.bind_ok.mp h
  obtain ⟨_, _, hask, hrelease⟩ := Tx.bind_ok.mp h
  rw [(Tx.lift_ok.mp hask).2] at hrelease
  exact takesDown_of_only (takeDownIfThere_only self outside _ hdown) hrelease hrow hid

theorem destroyAndRelease_takesDown {found : Uuid × SandboxReservation}
    (h : destroyAndRelease found s = .ok (u, s')) (hrow : s.reservations.lookup found.1 = some row)
    (hid : row.instanceId = found.2.instanceId) : TakesDown found.1 s s' := by
  obtain ⟨_, _, hset, hrelease⟩ := Tx.bind_ok.mp h
  obtain ⟨_, _, hset⟩ := Tx.fetch_bind_ok.mp hset
  rw [Tx.write_ok.mp hset] at hrelease
  refine takesDown_of_only ?_ hrelease hrow hid
  exact ⟨rfl, rfl, fun id hne => Table.lookup_modify_of_ne hne _ _⟩

theorem remove_takesDown {sandboxId : Uuid}
    (h : remove self outside runId sandboxId s = .ok (result, s')) :
    s' = s ∨ ∃ k s₁, TakesDown k s s₁ ∧ s'.reservations = s₁.reservations ∧ s'.instances = s₁.instances := by
  rcases Call.bind_cases h with ⟨_, hclaim, _⟩ | ⟨⟨k, _⟩, _, hclaim, hrest⟩
  · exact .inl (claim_within (R := Tx.Same fun s : Sandboxes => s) self runId sandboxId hclaim)
  · obtain ⟨rfl, _, _, _, hrow, _, hid⟩ := claim_ok hclaim
    obtain ⟨_, _, hdown, hrest⟩ := Call.tx_bind_run hrest
    obtain ⟨_, s₂, hrelease, hrest⟩ := Call.tx_bind_run hrest
    obtain ⟨_, _, hask, hrecord⟩ := Call.tx_bind_run hrest
    obtain ⟨_, hrecord, _⟩ := Call.tx_run hrecord
    refine .inr ⟨k, s₂, takesDown_of_only (takeDownIfThere_only self outside _ hdown) hrelease hrow hid, ?_⟩
    rw [Tx.write_ok.mp hrecord, (Tx.lift_ok.mp hask).2]
    exact ⟨rfl, rfl⟩

theorem forEach_healthy {β : Type} {f : β → SandboxTx Unit} (key instanceId : β → Uuid) {xs : List β}
    (hstep : ∀ x ∈ xs, ∀ {s s' u row}, f x s = .ok (u, s') → s.reservations.lookup (key x) = some row →
      row.instanceId = instanceId x → TakesDown (key x) s s' ∧ Lowers s s')
    (hrecorded : Recorded s) (hhealthy : Healthy s)
    (hthere : ∀ x ∈ xs, ∃ row, s.reservations.lookup (key x) = some row ∧ row.instanceId = instanceId x)
    (h : Tx.forEach xs f s = .ok (u, s')) : Healthy s' := by
  induction xs generalizing s with
  | nil =>
    obtain ⟨_, rfl⟩ := Tx.pure_ok.mp h
    exact hhealthy
  | cons x rest ih =>
    obtain ⟨_, _, hfirst, hrest⟩ := Tx.bind_ok.mp h
    obtain ⟨row, hrow, hid⟩ := hthere x List.mem_cons_self
    obtain ⟨hdown, hlowers⟩ := hstep x List.mem_cons_self hfirst hrow hid
    apply ih (fun y hy => hstep y (List.mem_cons_of_mem x hy)) (hrecorded.lowers hlowers)
      (hdown.healthy hrecorded hhealthy) _ hrest
    intro y hy
    obtain ⟨_, hrow, hid⟩ := hthere y (List.mem_cons_of_mem x hy)
    obtain ⟨row', hrow', hlower⟩ := rel_some (hrow ▸ hlowers.reservations (key y))
    exact ⟨row', hrow', hlower.instanceId.trans hid⟩

theorem Evicts.healthy (h : Evicts self outside s s') (hrecorded : Recorded s) (hhealthy : Healthy s) : Healthy s' := by
  obtain ⟨_, hchosen, hevict⟩ := h
  apply forEach_healthy (fun c : Candidate => c.1.1) (fun c => c.1.2.instanceId) _ hrecorded hhealthy _ hevict
  · intro c _ _ _ _ _ hevict hrow hid
    exact ⟨evict_takesDown hevict hrow hid, evict_lowers self outside _ _ hevict⟩
  · exact fun c hc => ⟨c.1.2, (hchosen c hc).1, rfl⟩

theorem retireHost_healthy {name : String} (h : retireHost name s = .ok (u, s')) (hrecorded : Recorded s)
    (hhealthy : Healthy s) : Healthy s' := by
  obtain ⟨_, _, hget, hloop⟩ := Tx.bind_ok.mp h
  obtain ⟨rfl, rfl⟩ := Tx.get_ok.mp hget
  apply forEach_healthy (fun found : Uuid × SandboxReservation => found.1) (fun found => found.2.instanceId) _
    hrecorded hhealthy _ hloop
  · intro found _ _ _ _ _ hdown hrow hid
    exact ⟨destroyAndRelease_takesDown hdown hrow hid, destroyAndRelease_lowers found hdown⟩
  · exact fun found hfound => ⟨found.2, (Table.mem_select.mp hfound).1, rfl⟩

end TakeDowns

/-- What every transaction does to the rows there were: claims stay on their sandbox and do not come back, and a new claim is on a
new sandbox. -/
structure Persists (s s' : Sandboxes) : Prop where
  claims : ∀ k row, s.reservations.lookup k = some row → ∃ row', s'.reservations.lookup k = some row' ∧ Lower row row'
  instances : ∀ id i, s.instances.lookup id = some i → ∃ i', s'.instances.lookup id = some i' ∧ i.Same i'
  fresh : ∀ k row', s'.reservations.lookup k = some row' →
    (∃ row, s.reservations.lookup k = some row) ∨ s.instances.lookup row'.instanceId = none

namespace Persists

theorem refl (s : Sandboxes) : Persists s s :=
  ⟨fun _ row h => ⟨row, h, .refl row⟩, fun _ i h => ⟨i, h, .refl i⟩, fun _ row h => .inl ⟨row, h⟩⟩

theorem of_lowers (h : Lowers s s') : Persists s s' := by
  refine ⟨fun k row hrow => rel_some (hrow ▸ h.reservations k), fun id i hi => rel_some (hi ▸ h.instances id), ?_⟩
  intro k _ hrow'
  obtain ⟨row, hrow, _⟩ := some_rel (hrow' ▸ h.reservations k)
  exact .inl ⟨row, hrow⟩

theorem reserve {s₁ : Sandboxes} {reservationId instanceId : Uuid} {sandbox : SandboxInstance} (h : Lowers s s₁)
    (hreserve : reserve reservationId runId instanceId sandbox s₁ = .ok (u, s')) : Persists s s' := by
  obtain ⟨hinstance, hreservation, _, hinstances, hreservations, _⟩ := reserve_ok hreserve
  refine ⟨fun k row hrow => ?_, fun id i hi => ?_, fun k row' hrow' => ?_⟩
  · obtain ⟨row', hrow', hlower⟩ := rel_some (hrow ▸ h.reservations k)
    have hne : k ≠ reservationId := by
      rintro rfl
      rw [hreservation] at hrow'
      cases hrow'
    exact ⟨row', by rw [hreservations, AList.lookup_insert_ne hne, hrow'], hlower⟩
  · obtain ⟨i', hi', hsame⟩ := rel_some (hi ▸ h.instances id)
    have hne : id ≠ instanceId := by
      rintro rfl
      rw [hinstance] at hi'
      cases hi'
    exact ⟨i', by rw [hinstances, AList.lookup_insert_ne hne, hi'], hsame⟩
  · rw [hreservations, Table.lookup_insert_ite] at hrow'
    split_ifs at hrow' with hk
    · cases hrow'
      have hrel := h.instances instanceId
      rw [hinstance] at hrel
      cases hold : s.instances.lookup instanceId with
      | none => exact .inr hold
      | some => rw [hold] at hrel; cases hrel
    · obtain ⟨row, hrow, _⟩ := some_rel (hrow' ▸ h.reservations k)
      exact .inl ⟨row, hrow⟩

theorem ended {id : Uuid} {i : SandboxInstance} (h : Persists s s') (hi : s.instances.lookup id = some i)
    (hover : held id s = false) : held id s' = false := by
  cases hheld : held id s' with
  | false => rfl
  | true =>
    obtain ⟨k, row', hrow', hlive, rfl⟩ := held_iff.mp hheld
    rcases h.fresh k row' hrow' with ⟨row, hrow⟩ | hnone
    · obtain ⟨_, hfound, hlower⟩ := h.claims k row hrow
      rw [hrow'] at hfound
      cases hfound
      have hold : held row'.instanceId s = true := held_iff.mpr ⟨k, row, hrow, hlower.live hlive, hlower.instanceId.symm⟩
      rw [hover] at hold
      cases hold
    · rw [hi] at hnone
      cases hnone

end Persists

section Transactions
variable {hosts : String → HostSettings} {outside : Outside}

theorem transaction_persists {act : Act} {result : Except RefusalReason Answer}
    (h : transaction hosts outside act s = .ok (result, s')) : Persists s s' := by
  by_cases hacquire : ∃ host cmd i r, act = .acquire host cmd i r
  · obtain ⟨host, cmd, i, r, rfl⟩ := hacquire
    obtain ⟨_, hrun, _⟩ := acquire_of_transaction h
    rcases acquire_cases hrun with ⟨_, _, rfl | hdiscarded⟩ | ⟨_, _, _, hset⟩ | ⟨_, _, _, _, hcold, hevicts, _, hreserve⟩
    · exact .refl _
    · exact .of_lowers hdiscarded.lowers
    · exact .of_lowers (setInstanceStatus_lowers _ _ hset)
    · exact .reserve (registering_lowers hcold hevicts) hreserve
  · exact .of_lowers (transaction_lowers hosts outside act (fun host cmd i r heq => hacquire ⟨host, cmd, i, r, heq⟩) h)

variable {self : SandboxController}

theorem Discarded.healthy (h : Discarded self outside runId s s')
    (hrecorded : Recorded s) (hhealthy : Healthy s) : Healthy s' := by
  obtain ⟨_, hlive, _, hdiscard⟩ := h
  exact (discard_takesDown hdiscard (liveForRun_some.mp hlive).1).healthy hrecorded hhealthy

theorem acquire_healthy {cmd : AcquireCommand} {i r : Uuid} {result : Except RefusalReason Acquired}
    (h : acquire self outside cmd i r s = .ok (result, s')) (hrecorded : Recorded s) (hhealthy : Healthy s) : Healthy s' := by
  rcases acquire_cases h with ⟨_, _, rfl | hdiscarded⟩ | ⟨_, _, _, hset⟩ | ⟨_, s₀, _, _, hcold, hevicts, _, hreserve⟩
  · exact hhealthy
  · exact hdiscarded.healthy hrecorded hhealthy
  · exact healthy_setStatus _ (.inl rfl) hset hhealthy
  · have hready : Recorded s₀ ∧ Healthy s₀ := by
      rcases hcold with rfl | hdiscarded
      · exact ⟨hrecorded, hhealthy⟩
      · exact ⟨hrecorded.lowers hdiscarded.lowers, hdiscarded.healthy hrecorded hhealthy⟩
    exact healthy_reserve (hevicts.healthy hready.1 hready.2) hreserve

theorem remove_healthy {sandboxId : Uuid}
    (h : remove self outside runId sandboxId s = .ok (result, s')) (hrecorded : Recorded s) (hhealthy : Healthy s) :
    Healthy s' := by
  rcases remove_takesDown h with rfl | ⟨_, _, hdown, hreservations, hinstances⟩
  · exact hhealthy
  · have hhealthy₁ := hdown.healthy hrecorded hhealthy
    unfold Healthy at hhealthy₁ ⊢
    rwa [hreservations, hinstances]

theorem destroy_healthy {caller : Caller}
    (h : destroy self outside caller s = .ok (result, s')) (hrecorded : Recorded s) (hhealthy : Healthy s) : Healthy s' := by
  rcases Call.bind_cases h with ⟨_, hlease, _⟩ | ⟨_, _, hlease, hremove⟩
  · exact requireLease_within (R := Tx.Keeping Healthy) _ _ _ hlease hhealthy
  · obtain ⟨_, rfl⟩ := Call.demand_ok.mp hlease
    exact remove_healthy hremove hrecorded hhealthy

theorem cleanup_healthy {sandboxId : Uuid}
    (h : cleanup self outside runId sandboxId s = .ok (result, s')) (hrecorded : Recorded s) (hhealthy : Healthy s) :
    Healthy s' := by
  rcases Call.bind_cases h with ⟨_, hlease, _⟩ | ⟨_, _, hlease, hrest⟩
  · exact Call.Within.demand (R := Tx.Keeping Healthy) _ _ hlease hhealthy
  · obtain ⟨_, rfl⟩ := Call.demand_ok.mp hlease
    rcases Call.bind_cases hrest with ⟨_, hremove, _⟩ | ⟨_, _, hremove, hrecord⟩
    · exact remove_healthy hremove hrecorded hhealthy
    · obtain ⟨_, hrecord, _⟩ := Call.tx_run hrecord
      exact healthy_record _ hrecord (remove_healthy hremove hrecorded hhealthy)

theorem keepClaim_healthy {sandboxId : Uuid} {idleExpiresAt : Time}
    (h : SandboxController.keep self runId sandboxId idleExpiresAt s = .ok (result, s'))
    (hhealthy : Healthy s) : Healthy s' := by
  rcases Call.bind_cases h with ⟨_, hclaim, _⟩ | ⟨⟨_, _⟩, _, hclaim, hkeep⟩
  · exact claim_within (R := Tx.Keeping Healthy) _ _ _ hclaim hhealthy
  · obtain ⟨rfl, _, _, _, hrow, htakes, _⟩ := claim_ok hclaim
    obtain ⟨_, hkeep, _⟩ := Call.tx_run hkeep
    exact healthy_keep hhealthy hkeep hrow htakes.1

theorem importFailed_same {host : String} {caller : Caller} {fault : Fault} {result : Except RefusalReason Answer}
    (h : transaction hosts outside (.importFailed host caller fault) s = .ok (result, s')) : s' = s := by
  rcases Call.bind_cases h with ⟨_, hmark, _⟩ | ⟨_, s₁, _, hthrow⟩
  · rcases Call.bind_cases hmark with ⟨_, hclaim, _⟩ | ⟨_, _, _, hrest⟩
    · exact claim_within (R := Tx.Same fun s : Sandboxes => s) _ _ _ hclaim
    · obtain ⟨_, _, _, hrest⟩ := Call.tx_bind_run hrest
      obtain ⟨_, _, _, hrest⟩ := Call.tx_bind_run hrest
      obtain ⟨_, _, hok⟩ := Call.tx_run hrest
      cases hok
  · obtain ⟨_, hthrow, _⟩ := Call.tx_run hthrow
    exact absurd hthrow Tx.throw_ok

theorem transaction_healthy {act : Act} {result : Except RefusalReason Answer}
    (h : transaction hosts outside act s = .ok (result, s')) (hrecorded : Recorded s) (hhealthy : Healthy s)
    (hbuild : ∀ host build fault, act = .buildFailed host build fault →
      ∃ row, s.reservations.lookup build.reservationId = some row ∧ row.instanceId = build.instanceId) : Healthy s' := by
  have hkeeps : ∀ {x : SandboxCall Answer}, Call.Within (Tx.Keeping Healthy) x → x s = .ok (result, s') → Healthy s' :=
    fun hx h => hx h hhealthy
  cases act with
  | acquire =>
    obtain ⟨_, hrun, _⟩ := acquire_of_transaction h
    exact acquire_healthy hrun hrecorded hhealthy
  | built =>
    exact hkeeps (.bind (.tx (completeBuild_within (healthy_complete _ _))) fun _ => .pure _) h
  | buildFailed host build fault =>
    obtain ⟨_, s₁, habandon, hpure⟩ := Call.tx_bind_run h
    cases hpure
    obtain ⟨row, hrow, hid⟩ := hbuild host build fault rfl
    exact (abandon_takesDown habandon hrow hid).healthy hrecorded hhealthy
  | execute => exact hkeeps (.bind (execute_within _ _ _ _) fun _ => .pure _) h
  | executeStream => exact hkeeps (.bind (executeStream_within _ _ _ _) fun _ => .pure _) h
  | workspaceScan => exact hkeeps (.bind (workspaceScan_within _ _ _) fun _ => .pure _) h
  | workspaceExport => exact hkeeps (.bind (workspaceExport_within _ _ _) fun _ => .pure _) h
  | workspaceImport =>
    exact hkeeps (.bind (workspaceImport_within _ _ _ _) fun _ => .pure _) h
  | importReceived => exact hkeeps (.pure _) h
  | importFailed =>
    rw [importFailed_same h]
    exact hhealthy
  | freeze => exact hkeeps (.bind (freeze_within (healthy_setStatus _ (.inr rfl))) fun _ => .pure _) h
  | thaw => exact hkeeps (.bind (thaw_within (healthy_setStatus _ (.inl rfl))) fun _ => .pure _) h
  | destroy =>
    rcases Call.bind_cases h with ⟨_, hdestroy, _⟩ | ⟨_, s₁, hdestroy, hpure⟩
    · exact destroy_healthy hdestroy hrecorded hhealthy
    · cases hpure
      exact destroy_healthy hdestroy hrecorded hhealthy
  | keep =>
    rcases Call.bind_cases h with ⟨_, hkeep, _⟩ | ⟨_, s₁, hkeep, hpure⟩
    · exact keepClaim_healthy hkeep hhealthy
    · cases hpure
      exact keepClaim_healthy hkeep hhealthy
  | cleanup =>
    rcases Call.bind_cases h with ⟨_, hcleanup, _⟩ | ⟨_, s₁, hcleanup, hpure⟩
    · exact cleanup_healthy hcleanup hrecorded hhealthy
    · cases hpure
      exact cleanup_healthy hcleanup hrecorded hhealthy
  | volumeRemove =>
    exact hkeeps (.bind (volumeRemove_within healthy_record) fun _ => .pure _) h
  | isolate => exact hkeeps (.bind (.tx (healthy_isolate _ _)) fun _ => .pure _) h
  | confirmCleanup =>
    obtain ⟨_, s₁, hconfirm, hpure⟩ := Call.tx_bind_run h
    cases hpure
    obtain ⟨_, hrow, hdown⟩ := Tx.fetch_bind_ok.mp hconfirm
    exact (destroyAndRelease_takesDown hdown hrow rfl).healthy hrecorded hhealthy
  | retireHost =>
    obtain ⟨_, _, hretire, hpure⟩ := Call.tx_bind_run h
    cases hpure
    exact retireHost_healthy hretire hrecorded hhealthy

end Transactions

/-- What holds between the transactions of a pool: builds and imports in flight know their rows. -/
structure Sane (p : Pool) : Prop where
  recorded : Recorded p.sandboxes
  healthy : Healthy p.sandboxes
  builds : ∀ host build, (host, build) ∈ p.building →
    ∃ row, p.sandboxes.reservations.lookup build.reservationId = some row ∧ row.instanceId = build.instanceId
  imports : ∀ host caller, (host, caller) ∈ p.importing →
    ∃ sandbox, p.sandboxes.instances.lookup caller.sandboxId = some sandbox ∧ sandbox.containerId.isSome = true

section Authority
variable {self : SandboxController} {outside : Outside} {runId sandboxId : Uuid} {sandbox : SandboxInstance}

theorem requireOwned_ok (h : requireOwned self runId sandboxId s = .ok (.ok sandbox, s')) :
    s' = s ∧ s.instances.lookup sandboxId = some sandbox ∧ held sandboxId s = true := by
  obtain ⟨⟨k, found⟩, _, hclaim, h⟩ := Call.bind_ok.mp h
  obtain ⟨rfl, hfound, _, row, hrow, htakes, hid⟩ := claim_ok hclaim
  cases found with
  | none => cases h
  | some =>
    cases h
    exact ⟨rfl, hfound.symm, held_iff.mpr ⟨k, row, hrow, htakes.1, hid⟩⟩

theorem requireRunning_ok (h : requireRunning self runId sandboxId s = .ok (.ok sandbox, s')) :
    s' = s ∧ s.instances.lookup sandboxId = some sandbox ∧ held sandboxId s = true := by
  obtain ⟨_, _, howned, h⟩ := Call.bind_ok.mp h
  obtain ⟨_, h⟩ := Call.demand_bind_ok.mp h
  cases h
  exact requireOwned_ok howned

theorem requireFrozen_ok (h : requireFrozen self runId sandboxId s = .ok (.ok sandbox, s')) :
    s' = s ∧ s.instances.lookup sandboxId = some sandbox ∧ held sandboxId s = true := by
  obtain ⟨_, _, howned, h⟩ := Call.bind_ok.mp h
  obtain ⟨_, h⟩ := Call.demand_bind_ok.mp h
  obtain ⟨_, h⟩ := Call.demand_bind_ok.mp h
  cases h
  exact requireOwned_ok howned

theorem container_ok {containerId : String} (h : container sandbox s = .ok (.ok containerId, s')) :
    sandbox.containerId = some containerId := by
  unfold container at h
  cases hc : sandbox.containerId with
  | none => rw [hc] at h; cases h
  | some => rw [hc] at h; cases h; rfl

variable {caller : Caller} {containerId cwd : String}

theorem executeStream_held (h : executeStream self outside caller cwd s = .ok (.ok containerId, s')) :
    held caller.sandboxId s = true := by
  obtain ⟨_, h⟩ := Call.demand_bind_ok.mp h
  obtain ⟨_, _, hrunning, _⟩ := Call.bind_ok.mp h
  exact (requireRunning_ok hrunning).2.2

theorem workspaceExport_held (h : workspaceExport self outside caller s = .ok (.ok containerId, s')) :
    held caller.sandboxId s = true := by
  obtain ⟨_, h⟩ := Call.demand_bind_ok.mp h
  obtain ⟨_, _, hfrozen, _⟩ := Call.bind_ok.mp h
  exact (requireFrozen_ok hfrozen).2.2

theorem workspaceImport_ok {declaredTotal : Int}
    (h : workspaceImport self outside caller declaredTotal s = .ok (.ok containerId, s')) :
    held caller.sandboxId s = true ∧
      ∃ sandbox, s.instances.lookup caller.sandboxId = some sandbox ∧ sandbox.containerId = some containerId := by
  obtain ⟨_, h⟩ := Call.demand_bind_ok.mp h
  obtain ⟨sandbox, _, hfrozen, h⟩ := Call.bind_ok.mp h
  obtain ⟨_, h⟩ := Call.demand_bind_ok.mp h
  obtain ⟨_, hthere, hheld⟩ := requireFrozen_ok hfrozen
  exact ⟨hheld, sandbox, hthere, container_ok h⟩

/-- The act runs in sandbox `id`, or reads or fills its tree. -/
def Act.uses (id : Uuid) : Act → Bool
  | .execute _ caller _ | .executeStream _ caller _ | .workspaceScan _ caller | .workspaceExport _ caller
  | .workspaceImport _ caller _ => caller.sandboxId = id
  | _ => false

def Authorizes (hosts : String → HostSettings) (s : Sandboxes) (id : Uuid) : Prop :=
  ∃ outside act containerId, act.uses id = true ∧
    (Call.dispatch (transaction hosts outside act) s).1 = .answered (.authorized containerId)

variable {hosts : String → HostSettings} {id : Uuid}

theorem Authorizes.held (h : Authorizes hosts s id) : held id s = true := by
  obtain ⟨_, act, _, huses, hanswer⟩ := h
  have hrun := Call.dispatch_answered hanswer
  cases act with
  | execute =>
    obtain rfl := of_decide_eq_true huses
    obtain ⟨_, _, hexecute, _⟩ := Call.bind_ok.mp hrun
    obtain ⟨_, _, hstream, _⟩ := Call.bind_ok.mp hexecute
    exact executeStream_held hstream
  | executeStream =>
    obtain rfl := of_decide_eq_true huses
    obtain ⟨_, _, hstream, _⟩ := Call.bind_ok.mp hrun
    exact executeStream_held hstream
  | workspaceScan =>
    obtain rfl := of_decide_eq_true huses
    obtain ⟨_, _, hscan, _⟩ := Call.bind_ok.mp hrun
    obtain ⟨_, _, hexport, _⟩ := Call.bind_ok.mp hscan
    exact workspaceExport_held hexport
  | workspaceExport =>
    obtain rfl := of_decide_eq_true huses
    obtain ⟨_, _, hexport, _⟩ := Call.bind_ok.mp hrun
    exact workspaceExport_held hexport
  | workspaceImport =>
    obtain rfl := of_decide_eq_true huses
    obtain ⟨_, _, himport, _⟩ := Call.bind_ok.mp hrun
    exact (workspaceImport_ok himport).1
  | _ => cases huses

/-- A caller with a lease, before a daemon that answers. -/
def leaseholder : Outside where
  now := 0
  holds _ _ := true
  anyLive _ := true
  locked _ := false
  engine _ := .ok true

theorem authorizes_of_healthy (hosts : String → HostSettings) (hrow : s.reservations.lookup k = some row)
    (hlive : row.status.live = true) (hsandbox : s.instances.lookup row.instanceId = some sandbox)
    (hbuilt : sandbox.containerId = some containerId) (hstatus : sandbox.status = .running ∨ sandbox.status = .frozen) :
    Authorizes hosts s row.instanceId := by
  have hfound : liveForRun row.runId s = some (k, row) := liveForRun_some.mpr ⟨hrow, hlive, rfl⟩
  have hhere : (controllerOn hosts sandbox.controller).here (some sandbox) := by
    intro _ hi
    cases hi
    rfl
  have hclaim : claim (controllerOn hosts sandbox.controller) row.runId row.instanceId s = .ok (.ok (k, some sandbox), s) := by
    rw [claim, Call.find_bind, hfound]
    dsimp only
    rw [Call.demand_bind, if_pos rfl, Call.read_bind, readInstance, hsandbox, refuseElsewhere, Call.demand_bind, if_pos hhere]
    rfl
  have howned : requireOwned (controllerOn hosts sandbox.controller) row.runId row.instanceId s = .ok (.ok sandbox, s) := by
    rw [requireOwned, Call.bind_run, hclaim]
    rfl
  have hcontainer : container sandbox s = .ok (.ok containerId, s) := by
    rw [container, hbuilt]
    rfl
  let caller : Caller := { runId := row.runId, leaseId := 0, sandboxId := row.instanceId }
  rcases hstatus with hrunning | hfrozen
  · refine ⟨leaseholder, .executeStream sandbox.controller caller "/workspace/data", containerId, decide_eq_true rfl, ?_⟩
    have hrequire : requireRunning (controllerOn hosts sandbox.controller) row.runId row.instanceId s = .ok (.ok sandbox, s) := by
      rw [requireRunning, Call.bind_run, howned]
      dsimp only
      rw [Call.demand_bind, if_pos hrunning]
      rfl
    have hstream : executeStream (controllerOn hosts sandbox.controller) leaseholder caller "/workspace/data" s =
        .ok (.ok containerId, s) := by
      rw [executeStream, requireLease, Call.demand_bind, if_pos (show leaseholder.holds _ _ = true from rfl), Call.bind_run, hrequire]
      dsimp only
      rw [Call.demand_bind, if_pos (by decide +kernel), hcontainer]
    rw [Call.dispatch, transaction, Call.bind_run, hstream]
    rfl
  · refine ⟨leaseholder, .workspaceExport sandbox.controller caller, containerId, decide_eq_true rfl, ?_⟩
    have hrequire : requireFrozen (controllerOn hosts sandbox.controller) row.runId row.instanceId s = .ok (.ok sandbox, s) := by
      rw [requireFrozen, Call.bind_run, howned]
      dsimp only
      rw [Call.demand_bind, if_pos (by rw [hfrozen]; decide), Call.demand_bind, if_pos hfrozen]
      rfl
    have hexport : workspaceExport (controllerOn hosts sandbox.controller) leaseholder caller s = .ok (.ok containerId, s) := by
      rw [workspaceExport, requireLease, Call.demand_bind, if_pos (show leaseholder.holds _ _ = true from rfl), Call.bind_run, hrequire]
      exact hcontainer
    rw [Call.dispatch, transaction, Call.bind_run, hexport]
    rfl

end Authority

section Pools
variable {hosts : String → HostSettings} {p p' : Pool} {log : History} {outside : Outside} {act : Act} {a : Heard}

theorem mem_track_building {reply : Heard} {e : String × Build} (h : e ∈ (act.track p reply).building) :
    e ∈ p.building ∨ ∃ cmd i r, act = .acquire e.1 cmd i r ∧ reply = .answered (.acquired (.registered e.2)) := by
  unfold Act.track at h
  split at h
  · rcases List.mem_cons.mp h with rfl | h
    · exact .inr ⟨_, _, _, rfl, rfl⟩
    · exact .inl h
  · exact .inl (List.mem_of_mem_erase h)
  · exact .inl (List.mem_of_mem_erase h)
  · exact .inl h
  · exact .inl h
  · exact .inl h
  · exact .inl h

theorem mem_track_importing {reply : Heard} {e : String × Caller} (h : e ∈ (act.track p reply).importing) :
    e ∈ p.importing ∨ ∃ declaredTotal answer, act = .workspaceImport e.1 e.2 declaredTotal ∧ reply = .answered answer := by
  unfold Act.track at h
  split at h
  · exact .inl h
  · exact .inl h
  · exact .inl h
  · rcases List.mem_cons.mp h with rfl | h
    · exact .inr ⟨_, _, rfl, rfl⟩
    · exact .inl h
  · exact .inl (List.mem_of_mem_erase h)
  · exact .inl (List.mem_of_mem_erase h)
  · exact .inl h

theorem Step.persists {i : Outside × Act} (h : Step hosts p i a p') : Persists p.sandboxes p'.sandboxes := by
  rw [h.sandboxes]
  rcases Call.dispatch_cases (transaction hosts i.1 i.2) p.sandboxes with ⟨_, hrun⟩ | hsame
  · exact transaction_persists hrun
  · rw [hsame]
    exact .refl _

theorem Step.sound (h : Step hosts p (outside, act) a p') (hsane : Sane p) : Recorded p'.sandboxes ∧ Healthy p'.sandboxes := by
  rw [h.sandboxes]
  rcases Call.dispatch_cases (transaction hosts outside act) p.sandboxes with ⟨_, hrun⟩ | hsame
  · refine ⟨transaction_recorded hrun hsane.recorded, transaction_healthy hrun hsane.recorded hsane.healthy ?_⟩
    rintro host build _ rfl
    exact hsane.builds host build (of_decide_eq_true h.pending)
  · dsimp only
    rw [hsame]
    exact ⟨hsane.recorded, hsane.healthy⟩

theorem Step.sane (h : Step hosts p (outside, act) a p') (hsane : Sane p) : Sane p' := by
  have hpersists := h.persists
  obtain ⟨hrecorded, hhealthy⟩ := h.sound hsane
  refine ⟨hrecorded, hhealthy, fun host build hbuild => ?_, fun host caller himport => ?_⟩
  · rw [h.building] at hbuild
    rcases mem_track_building hbuild with hold | ⟨_, _, _, hacquire, hanswer⟩
    · obtain ⟨row, hrow, hid⟩ := hsane.builds host build hold
      obtain ⟨row', hrow', hlower⟩ := hpersists.claims _ row hrow
      exact ⟨row', hrow', hlower.instanceId.trans hid⟩
    · obtain rfl : act = _ := hacquire
      have hrun := Call.dispatch_answered hanswer
      rw [← h.sandboxes] at hrun
      obtain ⟨_, hrun, hresult⟩ := acquire_of_transaction hrun
      rcases acquire_cases hrun with ⟨_, rfl, _⟩ | ⟨_, _, rfl, _⟩ | ⟨_, _, _, rfl, _, _, _, hreserve⟩
      · cases hresult
      · cases hresult
      · cases hresult
        obtain ⟨_, _, _, _, hreservations, _⟩ := reserve_ok hreserve
        exact ⟨_, by rw [hreservations]; exact AList.lookup_insert _, rfl⟩
  · rw [h.importing] at himport
    rcases mem_track_importing himport with hold | ⟨_, _, hact, hanswer⟩
    · obtain ⟨sandbox, hsandbox, hbuilt⟩ := hsane.imports host caller hold
      obtain ⟨sandbox', hsandbox', hsame⟩ := hpersists.instances _ sandbox hsandbox
      exact ⟨sandbox', hsandbox', hsame.containerId hbuilt⟩
    · obtain rfl : act = _ := hact
      obtain ⟨containerId, _, hchecks, _⟩ := Call.bind_ok.mp (Call.dispatch_answered hanswer)
      obtain ⟨_, sandbox, hsandbox, hbuilt⟩ := workspaceImport_ok hchecks
      obtain ⟨sandbox', hsandbox', hsame⟩ := hpersists.instances _ sandbox hsandbox
      exact ⟨sandbox', hsandbox', hsame.containerId (by rw [hbuilt]; rfl)⟩

theorem Executes.sane (h : Executes hosts log p) : Sane p := by
  apply h.invariant (I := Sane)
  · exact ⟨.empty, .empty, fun _ _ h => (nomatch h), fun _ _ h => (nomatch h)⟩
  · exact fun p i a p' hstep hsane => hstep.sane hsane

theorem Step.importFailed_sandboxes {host : String} {caller : Caller} {fault : Fault}
    (h : Step hosts p (outside, .importFailed host caller fault) a p') : p'.sandboxes = p.sandboxes := by
  rw [h.sandboxes]
  rcases Call.dispatch_cases (transaction hosts outside (.importFailed host caller fault)) p.sandboxes with ⟨_, hrun⟩ | hsame
  · exact importFailed_same hrun
  · exact hsame

theorem ended_stays {id : Uuid} {sandbox : SandboxInstance} (h : Execution (Step hosts) p log p')
    (hsandbox : p.sandboxes.instances.lookup id = some sandbox) (hended : held id p.sandboxes = false) :
    held id p'.sandboxes = false := by
  have hstays : (∃ sandbox, p'.sandboxes.instances.lookup id = some sandbox) ∧ held id p'.sandboxes = false := by
    apply h.invariant (I := fun p => (∃ sandbox, p.sandboxes.instances.lookup id = some sandbox) ∧ held id p.sandboxes = false)
    · exact ⟨⟨sandbox, hsandbox⟩, hended⟩
    · rintro _ _ _ _ hstep ⟨⟨sandbox, hsandbox⟩, hended⟩
      have hpersists := hstep.persists
      obtain ⟨sandbox', hsandbox', _⟩ := hpersists.instances id sandbox hsandbox
      exact ⟨⟨sandbox', hsandbox'⟩, hpersists.ended hsandbox hended⟩
  exact hstays.2

/-- The import of `caller` into its sandbox failed. -/
def Failed (c : Commit Pool (Outside × Act) Heard) (caller : Caller) : Prop :=
  ∃ host fault, c.input.2 = .importFailed host caller fault

/-- No call that runs in the sandbox, or reads or fills its tree, is authorized in any state from `p` on. -/
def NeverAgain (hosts : String → HostSettings) (p : Pool) (id : Uuid) : Prop :=
  ∀ later p', Execution (Step hosts) p later p' → ¬ Authorizes hosts p'.sandboxes id

/-- In any run, the sandboxes whose imports failed never run again if and only if each of them had lost its claim
by the time its stream failed. -/
theorem failed_imports_never_again_iff (h : Executes hosts log p) :
    (∀ c ∈ log, ∀ caller, Failed c caller → NeverAgain hosts c.after caller.sandboxId) ↔
      ∀ c ∈ log, ∀ caller, Failed c caller → held caller.sandboxId c.before.sandboxes = false := by
  have hfailed : ∀ c ∈ log, ∀ caller, Failed c caller →
      Sane c.before ∧ c.after.sandboxes = c.before.sandboxes ∧
      ∃ sandbox, c.before.sandboxes.instances.lookup caller.sandboxId = some sandbox ∧ sandbox.containerId.isSome = true := by
    rintro c hc caller ⟨host, _, hinput⟩
    obtain ⟨_, _, rfl⟩ := List.append_of_mem hc
    obtain ⟨hbefore, hstep, _⟩ := h.split
    obtain ⟨before, ⟨_, _⟩, _, after⟩ := c
    cases hinput
    have hsane := Executes.sane hbefore
    exact ⟨hsane, hstep.importFailed_sandboxes, hsane.imports host caller (of_decide_eq_true hstep.pending)⟩
  constructor
  · intro hnever c hc caller hfail
    obtain ⟨hsane, hsame, sandbox, hsandbox, hbuilt⟩ := hfailed c hc caller hfail
    cases hheld : held caller.sandboxId c.before.sandboxes with
    | false => rfl
    | true =>
      obtain ⟨k, row, hrow, hlive, hid⟩ := held_iff.mp hheld
      rw [← hid] at hsandbox
      obtain ⟨_, hcontainer⟩ := Option.isSome_iff_exists.mp hbuilt
      have hstatus := hsane.healthy k row sandbox hrow hlive hsandbox hbuilt
      have hauthorized := authorizes_of_healthy hosts hrow hlive hsandbox hcontainer hstatus
      rw [hid, ← hsame] at hauthorized
      exact absurd hauthorized (hnever c hc caller hfail [] c.after .nil)
  · intro hended c hc caller hfail _ _ hlater hauthorized
    obtain ⟨_, hsame, _, hsandbox, _⟩ := hfailed c hc caller hfail
    have hstays := ended_stays hlater (by rw [hsame]; exact hsandbox) (by rw [hsame]; exact hended c hc caller hfail)
    rw [hauthorized.held] at hstays
    cases hstays

end Pools

/-- The mark is lost: after its import broke off, Run 1's sandbox may be scanned as if nothing had happened. -/
theorem brokenImport_runs_again :
    ¬ ∀ (hosts : String → HostSettings) (log : History) (p : Pool), Executes hosts log p →
      ∀ c ∈ log, ∀ caller, Failed c caller → NeverAgain hosts c.after caller.sandboxId := by
  intro hclaim
  have hruns := attempt_executes (fun _ => smallHost) brokenImport
  have hended := (failed_imports_never_again_iff hruns).mp (hclaim _ _ _ hruns)
  have hinput : (attempt (fun _ => smallHost) brokenImport).1[4]?.map (·.input.2) =
      some (.importFailed "one" (asking 1) .streamAborted) := rfl
  have hheld : (attempt (fun _ => smallHost) brokenImport).1[4]?.map (fun c => held 101 c.before.sandboxes) = some true := by
    decide +kernel
  obtain ⟨c, hc, hfailed⟩ := Option.map_eq_some_iff.mp hinput
  rw [hc] at hheld
  have hheld : held 101 c.before.sandboxes = true := Option.some.inj hheld
  have hfree : held 101 c.before.sandboxes = false := hended c (List.mem_of_getElem? hc) (asking 1) ⟨_, _, hfailed⟩
  rw [hheld] at hfree
  cases hfree

/-- Where the host was retired while the stream was open, the sandbox is over for good. -/
theorem retiredImport_never_again :
    ((attempt (fun _ => smallHost) retiredImport).1.any fun c =>
      match c.input.2 with
      | .importFailed .. => true
      | _ => false) = true ∧
    ∀ c ∈ (attempt (fun _ => smallHost) retiredImport).1, ∀ caller, Failed c caller →
      NeverAgain (fun _ => smallHost) c.after caller.sandboxId := by
  refine ⟨by decide +kernel, ?_⟩
  apply (failed_imports_never_again_iff (attempt_executes (fun _ => smallHost) retiredImport)).mpr
  rintro c hc caller ⟨_, _, hinput⟩
  have hall : ((attempt (fun _ => smallHost) retiredImport).1.all fun c =>
      match c.input.2 with
      | .importFailed _ caller _ => !held caller.sandboxId c.before.sandboxes
      | _ => true) = true := by
    decide +kernel
  have hthis := List.all_eq_true.mp hall c hc
  rw [hinput] at hthis
  simpa using hthis

end TinyHermes.Sandbox
