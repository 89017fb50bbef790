import TinyHermes.Sandbox.Frames

/-! The memory of a host's live sandboxes stays within its budget. -/
namespace TinyHermes.Sandbox
open Lib Sandboxes SqlSandboxStore SandboxController SandboxReservation
open Runs (Uuid Time)

variable {s s' : Sandboxes} {host : String} {id k : Uuid}

def held (id : Uuid) (s : Sandboxes) : Bool :=
  !(s.reservations.select fun _ row => row.status.live && row.instanceId = id).isEmpty

def heldMemoryMb (host : String) (s : Sandboxes) : Nat :=
  s.instances.total fun id sandbox => if sandbox.controller = host && held id s then sandbox.memoryMb else 0

theorem held_iff : held id s = true ↔ ∃ k row, s.reservations.lookup k = some row ∧ row.status.live = true ∧ row.instanceId = id := by
  unfold held
  constructor
  · intro h
    cases hlist : s.reservations.select (fun _ row => row.status.live && row.instanceId = id) with
    | nil => simp [hlist] at h
    | cons e =>
      obtain ⟨hrow, hp⟩ := Table.mem_select.mp (hlist ▸ List.mem_cons_self : (e.1, e.2) ∈ _)
      simp only [Bool.and_eq_true, decide_eq_true_eq] at hp
      exact ⟨e.1, e.2, hrow, hp.1, hp.2⟩
  · rintro ⟨k, row, hrow, hlive, hid⟩
    have hmem : (k, row) ∈ s.reservations.select (fun _ row => row.status.live && row.instanceId = id) :=
      Table.mem_select.mpr ⟨hrow, by simp [hlive, hid]⟩
    cases hlist : s.reservations.select (fun _ row => row.status.live && row.instanceId = id) with
    | nil =>
      rw [hlist] at hmem
      cases hmem
    | cons => rfl

variable {sandbox : SandboxInstance}

theorem limitOn_of_lookup (h : s.instances.lookup id = some sandbox) :
    limitOn host id s = if sandbox.controller = host then sandbox.memoryMb else 0 := by
  rw [limitOn, h]

theorem heldMemoryMb_le (host : String) (s : Sandboxes) : heldMemoryMb host s ≤ committedMemoryMb host s := by
  apply Table.total_le_of_named fun _ row => row.instanceId
  intro id sandbox hsandbox hweigh
  by_cases hcounts : (sandbox.controller = host && held id s) = true
  · rw [if_pos hcounts]
    simp only [Bool.and_eq_true, decide_eq_true_eq] at hcounts
    obtain ⟨k, row, hrow, hlive, rfl⟩ := held_iff.mp hcounts.2
    refine ⟨k, row, hrow, rfl, ?_⟩
    rw [if_pos hlive, limitOn_of_lookup hsandbox, if_pos hcounts.1]
  · exact absurd (if_neg hcounts) hweigh

theorem Lowers.limitOn (h : Lowers s s') (host : String) (id : Uuid) : Sandboxes.limitOn host id s' = Sandboxes.limitOn host id s := by
  have hrel := h.instances id
  unfold Sandboxes.limitOn
  cases hs : s.instances.lookup id with
  | none =>
    rw [hs] at hrel
    cases hs' : s'.instances.lookup id with
    | none => rfl
    | some => rw [hs'] at hrel; cases hrel
  | some =>
    rw [hs] at hrel
    obtain ⟨_, hs', hsame⟩ := rel_some hrel
    simp only [hs', hsame.controller, hsame.memoryMb]

theorem Lowers.committed (h : Lowers s s') (host : String) : committedMemoryMb host s' ≤ committedMemoryMb host s := by
  apply Table.total_le_of_named fun k _ => k
  intro k row' hrow' hweigh
  obtain ⟨row, hrow, hlower⟩ := some_rel (hrow' ▸ h.reservations k)
  refine ⟨k, row, hrow, rfl, ?_⟩
  by_cases hlive : row'.status.live = true
  · rw [if_pos hlive, if_pos (hlower.live hlive), h.limitOn, hlower.instanceId]
  · exact absurd (if_neg hlive) hweigh

section Evictions
variable {self : SandboxController} {outside : Outside}

theorem evict_ok {c : Candidate} {u : Unit} (h : evict self outside c.1 c.2 s = .ok (u, s')) :
    s'.reservations = s.reservations.modify c.1.1 SandboxReservation.release := by
  obtain ⟨_, _, hdown, h⟩ := Tx.bind_ok.mp h
  obtain ⟨_, _, hrelease, h⟩ := Tx.bind_ok.mp h
  obtain ⟨_, _, hrelease⟩ := Tx.fetch_bind_ok.mp hrelease
  have hsame := (takeDown_only self outside _ _ hdown).reservations
  rw [Tx.write_ok.mp h, Tx.write_ok.mp hrelease, ← hsame]
  rfl

theorem evict_frees {c : Candidate} {u : Unit} {row : SandboxReservation} (h : evict self outside c.1 c.2 s = .ok (u, s'))
    (hrow : s.reservations.lookup c.1.1 = some row) (hlive : row.status.live = true) (host : String) :
    committedMemoryMb host s' + limitOn host row.instanceId s = committedMemoryMb host s := by
  have hlimit := (evict_lowers self outside _ _ h).limitOn host
  have hsplit := Table.total_modify (fun _ row => if row.status.live then limitOn host row.instanceId s else 0)
    SandboxReservation.release hrow
  unfold committedMemoryMb
  rw [evict_ok h]
  simp only [hlimit]
  rw [if_pos hlive] at hsplit
  exact hsplit

theorem evictAll_frees (host : String) {cs : List Candidate} {u : Unit}
    (h : Tx.forEach cs (fun c => evict self outside c.1 c.2) s = .ok (u, s')) (hnodup : (cs.map (·.1.1)).Nodup)
    (hlive : ∀ c ∈ cs, s.reservations.lookup c.1.1 = some c.1.2 ∧ c.1.2.status.live = true)
    (hlimit : ∀ c ∈ cs, limitOn host c.1.2.instanceId s = c.2.memoryMb) :
    committedMemoryMb host s' + (cs.map (·.2.memoryMb)).sum = committedMemoryMb host s := by
  induction cs generalizing s with
  | nil =>
    obtain ⟨_, rfl⟩ := Tx.pure_ok.mp h
    rfl
  | cons c rest ih =>
    obtain ⟨_, s₁, hfirst, hrest⟩ := Tx.bind_ok.mp h
    obtain ⟨hfresh, hnodup⟩ := List.nodup_cons.mp hnodup
    obtain ⟨hrow, hrowlive⟩ := hlive c List.mem_cons_self
    have hfreed := evict_frees hfirst hrow hrowlive host
    have hothers : ∀ d ∈ rest, s₁.reservations.lookup d.1.1 = some d.1.2 ∧ d.1.2.status.live = true := by
      intro d hd
      have hne : d.1.1 ≠ c.1.1 := fun heq => hfresh (List.mem_map.mpr ⟨d, hd, heq⟩)
      rw [evict_ok hfirst, Table.lookup_modify_of_ne hne]
      exact hlive d (List.mem_cons_of_mem c hd)
    have hlimits : ∀ d ∈ rest, limitOn host d.1.2.instanceId s₁ = d.2.memoryMb := by
      intro d hd
      rw [(evict_lowers self outside _ _ hfirst).limitOn]
      exact hlimit d (List.mem_cons_of_mem c hd)
    have hremaining := ih hrest hnodup hothers hlimits
    rw [hlimit c List.mem_cons_self] at hfreed
    rw [List.map_cons, List.sum_cons]
    omega

theorem choose_spec (outside : Outside) (s : Sandboxes) (shortfall : Nat) (claims : List (Uuid × SandboxReservation))
    (chosen : List Candidate) (freed : Nat) :
    ∃ added : List Candidate,
      choose outside s shortfall claims chosen freed = (chosen ++ added, freed + (added.map (·.2.memoryMb)).sum) ∧
      (added.map (·.1)).Sublist claims ∧
      ∀ c ∈ added, outside.anyLive c.1.2.runId = false ∧ readInstance c.1.2.instanceId s = some c.2 := by
  induction claims generalizing chosen freed with
  | nil => exact ⟨[], by simp [choose], .slnil, fun c hc => (nomatch hc)⟩
  | cons claim rest ih =>
    unfold choose
    split
    · exact ⟨[], by simp, List.nil_sublist _, fun c hc => (nomatch hc)⟩
    split
    · obtain ⟨added, heq, hsub, hall⟩ := ih chosen freed
      exact ⟨added, heq, hsub.cons claim, hall⟩
    · next hnolease =>
      cases hread : readInstance claim.2.instanceId s with
      | none =>
        obtain ⟨added, heq, hsub, hall⟩ := ih chosen freed
        exact ⟨added, heq, hsub.cons claim, hall⟩
      | some sandbox =>
        obtain ⟨added, heq, hsub, hall⟩ := ih (chosen ++ [(claim, sandbox)]) (freed + sandbox.memoryMb)
        refine ⟨(claim, sandbox) :: added, ?_, hsub.cons_cons claim, ?_⟩
        · simp [heq, Nat.add_assoc]
        · intro c hc
          rcases List.mem_cons.mp hc with rfl | hc
          · exact ⟨by simpa using hnolease, hread⟩
          · exact hall c hc

theorem evictable_live {row : SandboxReservation} (h : evictable host s row = true) : row.status.live = true := by
  simp only [evictable, Bool.and_eq_true, decide_eq_true_eq] at h
  rw [h.1]
  rfl

theorem evictable_limit {row : SandboxReservation} (h : evictable host s row = true)
    (hread : readInstance row.instanceId s = some sandbox) : limitOn host row.instanceId s = sandbox.memoryMb := by
  simp only [evictable, Bool.and_eq_true, show s.instances.lookup row.instanceId = some sandbox from hread,
    Option.any_some, decide_eq_true_eq] at h
  rw [limitOn_of_lookup hread, if_pos h.2.2]

/-- Kept claims on frozen instances of this host, of Runs without a live lease, and nothing but them taken down. -/
def Evicts (self : SandboxController) (outside : Outside) (s s' : Sandboxes) : Prop :=
  ∃ chosen : List Candidate,
    (∀ c ∈ chosen, s.reservations.lookup c.1.1 = some c.1.2 ∧ evictable self.name s c.1.2 = true ∧
      outside.anyLive c.1.2.runId = false) ∧
    Tx.forEach chosen (fun c => evict self outside c.1 c.2) s = .ok ((), s')

theorem Evicts.none (self : SandboxController) (outside : Outside) (s : Sandboxes) : Evicts self outside s s :=
  ⟨[], fun _ h => (nomatch h), rfl⟩

theorem Evicts.lowers (h : Evicts self outside s s') : Lowers s s' := by
  obtain ⟨_, _, hevict⟩ := h
  exact Tx.Within.forEach _ (fun c _ => evict_lowers self outside c.1 c.2) hevict

theorem admitMemory_cases {neededMb : Nat} {result : Except RefusalReason Unit}
    (h : admitMemory self outside neededMb s = .ok (result, s')) :
    (∃ reason, result = .error reason ∧ s' = s) ∨
      (result = .ok () ∧ Evicts self outside s s' ∧ ∀ budget, self.memoryBudgetMb = some budget → committedMemoryMb self.name s' + neededMb ≤ budget) := by
  unfold admitMemory at h
  cases hbudget : self.memoryBudgetMb with
  | none =>
    rw [hbudget] at h
    cases h
    exact .inr ⟨rfl, .none self outside s, fun _ h => nomatch h⟩
  | some budget =>
    simp only [hbudget] at h
    rw [Call.demand_bind] at h
    split at h
    · next hfits =>
      rw [Call.read_bind] at h
      by_cases hroom : committedMemoryMb self.name s + neededMb - budget = 0
      · rw [if_pos hroom] at h
        cases h
        refine .inr ⟨rfl, .none self outside s, fun b hb => ?_⟩
        cases hb
        omega
      · rw [if_neg hroom] at h
        obtain ⟨chosen, hchoose, hsub, hchosen⟩ := choose_spec outside s
          (committedMemoryMb self.name s + neededMb - budget) (evictableKeeps self.name outside.locked s) [] 0
        simp only [hchoose, List.nil_append, Nat.zero_add] at h
        rw [Call.demand_bind] at h
        split at h
        · next henough =>
          obtain ⟨_, hevict, hresult⟩ := Call.tx_run h
          have hkeeps : ∀ c ∈ chosen, s.reservations.lookup c.1.1 = some c.1.2 ∧ evictable self.name s c.1.2 = true :=
            fun c hc => mem_evictableKeeps (hsub.subset (List.mem_map_of_mem hc))
          have hnodup : (chosen.map (·.1.1)).Nodup := by
            have := (hsub.map (·.1)).nodup (nodup_evictableKeeps self.name outside.locked s)
            rwa [List.map_map] at this
          have hfreed := evictAll_frees self.name hevict hnodup
            (fun c hc => ⟨(hkeeps c hc).1, evictable_live (hkeeps c hc).2⟩)
            (fun c hc => evictable_limit (hkeeps c hc).2 (hchosen c hc).2)
          refine .inr ⟨hresult, ⟨chosen, fun c hc => ⟨(hkeeps c hc).1, (hkeeps c hc).2, (hchosen c hc).1⟩, hevict⟩, fun b hb => ?_⟩
          cases hb
          rw [hchoose] at henough
          simp only [Nat.zero_add] at henough
          omega
        · cases h
          exact .inl ⟨_, rfl, rfl⟩
    · cases h
      exact .inl ⟨_, rfl, rfl⟩

end Evictions

section Acquires
variable {self : SandboxController} {outside : Outside} {cmd : AcquireCommand} {instanceId reservationId : Uuid}

theorem container_same {result : Except RefusalReason String}
    (h : container sandbox s = .ok (result, s')) : s' = s :=
  container_within (R := Tx.Same fun s : Sandboxes => s) sandbox h

theorem chosenProfile_same {result : Except RefusalReason ResourceProfile}
    (h : chosenProfile self cmd s = .ok (result, s')) : s' = s := by
  have hwithin : Call.Within (Tx.Same fun s : Sandboxes => s) (chosenProfile self cmd) := by
    refine .bind (.demand _ _) fun _ => ?_
    cases cmd.memoryMb with
    | none => exact .pure _
    | some => exact .bind (.demand _ _) fun _ => .pure _
  exact hwithin h

theorem register_cases {result : Except RefusalReason Acquired}
    (h : register self outside cmd instanceId reservationId s = .ok (result, s')) :
    (∃ reason, result = .error reason ∧ s' = s) ∨
      ∃ memoryMb s₁, result = .ok (.registered { reservationId, instanceId, runId := cmd.runId }) ∧
        Evicts self outside s s₁ ∧
        (∀ budget, self.memoryBudgetMb = some budget → committedMemoryMb self.name s₁ + memoryMb ≤ budget) ∧
        reserve reservationId cmd.runId instanceId { status := .creating, memoryMb, controller := self.name } s₁ =
          .ok ((), s') := by
  unfold register at h
  rcases Call.bind_cases h with ⟨reason, hchosen, rfl⟩ | ⟨_, _, hchosen, hrest⟩
  · exact .inl ⟨reason, rfl, chosenProfile_same hchosen⟩
  obtain rfl := chosenProfile_same hchosen
  rw [Call.demand_bind] at hrest
  split at hrest
  case isFalse =>
    cases hrest
    exact .inl ⟨_, rfl, rfl⟩
  rw [Call.demand_bind] at hrest
  split at hrest
  case isFalse =>
    cases hrest
    exact .inl ⟨_, rfl, rfl⟩
  rcases Call.bind_cases hrest with ⟨reason, hadmit, rfl⟩ | ⟨_, s₁, hadmit, hreserve⟩
  · rcases admitMemory_cases hadmit with ⟨_, _, rfl⟩ | ⟨hok, _⟩
    · exact .inl ⟨reason, rfl, rfl⟩
    · cases hok
  · rcases admitMemory_cases hadmit with ⟨_, herror, _⟩ | ⟨_, hevicts, hroom⟩
    · cases herror
    · obtain ⟨_, _, hreserve, hpure⟩ := Call.tx_bind_run hreserve
      cases hpure
      exact .inr ⟨_, s₁, rfl, hevicts, hroom, hreserve⟩

theorem thawIfWarm_cases {existing : SandboxReservation} {result : Except RefusalReason (Option Uuid)}
    (h : thawIfWarm outside existing s = .ok (result, s')) :
    (∃ reason, result = .error reason ∧ s' = s) ∨ (result = .ok none ∧ existing.status = .kept ∧ s' = s) ∨
      ∃ sandboxId, result = .ok (some sandboxId) ∧ setInstanceStatus existing.instanceId .running s = .ok ((), s') := by
  unfold thawIfWarm at h
  rw [Call.demand_bind] at h
  split at h
  case isFalse =>
    cases h
    exact .inl ⟨_, rfl, rfl⟩
  next hkept =>
  split at h
  · cases h
    exact .inr (.inl ⟨rfl, hkept, rfl⟩)
  rw [Call.read_bind] at h
  cases hread : readInstance existing.instanceId s with
  | none =>
    rw [hread] at h
    cases h
    exact .inr (.inl ⟨rfl, hkept, rfl⟩)
  | some =>
    simp only [hread] at h
    rcases Call.bind_cases h with ⟨reason, hcontainer, rfl⟩ | ⟨_, _, hcontainer, hrest⟩
    · exact .inl ⟨reason, rfl, container_same hcontainer⟩
    obtain rfl := container_same hcontainer
    obtain ⟨found, _, hask, hrest⟩ := Call.tx_bind_run hrest
    obtain rfl := (Tx.lift_ok.mp hask).2
    cases found with
    | false =>
      cases hrest
      exact .inr (.inl ⟨rfl, hkept, rfl⟩)
    | true =>
      obtain ⟨_, _, hset, hrest⟩ := Call.tx_bind_run hrest
      obtain ⟨_, _, haddress, hrest⟩ := Call.tx_bind_run hrest
      cases hrest
      obtain ⟨_, _, hask, hpure⟩ := Tx.bind_ok.mp haddress
      obtain ⟨_, rfl⟩ := Tx.lift_ok.mp hask
      cases hpure
      exact .inr (.inr ⟨_, rfl, hset⟩)

/-- The Run's own kept claim, past its deadline or without its container, taken down. -/
def Discarded (self : SandboxController) (outside : Outside) (runId : Uuid) (s s' : Sandboxes) : Prop :=
  ∃ existing, liveForRun runId s = some existing ∧ existing.2.status = .kept ∧
    discard self outside existing s = .ok ((), s')

theorem Discarded.lowers {runId : Uuid} (h : Discarded self outside runId s s') : Lowers s s' := by
  obtain ⟨existing, _, _, hdiscard⟩ := h
  exact discard_lowers self outside existing hdiscard

theorem registering_lowers {runId : Uuid} {s₀ : Sandboxes} (hcold : s₀ = s ∨ Discarded self outside runId s s₀)
    (hevicts : Evicts self outside s₀ s') : Lowers s s' := by
  rcases hcold with rfl | hdiscarded
  · exact hevicts.lowers
  · exact Trans.trans hdiscarded.lowers hevicts.lowers

/-- What `acquire` may commit: a refusal that left everything but the Run's own cold claim alone, a warm claim, or a
registration that fits the budget. -/
theorem acquire_cases {result : Except RefusalReason Acquired}
    (h : acquire self outside cmd instanceId reservationId s = .ok (result, s')) :
    (∃ reason, result = .error reason ∧ (s' = s ∨ Discarded self outside cmd.runId s s')) ∨
    (∃ sandboxId instanceId, result = .ok (.reused sandboxId) ∧ setInstanceStatus instanceId .running s = .ok ((), s')) ∨
    ∃ memoryMb s₀ s₁, result = .ok (.registered { reservationId, instanceId, runId := cmd.runId }) ∧
      (s₀ = s ∨ Discarded self outside cmd.runId s s₀) ∧ Evicts self outside s₀ s₁ ∧
      (∀ budget, self.memoryBudgetMb = some budget → committedMemoryMb self.name s₁ + memoryMb ≤ budget) ∧
      reserve reservationId cmd.runId instanceId { status := .creating, memoryMb, controller := self.name } s₁ =
        .ok ((), s') := by
  unfold acquire at h
  rw [requireLease, Call.demand_bind] at h
  split at h
  case isFalse =>
    cases h
    exact .inl ⟨_, rfl, .inl rfl⟩
  rw [Call.read_bind] at h
  cases hlive : liveForRun cmd.runId s with
  | none =>
    rw [hlive] at h
    rcases register_cases h with ⟨reason, rfl, rfl⟩ | ⟨memoryMb, s₁, hresult, hrest⟩
    · exact .inl ⟨reason, rfl, .inl rfl⟩
    · exact .inr (.inr ⟨memoryMb, s, s₁, hresult, .inl rfl, hrest⟩)
  | some existing =>
    simp only [hlive] at h
    rw [refuseElsewhere, Call.demand_bind] at h
    split at h
    case isFalse =>
      cases h
      exact .inl ⟨_, rfl, .inl rfl⟩
    rcases Call.bind_cases h with ⟨reason, hthaw, rfl⟩ | ⟨_, s₁, hthaw, hrest⟩
    · rcases thawIfWarm_cases hthaw with ⟨_, _, rfl⟩ | ⟨hok, _⟩ | ⟨_, hok, _⟩
      · exact .inl ⟨reason, rfl, .inl rfl⟩
      · cases hok
      · cases hok
    rcases thawIfWarm_cases hthaw with ⟨_, herror, _⟩ | ⟨hcold, hkept, rfl⟩ | ⟨sandboxId, hwarm, hset⟩
    · cases herror
    · cases hcold
      obtain ⟨_, s₂, hdiscard, hrest⟩ := Call.tx_bind_run hrest
      have hdiscarded : Discarded self outside cmd.runId s₁ s₂ := ⟨existing, hlive, hkept, hdiscard⟩
      rcases register_cases hrest with ⟨reason, rfl, rfl⟩ | ⟨memoryMb, s₃, hresult, hrest⟩
      · exact .inl ⟨reason, rfl, .inr hdiscarded⟩
      · exact .inr (.inr ⟨memoryMb, s₂, s₃, hresult, .inr hdiscarded, hrest⟩)
    · cases hwarm
      cases hrest
      exact .inr (.inl ⟨sandboxId, _, rfl, hset⟩)

end Acquires

theorem committedMemoryMb_reserve {reservationId runId instanceId : Uuid} {u : Unit}
    (h : reserve reservationId runId instanceId sandbox s = .ok (u, s')) (hrecorded : Recorded s) (host : String) :
    committedMemoryMb host s' = (if sandbox.controller = host then sandbox.memoryMb else 0) + committedMemoryMb host s := by
  obtain ⟨hinstance, hreservation, _, hinstances, hreservations, _⟩ := reserve_ok h
  have hold : ∀ k row, s.reservations.lookup k = some row → limitOn host row.instanceId s' = limitOn host row.instanceId s := by
    intro k row hrow
    obtain ⟨_, hfound⟩ := hrecorded.present k row hrow
    have hne : row.instanceId ≠ instanceId := by
      intro heq
      rw [heq, hinstance] at hfound
      cases hfound
    rw [limitOn, limitOn, hinstances, AList.lookup_insert_ne hne]
  have hnew : limitOn host instanceId s' = if sandbox.controller = host then sandbox.memoryMb else 0 :=
    limitOn_of_lookup (by rw [hinstances, AList.lookup_insert])
  unfold committedMemoryMb
  rw [hreservations, Table.total_insert _ hreservation]
  congr 1
  apply Table.total_congr
  intro k row hrow
  rw [hold k row hrow]

def WithinBudgets (hosts : String → HostSettings) (s : Sandboxes) : Prop :=
  ∀ host budget, (hosts host).memoryBudgetMb = some budget → committedMemoryMb host s ≤ budget

theorem WithinBudgets.lowers {hosts : String → HostSettings} (h : WithinBudgets hosts s) (hlowers : Lowers s s') :
    WithinBudgets hosts s' :=
  fun host budget hbudget => (hlowers.committed host).trans (h host budget hbudget)

section Transactions
variable {hosts : String → HostSettings} {outside : Outside} {act : Act} {result : Except RefusalReason Answer}

theorem acquire_of_transaction {host : String} {cmd : AcquireCommand} {i r : Uuid}
    (h : transaction hosts outside (.acquire host cmd i r) s = .ok (result, s')) :
    ∃ acquired, acquire (controllerOn hosts host) outside cmd i r s = .ok (acquired, s') ∧
      result = acquired.map Answer.acquired := by
  rcases Call.bind_cases h with ⟨_, hrun, rfl⟩ | ⟨_, _, hrun, hpure⟩
  · exact ⟨_, hrun, rfl⟩
  · cases hpure
    exact ⟨_, hrun, rfl⟩

theorem transaction_recorded (h : transaction hosts outside act s = .ok (result, s'))
    (hrecorded : Recorded s) : Recorded s' := by
  by_cases hacquire : ∃ host cmd i r, act = .acquire host cmd i r
  · obtain ⟨host, cmd, i, r, rfl⟩ := hacquire
    obtain ⟨_, hrun, _⟩ := acquire_of_transaction h
    rcases acquire_cases hrun with ⟨_, _, rfl | hdiscarded⟩ | ⟨_, _, _, hset⟩ |
      ⟨memoryMb, s₀, s₁, _, hcold, hevicts, _, hreserve⟩
    · exact hrecorded
    · exact hrecorded.lowers hdiscarded.lowers
    · exact hrecorded.lowers (setInstanceStatus_lowers _ _ hset)
    · exact (hrecorded.lowers (registering_lowers hcold hevicts)).reserve hreserve
  · exact hrecorded.lowers
      (transaction_lowers hosts outside act (fun host cmd i r heq => hacquire ⟨host, cmd, i, r, heq⟩) h)

theorem transaction_within (h : transaction hosts outside act s = .ok (result, s'))
    (hrecorded : Recorded s) (hwithin : WithinBudgets hosts s) : WithinBudgets hosts s' := by
  by_cases hacquire : ∃ host cmd i r, act = .acquire host cmd i r
  · obtain ⟨host, cmd, i, r, rfl⟩ := hacquire
    obtain ⟨_, hrun, _⟩ := acquire_of_transaction h
    rcases acquire_cases hrun with ⟨_, _, rfl | hdiscarded⟩ | ⟨_, _, _, hset⟩ |
      ⟨memoryMb, s₀, s₁, _, hcold, hevicts, hroom, hreserve⟩
    · exact hwithin
    · exact hwithin.lowers hdiscarded.lowers
    · exact hwithin.lowers (setInstanceStatus_lowers _ _ hset)
    · have hlowers := registering_lowers hcold hevicts
      intro other budget hbudget
      rw [committedMemoryMb_reserve hreserve (hrecorded.lowers hlowers)]
      by_cases hhost : host = other
      · subst hhost
        have hfits := hroom budget hbudget
        change (if host = host then memoryMb else 0) + committedMemoryMb host s₁ ≤ budget
        rw [if_pos rfl, Nat.add_comm]
        exact hfits
      · change (if host = other then memoryMb else 0) + committedMemoryMb other s₁ ≤ budget
        rw [if_neg hhost, Nat.zero_add]
        exact hwithin.lowers hlowers other budget hbudget
  · exact hwithin.lowers
      (transaction_lowers hosts outside act (fun host cmd i r heq => hacquire ⟨host, cmd, i, r, heq⟩) h)

end Transactions

/-- What a refused acquire of `runId` may have touched: the Run's own kept claim, and the sandbox under it. -/
structure EvictedNothing (runId : Uuid) (s s' : Sandboxes) : Prop where
  claims : ∀ k row, s.reservations.lookup k = some row →
    s'.reservations.lookup k = some row ∨ (row.Takes runId ∧ row.status = .kept ∧ s'.reservations.lookup k = some row.release)
  instances : ∀ k row, s.reservations.lookup k = some row → row.runId ≠ runId →
    s'.instances.lookup row.instanceId = s.instances.lookup row.instanceId
  unrecorded : s'.audit = s.audit

theorem EvictedNothing.refl (runId : Uuid) (s : Sandboxes) : EvictedNothing runId s s :=
  ⟨fun _ _ h => .inl h, fun _ _ _ _ => rfl, rfl⟩

theorem Discarded.evictedNothing {self : SandboxController} {outside : Outside} {runId : Uuid}
    (h : Discarded self outside runId s s') (hrecorded : Recorded s) : EvictedNothing runId s s' := by
  obtain ⟨⟨k, row⟩, hlive, hkept, hdiscard⟩ := h
  obtain ⟨hrow, htakes⟩ := liveForRun_some.mp hlive
  obtain ⟨_, s₁, hdown, hrelease⟩ := Tx.bind_ok.mp hdiscard
  obtain ⟨_, _, hrelease⟩ := Tx.fetch_bind_ok.mp hrelease
  obtain rfl := Tx.write_ok.mp hrelease
  have honly := takeDownIfThere_only self outside _ hdown
  refine ⟨fun k' row' hrow' => ?_, fun k' row' hrow' hother => ?_, honly.audit⟩
  · change (s₁.reservations.modify k SandboxReservation.release).lookup k' = _ ∨ _
    rw [honly.reservations]
    by_cases hk : k' = k
    · subst hk
      rw [hrow] at hrow'
      cases hrow'
      refine .inr ⟨htakes, hkept, ?_⟩
      change (s₁.reservations.modify k' SandboxReservation.release).lookup k' = _
      rw [honly.reservations, Table.lookup_modify_self, hrow]
      rfl
    · exact .inl (by rw [Table.lookup_modify_of_ne hk, hrow'])
  · refine honly.others row'.instanceId fun hsame => hother ?_
    obtain rfl := hrecorded.single k' k row' row hrow' hrow hsame
    rw [hrow] at hrow'
    cases hrow'
    exact htakes.2

variable {hosts : String → HostSettings} {p p' : Pool} {log : History}

theorem Executes.recorded (h : Executes hosts log p) : Recorded p.sandboxes ∧ WithinBudgets hosts p.sandboxes := by
  apply h.invariant (I := fun p => Recorded p.sandboxes ∧ WithinBudgets hosts p.sandboxes)
  · exact ⟨.empty, fun _ _ _ => Nat.zero_le _⟩
  · rintro p ⟨outside, act⟩ _ _ hstep ⟨hrecorded, hwithin⟩
    rw [hstep.sandboxes]
    unfold Call.dispatch
    dsimp only
    rcases hrun : transaction hosts outside act p.sandboxes with _ | ⟨_ | _, _⟩
    · exact ⟨hrecorded, hwithin⟩
    · exact ⟨transaction_recorded hrun hrecorded, transaction_within hrun hrecorded hwithin⟩
    · exact ⟨transaction_recorded hrun hrecorded, transaction_within hrun hrecorded hwithin⟩

theorem refused_evictedNothing {host : String} {cmd : AcquireCommand} {instanceId reservationId : Uuid} {outside : Outside}
    {reason : RefusalReason} (h : Step hosts p (outside, .acquire host cmd instanceId reservationId) (.refused reason) p')
    (hrecorded : Recorded p.sandboxes) : EvictedNothing cmd.runId p.sandboxes p'.sandboxes := by
  rw [h.sandboxes]
  have hanswer := h.answer
  unfold Call.dispatch at hanswer ⊢
  dsimp only [Act.heard] at hanswer ⊢
  rcases hrun : transaction hosts outside (.acquire host cmd instanceId reservationId) p.sandboxes with _ | ⟨_ | _, _⟩
  · exact .refl _ _
  · rcases Call.bind_cases hrun with ⟨_, hrun, _⟩ | ⟨_, _, _, hpure⟩
    · rcases acquire_cases hrun with ⟨_, _, rfl | hdiscarded⟩ | ⟨_, _, hok, _⟩ | ⟨_, _, _, hok, _⟩
      · exact .refl _ _
      · exact hdiscarded.evictedNothing hrecorded
      · cases hok
      · cases hok
    · cases hpure
  · rw [hrun] at hanswer
    cases hanswer

/-- In every run of a pool of hosts, whatever the callers, the daemon and the leases do, the memory of a host's live
sandboxes is within its budget, and an acquire that was refused for lack of room has evicted nothing. -/
theorem memory_within_budget (h : Executes hosts log p) {host : String} {budget : Nat}
    (hbudget : (hosts host).memoryBudgetMb = some budget) :
    heldMemoryMb host p.sandboxes ≤ budget ∧
      ∀ c ∈ log, ∀ cmd instanceId reservationId, c.input.2 = .acquire host cmd instanceId reservationId →
        (c.answer = .refused .memoryBudgetExhausted ∨ c.answer = .refused .memoryOutOfRange) →
        EvictedNothing cmd.runId c.before.sandboxes c.after.sandboxes := by
  refine ⟨(heldMemoryMb_le host p.sandboxes).trans (h.recorded.2 host budget hbudget), ?_⟩
  intro c hc _ _ _ hacquire hrefused
  obtain ⟨_, _, rfl⟩ := List.append_of_mem hc
  obtain ⟨hbefore, hstep, _⟩ := h.split
  obtain ⟨_, ⟨_, _⟩, _, _⟩ := c
  cases hacquire
  rcases hrefused with hrefused | hrefused
  · cases hrefused
    exact refused_evictedNothing hstep (Executes.recorded hbefore).1
  · cases hrefused
    exact refused_evictedNothing hstep (Executes.recorded hbefore).1

theorem crowded_within_budget :
    ((attempt (fun _ => smallHost) crowded).1.map (·.answer))[5]? = some (.refused .memoryBudgetExhausted) ∧
      heldMemoryMb "one" (attempt (fun _ => smallHost) crowded).2.sandboxes = 512 ∧
      (heldMemoryMb "one" (attempt (fun _ => smallHost) crowded).2.sandboxes ≤ 512 ∧
        ∀ c ∈ (attempt (fun _ => smallHost) crowded).1, ∀ cmd instanceId reservationId,
          c.input.2 = .acquire "one" cmd instanceId reservationId →
          (c.answer = .refused .memoryBudgetExhausted ∨ c.answer = .refused .memoryOutOfRange) →
          EvictedNothing cmd.runId c.before.sandboxes c.after.sandboxes) :=
  ⟨by decide +kernel, by decide +kernel, memory_within_budget (attempt_executes _ crowded) rfl⟩

end TinyHermes.Sandbox
