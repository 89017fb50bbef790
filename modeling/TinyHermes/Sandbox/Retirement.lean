import TinyHermes.Sandbox.HostSteps

/-! A claim that was released, and a host that was retired: what brings neither back. -/
namespace TinyHermes.Sandbox.HostSteps
open Lib Sandboxes SandboxReservation SqlSandboxStore
open Runs (Uuid Time)

/-! Statements and the rows. -/

/-- The claim `k` holds its Run's slot. -/
def Live (s : Sandboxes) (k : Uuid) : Prop := ∃ row, s.reservations.lookup k = some row ∧ row.status.live = true

/-- The claim `k` is recorded on the host. -/
def On (host : String) (s : Sandboxes) (k : Uuid) : Prop :=
  ∃ row sandbox, s.reservations.lookup k = some row ∧ s.instances.lookup row.instanceId = some sandbox ∧
    sandbox.controller = host

theorem mem_liveOn {host : String} {s : Sandboxes} {k : Uuid} :
    (∃ row, (k, row) ∈ liveOn host s) ↔ Live s k ∧ On host s k := by
  constructor
  · rintro ⟨row, hrow⟩
    obtain ⟨hrow, hp⟩ := Table.mem_select.mp hrow
    obtain ⟨hlive, hon⟩ := Bool.and_eq_true_iff.mp hp
    cases hsandbox : s.instances.lookup row.instanceId with
    | none =>
      rw [hsandbox] at hon
      cases hon
    | some sandbox =>
      rw [hsandbox] at hon
      exact ⟨⟨row, hrow, hlive⟩, row, sandbox, hrow, hsandbox, of_decide_eq_true hon⟩
  · rintro ⟨⟨row, hrow, hlive⟩, _, _, hrow', hsandbox, hhost⟩
    cases hrow.symm.trans hrow'
    refine ⟨row, Table.mem_select.mpr ⟨hrow, ?_⟩⟩
    rw [hlive, hsandbox, Option.any_some, Bool.true_and]
    exact decide_eq_true hhost

def Write.registers : Write → Bool
  | .reserve _ _ _ _ => true
  | _ => false

def Write.frees : Write → Bool
  | .claim _ _ .release | .sandbox _ _ _ => true
  | _ => false

theorem column_cases {α : Type} [DecidableEq α] (loaded new current : α) :
    column loaded new current = new ∨ (new = loaded ∧ column loaded new current = current) := by
  unfold column
  split
  · next h => exact .inr ⟨h, rfl⟩
  · exact .inl rfl

variable {loaded : SandboxReservation}

theorem Edit.written_claim {row row' : SandboxReservation} {e : Edit} (h : e.written loaded row = some row') :
    row'.instanceId = row.instanceId ∧ row'.status = column loaded.status e.status row.status := by
  unfold Edit.written at h
  simp only at h
  split at h
  · cases h
    exact ⟨rfl, rfl⟩
  · cases h

variable {st : Write}

section Statements
variable {s s' : Sandboxes} {k : Uuid} {host : String}

theorem editClaim_some {e : Edit} (h : editClaim s k loaded e = some s') :
    s'.instances = s.instances ∧ ∃ row row', s.reservations.lookup k = some row ∧ e.written loaded row = some row' ∧
      ∀ k', s'.reservations.lookup k' = if k' = k then some row' else s.reservations.lookup k' := by
  unfold editClaim at h
  split at h
  · cases h
  next row hrow =>
  split at h
  · cases h
  next row' hrow' =>
  split at h
  · cases h
    refine ⟨rfl, row, row', hrow, hrow', fun k' => ?_⟩
    rw [Table.lookup_modify]
    split_ifs with hk
    · rw [hk, hrow]
      rfl
    · rfl
  · cases h

theorem reserve_apply {reservationId runId instanceId : Uuid} {created : SandboxInstance}
    (h : (Write.reserve reservationId runId instanceId created).apply s = some s') :
    s.reservations.lookup reservationId = none ∧
      s'.reservations = s.reservations.insert reservationId (.new runId instanceId) := by
  unfold Write.apply at h
  simp only at h
  split at h
  · next hreserve =>
    cases h
    obtain ⟨_, hnew, _, _, hreservations, _⟩ := reserve_ok hreserve
    exact ⟨hnew, hreservations⟩
  · cases h

theorem apply_other (h : st.apply s = some s') (hother : st.row ≠ .claim k) :
    s'.reservations.lookup k = s.reservations.lookup k := by
  cases st with
  | reserve =>
    rw [(reserve_apply h).2, AList.lookup_insert_ne]
    rintro rfl
    exact hother rfl
  | claim =>
    obtain ⟨_, _, _, _, _, hlookup⟩ := editClaim_some h
    rw [hlookup, if_neg]
    rintro rfl
    exact hother rfl
  | sandbox =>
    cases h
    rfl

theorem apply_row (h : st.apply s = some s') {row : SandboxReservation}
    (hrow : s.reservations.lookup k = some row) :
    ∃ row', s'.reservations.lookup k = some row' ∧ row'.instanceId = row.instanceId ∧ (row'.status = row.status ∨
      ∃ loaded edit, st = .claim k loaded edit ∧ row'.status = column loaded.status edit.status row.status) := by
  cases st with
  | reserve =>
    obtain ⟨hnew, hreservations⟩ := reserve_apply h
    refine ⟨row, ?_, rfl, .inl rfl⟩
    rw [hreservations, AList.lookup_insert_ne, hrow]
    rintro rfl
    rw [hnew] at hrow
    cases hrow
  | claim reservationId loaded edit =>
    obtain ⟨_, _, written, hcurrent, hwritten, hlookup⟩ := editClaim_some h
    rw [hlookup]
    split_ifs with hk
    · subst hk
      cases hrow.symm.trans hcurrent
      obtain ⟨hinstance, hstatus⟩ := Edit.written_claim hwritten
      exact ⟨written, rfl, hinstance, .inr ⟨loaded, edit, rfl, hstatus⟩⟩
    · exact ⟨row, hrow, rfl, .inl rfl⟩
  | sandbox =>
    cases h
    exact ⟨row, hrow, rfl, .inl rfl⟩

theorem apply_there (h : st.apply s = some s') (hregisters : st.registers = false)
    {row' : SandboxReservation} (hrow' : s'.reservations.lookup k = some row') :
    ∃ row, s.reservations.lookup k = some row ∧ row'.instanceId = row.instanceId ∧ (row'.status = row.status ∨
      ∃ loaded edit, st = .claim k loaded edit ∧ row'.status = column loaded.status edit.status row.status) := by
  have hthere : ∃ row, s.reservations.lookup k = some row := by
    cases st with
    | reserve => cases hregisters
    | claim =>
      obtain ⟨_, current, _, hcurrent, _, hlookup⟩ := editClaim_some h
      rw [hlookup] at hrow'
      split_ifs at hrow' with hk
      · exact ⟨current, by rw [hk, hcurrent]⟩
      · exact ⟨row', hrow'⟩
    | sandbox =>
      cases h
      exact ⟨row', hrow'⟩
  obtain ⟨row, hrow⟩ := hthere
  obtain ⟨_, hfound, hcases⟩ := apply_row h hrow
  cases hfound.symm.trans hrow'
  exact ⟨row, hrow, hcases⟩

theorem written_controller {loaded sandbox : SandboxInstance} {edit : InstanceEdit} :
    (edit.written loaded sandbox).controller = sandbox.controller := by
  cases edit <;> rfl

theorem apply_instance (h : st.apply s = some s') (hregisters : st.registers = false) {i : Uuid}
    {sandbox' : SandboxInstance} (hsandbox' : s'.instances.lookup i = some sandbox') :
    ∃ sandbox, s.instances.lookup i = some sandbox ∧ sandbox'.controller = sandbox.controller := by
  cases st with
  | reserve => cases hregisters
  | claim =>
    obtain ⟨hinstances, _⟩ := editClaim_some h
    rw [hinstances] at hsandbox'
    exact ⟨sandbox', hsandbox', rfl⟩
  | sandbox instanceId loaded edit =>
    cases h
    change (s.instances.modify instanceId fun current => edit.written loaded current).lookup i = some sandbox' at hsandbox'
    rw [Table.lookup_modify] at hsandbox'
    split_ifs at hsandbox'
    · obtain ⟨sandbox, hsandbox, rfl⟩ := Option.map_eq_some_iff.mp hsandbox'
      exact ⟨sandbox, hsandbox, written_controller⟩
    · exact ⟨sandbox', hsandbox', rfl⟩

theorem apply_on (h : st.apply s = some s') (hregisters : st.registers = false) (hon : On host s' k) :
    On host s k := by
  obtain ⟨_, _, hrow', hsandbox', hhost⟩ := hon
  obtain ⟨row, hrow, hinstance, _⟩ := apply_there h hregisters hrow'
  obtain ⟨sandbox, hsandbox, hcontroller⟩ := apply_instance h hregisters hsandbox'
  exact ⟨row, sandbox, hrow, by rw [← hinstance, hsandbox], hcontroller.symm.trans hhost⟩

theorem apply_live (h : st.apply s = some s') (hregisters : st.registers = false) (hlive : Live s' k) :
    Live s k ∨ ∃ loaded idleExpiresAt, st = .claim k loaded (.keep idleExpiresAt) := by
  obtain ⟨_, hrow', hlive⟩ := hlive
  obtain ⟨row, hrow, _, hstatus | ⟨loaded, edit, rfl, hstatus⟩⟩ := apply_there h hregisters hrow'
  · exact .inl ⟨row, hrow, by rw [← hstatus, hlive]⟩
  · cases edit with
    | keep idleExpiresAt => exact .inr ⟨loaded, idleExpiresAt, rfl⟩
    | release =>
      rcases column_cases loaded.status ReservationStatus.released row.status with hwritten | ⟨_, hsame⟩
      · rw [hstatus, Edit.status, hwritten] at hlive
        cases hlive
      · rw [hstatus, Edit.status, hsame] at hlive
        exact .inl ⟨row, hrow, hlive⟩

theorem apply_release (hloaded : loaded.status.live = true)
    (h : (Write.claim k loaded .release).apply s = some s') : ¬ Live s' k := by
  rintro ⟨_, hrow', hlive⟩
  obtain ⟨_, row, _, _, hwritten, hlookup⟩ := editClaim_some h
  rw [hlookup, if_pos rfl] at hrow'
  cases hrow'
  obtain ⟨_, hstatus⟩ := Edit.written_claim hwritten
  rcases column_cases loaded.status ReservationStatus.released row.status with hreleased | ⟨habsurd, _⟩
  · rw [hstatus, Edit.status, hreleased] at hlive
    cases hlive
  · rw [← habsurd] at hloaded
    cases hloaded

theorem applyAll_cons {rest : List Write} (h : applyAll s (st :: rest) = some s') :
    ∃ s₁, st.apply s = some s₁ ∧ applyAll s₁ rest = some s' := by
  unfold applyAll at h
  split at h
  · next s₁ hs₁ => exact ⟨s₁, hs₁, h⟩
  · cases h

variable {statements : List Write}

theorem applyAll_other (h : applyAll s statements = some s')
    (hother : ∀ st ∈ statements, st.row ≠ .claim k) : s'.reservations.lookup k = s.reservations.lookup k := by
  induction statements generalizing s with
  | nil =>
    cases h
    rfl
  | cons st rest ih =>
    obtain ⟨_, hst, hrest⟩ := applyAll_cons h
    rw [ih hrest fun st' hst' => hother st' (List.mem_cons_of_mem _ hst'), apply_other hst (hother st List.mem_cons_self)]

theorem applyAll_on (h : applyAll s statements = some s')
    (hregisters : ∀ st ∈ statements, st.registers = false) (hon : On host s' k) : On host s k := by
  induction statements generalizing s with
  | nil =>
    cases h
    exact hon
  | cons st rest ih =>
    obtain ⟨_, hst, hrest⟩ := applyAll_cons h
    exact apply_on hst (hregisters st List.mem_cons_self) (ih hrest fun st' hst' => hregisters st' (List.mem_cons_of_mem _ hst'))

theorem applyAll_live (h : applyAll s statements = some s')
    (hregisters : ∀ st ∈ statements, st.registers = false) (hlive : Live s' k) :
    Live s k ∨ ∃ loaded idleExpiresAt, .claim k loaded (.keep idleExpiresAt) ∈ statements := by
  induction statements generalizing s with
  | nil =>
    cases h
    exact .inl hlive
  | cons st rest ih =>
    obtain ⟨_, hst, hrest⟩ := applyAll_cons h
    rcases ih hrest fun st' hst' => hregisters st' (List.mem_cons_of_mem _ hst') with hlive | ⟨loaded, t, hmem⟩
    · rcases apply_live hst (hregisters st List.mem_cons_self) hlive with hlive | ⟨loaded, t, rfl⟩
      · exact .inl hlive
      · exact .inr ⟨loaded, t, List.mem_cons_self⟩
    · exact .inr ⟨loaded, t, List.mem_cons_of_mem _ hmem⟩

theorem applyAll_released (h : applyAll s statements = some s')
    (hkeeps : ∀ loaded idleExpiresAt, .claim k loaded (.keep idleExpiresAt) ∉ statements) {row : SandboxReservation}
    (hrow : s.reservations.lookup k = some row) (hreleased : row.status = .released) :
    ∃ row', s'.reservations.lookup k = some row' ∧ row'.status = .released := by
  induction statements generalizing s row with
  | nil =>
    cases h
    exact ⟨row, hrow, hreleased⟩
  | cons st rest ih =>
    obtain ⟨_, hst, hrest⟩ := applyAll_cons h
    have hrestKeeps : ∀ loaded t, Write.claim k loaded (.keep t) ∉ rest :=
      fun loaded t hmem => hkeeps loaded t (List.mem_cons_of_mem _ hmem)
    obtain ⟨_, hrow₁, _, hstatus | ⟨loaded, edit, rfl, hstatus⟩⟩ := apply_row hst hrow
    · exact ih hrest hrestKeeps hrow₁ (hstatus.trans hreleased)
    · refine ih hrest hrestKeeps hrow₁ ?_
      cases edit with
      | keep t => exact absurd List.mem_cons_self (hkeeps loaded t)
      | release =>
        rcases column_cases loaded.status ReservationStatus.released row.status with hwritten | ⟨_, hsame⟩
        · rw [hstatus, Edit.status, hwritten]
        · rw [hstatus, Edit.status, hsame, hreleased]

theorem frees_registers (h : st.frees = true) : st.registers = false := by
  cases st with
  | reserve => cases h
  | claim | sandbox => rfl

/-- Whatever else they give up, statements that release `k` leave it released. -/
theorem applyAll_freed (h : applyAll s statements = some s')
    (hfrees : ∀ st ∈ statements, st.frees = true) (hloaded : loaded.status.live = true)
    (hmem : .claim k loaded .release ∈ statements) : ¬ Live s' k := by
  induction statements generalizing s with
  | nil => cases hmem
  | cons st rest ih =>
    obtain ⟨_, hst, hrest⟩ := applyAll_cons h
    have hrestFrees : ∀ st' ∈ rest, st'.frees = true := fun st' hst' => hfrees st' (List.mem_cons_of_mem _ hst')
    rcases List.mem_cons.mp hmem with rfl | hmem
    · intro hlive
      rcases applyAll_live hrest (fun st' hst' => frees_registers (hrestFrees st' hst')) hlive with hlive | ⟨_, _, hkeep⟩
      · exact apply_release hloaded hst hlive
      · cases hrestFrees _ hkeep
    · exact ih hrest hrestFrees hmem

end Statements

/-! Rows that are locked. -/

theorem lockedBeside_false {w : World} {n : Nat} {row : Row} (h : w.lockedBeside n row = false) {m : Nat} {d : Call}
    (hd : w.calls.lookup m = some d) (hne : m ≠ n) : row ∉ d.locks := by
  intro hmem
  have hfree := List.any_eq_false.mp h ⟨m, d⟩ (AList.mem_lookup_iff.mp hd)
  rw [Bool.and_eq_true, decide_eq_true_eq, List.contains_iff_mem] at hfree
  exact hfree ⟨hne, hmem⟩

section Moves
variable {w : World} {n : Nat} {c : Call} {v : Verdict} {instr : Instr} {next : List Instr}

theorem move_write (h : instr.move w n c v = some (.write st next)) :
    w.lockedBeside n st.row = false ∧
      ∀ k loaded idleExpiresAt, st = .claim k loaded (.keep idleExpiresAt) → instr = .update k loaded (.keep idleExpiresAt) := by
  cases instr <;> simp only [Instr.move, Instr.claimed, Option.some.injEq] at h
  case register a =>
    split_ifs at h with hlocked
    cases h
    exact ⟨Bool.eq_false_iff.mpr hlocked, fun _ _ _ habsurd => nomatch habsurd⟩
  case update k loaded edit =>
    split_ifs at h with hlocked
    cases h
    refine ⟨Bool.eq_false_iff.mpr hlocked, fun _ _ _ heq => ?_⟩
    cases heq
    rfl
  case updateInstance i loaded edit =>
    split_ifs at h with hlocked
    cases h
    exact ⟨Bool.eq_false_iff.mpr hlocked, fun _ _ _ habsurd => nomatch habsurd⟩
  all_goals repeat' split at h
  all_goals cases h

theorem move_lock {rows : List Row} (h : instr.move w n c v = some (.lock rows next)) :
    ∀ row ∈ rows, w.lockedBeside n row = false := by
  cases instr <;> simp only [Instr.move, Instr.claimed, Option.some.injEq] at h
  case lockClaim a =>
    split at h
    · cases h
    · split_ifs at h with hlocked
      cases h
      intro row hrow
      rw [List.mem_singleton.mp hrow]
      exact Bool.eq_false_iff.mpr hlocked
  case judge a =>
    split at h
    · cases h
    · cases h
    · cases h
      intro row hrow
      obtain ⟨_, hclaim, rfl⟩ := List.mem_map.mp hrow
      unfold evictableKeeps at hclaim
      obtain ⟨_, hp⟩ := Table.mem_select.mp (List.mem_insertionSort _ |>.mp hclaim)
      exact (Bool.not_eq_true' _).mp (Bool.and_eq_true_iff.mp hp).2
  case lockLive frees left found =>
    split at h
    · cases h
    · split_ifs at h with hlocked
      split at h
      · cases h
      · split_ifs at h
        · cases h
          intro _ hrow
          rw [List.mem_singleton.mp hrow]
          exact Bool.eq_false_iff.mpr hlocked
        · cases h
  all_goals repeat' split at h
  all_goals cases h

end Moves

/-! A retirement on its way. -/

/-- A statement of a retirement that holds the rows it is about to release. -/
def Instr.frees : Instr → Bool
  | .loadInstance _ _ | .updateInstance _ _ _ | .update _ _ .release => true
  | _ => false

/-- What comes before a retirement has read which claims are live. -/
def Instr.counts : Instr → Bool
  | .setState _ | .selectLive _ => true
  | _ => false

/-- A retirement that has read which claims are live, and has not ended. -/
def Call.counted (c : Call) : Bool := c.kind = .retire && !c.code.any Instr.counts

def Call.registers (c : Call) : Bool := c.writes.any Write.registers

/-- Where a retirement may be. From its reading on it knows of every claim that is live on the host. -/
inductive Retiring (host : String) (s : Sandboxes) : List Instr → List Write → Prop where
  | begins : Retiring host s [.setState .retired, .selectLive true, .commit] []
  | selects : Retiring host s [.selectLive true, .commit] []
  | locks {left : List Uuid} {found : List Claim} (hlive : ∀ e ∈ found, e.2.status.live = true)
      (hall : ∀ k, Live s k → On host s k → k ∈ left ∨ ∃ row, (k, row) ∈ found) :
      Retiring host s [.lockLive true left found, .commit] []
  | frees {steps : List Instr} {writes : List Write} (hsteps : ∀ i ∈ steps, i.frees = true)
      (hwrites : ∀ st ∈ writes, st.frees = true)
      (hall : ∀ k, Live s k → On host s k → ∃ loaded : SandboxReservation, loaded.status.live = true ∧
        (.update k loaded .release ∈ steps ∨ .claim k loaded .release ∈ writes)) :
      Retiring host s (steps ++ [.commit]) writes

section Retiring
variable {host : String} {s s' : Sandboxes} {code : List Instr} {writes : List Write}

theorem frees_counts {i : Instr} (h : i.frees = true) : i.counts = false := by
  cases i <;> first | rfl | cases h

theorem Retiring.mono (h : Retiring host s code writes)
    (hback : code.any Instr.counts = false → ∀ k, Live s' k → On host s' k → Live s k ∧ On host s k) :
    Retiring host s' code writes := by
  cases h with
  | begins => exact .begins
  | selects => exact .selects
  | locks hlive hall =>
    refine .locks hlive fun k hk hon => ?_
    obtain ⟨hk, hon⟩ := hback rfl k hk hon
    exact hall k hk hon
  | @frees steps writes hsteps hwrites hall =>
    refine .frees hsteps hwrites fun k hk hon => ?_
    have hcounted : (steps ++ [Instr.commit]).any Instr.counts = false := by
      rw [List.any_append, List.any_eq_false.mpr fun i hi => Bool.eq_false_iff.mp (frees_counts (hsteps i hi))]
      rfl
    obtain ⟨hk, hon⟩ := hback hcounted k hk hon
    exact hall k hk hon

theorem Retiring.building {c : Call} (h : Retiring host s c.code writes) : c.building = none := by
  rw [Call.building, List.findSome?_eq_none_iff]
  intro i hi
  generalize c.code = code at h hi
  cases h with
  | begins | selects | locks =>
    simp only [List.mem_cons, List.not_mem_nil, or_false] at hi
    rcases hi with rfl | rfl | rfl <;> rfl
  | frees hsteps =>
    rcases List.mem_append.mp hi with hi | hi
    · have hfrees := hsteps i hi
      cases i <;> first | rfl | cases hfrees
    · rw [List.mem_singleton.mp hi]

end Retiring

inductive Onward (host : String) (s : Sandboxes) (rest : List Instr) (writes : List Write) : Move → Prop where
  | goes {next : List Instr} (h : Retiring host s (next ++ rest) writes) : Onward host s rest writes (.go next)
  | locks {rows : List Row} {next : List Instr} (h : Retiring host s (next ++ rest) writes) :
      Onward host s rest writes (.lock rows next)
  | states {state : HostState} {next : List Instr} (h : Retiring host s (next ++ rest) writes) :
      Onward host s rest writes (.state state next)
  | writes {st : Write} {next : List Instr} (h : Retiring host s (next ++ rest) (writes ++ [st])) :
      Onward host s rest writes (.write st next)
  | ends (hrest : rest = []) (hwrites : ∀ st ∈ writes, st.frees = true)
      (hall : ∀ k, Live s k → On host s k → ∃ loaded : SandboxReservation, loaded.status.live = true ∧
        .claim k loaded .release ∈ writes) :
      Onward host s rest writes (.commit [])
  | raises : Onward host s rest writes .raise

section Onward
variable {w : World} {n : Nat} {c : Call} {v : Verdict} {mv : Move} {rest : List Instr} {writes : List Write}

theorem locks_onward {left : List Uuid} {found : List Claim} (hlive : ∀ e ∈ found, e.2.status.live = true)
    (hall : ∀ k, Live w.sandboxes k → On w.host w.sandboxes k → k ∈ left ∨ ∃ row, (k, row) ∈ found)
    (hmove : (Instr.lockLive true left found).move w n c v = some mv) : Onward w.host w.sandboxes [.commit] [] mv := by
  simp only [Instr.move] at hmove
  cases left with
  | nil =>
    cases hmove
    refine .goes (.frees (fun i hi => ?_) (fun st hst => nomatch hst) fun k hk hon => ?_)
    · obtain ⟨_, _, hi⟩ := List.mem_flatMap.mp hi
      simp only [free, List.mem_cons, List.not_mem_nil, or_false] at hi
      rcases hi with rfl | rfl <;> rfl
    · obtain habsurd | ⟨row, hrow⟩ := hall k hk hon
      · cases habsurd
      · refine ⟨row, hlive _ hrow, .inl (List.mem_flatMap.mpr ⟨(k, row), hrow, ?_⟩)⟩
        exact List.mem_cons_of_mem _ List.mem_cons_self
  | cons first left =>
    simp only at hmove
    split_ifs at hmove
    have hskip (hnot : ¬ Live w.sandboxes first) : Retiring w.host w.sandboxes [.lockLive true left found, .commit] [] := by
      refine .locks hlive fun k hk hon => ?_
      rcases hall k hk hon with hleft | hfound
      · rcases List.mem_cons.mp hleft with rfl | hleft
        · exact absurd hk hnot
        · exact .inl hleft
      · exact .inr hfound
    split at hmove
    · next hnone =>
      cases hmove
      refine .goes (hskip ?_)
      rintro ⟨row, hrow, _⟩
      rw [hnone] at hrow
      cases hrow
    · next row hrow =>
      split_ifs at hmove with hstill
      · cases hmove
        refine .locks (.locks (fun e he => ?_) fun k hk hon => ?_)
        · rcases List.mem_append.mp he with he | he
          · exact hlive e he
          · rw [List.mem_singleton.mp he]
            exact hstill
        · rcases hall k hk hon with hleft | ⟨row', hfound⟩
          · rcases List.mem_cons.mp hleft with rfl | hleft
            · exact .inr ⟨row, List.mem_append_right _ (List.mem_singleton_self _)⟩
            · exact .inl hleft
          · exact .inr ⟨row', List.mem_append_left _ hfound⟩
      · cases hmove
        refine .goes (hskip ?_)
        rintro ⟨_, hrow', hlive'⟩
        cases hrow.symm.trans hrow'
        exact hstill hlive'

theorem frees_onward {instr : Instr} {steps : List Instr} (hfrees : instr.frees = true)
    (hsteps : ∀ i ∈ steps, i.frees = true) (hwrites : ∀ st ∈ writes, st.frees = true)
    (hall : ∀ k, Live w.sandboxes k → On w.host w.sandboxes k → ∃ loaded : SandboxReservation, loaded.status.live = true ∧
      (.update k loaded .release ∈ instr :: steps ∨ .claim k loaded .release ∈ writes))
    (hmove : instr.move w n c v = some mv) : Onward w.host w.sandboxes (steps ++ [.commit]) writes mv := by
  cases instr with
  | loadInstance instanceId edit =>
    simp only [Instr.move, Option.some.injEq] at hmove
    split at hmove
    · obtain rfl := hmove
      exact .raises
    · next sandbox _ =>
      obtain rfl := hmove
      have hnext : ∀ i ∈ Instr.updateInstance instanceId sandbox edit :: steps, i.frees = true := by
        intro i hi
        rcases List.mem_cons.mp hi with rfl | hi
        · rfl
        · exact hsteps i hi
      refine .goes (.frees hnext hwrites fun k hk hon => ?_)
      · obtain ⟨loaded, hloaded, hmem | hmem⟩ := hall k hk hon
        · rcases List.mem_cons.mp hmem with habsurd | hmem
          · cases habsurd
          · exact ⟨loaded, hloaded, .inl (List.mem_cons_of_mem _ hmem)⟩
        · exact ⟨loaded, hloaded, .inr hmem⟩
  | updateInstance _ loaded =>
    simp only [Instr.move] at hmove
    split_ifs at hmove
    cases hmove
    refine .writes (.frees hsteps (fun st hst => ?_) fun k hk hon => ?_)
    · rcases List.mem_append.mp hst with hst | hst
      · exact hwrites st hst
      · rw [List.mem_singleton.mp hst]
        rfl
    · obtain ⟨loaded, hloaded, hmem | hmem⟩ := hall k hk hon
      · rcases List.mem_cons.mp hmem with habsurd | hmem
        · cases habsurd
        · exact ⟨loaded, hloaded, .inl hmem⟩
      · exact ⟨loaded, hloaded, .inr (List.mem_append_left _ hmem)⟩
  | update j loaded edit =>
    cases edit with
    | keep => cases hfrees
    | release =>
      simp only [Instr.move] at hmove
      split_ifs at hmove
      cases hmove
      refine .writes (.frees hsteps (fun st hst => ?_) fun k hk hon => ?_)
      · rcases List.mem_append.mp hst with hst | hst
        · exact hwrites st hst
        · rw [List.mem_singleton.mp hst]
          rfl
      · obtain ⟨loaded', hloaded, hmem | hmem⟩ := hall k hk hon
        · rcases List.mem_cons.mp hmem with heq | hmem
          · obtain ⟨rfl, rfl, _⟩ := Instr.update.inj heq
            exact ⟨loaded', hloaded, .inr (List.mem_append_right _ (List.mem_singleton_self _))⟩
          · exact ⟨loaded', hloaded, .inl hmem⟩
        · exact ⟨loaded', hloaded, .inr (List.mem_append_left _ hmem)⟩
  | _ => cases hfrees

theorem Retiring.onward {instr : Instr} (h : Retiring w.host w.sandboxes (instr :: rest) writes)
    (hmove : instr.move w n c v = some mv) : Onward w.host w.sandboxes rest writes mv := by
  generalize hcode : instr :: rest = code at h
  cases h with
  | begins =>
    obtain ⟨rfl, rfl⟩ := List.cons.inj hcode
    simp only [Instr.move] at hmove
    split_ifs at hmove
    cases hmove
    exact .states .selects
  | selects =>
    obtain ⟨rfl, rfl⟩ := List.cons.inj hcode
    cases hmove
    refine .goes (.locks (fun e he => nomatch he) fun k hk hon => .inl ?_)
    obtain ⟨_, hrow⟩ := mem_liveOn.mpr ⟨hk, hon⟩
    exact List.mem_map.mpr ⟨_, hrow, rfl⟩
  | locks hlive hall =>
    obtain ⟨rfl, rfl⟩ := List.cons.inj hcode
    exact locks_onward hlive hall hmove
  | @frees steps _ hsteps hwrites hall =>
    cases steps with
    | nil =>
      obtain ⟨rfl, rfl⟩ := List.cons.inj hcode
      cases hmove
      refine .ends rfl hwrites fun k hk hon => ?_
      obtain ⟨loaded, hloaded, habsurd | hmem⟩ := hall k hk hon
      · cases habsurd
      · exact ⟨loaded, hloaded, hmem⟩
    | cons =>
      obtain ⟨rfl, rfl⟩ := List.cons.inj hcode
      refine frees_onward (hsteps _ List.mem_cons_self) (fun i hi => ?_) hwrites hall hmove
      exact hsteps i (List.mem_cons_of_mem _ hi)

end Onward

/-! Every state of a host. -/

/-- What a call has written it holds, what it keeps is live, and if it retires the host it knows what is live there. -/
structure CallSound (host : String) (s : Sandboxes) (c : Call) : Prop where
  locked : ∀ st ∈ c.writes, st.row ∈ c.locks
  keeps : ∀ k loaded idleExpiresAt, .claim k loaded (.keep idleExpiresAt) ∈ c.writes → Live s k
  retires : c.kind = .retire → Retiring host s c.code c.writes

structure Sound (w : World) : Prop where
  calls : ∀ n c, w.calls.lookup n = some c → CallSound w.host w.sandboxes c
  exclusive : ∀ n m c d k, w.calls.lookup n = some c → w.calls.lookup m = some d → .claim k ∈ c.locks → .claim k ∈ d.locks → n = m
  gone : w.gone = true → ∀ k, Live w.sandboxes k → ¬ On w.host w.sandboxes k

section Sound
variable {w w' : World} {n : Nat} {c c' : Call} {host : String} {s s' : Sandboxes}

theorem CallSound.mono (h : CallSound host s c)
    (hrows : ∀ k, .claim k ∈ c.locks → s'.reservations.lookup k = s.reservations.lookup k)
    (hback : c.counted = true → ∀ k, Live s' k → On host s' k → Live s k ∧ On host s k) : CallSound host s' c where
  locked := h.locked
  keeps k loaded t hkeep := by
    obtain ⟨row, hrow, hlive⟩ := h.keeps k loaded t hkeep
    exact ⟨row, by rw [hrows k (h.locked _ hkeep), hrow], hlive⟩
  retires hkind := by
    refine (h.retires hkind).mono fun hcounts => hback ?_
    rw [Call.counted, hcounts, decide_eq_true hkind]
    rfl

/-- One call turns into `c'`, or is over. -/
theorem Sound.turn (hs : Sound w)
    (hcalls : ∀ m d, w'.calls.lookup m = some d → (m = n ∧ d = c') ∨ (m ≠ n ∧ w.calls.lookup m = some d))
    (hself : w'.calls.lookup n = some c' → CallSound w'.host w'.sandboxes c')
    (hothers : ∀ m d, m ≠ n → w.calls.lookup m = some d → CallSound w'.host w'.sandboxes d)
    (hfree : ∀ m d k, m ≠ n → w.calls.lookup m = some d → .claim k ∈ c'.locks → .claim k ∉ d.locks)
    (hgone : w'.gone = true → ∀ k, Live w'.sandboxes k → ¬ On w'.host w'.sandboxes k) : Sound w' where
  calls m d hd := by
    rcases hcalls m d hd with ⟨rfl, rfl⟩ | ⟨hne, hold⟩
    · exact hself hd
    · exact hothers m d hne hold
  exclusive i j d e k hd he hk hk' := by
    rcases hcalls i d hd with ⟨rfl, rfl⟩ | ⟨hi, hd⟩
    · rcases hcalls j e he with ⟨rfl, rfl⟩ | ⟨hj, he⟩
      · rfl
      · exact absurd hk' (hfree j e k hj he hk)
    · rcases hcalls j e he with ⟨rfl, rfl⟩ | ⟨_, he⟩
      · exact absurd hk (hfree i d k hi hd hk')
      · exact hs.exclusive i j d e k hd he hk hk'
  gone := hgone

theorem lookup_put {m : Nat} {d : Call} (h : (w.put n c').calls.lookup m = some d) :
    (m = n ∧ d = c') ∨ (m ≠ n ∧ w.calls.lookup m = some d) := by
  by_cases hm : m = n
  · subst hm
    simp only [World.put] at h
    split_ifs at h
    · rw [AList.lookup_erase] at h
      cases h
    · rw [AList.lookup_insert] at h
      exact .inl ⟨rfl, (Option.some.inj h).symm⟩
  · simp only [World.put] at h
    split_ifs at h
    · rw [AList.lookup_erase_ne hm] at h
      exact .inr ⟨hm, h⟩
    · rw [AList.lookup_insert_ne hm] at h
      exact .inr ⟨hm, h⟩

theorem code_of_put (h : (w.put n c').calls.lookup n = some c') : c'.code ≠ [] := by
  intro hcode
  rw [World.put, if_pos hcode, AList.lookup_erase] at h
  cases h

theorem Sound.put (hs : Sound w) (hc : w.calls.lookup n = some c)
    (hself : c'.code ≠ [] → CallSound w.host w.sandboxes c')
    (hlocks : ∀ k, .claim k ∈ c'.locks → .claim k ∈ c.locks ∨ w.lockedBeside n (.claim k) = false) : Sound (w.put n c') := by
  refine hs.turn (fun m d hd => lookup_put hd) (fun hd => hself (code_of_put hd)) (fun m d _ hd => hs.calls m d hd)
    (fun m d k hne hd hk hk' => ?_) hs.gone
  rcases hlocks k hk with hheld | hunlocked
  · exact hne (hs.exclusive m n d c k hd hc hk' hheld)
  · exact lockedBeside_false hunlocked hd hne hk'

theorem Sound.congr (hs : Sound w) (hhost : w'.host = w.host) (hsandboxes : w'.sandboxes = w.sandboxes)
    (hcalls : w'.calls = w.calls) (hgone : w'.gone = w.gone) : Sound w' where
  calls m d hd := by
    rw [hcalls] at hd
    rw [hhost, hsandboxes]
    exact hs.calls m d hd
  exclusive := by
    rw [hcalls]
    exact hs.exclusive
  gone := by
    rw [hhost, hsandboxes, hgone]
    exact hs.gone

theorem Sound.drop (hs : Sound w) : Sound (w.drop n) := by
  have herase (m : Nat) (d : Call) (hd : (w.drop n).calls.lookup m = some d) : m ≠ n ∧ w.calls.lookup m = some d := by
    by_cases hm : m = n
    · subst hm
      rw [World.drop, AList.lookup_erase] at hd
      cases hd
    · rw [World.drop, AList.lookup_erase_ne hm] at hd
      exact ⟨hm, hd⟩
  exact {
    calls := fun m d hd => hs.calls m d (herase m d hd).2
    exclusive := fun i j d e k hd he => hs.exclusive i j d e k (herase i d hd).2 (herase j e he).2
    gone := hs.gone }

theorem Sound.raised (hs : Sound w) (hc : w.calls.lookup n = some c) : Sound (w.raised n c) := by
  have hsound := hs.calls n c hc
  unfold World.raised
  split
  · next a hbuilding =>
    have hunlocked : Sound { w with admission := w.unlock n } := hs.congr rfl rfl rfl rfl
    refine hunlocked.put hc (fun _ => ⟨fun st hst => (nomatch hst), fun _ _ _ hst => (nomatch hst), fun hkind => ?_⟩)
      fun k hk => (nomatch hk)
    rw [(hsound.retires hkind).building] at hbuilding
    cases hbuilding
  · exact hs.drop

theorem committed_back (hsound : CallSound host s c) (h : applyAll s c.writes = some s')
    (hregisters : c.registers = false) {k : Uuid} (hk : Live s' k) (hon : On host s' k) : Live s k ∧ On host s k := by
  have hnone : ∀ st ∈ c.writes, st.registers = false := by
    intro st hst
    exact Bool.eq_false_iff.mpr (List.any_eq_false.mp hregisters st hst)
  refine ⟨?_, applyAll_on h hnone hon⟩
  rcases applyAll_live h hnone hk with hlive | ⟨loaded, t, hkeep⟩
  · exact hlive
  · exact hsound.keeps k loaded t hkeep

theorem Sound.committed {code : List Instr} (hs : Sound w) (hc : w.calls.lookup n = some c)
    (hcalm : c.registers = true → w.gone = false ∧ ∀ m d, w.calls.lookup m = some d → d.counted = false)
    (hretires : c.kind = .retire → code = [] ∧ (∀ st ∈ c.writes, st.frees = true) ∧
      ∀ k, Live w.sandboxes k → On w.host w.sandboxes k → ∃ loaded : SandboxReservation, loaded.status.live = true ∧
        .claim k loaded .release ∈ c.writes) : Sound (w.committed n c code) := by
  have hsound := hs.calls n c hc
  unfold World.committed
  split
  · next s hs' =>
    refine hs.turn (fun m d hd => lookup_put hd) (fun hd => ?_) (fun m d hne hd => ?_) (fun m d k _ _ hk => (nomatch hk)) ?_
    · refine ⟨fun st hst => (nomatch hst), fun _ _ _ hst => (nomatch hst), fun hkind => ?_⟩
      exact absurd (hretires hkind).1 (code_of_put hd)
    · refine (hs.calls m d hd).mono (fun k hk => ?_) fun hcounted k hk hon => ?_
      · refine applyAll_other hs' fun st hst heq => ?_
        have hheld := hsound.locked st hst
        rw [heq] at hheld
        exact hne (hs.exclusive m n d c k hd hc hk hheld)
      · have hregisters : c.registers = false := by
          cases hr : c.registers with
          | false => rfl
          | true =>
            rw [(hcalm hr).2 m d hd] at hcounted
            cases hcounted
        exact committed_back hsound hs' hregisters hk hon
    · intro hgone k hk hon
      by_cases hkind : c.kind = .retire
      · obtain ⟨_, hfrees, hall⟩ := hretires hkind
        have hregisters : c.registers = false := by
          refine List.any_eq_false.mpr fun st hst => ?_
          exact Bool.eq_false_iff.mp (frees_registers (hfrees st hst))
        obtain ⟨hlive, hwas⟩ := committed_back hsound hs' hregisters hk hon
        obtain ⟨_, hloaded, hmem⟩ := hall k hlive hwas
        exact applyAll_freed hs' hfrees hloaded hmem hk
      · have hwas : w.gone = true := by
          have hstill : (decide (c.kind = Kind.retire) || (w.gone && decide (c.kind ≠ Kind.activate))) = true := hgone
          rw [decide_eq_false hkind, Bool.false_or, Bool.and_eq_true] at hstill
          exact hstill.1
        have hregisters : c.registers = false := by
          cases hr : c.registers with
          | false => rfl
          | true =>
            rw [(hcalm hr).1] at hwas
            cases hwas
        obtain ⟨hlive, hthere⟩ := committed_back hsound hs' hregisters hk hon
        exact hs.gone hwas k hlive hthere
  · exact hs.raised hc

end Sound

def keepsLive (s : Sandboxes) : List Instr → Bool
  | .update k _ (.keep _) :: _ => (s.reservations.lookup k).any fun row => row.status.live
  | _ => true

/-- A keep writes to a claim that is still live, and nothing is registered on the host between a retirement's read of the live
claims and its activation. -/
def Undisturbed (c : Commit World Input Unit) : Bool :=
  match c.input with
  | .run n _ =>
    match c.before.calls.lookup n with
    | some call =>
      keepsLive c.before.sandboxes call.code &&
        (!call.registers || (!c.before.gone && c.before.calls.entries.all fun e => !e.2.counted))
    | none => true
  | _ => true

section Steps
variable {w w' : World} {n : Nat} {c : Call} {v : Verdict} {instr : Instr} {rest : List Instr} {mv : Move}

theorem moved_sound (hs : Sound w) (hc : w.calls.lookup n = some c) (hcode : c.code = instr :: rest)
    (hmove : instr.move w n c v = some mv) (hkeep : keepsLive w.sandboxes c.code = true)
    (hcalm : c.registers = true → w.gone = false ∧ ∀ m d, w.calls.lookup m = some d → d.counted = false) :
    Sound (w.moved n c rest mv) := by
  have hsound := hs.calls n c hc
  have honward (hkind : c.kind = .retire) : Onward w.host w.sandboxes rest c.writes mv := by
    have hretiring := hsound.retires hkind
    rw [hcode] at hretiring
    exact hretiring.onward hmove
  cases mv with
  | go =>
    refine hs.put hc (fun _ => ⟨hsound.locked, hsound.keeps, fun hkind => ?_⟩) fun k hk => .inl hk
    cases honward hkind with
    | goes h => exact h
  | lock =>
    refine hs.put hc (fun _ => ⟨fun st hst => ?_, hsound.keeps, fun hkind => ?_⟩) fun k hk => ?_
    · exact List.mem_append_right _ (hsound.locked st hst)
    · cases honward hkind with
      | locks h => exact h
    · rcases List.mem_append.mp hk with hk | hk
      · exact .inr (move_lock hmove _ hk)
      · exact .inl hk
  | lockAdmission =>
    have hadmitted : Sound { w with admission := some n } := hs.congr rfl rfl rfl rfl
    refine hadmitted.put hc (fun _ => ⟨hsound.locked, hsound.keeps, fun hkind => ?_⟩) fun k hk => .inl hk
    cases honward hkind
  | docker call =>
    have hran : Sound { w with docker := w.docker.run call } := hs.congr rfl rfl rfl rfl
    refine hran.put hc (fun _ => ⟨hsound.locked, hsound.keeps, fun hkind => ?_⟩) fun k hk => .inl hk
    cases honward hkind
  | dockerFails call =>
    have hran : Sound { w with docker := w.docker.run call } := hs.congr rfl rfl rfl rfl
    exact hran.raised hc
  | write =>
    simp only [World.moved]
    split
    · obtain ⟨hunlocked, hkept⟩ := move_write hmove
      refine hs.put hc (fun _ => ⟨fun st' hst' => ?_, fun k loaded t hst' => ?_, fun hkind => ?_⟩) fun k hk => ?_
      · rcases List.mem_append.mp hst' with hst' | hst'
        · exact List.mem_cons_of_mem _ (hsound.locked st' hst')
        · rw [List.mem_singleton.mp hst']
          exact List.mem_cons_self
      · rcases List.mem_append.mp hst' with hst' | hst'
        · exact hsound.keeps k loaded t hst'
        · rw [hcode, hkept k loaded t (List.mem_singleton.mp hst').symm, keepsLive] at hkeep
          cases hrow : w.sandboxes.reservations.lookup k with
          | none =>
            rw [hrow] at hkeep
            cases hkeep
          | some row =>
            rw [hrow] at hkeep
            exact ⟨row, hrow, hkeep⟩
      · cases honward hkind with
        | writes h => exact h
      · rcases List.mem_cons.mp hk with hk | hk
        · rw [hk]
          exact .inr hunlocked
        · exact .inl hk
    · exact hs.raised hc
  | state =>
    refine hs.put hc (fun _ => ⟨fun st hst => ?_, hsound.keeps, fun hkind => ?_⟩) fun k hk => ?_
    · exact List.mem_cons_of_mem _ (hsound.locked st hst)
    · cases honward hkind with
      | states h => exact h
    · rcases List.mem_cons.mp hk with habsurd | hk
      · cases habsurd
      · exact .inl hk
  | commit =>
    refine hs.committed hc hcalm fun hkind => ?_
    cases honward hkind with
    | ends hrest hwrites hall => exact ⟨hrest, hwrites, hall⟩
  | give given =>
    have hgave : Sound { w with given := given :: w.given } := hs.congr rfl rfl rfl rfl
    refine hgave.put hc (fun _ => ⟨hsound.locked, hsound.keeps, fun hkind => ?_⟩) fun k hk => .inl hk
    cases honward hkind
  | stop =>
    refine hs.committed hc hcalm fun hkind => ?_
    cases honward hkind
  | raise => exact hs.raised hc

theorem isolate_sound {reservationId : Uuid} {reason : String} {s : Sandboxes} {u : Unit} (hs : Sound w)
    (hfree : (w.calls.entries.any fun e => e.2.locks.contains (.claim reservationId)) = false)
    (h : isolate reservationId reason w.sandboxes = .ok (u, s)) : Sound { w with sandboxes := s } := by
  obtain ⟨_, _, h⟩ := Tx.fetch_bind_ok.mp h
  obtain rfl := Tx.write_ok.mp h
  have hlookup (k : Uuid) : (lowerClaim reservationId (isolateLive reason) (isolateLive_lower reason) w.sandboxes).reservations.lookup k =
      if k = reservationId then (w.sandboxes.reservations.lookup k).map (isolateLive reason)
      else w.sandboxes.reservations.lookup k :=
    Table.lookup_modify _ _ _ _
  have hrow {k : Uuid} {row' : SandboxReservation}
      (hk : (lowerClaim reservationId (isolateLive reason) (isolateLive_lower reason) w.sandboxes).reservations.lookup k = some row') :
      ∃ row, w.sandboxes.reservations.lookup k = some row ∧ Lower row row' := by
    rw [hlookup] at hk
    split_ifs at hk
    · obtain ⟨row, hrow, rfl⟩ := Option.map_eq_some_iff.mp hk
      exact ⟨row, hrow, isolateLive_lower reason row⟩
    · exact ⟨row', hk, .refl row'⟩
  have hback : ∀ k, Live (lowerClaim reservationId (isolateLive reason) (isolateLive_lower reason) w.sandboxes) k →
      On w.host (lowerClaim reservationId (isolateLive reason) (isolateLive_lower reason) w.sandboxes) k →
      Live w.sandboxes k ∧ On w.host w.sandboxes k := by
    rintro k ⟨_, hrow', hlive⟩ ⟨_, sandbox, hrow'', hsandbox, hhost⟩
    obtain ⟨row, hrow₁, hlower⟩ := hrow hrow'
    cases hrow'.symm.trans hrow''
    rw [hlower.instanceId] at hsandbox
    exact ⟨⟨row, hrow₁, hlower.live hlive⟩, row, sandbox, hrow₁, hsandbox, hhost⟩
  exact {
    calls := fun m d hd => by
      refine (hs.calls m d hd).mono (fun k hk => ?_) fun _ => hback
      rw [hlookup, if_neg]
      rintro rfl
      have hunheld := List.any_eq_false.mp hfree ⟨m, d⟩ (AList.mem_lookup_iff.mp hd)
      exact hunheld (List.contains_iff_mem.mpr hk)
    exclusive := hs.exclusive
    gone := fun hgone k hk hon => by
      obtain ⟨hlive, hwas⟩ := hback k hk hon
      exact hs.gone hgone k hlive hwas }

theorem called_sound {kind : Kind} {began : Time} (hs : Sound w) (hnew : w.calls.lookup n = none) :
    Sound { w with calls := w.calls.insert n { kind, began, code := kind.code } } := by
  have hcalls (m : Nat) (d : Call) (hd : (w.calls.insert n { kind, began, code := kind.code }).lookup m = some d) :
      (m = n ∧ d = { kind, began, code := kind.code }) ∨ (m ≠ n ∧ w.calls.lookup m = some d) := by
    by_cases hm : m = n
    · subst hm
      rw [AList.lookup_insert] at hd
      exact .inl ⟨rfl, (Option.some.inj hd).symm⟩
    · rw [AList.lookup_insert_ne hm] at hd
      exact .inr ⟨hm, hd⟩
  refine hs.turn hcalls (fun _ => ?_) (fun m d _ hd => hs.calls m d hd) (fun m d k _ _ hk => (nomatch hk)) hs.gone
  · refine ⟨fun st hst => (nomatch hst), fun _ _ _ hst => (nomatch hst), fun hkind => ?_⟩
    have hkind : kind = .retire := hkind
    rw [hkind]
    exact .begins

theorem perform_sound {i : Input} (hs : Sound w) (h : perform w i = some w') (hcalm : Undisturbed ⟨w, i, (), w'⟩ = true) :
    Sound w' := by
  cases i with
  | tick =>
    simp only [perform] at h
    split_ifs at h
    cases h
    exact hs.congr rfl rfl rfl rfl
  | claimLease =>
    simp only [perform] at h
    split_ifs at h
    cases h
    exact hs.congr rfl rfl rfl rfl
  | renewLease =>
    simp only [perform] at h
    split at h
    · split_ifs at h
      cases h
      exact hs.congr rfl rfl rfl rfl
    · cases h
  | releaseLease =>
    simp only [perform] at h
    split at h
    · split_ifs at h
      cases h
      exact hs.congr rfl rfl rfl rfl
    · cases h
  | doom =>
    simp only [perform] at h
    split at h
    · split_ifs at h
      cases h
      exact hs.congr rfl rfl rfl rfl
    · cases h
  | isolate =>
    simp only [perform] at h
    split_ifs at h with hheld
    split at h
    · next hisolate =>
      cases h
      exact isolate_sound hs (Bool.eq_false_iff.mpr hheld) hisolate
    · cases h
  | call =>
    simp only [perform] at h
    split_ifs at h with hnew
    cases h
    exact (called_sound hs hnew.1).congr rfl rfl rfl rfl
  | run =>
    simp only [perform] at h
    split at h
    · next c hc =>
      split at h
      · cases h
      · next instr rest hcode =>
        obtain ⟨_, hmove, rfl⟩ := Option.map_eq_some_iff.mp h
        simp only [Undisturbed, hc, Bool.and_eq_true, Bool.or_eq_true, Bool.not_eq_true'] at hcalm
        refine moved_sound hs hc hcode hmove hcalm.1 fun hregisters => ?_
        rcases hcalm.2 with habsurd | ⟨hgone, hcounted⟩
        · rw [habsurd] at hregisters
          cases hregisters
        · refine ⟨hgone, fun m d hd => ?_⟩
          exact (Bool.not_eq_true' _).mp (List.all_eq_true.mp hcounted ⟨m, d⟩ (AList.mem_lookup_iff.mp hd))
    · cases h
  | fail =>
    simp only [perform] at h
    split at h
    · next c hc =>
      cases h
      exact hs.raised hc
    · cases h
  | crash =>
    simp only [perform] at h
    split at h
    · cases h
      exact hs.drop
    · cases h

end Steps

/-! Runs of a host. -/

/-- The claim `k` is there, and is released. -/
def Released (s : Sandboxes) (k : Uuid) : Prop := ∃ row, s.reservations.lookup k = some row ∧ row.status = .released

structure Settled (log : History) (w : World) : Prop where
  released : ∀ c ∈ log, ∀ k, Released c.after.sandboxes k → Released w.sandboxes k
  /-- From the commit of a retirement until the host is activated, no claim on it is live. -/
  retired : w.gone = true → liveOn w.host w.sandboxes = []

section Runs
variable {w w' : World} {n : Nat} {c : Call} {host : String} {networking : Bool} {log : History}

theorem raised_sandboxes : (w.raised n c).sandboxes = w.sandboxes := by
  unfold World.raised
  split <;> rfl

theorem moved_sandboxes {rest : List Instr} {mv : Move} :
    (w.moved n c rest mv).sandboxes = w.sandboxes ∨ applyAll w.sandboxes c.writes = some (w.moved n c rest mv).sandboxes := by
  have hcommitted (code : List Instr) : (w.committed n c code).sandboxes = w.sandboxes ∨
      applyAll w.sandboxes c.writes = some (w.committed n c code).sandboxes := by
    unfold World.committed
    split
    · next s hs => exact .inr hs
    · exact .inl raised_sandboxes
  cases mv with
  | go | lock | lockAdmission | docker | state | give => exact .inl rfl
  | dockerFails | raise => exact .inl raised_sandboxes
  | write =>
    simp only [World.moved]
    split
    · exact .inl rfl
    · exact .inl raised_sandboxes
  | commit => exact hcommitted _
  | stop => exact hcommitted _

theorem applyAll_settled {s : Sandboxes} {k : Uuid} (hsound : CallSound w.host w.sandboxes c)
    (h : applyAll w.sandboxes c.writes = some s) (hreleased : Released w.sandboxes k) : Released s k := by
  obtain ⟨_, hrow, hstatus⟩ := hreleased
  refine applyAll_released h (fun loaded t hkeep => ?_) hrow hstatus
  obtain ⟨_, hrow', hlive⟩ := hsound.keeps k loaded t hkeep
  cases hrow.symm.trans hrow'
  rw [hstatus] at hlive
  cases hlive

theorem perform_released {i : Input} {k : Uuid} (hs : Sound w) (h : perform w i = some w')
    (hreleased : Released w.sandboxes k) : Released w'.sandboxes k := by
  cases i with
  | tick | claimLease | call =>
    simp only [perform] at h
    split_ifs at h
    cases h
    exact hreleased
  | renewLease | releaseLease | doom =>
    simp only [perform] at h
    split at h
    · split_ifs at h
      cases h
      exact hreleased
    · cases h
  | isolate reservationId reason =>
    simp only [perform] at h
    split_ifs at h
    split at h
    · next hisolate =>
      cases h
      obtain ⟨_, _, hisolate⟩ := Tx.fetch_bind_ok.mp hisolate
      obtain rfl := Tx.write_ok.mp hisolate
      obtain ⟨row, hrow, hstatus⟩ := hreleased
      have hsame : isolateLive reason row = row := by
        rw [isolateLive, hstatus]
        rfl
      refine ⟨row, ?_, hstatus⟩
      change (w.sandboxes.reservations.modify reservationId (isolateLive reason)).lookup k = some row
      rw [Table.lookup_modify, hrow, Option.map_some, hsame, ite_self]
    · cases h
  | run n =>
    simp only [perform] at h
    split at h
    · next c hc =>
      split at h
      · cases h
      · next instr rest hcode =>
        obtain ⟨mv, _, rfl⟩ := Option.map_eq_some_iff.mp h
        rcases @moved_sandboxes w n c rest mv with hsame | happlied
        · rw [hsame]
          exact hreleased
        · exact applyAll_settled (hs.calls n c hc) happlied hreleased
    · cases h
  | fail =>
    simp only [perform] at h
    split at h
    · cases h
      rw [raised_sandboxes]
      exact hreleased
    · cases h
  | crash =>
    simp only [perform] at h
    split at h
    · cases h
      exact hreleased
    · cases h

theorem sound_start : Sound { host, networking } where
  calls _ _ hc := (nomatch hc)
  exclusive _ _ _ _ _ hc := (nomatch hc)
  gone hgone := (nomatch hgone)

theorem executes_sound (hrun : Executes host networking log w) (hcalm : ∀ c ∈ log, Undisturbed c = true) : Sound w := by
  have hstrong := hrun.strengthen (P := fun w i a w' => Undisturbed ⟨w, i, a, w'⟩ = true) hcalm
  exact hstrong.invariant sound_start fun w i _ w' hstep hs => perform_sound hs hstep.2 hstep.1

/-- Where every keep finds its claim live when it writes, and nothing is registered on a host that is being retired or
was, released claims and retired hosts stay what they are, in whatever order the statements come. -/
theorem claims_settled (hrun : Executes host networking log w) (hcalm : ∀ c ∈ log, Undisturbed c = true) :
    Settled log w where
  released c hc k hreleased := by
    induction hrun with
    | nil => cases hc
    | @snoc log w w' i _ hrun hstep ih =>
      have hcalm' : ∀ d ∈ log, Undisturbed d = true := fun d hd => hcalm d (List.mem_append_left _ hd)
      rcases List.mem_append.mp hc with hc | hc
      · exact perform_released (executes_sound hrun hcalm') hstep (ih hcalm' hc)
      · rw [List.mem_singleton.mp hc] at hreleased
        exact hreleased
  retired hgone := by
    have hs := executes_sound hrun hcalm
    refine List.eq_nil_iff_forall_not_mem.mpr fun ⟨k, row⟩ hmem => ?_
    obtain ⟨hlive, hon⟩ := mem_liveOn.mp ⟨row, hmem⟩
    exact hs.gone hgone k hlive hon

end Runs

section Example

def oneRoom : Acquiring where
  runId := 1
  leaseId := 2
  reservationId := 3
  instanceId := 4
  memoryMb := 512
  containerId := "box"

/-- Call `n` makes its next `count` statements. -/
def steps (n count : Nat) : List Input := List.replicate count (.run n .enough)

def built : List Input := [.claimLease 1 2 100, .call 0 (.acquire oneRoom)] ++ steps 0 16

def keptLate : List Input := built ++ [.call 1 (.keep 1 4 50)] ++ steps 1 2 ++ [.call 2 .retire] ++ steps 2 8 ++ steps 1 2

/-- The claim that the retirement released is live again, on a host that nobody will clean. -/
theorem keptLate_revived : ∃ log w, Executes "a" true log w ∧ ¬ Settled log w := by
  have hlate : (attempt "a" keptLate).2.gone = true ∧
      (liveOn (attempt "a" keptLate).2.host (attempt "a" keptLate).2.sandboxes).length = 1 := by decide +kernel
  have hrun := attempt_executes "a" keptLate
  generalize attempt "a" keptLate = run at hlate hrun
  refine ⟨run.1, run.2, hrun, fun hsettled => ?_⟩
  rw [hsettled.retired hlate.1] at hlate
  cases hlate.2

def keptEarly : List Input := built ++ [.call 1 (.keep 1 4 50)] ++ steps 1 4 ++ [.call 2 .retire] ++ steps 2 8

theorem keptEarly_settled :
    (attempt "a" keptEarly).2.gone = true ∧ (attempt "a" keptEarly).2.calls.entries.length = 0 ∧
      Settled (attempt "a" keptEarly).1 (attempt "a" keptEarly).2 := by
  refine ⟨by decide +kernel, by decide +kernel, claims_settled (attempt_executes "a" keptEarly) ?_⟩
  exact List.all_eq_true.mp (by decide +kernel : (attempt "a" keptEarly).1.all Undisturbed = true)

end Example

end TinyHermes.Sandbox.HostSteps
