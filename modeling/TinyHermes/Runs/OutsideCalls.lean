import TinyHermes.Runs.RunMoves
import TinyHermes.Runs.WorkerSlices

/-! Where the record of an outside call is, from its charge on. Four transactions take a round out of `inflight_round`: recording
it, telling it, sending its next call, and claiming the Run. -/
namespace TinyHermes.Runs.OutsideCalls
open Lib Tx Relation StateMachine SqlRunStore Interruption SlicePolicy RunMoves Worker

def callIds (turn : CanonicalMessage) : List String := turn.calls.map (·.callId)

def answeredIds (answers : CanonicalMessage) : List String := answers.results.map (·.callId)

def flying (v : RunView) : Option InFlightRound := v.row.bind (·.inflightRound)

def InFlightRound.held (r : InFlightRound) : List String := r.callId :: r.finished.map (·.callId)

section Remembering

def InTranscript (v : RunView) (c : OutsideCall) : Prop :=
  ∃ answers, [c.turn, answers] <:+: v.said ∧ c.callId ∈ answeredIds answers

def InFlight (v : RunView) (c : OutsideCall) : Prop :=
  ∃ row r, v.row = some row ∧ row.inflightRound = some r ∧ row.checkpointEffectStatus = .unknown ∧
    r.assistant = c.turn ∧ c.callId ∈ InFlightRound.held r

def Finished (v : RunView) : Prop := ∃ row, v.row = some row ∧ row.status.isTerminal = true

def Remembered (v : RunView) (c : OutsideCall) : Prop := InTranscript v c ∨ InFlight v c ∨ Finished v

def Answers (appended : List CanonicalMessage) (turn : CanonicalMessage) : Prop :=
  ∃ answers, [turn, answers] <:+: appended ∧ callIds turn ⊆ answeredIds answers

variable {v v' : RunView} {c : OutsideCall} {A : Allowed}

theorem InTranscript.said (h : InTranscript v c) (hsaid : v.said <+: v'.said) : InTranscript v' c := by
  obtain ⟨answers, hin, hid⟩ := h
  exact ⟨answers, hin.trans hsaid.isInfix, hid⟩

structure Carries (row row' : RunRow) : Prop where
  inflight : row'.inflightRound = row.inflightRound
  effect : row'.checkpointEffectStatus = row.checkpointEffectStatus
  finished : row.status.isTerminal = true → row'.status.isTerminal = true

theorem Remembered.carried (h : Remembered v c) (hsaid : v.said <+: v'.said)
    (hrow : ∀ row, v.row = some row → ∃ row', v'.row = some row' ∧ Carries row row') : Remembered v' c := by
  rcases h with hin | ⟨row, r, hr, hfly, heffect, hturn, hid⟩ | ⟨row, hr, hdone⟩
  · exact .inl (hin.said hsaid)
  · obtain ⟨row', hr', hk⟩ := hrow row hr
    exact .inr (.inl ⟨row', r, hr', hk.inflight.trans hfly, hk.effect.trans heffect, hturn, hid⟩)
  · obtain ⟨row', hr', hk⟩ := hrow row hr
    exact .inr (.inr ⟨row', hr', hk.finished hdone⟩)

theorem Remembered.answered {row : RunRow} {appended : List CanonicalMessage} (h : Remembered v c)
    (hc : c.callId ∈ callIds c.turn) (hrow : v.row = some row)
    (hanswers : ∀ r, row.inflightRound = some r → Answers appended r.assistant) (hsaid : v'.said = v.said ++ appended)
    (hfinished : Finished v → Finished v') : Remembered v' c := by
  rcases h with hin | ⟨_, r, hr, hfly, _, hturn, _⟩ | hdone
  · exact .inl (hin.said (hsaid ▸ List.prefix_append _ _))
  · cases hrow.symm.trans hr
    obtain ⟨answers, hin, hall⟩ := hanswers r hfly
    rw [hturn] at hin hall
    refine .inl ⟨answers, ?_, hall hc⟩
    rw [hsaid]
    exact hin.trans (List.suffix_append _ _).isInfix
  · exact .inr (.inr (hfinished hdone))

theorem Decides.live {row : RunRow} {signal : RunSignal} {d : StateDecision} (h : Decides row signal d) :
    row.status.isTerminal = false := by
  obtain ⟨_, _, _, _, hstate, hd⟩ := h
  rw [← hstate]
  exact decide_live hd

theorem decidedRow_carries {row : RunRow} {signal : RunSignal} {d : StateDecision} {policy : Option WaitPolicy}
    {now : Time} (h : Decides row signal d) : Carries row (decidedRow row d policy now) where
  inflight := rfl
  effect := rfl
  finished hdone := by
    rw [Decides.live h] at hdone
    cases hdone

def Quiet (A : Allowed) : Prop := ∀ r, ¬ A.sends r

/-- A Run is taken with nothing in flight, and whatever is recorded answers the calls in flight. -/
structure Covers (A : Allowed) (v : RunView) : Prop where
  claims : ∀ id, A.claims id → flying v = none
  records : ∀ cmd, A.records cmd → ∀ r, flying v = some r → Answers cmd.appended r.assistant

theorem flying_move (hA : Quiet A) (hmove : RunMove A v v') {r : InFlightRound} (h : flying v' = some r) :
    flying v = some r := by
  cases hmove with
  | beside hb =>
    have hrow := hb.row
    obtain ⟨_, hr', hfly⟩ := Option.bind_eq_some_iff.mp h
    rw [hr'] at hrow
    obtain ⟨row, hr, hk⟩ := hrow.to_some
    rw [hk] at hfly
    exact Option.bind_eq_some_iff.mpr ⟨row, hr, hfly⟩
  | born hnew hrow =>
    rw [flying, Option.bind_some, hrow.nothingSent] at h
    cases h
  | claimed => cases h
  | renewed => exact h
  | sent _ hsend => exact absurd hsend (hA _)
  | recorded => cases h
  | ended => cases h
  | signalled clears now hrow =>
    rw [flying, Option.bind_some, cleaned_inflightRound] at h
    rw [flying, hrow]
    exact h
  | swept now hrow =>
    rw [flying, hrow]
    exact h
  | reclaimed now hrow =>
    rw [flying, hrow]
    exact h
  | told => cases h

theorem remembered_move (hA : Quiet A) (hcovers : Covers A v) (hc : c.callId ∈ callIds c.turn)
    (hmove : RunMove A v v') (h : Remembered v c) : Remembered v' c := by
  cases hmove with
  | beside hb =>
    refine h.carried hb.said fun row hr => ?_
    have hrow := hb.row
    rw [hr] at hrow
    obtain ⟨row', hr', hk⟩ := hrow.of_some
    refine ⟨row', hr', ?_, ?_, fun hdone => ?_⟩
    · rw [hk]
    · rw [hk]
    · rw [hk]
      exact hdone
  | born hnew =>
    refine h.carried List.prefix_rfl fun row hr => ?_
    rw [hnew] at hr
    cases hr
  | @claimed row d lease now hrow hd hclaim =>
    refine h.carried List.prefix_rfl fun row₀ hr₀ => ?_
    cases hrow.symm.trans hr₀
    have hnone : row.inflightRound = none := by
      have hfly := hcovers.claims _ hclaim
      rwa [flying, hrow] at hfly
    refine ⟨_, rfl, hnone.symm, rfl, fun hdone => ?_⟩
    rw [Decides.live hd] at hdone
    cases hdone
  | renewed => exact h.carried List.prefix_rfl fun row hr => ⟨row, hr, rfl, rfl, id⟩
  | sent _ hsend => exact absurd hsend (hA _)
  | @recorded row lease cmd now hrow hrecord =>
    refine h.answered hc hrow (fun r hfly => hcovers.records cmd hrecord r ?_) rfl ?_
    · exact Option.bind_eq_some_iff.mpr ⟨row, hrow, hfly⟩
    · rintro ⟨row₀, hr₀, hdone⟩
      cases hrow.symm.trans hr₀
      exact ⟨_, rfl, hdone⟩
  | @ended row lease cmd signal d now hrow hrecord _ _ _ hd =>
    refine h.answered hc hrow (fun r hfly => hcovers.records cmd hrecord r ?_) rfl ?_
    · exact Option.bind_eq_some_iff.mpr ⟨row, hrow, hfly⟩
    · rintro ⟨row₀, hr₀, hdone⟩
      cases hrow.symm.trans hr₀
      rw [Decides.live hd] at hdone
      cases hdone
  | @signalled row signal d clears now hrow _ hd =>
    refine h.carried List.prefix_rfl fun row₀ hr₀ => ?_
    cases hrow.symm.trans hr₀
    have hk : Carries row (decidedRow row d none now) := decidedRow_carries hd
    refine ⟨_, rfl, ?_, ?_, ?_⟩
    · rw [cleaned_inflightRound]
      exact hk.inflight
    · rw [cleaned_checkpointEffectStatus]
      exact hk.effect
    · rw [cleaned_status]
      exact hk.finished
  | swept now hrow _ hd =>
    refine h.carried List.prefix_rfl fun row₀ hr₀ => ?_
    cases hrow.symm.trans hr₀
    exact ⟨_, rfl, decidedRow_carries hd⟩
  | reclaimed now hrow hd =>
    refine h.carried List.prefix_rfl fun row₀ hr₀ => ?_
    cases hrow.symm.trans hr₀
    exact ⟨_, rfl, decidedRow_carries hd⟩
  | @told row sending turn answers hrow hsending _ _ htold =>
    obtain ⟨hturn, hresults⟩ := toldAfterInterruption_results htold
    refine h.answered hc hrow (fun r hfly => ?_) rfl ?_
    · cases hsending.symm.trans hfly
      refine ⟨answers, hturn ▸ List.infix_rfl, fun id hid => ?_⟩
      rw [answeredIds, hresults, toldAnswers_callIds]
      exact hid
    · rintro ⟨_, hr₀, hdone⟩
      cases hrow.symm.trans hr₀
      exact ⟨_, rfl, hdone⟩

/-- The lease a slice works under, still its own and not released. -/
def Holds (v : RunView) (leaseId : Uuid) : Prop :=
  ∃ lease, v.lease = some lease ∧ lease.id = leaseId ∧ lease.releasedAt = none

theorem released_id (now : Time) (lease : WorkerLeaseRow) : (released now lease).id = lease.id := by
  unfold released
  split <;> rfl

theorem released_held {now : Time} {lease : WorkerLeaseRow} (h : (released now lease).releasedAt = none) :
    lease.releasedAt = none := by
  unfold released at h
  split at h
  · assumption
  · exact h

theorem Holds.of_released {leaseId : Uuid} (now : Time) (hlease : v'.lease = v.lease.map (released now))
    (h : Holds v' leaseId) : Holds v leaseId := by
  obtain ⟨_, hl, hid, hfree⟩ := h
  rw [hlease] at hl
  obtain ⟨lease, hbefore, rfl⟩ := Option.map_eq_some_iff.mp hl
  rw [released_id] at hid
  exact ⟨lease, hbefore, hid, released_held hfree⟩

theorem holds_move {leaseId : Uuid} (hA : ¬ A.claims leaseId) (hmove : RunMove A v v') (h : Holds v' leaseId) :
    Holds v leaseId := by
  cases hmove with
  | beside hb =>
    obtain ⟨lease, hl, hrest⟩ := h
    exact ⟨lease, hb.lease ▸ hl, hrest⟩
  | born => exact h
  | claimed now _ _ hclaim =>
    obtain ⟨lease, hl, rfl, _⟩ := h
    cases hl
    exact absurd hclaim hA
  | @renewed lease lease' hlease hheld hid _ =>
    obtain ⟨_, hl, hid₀, _⟩ := h
    cases hl
    exact ⟨lease, hlease, hid.symm.trans hid₀, hheld⟩
  | sent => exact h
  | recorded => exact h
  | @ended row lease cmd signal d now _ _ _ hlease =>
    exact Holds.of_released now (by rw [hlease]; rfl) h
  | @signalled row signal d clears now =>
    by_cases hs : d.state = .running
    · obtain ⟨lease, hl, hrest⟩ := h
      rw [if_pos hs] at hl
      exact ⟨lease, hl, hrest⟩
    · exact Holds.of_released now (if_neg hs) h
  | swept => exact h
  | @reclaimed row d now => exact Holds.of_released now rfl h
  | told => exact h

end Remembering

section Transactions
variable {env : Env} {s s' : Store} {u : Unit} {cmd : RecordSliceCommand}

def recording (cmd : RecordSliceCommand) (id : Uuid) : Allowed where
  records := fun c => c.runId = id ∧ c = cmd
  applies := fun _ => True

theorem recording_quiet (cmd : RecordSliceCommand) (id : Uuid) : Quiet (recording cmd id) := fun _ h => h

theorem recordSlice_holds (h : recordSlice env cmd s = .ok (u, s')) : Holds (view s cmd.runId) cmd.leaseId := by
  obtain ⟨_, lease, _, held, _⟩ := recordSlice_cases h
  exact ⟨lease, held.leased, held.leaseId, held.unreleased⟩

theorem flying_none_moves {A : Uuid → Allowed} {id : Uuid} (hA : ∀ id, Quiet (A id)) (hmoves : Moving A s s')
    (h : flying (view s id) = none) : flying (view s' id) = none := by
  apply keep_moves (I := fun v => flying v = none) ?_ (hmoves id) h
  intro _ _ hmove hnone
  by_contra hsome
  obtain ⟨_, hr⟩ := Option.ne_none_iff_exists'.mp hsome
  rw [flying_move (hA id) hmove hr] at hnone
  cases hnone

theorem recordSlice_lands (h : recordSlice env cmd s = .ok (u, s')) : flying (view s' cmd.runId) = none := by
  obtain ⟨row, _, s₁, held, hruns, _, _, _, _, hrest⟩ := recordSlice_cases h
  have hrow : s₁.runs.lookup cmd.runId = some (checkpointed cmd env.now row) := by
    rw [hruns, Table.lookup_modify_self, held.stored]
    rfl
  rcases hrest with ⟨_, hev⟩ | ⟨_, _, hend⟩
  · refine flying_none_moves (recording_quiet cmd) (appendEvents_moves hev) ?_
    change (s₁.runs.lookup cmd.runId).bind _ = none
    rw [hrow]
    rfl
  · obtain ⟨_, _, _, hrow₁, _, hrow', hb, _⟩ := endSlice_cases hend
    cases hrow.symm.trans hrow₁
    change (s'.runs.lookup cmd.runId).bind _ = none
    rw [hrow', Option.bind_some, hb]
    rfl

theorem recordRound_holds (h : recordRound env cmd s = .ok (u, s')) : Holds (view s cmd.runId) cmd.leaseId := by
  obtain ⟨_, _, hrec, _⟩ := bind_ok.mp h
  exact recordSlice_holds hrec

theorem recordRound_lands (h : recordRound env cmd s = .ok (u, s')) : flying (view s' cmd.runId) = none := by
  obtain ⟨_, s₁, hrec, hrest⟩ := bind_ok.mp h
  have hmoves : Moving (recording cmd) s₁ s' := Within.onlyIf (fun _ => applySignal_moves trivial) hrest
  exact flying_none_moves (recording_quiet cmd) hmoves (recordSlice_lands hrec)

/-- `_record` of a cancellation ends the Run in the same transaction. -/
theorem recordRound_cancels (hsignal : cmd.signal = some .safeCancelStarted) (h : recordRound env cmd s = .ok (u, s')) :
    Finished (view s' cmd.runId) := by
  obtain ⟨_, _, _, hrest⟩ := bind_ok.mp h
  rcases onlyIf_ok.mp hrest with ⟨_, happly⟩ | ⟨hnot, _⟩
  · obtain ⟨row, d, row', _, hd, _, hrow', hb, _⟩ := applySignal_cases happly
    refine ⟨row', hrow', ?_⟩
    have hcancelled : d.state = .cancelled := by
      rcases hd.cases with ⟨_, _, hs | hs⟩ | ht
      · cases hs
      · cases hs
      · cases hst : row.status <;> simp [hst, transitions] at ht
        exact ht.symm
    rw [hb]
    change (cleaned _ (decidedRow row d none env.now)).status.isTerminal = true
    rw [cleaned_status]
    change d.state.isTerminal = true
    rw [hcancelled]
    rfl
  · exact absurd hsignal hnot

theorem commitCheckpoint_cases {commit : CommitCheckpoint} (h : commitCheckpoint env commit s = .ok (true, s')) :
    ∃ s₁ s₂, (∀ id, (view s₁ id).row = (view s id).row ∧ (view s₁ id).lease = (view s id).lease) ∧
      recordSlice env commit.slice s₁ = .ok ((), s₂) ∧ Moving (recording commit.slice) s₂ s' := by
  simp only [commitCheckpoint, lockSession, fetch_bind_ok] at h
  obtain ⟨_, _, h⟩ := h
  split at h
  · obtain ⟨hfalse, _⟩ := pure_ok.mp h
    cases hfalse
  · simp only [mint, modifySession, bind_assoc, get_bind, require_bind_ok, write_bind] at h
    obtain ⟨_, h⟩ := h
    obtain ⟨⟨⟩, s₂, hrec, h⟩ := bind_ok.mp h
    refine ⟨_, s₂, ?_, hrec, ?_⟩
    · exact fun id => ⟨rfl, rfl⟩
    · obtain ⟨_, _, hmod, hpure⟩ := bind_ok.mp h
      obtain ⟨_, rfl⟩ := pure_ok.mp hpure
      refine modifyRun_moves (fun row => ?_) hmod
      rfl

end Transactions

section Slices
variable {v v' : RunView} {w w' : World} {calls : List OutsideCall} {leaseId : Uuid} {phase : Phase} {env : Env}

/-- What binds a slice to the Run it holds: between rounds nothing is in flight, and a round being answered
has nothing in flight but its own calls. -/
def PhaseSound (v : RunView) (leaseId : Uuid) : Phase → Prop
  | .between => Holds v leaseId → flying v = none
  | .answering turn results rest sent =>
    turn.role = .assistant ∧ results.map (·.callId) ++ rest.map (·.callId) = callIds turn ∧
      (Holds v leaseId → ∀ r, flying v = some r → r.assistant = turn ∧
        InFlightRound.held r ⊆ results.map (·.callId) ++ (if sent then (rest.map (·.callId)).take 1 else []))
  | .applying _ => True

theorem PhaseSound.later (h : PhaseSound v leaseId phase)
    (hheld : Holds v' leaseId → Holds v leaseId ∧ ∀ r, flying v' = some r → flying v = some r) :
    PhaseSound v' leaseId phase := by
  cases phase with
  | between =>
    intro hh
    obtain ⟨hbefore, hfly⟩ := hheld hh
    by_contra hsome
    obtain ⟨r, hr⟩ := Option.ne_none_iff_exists'.mp hsome
    have hnone := h hbefore
    rw [hfly r hr] at hnone
    cases hnone
  | answering =>
    obtain ⟨hrole, hids, hown⟩ := h
    refine ⟨hrole, hids, fun hh r hr => ?_⟩
    obtain ⟨hbefore, hfly⟩ := hheld hh
    exact hown hbefore r (hfly r hr)
  | applying => trivial

structure Sound (w : World) (calls : List OutsideCall) : Prop where
  slices : ∀ leaseId slice, w.slices.lookup leaseId = some slice →
    PhaseSound (view w.store slice.runId) leaseId slice.phase
  asked : ∀ c ∈ calls, c.callId ∈ callIds c.turn
  remembered : ∀ c ∈ calls, Remembered (view w.store c.runId) c

theorem Sound.transact {A : Uuid → Allowed} {s' : Store} (h : Sound w calls) (hmoves : Moving A w.store s')
    (hA : ∀ id, Quiet (A id))
    (hclaims : ∀ leaseId slice, w.slices.lookup leaseId = some slice → ¬ (A slice.runId).claims leaseId)
    (hcovers : ∀ id, Covers (A id) (view w.store id) ∨ Finished (view s' id)) :
    Sound { w with store := s' } calls where
  slices leaseId slice hslice := by
    apply (h.slices leaseId slice hslice).later
    intro hh
    constructor
    · have hkeep := keep_moves (I := fun v => Holds v leaseId → Holds (view w.store slice.runId) leaseId)
        (fun v v' hmove hv hv' => hv (holds_move (hclaims leaseId slice hslice) hmove hv')) (hmoves slice.runId) id
      exact hkeep hh
    · intro r hr
      have hkeep := keep_moves (I := fun v => flying v = some r → flying (view w.store slice.runId) = some r)
        (fun v v' hmove hv hv' => hv (flying_move (hA slice.runId) hmove hv')) (hmoves slice.runId) id
      exact hkeep hr
  asked := h.asked
  remembered c hc := by
    rcases hcovers c.runId with hcov | hdone
    · have hkeep := keep_moves (I := fun v => Covers (A c.runId) v ∧ Remembered v c)
        (fun v v' hmove hv => ?_) (hmoves c.runId) ⟨hcov, h.remembered c hc⟩
      · exact hkeep.2
      · have hfly := fun r => flying_move (r := r) (hA c.runId) hmove
        refine ⟨⟨fun id hid => ?_, fun cmd hcmd r hr => hv.1.records cmd hcmd r (hfly r hr)⟩, ?_⟩
        · by_contra hsome
          obtain ⟨r, hr⟩ := Option.ne_none_iff_exists'.mp hsome
          have hnone := hv.1.claims id hid
          rw [hfly r hr] at hnone
          cases hnone
        · exact remembered_move (hA _) hv.1 (h.asked c hc) hmove hv.2
    · exact .inr (.inr hdone)

theorem Sound.setPhase (h : Sound w calls)
    (hphase : ∀ slice, w.slices.lookup leaseId = some slice → PhaseSound (view w.store slice.runId) leaseId phase) :
    Sound { w with slices := w.slices.modify leaseId fun slice => { slice with phase } } calls where
  slices leaseId' slice hslice := by
    by_cases hid : leaseId' = leaseId
    · subst hid
      rw [Table.lookup_modify_self] at hslice
      obtain ⟨before, hbefore, rfl⟩ := Option.map_eq_some_iff.mp hslice
      exact hphase before hbefore
    · rw [Table.lookup_modify_of_ne hid] at hslice
      exact h.slices leaseId' slice hslice
  asked := h.asked
  remembered := h.remembered

theorem Sound.enter {slice : Slice} (h : Sound { w with slices := w.slices.erase leaseId } calls)
    (hphase : PhaseSound (view w.store slice.runId) leaseId slice.phase) :
    Sound { w with slices := w.slices.insert leaseId slice } calls where
  slices leaseId' slice' hslice' := by
    by_cases hid : leaseId' = leaseId
    · subst hid
      rw [AList.lookup_insert] at hslice'
      cases hslice'
      exact hphase
    · rw [AList.lookup_insert_ne hid] at hslice'
      exact h.slices leaseId' slice' ((AList.lookup_erase_ne hid).trans hslice')
  asked := h.asked
  remembered := h.remembered

theorem Sound.leave (h : Sound w calls) : Sound { w with slices := w.slices.erase leaseId } calls where
  slices leaseId' slice hslice := by
    by_cases hid : leaseId' = leaseId
    · subst hid
      rw [AList.lookup_erase] at hslice
      cases hslice
    · rw [AList.lookup_erase_ne hid] at hslice
      exact h.slices leaseId' slice hslice
  asked := h.asked
  remembered := h.remembered

end Slices

section Rounds
variable {turn answers : CanonicalMessage} {results : List ToolResultBlock} {notes : List String}
  {instruction : Option String}

theorem toolTurn_some (h : toolTurn results = some answers) : answers.role = .tool ∧ answers.results = results := by
  unfold toolTurn at h
  split at h
  · cases h
    refine ⟨rfl, ?_⟩
    rw [CanonicalMessage.results, List.filterMap_map]
    exact List.filterMap_some
  · cases h

theorem noteFirst_callIds (message : String) (blocks : List Block) :
    ((noteFirst message blocks).filterMap Block.result?).map (·.callId) =
      (blocks.filterMap Block.result?).map (·.callId) := by
  induction blocks with
  | nil => rfl
  | cons block rest ih => cases block <;> simp [noteFirst, List.filterMap_cons, Block.result?, ih]

theorem roundTurns_cons (notes : List String) (instruction : Option String) (hturn : turn.role = .assistant)
    (hrole : answers.role = .tool) :
    ∃ noted rest, roundTurns turn answers notes instruction = turn :: noted :: rest ∧ noted.role = .tool ∧
      answeredIds noted = answeredIds answers := by
  unfold roundTurns
  split_ifs with hnotes
  · exact ⟨answers, _, rfl, hrole, rfl⟩
  · simp only [withNotes, hturn, hrole, reduceCtorEq, if_false, if_true, ite_self, List.cons_append]
    refine ⟨_, _, rfl, rfl, ?_⟩
    exact noteFirst_callIds _ _

theorem rolledBack_callIds (reason : String) (blocks : List Block) :
    ((blocks.map (rolledBack reason)).filterMap Block.result?).map (·.callId) =
      (blocks.filterMap Block.result?).map (·.callId) := by
  induction blocks with
  | nil => rfl
  | cons block rest ih =>
    simp only [List.filterMap_map] at ih ⊢
    cases block <;> simp [rolledBack, List.filterMap_cons, Block.result?, ih]

theorem answers_cons {noted : CanonicalMessage} {rest : List CanonicalMessage}
    (hids : callIds turn ⊆ answeredIds noted) : Answers (turn :: noted :: rest) turn :=
  ⟨noted, (List.prefix_append [turn, noted] rest).isInfix, hids⟩

theorem roundTurns_answers (hturn : turn.role = .assistant) (hrole : answers.role = .tool)
    (hids : callIds turn ⊆ answeredIds answers) : Answers (roundTurns turn answers notes instruction) turn := by
  obtain ⟨_, _, heq, _, hnoted⟩ := roundTurns_cons notes instruction hturn hrole
  rw [heq]
  exact answers_cons (hnoted ▸ hids)

theorem withRollbackResults_answers {reason : String} (hturn : turn.role = .assistant) (hrole : answers.role = .tool)
    (hids : callIds turn ⊆ answeredIds answers) :
    Answers (withRollbackResults reason (roundTurns turn answers notes instruction)) turn := by
  obtain ⟨_, _, heq, htool, hnoted⟩ := roundTurns_cons notes instruction hturn hrole
  rw [heq]
  simp only [withRollbackResults, List.map_cons, hturn, htool, reduceCtorEq, if_false, if_true]
  apply answers_cons
  rw [← hnoted] at hids
  refine fun id hid => ?_
  have hin := hids hid
  rw [answeredIds, CanonicalMessage.results] at hin ⊢
  rwa [rolledBack_callIds]

end Rounds

section Acts
variable {w w' : World} {calls : List OutsideCall} {leaseId : Uuid} {env : Env} {u : Unit} {slice : Slice}

theorem recordAs_sound {cmd : RecordSliceCommand} {next : List ApplySignalCommand} (h : Sound w calls)
    (hslice : w.slices.lookup leaseId = some slice) (hrun : cmd.runId = slice.runId) (hlease : cmd.leaseId = leaseId)
    (hcovers : Holds (view w.store slice.runId) leaseId →
      (∀ r, flying (view w.store slice.runId) = some r → Answers cmd.appended r.assistant) ∨
        cmd.signal = some .safeCancelStarted)
    (hrec : recordAs env leaseId cmd next w = .ok (u, w')) : Sound w' calls := by
  obtain ⟨_, s₁, hround, hrest⟩ := onStore_bind_ok.mp hrec
  have hholds := recordRound_holds hround
  rw [hrun, hlease] at hholds
  have hs : Sound { w with store := s₁ } calls := by
    apply h.transact (recordRound_moves (A := recording cmd) ⟨rfl, rfl⟩ (fun _ => trivial) hround)
      (recording_quiet cmd) fun _ _ _ hclaim => hclaim
    intro id
    by_cases hid : id = cmd.runId
    · subst hid
      rcases hcovers hholds with hall | hcancel
      · refine .inl ⟨fun _ hclaim => hclaim.elim, ?_⟩
        rintro _ ⟨_, rfl⟩ r hr
        rw [hrun] at hr
        exact hall r hr
      · exact .inr (recordRound_cancels hcancel hround)
    · refine .inl ⟨fun _ hclaim => hclaim.elim, ?_⟩
      rintro _ ⟨hid', rfl⟩
      exact absurd hid'.symm hid
  cases hsignal : cmd.signal with
  | none =>
    simp only [hsignal, Worker.setPhase, write_ok] at hrest
    rw [hrest]
    apply hs.setPhase
    intro _ hslice' _
    cases hslice.symm.trans hslice'
    rw [← hrun]
    exact recordRound_lands hround
  | some =>
    cases next with
    | nil =>
      simp only [hsignal, Worker.leave, write_ok] at hrest
      rw [hrest]
      exact hs.leave
    | cons =>
      simp only [hsignal, Worker.setPhase, write_ok] at hrest
      rw [hrest]
      exact hs.setPhase fun _ _ => trivial

theorem answeredRound_answers {done : Answered} (h : Sound w calls) (hslice : w.slices.lookup leaseId = some slice)
    (hdone : answeredRound slice = some done) :
    done.turn.role = .assistant ∧ done.answers.role = .tool ∧ callIds done.turn ⊆ answeredIds done.answers ∧
      (Holds (view w.store slice.runId) leaseId →
        ∀ r, flying (view w.store slice.runId) = some r → r.assistant = done.turn) := by
  have hphase := h.slices leaseId slice hslice
  unfold answeredRound at hdone
  split at hdone
  · next turn results sent hp =>
    obtain ⟨_, htool, rfl⟩ := Option.map_eq_some_iff.mp hdone
    rw [hp] at hphase
    obtain ⟨hrole, hids, hown⟩ := hphase
    obtain ⟨hanswers, hresults⟩ := toolTurn_some htool
    refine ⟨hrole, hanswers, ?_, fun hh r hr => (hown hh r hr).1⟩
    intro _ hid
    rw [answeredIds, hresults]
    rw [← hids, List.map_nil, List.append_nil] at hid
    exact hid
  · cases hdone

theorem claim_sound {cmd : ClaimRunCommand} (h : Sound w calls)
    (hcareful : (claimableWithinLimits env w.store cmd claimAttempts {}).all (fun e => e.2.inflightRound.isNone) = true)
    (hclaim : claim env cmd leaseId w = .ok (u, w')) : Sound w' calls := by
  obtain ⟨answer, s₁, hhead, hrest⟩ := onStore_bind_ok.mp hclaim
  cases answer with
  | none =>
    obtain ⟨_, rfl⟩ := pure_ok.mp hrest
    rcases claimHead_spec hhead with ⟨_, rfl⟩ | ⟨_, _, _, _, _, _, _, _, hsome, _⟩
    · exact h
    · cases hsome
  | some claimed =>
    simp only [fetch_bind_ok, write_ok] at hrest
    obtain ⟨_, _, rfl⟩ := hrest
    obtain ⟨_, hsel, hrun⟩ := claimHead_selects hhead
    have hnone : flying (view w.store claimed.runId) = none := by
      rw [hsel] at hcareful
      change (w.store.runs.lookup claimed.runId).bind _ = none
      rw [hrun]
      exact Option.isNone_iff_eq_none.mp hcareful
    have hquiet : ∀ id, Quiet { claims := fun lease => lease = leaseId ∧ id = claimed.runId } := fun _ _ hs => hs
    have hmoves : Moving (fun id => { claims := fun lease => lease = leaseId ∧ id = claimed.runId }) w.store s₁ := by
      apply claimHead_moves_taken hhead
      rintro _ heq
      cases heq
      exact ⟨rfl, rfl⟩
    -- whoever worked under this lease id before is gone: the id was drawn just now
    have hleft : Sound { w with slices := w.slices.erase leaseId } calls := h.leave
    have htaken : Sound { store := s₁, slices := w.slices.erase leaseId } calls := by
      refine hleft.transact hmoves hquiet ?_ fun id => .inl ⟨?_, fun _ hr => hr.elim⟩
      · rintro _ _ hslice ⟨rfl, _⟩
        rw [AList.lookup_erase] at hslice
        cases hslice
      · rintro _ ⟨_, rfl⟩
        exact hnone
    apply Sound.enter (w := { w with store := s₁ }) htaken
    intro _
    exact flying_none_moves hquiet hmoves hnone

theorem respond_sound {turn : CanonicalMessage} (h : Sound w calls) (hrespond : respond leaseId turn w = .ok (u, w')) :
    Sound w' calls := by
  simp only [respond, sliceOf, fetch_bind_ok] at hrespond
  obtain ⟨slice, hslice, hrest⟩ := hrespond
  cases hphase : slice.phase with
  | between =>
    simp only [hphase, Worker.setPhase, require_bind_ok, write_ok] at hrest
    obtain ⟨hrole, rfl⟩ := hrest
    apply h.setPhase
    intro _ hslice'
    cases hslice.symm.trans hslice'
    refine ⟨hrole, List.nil_append _, fun hh r hr => ?_⟩
    have hnone := h.slices leaseId slice hslice
    rw [hphase] at hnone
    rw [hnone hh] at hr
    cases hr
  | answering =>
    rw [hphase] at hrest
    exact absurd hrest throw_ok
  | applying =>
    rw [hphase] at hrest
    exact absurd hrest throw_ok

theorem PhaseSound.answered {v : RunView} {turn : CanonicalMessage} {results : List ToolResultBlock} {call : ToolCallBlock}
    {rest : List ToolCallBlock} {sent : Bool} {result : ToolResultBlock}
    (h : PhaseSound v leaseId (.answering turn results (call :: rest) sent)) (hid : result.callId = call.callId) :
    PhaseSound v leaseId (.answering turn (results ++ [result]) rest false) := by
  obtain ⟨hrole, hids, hown⟩ := h
  refine ⟨hrole, ?_, fun hh r hr => ⟨(hown hh r hr).1, ?_⟩⟩
  · rw [← hids]
    simp [hid]
  · intro _ hx
    have hin := (hown hh r hr).2 hx
    cases sent <;> simp [hid] at hin ⊢
    · exact .inl hin
    · exact hin

theorem answer_sound {result : ToolResultBlock} (h : Sound w calls) (hanswer : answer leaseId result w = .ok (u, w')) :
    Sound w' calls := by
  simp only [answer, sliceOf, fetch_bind_ok] at hanswer
  obtain ⟨slice, hslice, hrest⟩ := hanswer
  have hsound := h.slices leaseId slice hslice
  rcases hphase : slice.phase with _ | ⟨_, _, _ | ⟨_, _⟩, _⟩ | _ <;> rw [hphase] at hrest hsound
  · exact absurd hrest throw_ok
  · exact absurd hrest throw_ok
  · simp only [Worker.setPhase, require_bind_ok, write_ok] at hrest
    obtain ⟨hid, rfl⟩ := hrest
    apply h.setPhase
    intro _ hslice'
    cases hslice.symm.trans hslice'
    exact hsound.answered hid
  · exact absurd hrest throw_ok

theorem Remembered.sent {v v' : RunView} {row : RunRow} {c : OutsideCall} {recorded : InFlightRound}
    {waiting : List InterruptedWrite} (h : Remembered v c) (hrow : v.row = some row)
    (hrow' : v'.row = some (sentRow recorded waiting row)) (hsaid : v'.said = v.said)
    (hheld : ∀ r, row.inflightRound = some r → r.assistant = recorded.assistant ∧
      InFlightRound.held r ⊆ recorded.finished.map (·.callId)) : Remembered v' c := by
  rcases h with hin | ⟨row₀, r, hr, hfly, _, hturn, hid⟩ | ⟨_, hr, hdone⟩
  · exact .inl (hin.said (hsaid ▸ List.prefix_rfl))
  · cases hrow.symm.trans hr
    obtain ⟨hsame, hsub⟩ := hheld r hfly
    exact .inr (.inl ⟨_, recorded, hrow', rfl, rfl, hsame.symm.trans hturn, List.mem_cons_of_mem _ (hsub hid)⟩)
  · cases hrow.symm.trans hr
    exact .inr (.inr ⟨_, hrow', hdone⟩)

theorem Sound.sent {turn : CanonicalMessage} {results : List ToolResultBlock} {call : ToolCallBlock}
    {rest : List ToolCallBlock} {row : RunRow} {recorded : InFlightRound} {waiting : List InterruptedWrite}
    {budgets : Table Uuid RunBudgetScopeRow} {drawn : List Uuid} (h : Sound w calls)
    (hslice : w.slices.lookup leaseId = some slice) (hphase : slice.phase = .answering turn results (call :: rest) false)
    (hrow : w.store.runs.lookup slice.runId = some row) (hholds : Holds (view w.store slice.runId) leaseId)
    (hturn : recorded.assistant = turn) (hheld : InFlightRound.held recorded = call.callId :: results.map (·.callId)) :
    Sound
      { store := { w.store with budgets, drawn, runs := w.store.runs.modify slice.runId (sentRow recorded waiting) }
        slices := w.slices.modify leaseId fun slice =>
          { slice with phase := .answering turn results (call :: rest) true } }
      (calls ++ [{ runId := slice.runId, turn := turn, callId := call.callId }]) := by
  have hsound := h.slices leaseId slice hslice
  rw [hphase] at hsound
  obtain ⟨hrole, hids, hown⟩ := hsound
  have hrow' : (w.store.runs.modify slice.runId (sentRow recorded waiting)).lookup slice.runId =
      some (sentRow recorded waiting row) := by
    rw [Table.lookup_modify_self, hrow]
    rfl
  refine ⟨fun leaseId' slice' hslice' => ?_, fun c hc => ?_, fun c hc => ?_⟩
  · by_cases hid : leaseId' = leaseId
    · subst hid
      rw [Table.lookup_modify_self, hslice] at hslice'
      cases hslice'
      refine ⟨hrole, hids, fun _ r hr => ?_⟩
      change ((w.store.runs.modify slice.runId _).lookup slice.runId).bind _ = some r at hr
      rw [hrow'] at hr
      cases hr
      refine ⟨hturn, ?_⟩
      rw [hheld]
      intro x hx
      simpa [or_comm] using hx
    · rw [Table.lookup_modify_of_ne hid] at hslice'
      apply (h.slices leaseId' slice' hslice').later
      rintro ⟨lease', hlease', hleaseId', hheld'⟩
      refine ⟨⟨lease', hlease', hleaseId', hheld'⟩, fun r hr => ?_⟩
      by_cases hrun : slice'.runId = slice.runId
      · -- the Run is held under another lease, so this slice has lost it
        obtain ⟨_, hlease, hleaseId, _⟩ := hholds
        rw [hrun] at hlease'
        cases hlease.symm.trans hlease'
        exact absurd (hleaseId'.symm.trans hleaseId) hid
      · change ((w.store.runs.modify slice.runId _).lookup slice'.runId).bind _ = some r at hr
        rw [Table.lookup_modify_of_ne hrun] at hr
        exact hr
  · rcases List.mem_append.mp hc with hc | hc
    · exact h.asked c hc
    · obtain rfl := List.mem_singleton.mp hc
      rw [← hids]
      simp
  · rcases List.mem_append.mp hc with hc | hc
    · by_cases hrun : c.runId = slice.runId
      · have hrow₀ : (view w.store c.runId).row = some row := hrun ▸ hrow
        refine (h.remembered c hc).sent hrow₀ (?_ : _ = some (sentRow recorded waiting row)) rfl ?_
        · rw [hrun]
          exact hrow'
        · intro r hr
          obtain ⟨hsame, hsub⟩ := hown hholds r (Option.bind_eq_some_iff.mpr ⟨row, hrow, hr⟩)
          refine ⟨hsame.trans hturn.symm, fun x hx => ?_⟩
          have htail : recorded.finished.map (·.callId) = results.map (·.callId) := (List.cons.inj hheld).2
          rw [htail]
          simpa using hsub hx
      · refine (h.remembered c hc).carried ?_ fun row₀ hr₀ => ⟨row₀, ?_, rfl, rfl, id⟩
        · exact List.prefix_rfl
        · exact (Table.lookup_modify_of_ne hrun _ _).trans hr₀
    · obtain rfl := List.mem_singleton.mp hc
      refine .inr (.inl ⟨_, recorded, hrow', rfl, rfl, hturn, ?_⟩)
      rw [hheld]
      exact List.mem_cons_self

theorem send_sound {fingerprint : Option String} {newKey : Uuid} {answer : Option OutsideCall} (h : Sound w calls)
    (hsend : send env leaseId fingerprint newKey w = .ok (answer, w')) : Sound w' (calls ++ answer.toList) := by
  simp only [send, sliceOf, fetch_bind_ok] at hsend
  obtain ⟨slice, hslice, hrest⟩ := hsend
  have hsound := h.slices leaseId slice hslice
  rcases hphase : slice.phase with _ | ⟨_, _, _ | ⟨_, _⟩, _ | _⟩ | _ <;> rw [hphase] at hrest hsound
  · exact absurd hrest throw_ok
  · exact absurd hrest throw_ok
  · exact absurd hrest throw_ok
  · obtain ⟨_, _, hreserve, hrest⟩ := onStore_bind_ok.mp hrest
    obtain ⟨_, lease, budgets, hrow, hlease, hleaseId, hheld, _, hcase⟩ := reserveOutsideCall_spec hreserve
    rcases hcase with ⟨rfl, rfl⟩ | ⟨_, _, _, _, rfl, rfl⟩
    · simp only [Worker.setPhase, write_bind, pure_ok] at hrest
      obtain ⟨rfl, rfl⟩ := hrest
      rw [Option.toList_none, List.append_nil]
      have hcharged : Sound { w with store := { w.store with budgets } } calls := ⟨h.slices, h.asked, h.remembered⟩
      apply hcharged.setPhase
      intro _ hslice'
      cases hslice.symm.trans hslice'
      exact hsound.answered rfl
    · simp only [Worker.setPhase, write_bind, pure_ok] at hrest
      obtain ⟨rfl, rfl⟩ := hrest
      exact h.sent hslice hphase hrow ⟨lease, hlease, hleaseId, hheld⟩ rfl rfl
  · exact absurd hrest throw_ok
  · exact absurd hrest throw_ok

variable {round : Round} {outcome : RoundOutcome} {instruction : Option String}

theorem recordCalls_sound {closed : Bool} {notes : List String}
    (h : Sound w calls)
    (hrec : recordCalls env leaseId round outcome closed notes instruction w = .ok (u, w')) : Sound w' calls := by
  simp only [recordCalls, sliceOf, fetch_bind_ok] at hrec
  obtain ⟨_, hslice, _, hdone, hrec⟩ := hrec
  obtain ⟨hturn, hrole, hids, hown⟩ := answeredRound_answers h hslice hdone
  refine recordAs_sound h hslice rfl rfl (fun hh => .inl fun r hr => ?_) hrec
  rw [hown hh r hr]
  exact roundTurns_answers hturn hrole hids

theorem rollBack_sound {notes : List String} {reason : String}
    {target : Option WorkspaceCleanupTarget} {sandboxId : Uuid} (h : Sound w calls)
    (hrec : rollBack env leaseId round notes instruction reason target sandboxId w = .ok (u, w')) : Sound w' calls := by
  simp only [rollBack, sliceOf, fetch_bind_ok] at hrec
  obtain ⟨_, hslice, _, hdone, hrec⟩ := hrec
  obtain ⟨hturn, hrole, hids, hown⟩ := answeredRound_answers h hslice hdone
  refine recordAs_sound h hslice rfl rfl (fun hh => .inl fun r hr => ?_) hrec
  rw [hown hh r hr]
  exact withRollbackResults_answers hturn hrole hids

theorem recordBetween_sound {cmd : RecordSliceCommand} (h : Sound w calls)
    (hslice : w.slices.lookup leaseId = some slice) (hphase : slice.phase = .between) (hrun : cmd.runId = slice.runId)
    (hlease : cmd.leaseId = leaseId) (hrec : recordAs env leaseId cmd [] w = .ok (u, w')) : Sound w' calls := by
  have hsound := h.slices leaseId slice hslice
  rw [hphase] at hsound
  refine recordAs_sound h hslice hrun hlease (fun hh => .inl fun r hr => ?_) hrec
  rw [hsound hh] at hr
  cases hr

theorem recordWords_sound {closed : Bool} {said : Option CanonicalMessage}
    (h : Sound w calls)
    (hrec : recordWords env leaseId round outcome closed said instruction w = .ok (u, w')) : Sound w' calls := by
  simp only [recordWords, sliceOf, fetch_bind_ok] at hrec
  obtain ⟨slice, hslice, hrec⟩ := hrec
  cases hphase : slice.phase with
  | between =>
    rw [hphase] at hrec
    exact recordBetween_sound h hslice hphase rfl rfl hrec
  | answering =>
    rw [hphase] at hrec
    exact absurd hrec throw_ok
  | applying =>
    rw [hphase] at hrec
    exact absurd hrec throw_ok

theorem stop_sound {decision : SliceDecision} (h : Sound w calls)
    (hrec : stop env leaseId round decision w = .ok (u, w')) : Sound w' calls := by
  simp only [stop, sliceOf, fetch_bind_ok] at hrec
  obtain ⟨slice, hslice, hrec⟩ := hrec
  cases hphase : slice.phase with
  | between =>
    simp only [hphase, require_bind_ok] at hrec
    exact recordBetween_sound h hslice hphase rfl rfl hrec.2
  | answering =>
    rw [hphase] at hrec
    exact absurd hrec throw_ok
  | applying =>
    rw [hphase] at hrec
    exact absurd hrec throw_ok

def nothingSent (w : World) (leaseId : Uuid) : Bool :=
  (w.slices.lookup leaseId).all fun slice => (flying (view w.store slice.runId)).isNone

theorem nothingSent_flying (h : nothingSent w leaseId = true) (hslice : w.slices.lookup leaseId = some slice) :
    flying (view w.store slice.runId) = none := by
  rw [nothingSent, hslice] at h
  exact Option.isNone_iff_eq_none.mp h

theorem sandboxGone_sound (h : Sound w calls) (hcareful : nothingSent w leaseId = true)
    (hrec : sandboxGone env leaseId round w = .ok (u, w')) : Sound w' calls := by
  simp only [sandboxGone, sliceOf, fetch_bind_ok] at hrec
  obtain ⟨slice, hslice, hrec⟩ := hrec
  have hnone := nothingSent_flying hcareful hslice
  rcases hphase : slice.phase with _ | ⟨_, _, _ | ⟨_, _⟩, _⟩ | _ <;> rw [hphase] at hrec
  · exact absurd hrec throw_ok
  · exact absurd hrec throw_ok
  · refine recordAs_sound h hslice rfl rfl (fun _ => .inl fun r hr => ?_) hrec
    rw [hnone] at hr
    cases hr
  · exact absurd hrec throw_ok

theorem askApproval_sound {check : ApprovalCheck} {closed : Bool}
    (h : Sound w calls)
    (hcareful : nothingSent w leaseId = true ∨
      (closing closed (decideAfterRound env.now { outcome with approval := some check })).signal =
        some .safeCancelStarted)
    (hrec : askApproval env leaseId round check outcome closed instruction w = .ok (u, w')) : Sound w' calls := by
  simp only [askApproval, sliceOf, fetch_bind_ok] at hrec
  obtain ⟨slice, hslice, hrec⟩ := hrec
  rcases hphase : slice.phase with _ | ⟨_, _, _ | ⟨_, _⟩, _ | _⟩ | _ <;> rw [hphase] at hrec
  · exact absurd hrec throw_ok
  · exact absurd hrec throw_ok
  · exact absurd hrec throw_ok
  · refine recordAs_sound h hslice rfl rfl (fun _ => ?_) hrec
    rcases hcareful with hnothing | hcancel
    · refine .inl fun r hr => ?_
      rw [nothingSent_flying hnothing hslice] at hr
      cases hr
    · exact .inr hcancel
  · exact absurd hrec throw_ok
  · exact absurd hrec throw_ok

theorem commitCheckpoint_refused {commit : CommitCheckpoint} {s s' : Store}
    (h : commitCheckpoint env commit s = .ok (false, s')) : s' = s := by
  simp only [commitCheckpoint, lockSession, fetch_bind_ok] at h
  obtain ⟨_, _, h⟩ := h
  split at h
  · exact (pure_ok.mp h).2.symm
  · obtain ⟨_, _, _, h⟩ := bind_ok.mp h
    obtain ⟨_, _, _, h⟩ := bind_ok.mp h
    obtain ⟨_, _, _, h⟩ := bind_ok.mp h
    obtain ⟨_, _, _, h⟩ := bind_ok.mp h
    cases (pure_ok.mp h).1

theorem commitCalls_sound {closed : Bool} {notes : List String}
    {base : Option Uuid} {revision : Uuid} (h : Sound w calls)
    (hrec : commitCalls env leaseId round outcome closed notes instruction base revision w = .ok (u, w')) :
    Sound w' calls := by
  simp only [commitCalls, sliceOf, fetch_bind_ok] at hrec
  obtain ⟨slice, hslice, _, hdone, hrec⟩ := hrec
  obtain ⟨hturn, hrole, hids, hown⟩ := answeredRound_answers h hslice hdone
  obtain ⟨committed, s₁, hcommit, hrest⟩ := onStore_bind_ok.mp hrec
  cases committed with
  | false =>
    obtain rfl := commitCheckpoint_refused hcommit
    obtain ⟨_, rfl⟩ := pure_ok.mp hrest
    exact h
  | true =>
    obtain ⟨_, _, hviews, hslice₁, hafter⟩ := commitCheckpoint_cases hcommit
    have hholds : Holds (view w.store slice.runId) leaseId := by
      obtain ⟨lease, hlease, hrest⟩ := recordSlice_holds hslice₁
      exact ⟨lease, (hviews slice.runId).2 ▸ hlease, hrest⟩
    have hlands : flying (view s₁ slice.runId) = none :=
      flying_none_moves (recording_quiet _) hafter (recordSlice_lands hslice₁)
    have hs : Sound { w with store := s₁ } calls := by
      refine h.transact (commitCheckpoint_moves (A := recording _) ⟨rfl, rfl⟩ hcommit) (recording_quiet _)
        (fun _ _ _ hclaim => hclaim) fun id => .inl ⟨fun _ hclaim => hclaim.elim, ?_⟩
      rintro _ ⟨rfl, rfl⟩ r hr
      rw [hown hholds r hr]
      exact roundTurns_answers hturn hrole hids
    cases hdisposal : disposal slice (decideAfterRound env.now { outcome with approval := none }) closed with
    | nil =>
      simp only [hdisposal, Worker.setPhase, write_ok] at hrest
      rw [hrest]
      apply hs.setPhase
      intro _ hslice' _
      cases hslice.symm.trans hslice'
      exact hlands
    | cons =>
      simp only [hdisposal, Worker.setPhase, write_ok] at hrest
      rw [hrest]
      exact hs.setPhase fun _ _ => trivial

theorem applyNext_sound (h : Sound w calls) (hnext : applyNext env leaseId w = .ok (u, w')) : Sound w' calls := by
  simp only [applyNext, sliceOf, fetch_bind_ok] at hnext
  obtain ⟨slice, _, hnext⟩ := hnext
  rcases hphase : slice.phase with _ | _ | _ | ⟨_, rest⟩ <;> rw [hphase] at hnext
  · exact absurd hnext throw_ok
  · exact absurd hnext throw_ok
  · exact absurd hnext throw_ok
  · obtain ⟨_, s₁, happly, hrest⟩ := onStore_bind_ok.mp hnext
    have hs : Sound { w with store := s₁ } calls := by
      refine h.transact (A := fun _ => { applies := fun _ => True }) (applySignal_moves trivial happly) (fun _ _ hs => hs)
        (fun _ _ _ hclaim => hclaim) fun id => .inl ⟨fun _ hclaim => hclaim.elim, fun _ hr => hr.elim⟩
    cases rest with
    | nil =>
      rw [write_ok.mp hrest]
      exact hs.leave
    | cons =>
      rw [write_ok.mp hrest]
      exact hs.setPhase fun _ _ => trivial

theorem beside_allows {op : Op} (h : besideSlices op = true) (id : Uuid) :
    (∀ lease, ¬ (op.allows id).claims lease) ∧ (∀ r, ¬ (op.allows id).sends r) ∧
      ∀ cmd, ¬ (op.allows id).records cmd := by
  cases op <;> first | exact ⟨fun _ hc => hc, fun _ hs => hs, fun _ hr => hr⟩ | cases h

theorem beside_sound {op : Op} {answer : Answer} {s' : Store} (h : Sound w calls) (hbeside : besideSlices op = true)
    (hexec : exec env op w.store = .ok (answer, s')) : Sound { w with store := s' } calls := by
  have hallows := beside_allows hbeside
  refine h.transact (exec_moves op hexec) (fun id => (hallows id).2.1) (fun _ _ _ => (hallows _).1 _) fun id => .inl ?_
  exact ⟨fun lease hc => absurd hc ((hallows id).1 lease), fun cmd hr => absurd hr ((hallows id).2.2 cmd)⟩

end Acts

section Runs

/-- The steps that give up no call: a Run is claimed with nothing in flight, and a round without its sandbox, or that a person is
asked about, is given up before its calls went out, or to cancel. -/
def careful (env : Env) (w : World) : Act → Bool
  | .claim cmd _ => (claimableWithinLimits env w.store cmd claimAttempts {}).all fun e => e.2.inflightRound.isNone
  | .sandboxGone leaseId _ => nothingSent w leaseId
  | .askApproval leaseId _ check outcome closed _ =>
    nothingSent w leaseId ||
      (closing closed (decideAfterRound env.now { outcome with approval := some check })).signal =
        some .safeCancelStarted
  | _ => true

variable {w w' : World} {calls : List OutsideCall} {env : Env}

theorem silent_sound {x : WorldTx Unit} {answer : Option OutsideCall}
    (hact : (do x; pure none : WorldTx (Option OutsideCall)) w = .ok (answer, w'))
    (hx : x w = .ok ((), w') → Sound w' calls) : Sound w' (calls ++ answer.toList) := by
  obtain ⟨⟨⟩, _, hstep, hpure⟩ := bind_ok.mp hact
  obtain ⟨rfl, rfl⟩ := pure_ok.mp hpure
  rw [Option.toList_none, List.append_nil]
  exact hx hstep

theorem act_sound {a : Act} {answer : Option OutsideCall} (h : Sound w calls) (hcareful : careful env w a = true)
    (hact : act env a w = .ok (answer, w')) : Sound w' (calls ++ answer.toList) := by
  cases a with
  | beside =>
    simp only [act, require_bind_ok] at hact
    obtain ⟨hbeside, hact⟩ := hact
    obtain ⟨_, _, hexec, hpure⟩ := onStore_bind_ok.mp hact
    obtain ⟨rfl, rfl⟩ := pure_ok.mp hpure
    rw [Option.toList_none, List.append_nil]
    exact beside_sound h hbeside hexec
  | claim => exact silent_sound hact (claim_sound h hcareful)
  | respond => exact silent_sound hact (respond_sound h)
  | answer => exact silent_sound hact (answer_sound h)
  | send => exact send_sound h hact
  | recordCalls => exact silent_sound hact (recordCalls_sound h)
  | recordWords => exact silent_sound hact (recordWords_sound h)
  | stop => exact silent_sound hact (stop_sound h)
  | sandboxGone => exact silent_sound hact (sandboxGone_sound h hcareful)
  | askApproval =>
    simp only [careful, Bool.or_eq_true, decide_eq_true_eq] at hcareful
    exact silent_sound hact (askApproval_sound h hcareful)
  | commitCalls => exact silent_sound hact (commitCalls_sound h)
  | rollBack => exact silent_sound hact (rollBack_sound h)
  | applyNext => exact silent_sound hact (applyNext_sound h)
  | crash =>
    refine silent_sound hact fun hleave => ?_
    rw [write_ok.mp hleave]
    exact h.leave

theorem charged_snoc (log : WorldHistory) (c : Commit World (Env × Act) (Option OutsideCall)) :
    charged (log ++ [c]) = charged log ++ c.answer.toList := by
  rw [charged, List.filterMap_append, charged]
  cases hc : c.answer <;> simp [hc]

theorem executes_sound {log : WorldHistory} (h : WorldExecutes log w)
    (hcareful : ∀ c ∈ log, careful c.input.1 c.before c.input.2 = true) : Sound w (charged log) := by
  induction h with
  | nil =>
    refine ⟨fun leaseId slice hslice => ?_, fun _ hc => absurd hc List.not_mem_nil, fun _ hc => absurd hc List.not_mem_nil⟩
    have hnone : ({} : World).slices.lookup leaseId = none := AList.lookup_empty leaseId
    rw [hnone] at hslice
    cases hslice
  | @snoc log s s' i a _ hstep ih =>
    have hsound := ih fun c hc => hcareful c (List.mem_append_left _ hc)
    have hlast : careful i.1 s i.2 = true :=
      hcareful ⟨s, i, a, s'⟩ (List.mem_append_right _ (List.mem_singleton_self _))
    rw [charged_snoc]
    exact act_sound hsound hlast hstep

/-- Nothing accounts for the call, or its Run is back in the queue with the call in neither place. -/
def Forgotten (w : World) (c : OutsideCall) : Prop :=
  ¬ Remembered (view w.store c.runId) c ∨
    ∃ row, w.store.runs.lookup c.runId = some row ∧ row.status = .queued ∧
      ¬ InTranscript (view w.store c.runId) c ∧ ¬ InFlight (view w.store c.runId) c

/-- No outside call is forgotten in a run whose steps are all careful. -/
theorem no_call_forgotten {log : WorldHistory} (h : WorldExecutes log w)
    (hcareful : ∀ c ∈ log, careful c.input.1 c.before c.input.2 = true) : ∀ c ∈ charged log, ¬ Forgotten w c := by
  intro c hc
  have hrem := (executes_sound h hcareful).remembered c hc
  rintro (hnot | ⟨row, hrow, hqueued, hnowhere⟩)
  · exact hnot hrem
  · rcases hrem with hin | hfly | ⟨_, hrow', hdone⟩
    · exact hnowhere.1 hin
    · exact hnowhere.2 hfly
    · cases hrow.symm.trans hrow'
      rw [hqueued] at hdone
      cases hdone

def shellCall : OutsideCall := { runId := 3, turn := shellTurn, callId := "call-1" }

def commandSent : List (Env × Act) :=
  [(clock 0, .beside (openSession 2)), (clock 1, .beside (ask 2 3 "question")),
    (clock 2, .claim { workerId := "worker", leaseSeconds := 60 } 5), (clock 3, .respond 5 shellTurn),
    (clock 4, .send 5 none 9)]

def workerLost : List (Env × Act) :=
  commandSent ++ [(clock 5, .crash 5), (clock 70000000, .beside (.reclaimExpiredLease 3)),
    (clock 70000001, .beside (.recoverInterrupted 3 3))]

theorem workerLost_not_forgotten :
    (∀ c ∈ (attemptActs workerLost).1, careful c.input.1 c.before c.input.2 = true) ∧
      shellCall ∈ charged (attemptActs workerLost).1 ∧ ¬ Forgotten (attemptActs workerLost).2 shellCall := by
  have hcareful : ∀ c ∈ (attemptActs workerLost).1, careful c.input.1 c.before c.input.2 = true := by decide +kernel
  have hcharged : shellCall ∈ charged (attemptActs workerLost).1 := by decide +kernel
  exact ⟨hcareful, hcharged, no_call_forgotten (attemptActs_executes _) hcareful _ hcharged⟩

def sandboxLost : List (Env × Act) :=
  commandSent ++ [(clock 5, .sandboxGone 5 shellRound), (clock 6, .beside (.recoverInterrupted 3 3))]

/-- The Run is back in the queue, its one turn is the question, and nothing is in flight. -/
theorem sandboxLost_forgets :
    ¬ ∀ log w, WorldExecutes log w → ∀ c ∈ charged log, ¬ Forgotten w c := by
  intro hall
  have hcharged : shellCall ∈ charged (attemptActs sandboxLost).1 := by decide +kernel
  have hrow : ((attemptActs sandboxLost).2.store.runs.lookup 3).map (fun row => (row.status, row.inflightRound)) =
      some (.queued, none) := by decide +kernel
  have hsaid : (ownTurns (attemptActs sandboxLost).2.store 3).length = 1 := by decide +kernel
  have hrun := attemptActs_executes sandboxLost
  generalize attemptActs sandboxLost = run at hcharged hrow hsaid hrun
  obtain ⟨row, hlookup, heq⟩ := Option.map_eq_some_iff.mp hrow
  obtain ⟨hstatus, hnone⟩ := Prod.mk.inj heq
  refine hall _ _ hrun shellCall hcharged (.inr ⟨row, hlookup, hstatus, ?_, ?_⟩)
  · rintro ⟨_, hin, _⟩
    have hlength : 2 ≤ (ownTurns run.2.store 3).length := hin.length_le
    omega
  · rintro ⟨_, _, hlookup', hfly, _⟩
    cases hlookup.symm.trans hlookup'
    rw [hnone] at hfly
    cases hfly

end Runs

end TinyHermes.Runs.OutsideCalls
