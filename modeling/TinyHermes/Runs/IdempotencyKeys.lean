import TinyHermes.Lib.KeyCustody
import TinyHermes.Runs.RunMoves

/-! Idempotency keys: a Run's sends, interruptions and repeats are a run of the key custody. -/
namespace TinyHermes.Runs.IdempotencyKeys
open Lib KeyCustody Interruption SqlRunStore RunMoves Tx

def naming : Naming InFlightRound Uuid String where
  key := InFlightRound.idempotencyKey
  content := InFlightRound.fingerprint

def custodyOf (v : RunView) : State InFlightRound Uuid String where
  flying := v.row.bind (·.inflightRound)
  waiting := ((v.row.map (·.interruptedWrites)).getD []).map fun w => (w.fingerprint, w.idempotencyKey)
  drawn := v.drawn

def custody (runId : Uuid) (s : Store) : State InFlightRound Uuid String := custodyOf (view s runId)

/-- The round a transaction sent for a Run, with the key it went out under. -/
def sendOf (runId : Uuid) (c : Commit Store (Env × Op) Answer) : Option InFlightRound :=
  match c.input.2, c.answer with
  | .reserveOutsideCall _ id _ _ _, .sent (some recorded) => if id = runId then some recorded else none
  | _, _ => none

/-- The interrupted round a recovery took out of flight and told the model about. -/
def tellOf (runId : Uuid) (c : Commit Store (Env × Op) Answer) : Option InFlightRound :=
  match c.input.2 with
  | .recoverInterrupted id _ =>
    if id = runId ∧ (custody runId c.after).flying = none then (custody runId c.before).flying else none
  | _ => none

def eventOf (runId : Uuid) (c : Commit Store (Env × Op) Answer) : Event InFlightRound :=
  match sendOf runId c, tellOf runId c with
  | some a, _ => .sent a
  | none, some a => .told a
  | none, none => .quiet

section Moves
variable {A : Allowed} {v v' : RunView}

/-- Nothing about keys moved, but ids may have been drawn. -/
structure Still (v v' : RunView) : Prop where
  waiting : (custodyOf v').waiting = (custodyOf v).waiting
  flying : (custodyOf v').flying = (custodyOf v).flying
  drawn : v.drawn ⊆ v'.drawn
  said : v.said <+: v'.said

/-- The round in flight was recorded, or given up by a new claim. -/
structure Cleared (v v' : RunView) : Prop where
  waiting : (custodyOf v').waiting = (custodyOf v).waiting
  flying : (custodyOf v').flying = none
  drawn : v.drawn ⊆ v'.drawn
  said : v.said <+: v'.said

structure Told (a : InFlightRound) (v v' : RunView) : Prop where
  waiting : (custodyOf v').waiting = (custodyOf v).waiting ++ pending naming a
  before : (custodyOf v).flying = some a
  flying : (custodyOf v').flying = none
  drawn : v.drawn ⊆ v'.drawn
  said : ∃ turn answers, toldAfterInterruption a = some (turn, answers) ∧ answers ∈ v'.said

def Clears (A : Allowed) : Prop := (∃ id, A.claims id) ∨ ∃ cmd, A.records cmd

/-- What an operation that sends nothing for the Run does to its keys. -/
def Handles (A : Allowed) (v v' : RunView) : Prop :=
  Still v v' ∨ (Clears A ∧ Cleared v v') ∨ (A.tells ∧ ∃ a, Told a v v')

theorem Still.refl (v : RunView) : Still v v := ⟨rfl, rfl, fun _ h => h, List.prefix_rfl⟩

private theorem still_of_row {row row' : RunRow} (hrow : v.row = some row) (hrow' : v'.row = some row')
    (hflying : row'.inflightRound = row.inflightRound) (hwaiting : row'.interruptedWrites = row.interruptedWrites)
    (hdrawn : v.drawn ⊆ v'.drawn) (hsaid : v.said <+: v'.said) : Still v v' where
  waiting := by simp [custodyOf, hrow, hrow', hwaiting]
  flying := by simp [custodyOf, hrow, hrow', hflying]
  drawn := hdrawn
  said := hsaid

private theorem cleared_of_row {row row' : RunRow} (hrow : v.row = some row) (hrow' : v'.row = some row')
    (hflying : row'.inflightRound = none) (hwaiting : row'.interruptedWrites = row.interruptedWrites)
    (hdrawn : v.drawn ⊆ v'.drawn) (hsaid : v.said <+: v'.said) : Cleared v v' where
  waiting := by simp [custodyOf, hrow, hrow', hwaiting]
  flying := by simp [custodyOf, hrow', hflying]
  drawn := hdrawn
  said := hsaid

theorem handles_move (hsends : ∀ a, ¬ A.sends a) (hmove : RunMove A v v') : Handles A v v' := by
  have hsame : v.drawn ⊆ v.drawn := fun _ h => h
  cases hmove with
  | beside hb =>
    refine .inl ⟨?_, ?_, hb.drawn, hb.said⟩
    · have := hb.map_row (f := (·.interruptedWrites)) fun r r' hr => by rw [hr]
      simp only [custodyOf, this]
    · have := hb.map_row (f := (·.inflightRound)) fun r r' hr => by rw [hr]
      simpa [custodyOf, Option.bind_map, Function.comp_def] using congrArg (Option.bind · id) this
  | born hnew hborn =>
    refine .inl ⟨?_, ?_, hsame, List.prefix_rfl⟩
    · simp [custodyOf, hnew, hborn.nothingInterrupted]
    · simp [custodyOf, hnew, hborn.nothingSent]
  | @claimed row d lease now hrow _ hclaim =>
    refine .inr (.inl ⟨.inl ⟨_, hclaim⟩, cleared_of_row hrow rfl rfl rfl (fun _ h => ?_) List.prefix_rfl⟩)
    exact List.mem_cons_of_mem _ h
  | renewed => exact .inl ⟨rfl, rfl, hsame, List.prefix_rfl⟩
  | sent _ hsend => exact absurd hsend (hsends _)
  | recorded now hrow hrecord =>
    exact .inr (.inl ⟨.inr ⟨_, hrecord⟩, cleared_of_row hrow rfl rfl rfl hsame (List.prefix_append _ _)⟩)
  | ended now hrow hrecord =>
    exact .inr (.inl ⟨.inr ⟨_, hrecord⟩, cleared_of_row hrow rfl rfl rfl hsame (List.prefix_append _ _)⟩)
  | signalled clears now hrow =>
    exact .inl (still_of_row hrow rfl (by cases clears <;> rfl) (by cases clears <;> rfl) hsame List.prefix_rfl)
  | swept now hrow => exact .inl (still_of_row hrow rfl rfl rfl hsame List.prefix_rfl)
  | reclaimed now hrow => exact .inl (still_of_row hrow rfl rfl rfl hsame List.prefix_rfl)
  | @told row sending turn answers hrow hsending htells _ htold =>
    refine .inr (.inr ⟨htells, sending, ?_, ?_, rfl, hsame, turn, answers, htold, by simp⟩)
    · cases hk : sending.idempotencyKey <;> cases hf : sending.fingerprint <;>
        simp [custodyOf, hrow, toldRow, pending, naming, hk, hf]
    · simp [custodyOf, hrow, hsending]

theorem Handles.trans {v₁ v₂ v₃ : RunView} (h₁ : Handles A v₁ v₂) (h₂ : Handles A v₂ v₃) : Handles A v₁ v₃ := by
  rcases h₁ with h₁ | ⟨hA, h₁⟩ | ⟨hA, a, h₁⟩
  · rcases h₂ with h₂ | ⟨hA, h₂⟩ | ⟨hA, a, h₂⟩
    · exact .inl ⟨h₂.waiting.trans h₁.waiting, h₂.flying.trans h₁.flying, fun _ h => h₂.drawn (h₁.drawn h),
        h₁.said.trans h₂.said⟩
    · exact .inr (.inl ⟨hA, h₂.waiting.trans h₁.waiting, h₂.flying, fun _ h => h₂.drawn (h₁.drawn h),
        h₁.said.trans h₂.said⟩)
    · refine .inr (.inr ⟨hA, a, ?_, h₁.flying.symm.trans h₂.before, h₂.flying, fun _ h => h₂.drawn (h₁.drawn h), h₂.said⟩)
      rw [h₂.waiting, h₁.waiting]
  · rcases h₂ with h₂ | ⟨_, h₂⟩ | ⟨_, a, h₂⟩
    · exact .inr (.inl ⟨hA, h₂.waiting.trans h₁.waiting, h₂.flying.trans h₁.flying, fun _ h => h₂.drawn (h₁.drawn h),
        h₁.said.trans h₂.said⟩)
    · exact .inr (.inl ⟨hA, h₂.waiting.trans h₁.waiting, h₂.flying, fun _ h => h₂.drawn (h₁.drawn h),
        h₁.said.trans h₂.said⟩)
    · have := h₁.flying.symm.trans h₂.before
      cases this
  · rcases h₂ with h₂ | ⟨_, h₂⟩ | ⟨_, _, h₂⟩
    · obtain ⟨turn, answers, htold, hmem⟩ := h₁.said
      exact .inr (.inr ⟨hA, a, h₂.waiting.trans h₁.waiting, h₁.before, h₂.flying.trans h₁.flying,
        fun _ h => h₂.drawn (h₁.drawn h), turn, answers, htold, h₂.said.subset hmem⟩)
    · obtain ⟨turn, answers, htold, hmem⟩ := h₁.said
      exact .inr (.inr ⟨hA, a, h₂.waiting.trans h₁.waiting, h₁.before, h₂.flying, fun _ h => h₂.drawn (h₁.drawn h), turn,
        answers, htold, h₂.said.subset hmem⟩)
    · have := h₁.flying.symm.trans h₂.before
      cases this

end Moves

section Simulation
variable {env : Env} {op : Op} {s s' : Store} {a : Answer} {runId : Uuid}

theorem exec_handles (h : exec env op s = .ok (a, s')) (hsends : ∀ x, ¬ (op.allows runId).sends x) :
    Handles (op.allows runId) (view s runId) (view s' runId) :=
  keep_moves (I := fun v => Handles (op.allows runId) (view s runId) v)
    (fun _ _ hm hv => hv.trans (handles_move hsends hm)) (exec_moves op h runId) (.inl (.refl _))

private theorem takesKey_step {row : RunRow} {sending : InFlightRound} {key : Option Uuid}
    {waiting : List InterruptedWrite} {drawn : List Uuid} (hrow : s.runs.lookup runId = some row)
    (htakes : TakesKey row.interruptedWrites s.drawn sending.fingerprint key waiting drawn)
    (hrow' : s'.runs.lookup runId = some (sentRow { sending with idempotencyKey := key } waiting row))
    (hdrawn : s'.drawn = drawn) :
    KeyCustody.Step naming (custody runId s) (.sent { sending with idempotencyKey := key }) (custody runId s') := by
  have hflying : (custody runId s').flying = some { sending with idempotencyKey := key } := by
    simp [custody, custodyOf, view, hrow', sentRow]
  have hwaiting : (custody runId s).waiting = row.interruptedWrites.map fun w => (w.fingerprint, w.idempotencyKey) := by
    simp [custody, custodyOf, view, hrow]
  have hwaiting' : (custody runId s').waiting = waiting.map fun w => (w.fingerprint, w.idempotencyKey) := by
    simp [custody, custodyOf, view, hrow', sentRow]
  have hsub : (custody runId s).drawn ⊆ (custody runId s').drawn := by
    change s.drawn ⊆ s'.drawn
    rw [hdrawn]
    exact htakes.drawn_subset
  generalize sending.fingerprint = fp at *
  cases htakes with
  | plain => exact .plain rfl rfl hflying (hwaiting'.trans hwaiting.symm) hsub
  | @again fp entry hfind =>
    obtain ⟨hp, l, r, hsplit, hl⟩ := List.find?_eq_some_iff_append.mp hfind
    have hfp' : entry.fingerprint = fp := by simpa using hp
    have hnot : entry ∉ l := fun hin => by simpa [hfp'] using hl entry hin
    refine .again (l := l.map fun w => (w.fingerprint, w.idempotencyKey))
      (r := r.map fun w => (w.fingerprint, w.idempotencyKey)) rfl rfl ?_ ?_ hflying ?_ hsub
    · rw [hwaiting, hsplit, ← hfp']
      simp
    · intro e he
      obtain ⟨w, hw, rfl⟩ := List.mem_map.mp he
      simpa using hl w hw
    · rw [hwaiting', hsplit, List.erase_append_right _ hnot, List.erase_cons_head, List.map_append]
  | @anew fp k hfind hfresh =>
    refine .anew rfl rfl ?_ hfresh hflying (hwaiting'.trans hwaiting.symm) hsub ?_
    · intro _ he
      rw [hwaiting] at he
      obtain ⟨w, hw, rfl⟩ := List.mem_map.mp he
      simpa using List.find?_eq_none.mp hfind w hw
    · change k ∈ s'.drawn
      rw [hdrawn]
      exact List.mem_cons_self

private theorem sendOf_eq_none (hsends : ∀ x, ¬ (op.allows runId).sends x) :
    sendOf runId ⟨s, (env, op), a, s'⟩ = none := by
  cases op with
  | reserveOutsideCall _ id _ sending =>
    have hid : id ≠ runId := fun hid => hsends sending ⟨hid, rfl⟩
    cases a with
    | sent recorded =>
      cases recorded with
      | none => rfl
      | some => exact if_neg hid
    | _ => rfl
  | _ => rfl

private theorem tellOf_eq_none (htells : ¬ (op.allows runId).tells) : tellOf runId ⟨s, (env, op), a, s'⟩ = none := by
  cases op with
  | recoverInterrupted => exact if_neg fun h => htells h.1
  | _ => rfl

private theorem tellOf_eq_some {sending : InFlightRound} (htells : (op.allows runId).tells)
    (hbefore : (custody runId s).flying = some sending) (hafter : (custody runId s').flying = none) :
    tellOf runId ⟨s, (env, op), a, s'⟩ = some sending := by
  cases op with
  | recoverInterrupted => exact (if_pos ⟨htells, hafter⟩).trans hbefore
  | _ => exact htells.elim

private theorem not_tells_of_clears (h : Clears (op.allows runId)) : ¬ (op.allows runId).tells := by
  cases op with
  | recoverInterrupted => rcases h with ⟨_, h⟩ | ⟨_, h⟩ <;> exact h.elim
  | _ => exact id

private theorem flying_of_tellOf {sending : InFlightRound} (h : tellOf runId ⟨s, (env, op), a, s'⟩ = some sending) :
    (custody runId s).flying = some sending ∧ (custody runId s').flying = none := by
  cases op with
  | recoverInterrupted =>
    simp only [tellOf] at h
    split at h
    · next hcond => exact ⟨h, hcond.2⟩
    · cases h
  | _ => cases h

theorem unsent_custody (h : exec env op s = .ok (a, s')) (hsends : ∀ x, ¬ (op.allows runId).sends x) :
    KeyCustody.Step naming (custody runId s) (eventOf runId ⟨s, (env, op), a, s'⟩) (custody runId s') := by
  unfold eventOf
  rw [sendOf_eq_none hsends]
  rcases exec_handles h hsends with hstill | ⟨hclears, hcleared⟩ | ⟨htells, _, htold⟩
  · cases htell : tellOf runId ⟨s, (env, op), a, s'⟩ with
    | none => exact .quiet hstill.waiting (.inl hstill.flying) hstill.drawn
    | some =>
      -- a round that is still in flight was not told
      obtain ⟨hbefore, hafter⟩ := flying_of_tellOf htell
      have hboth : (custody runId s').flying = (custody runId s).flying := hstill.flying
      rw [hbefore, hafter] at hboth
      cases hboth
  · rw [tellOf_eq_none (not_tells_of_clears hclears)]
    exact .quiet hcleared.waiting (.inr hcleared.flying) hcleared.drawn
  · rw [tellOf_eq_some htells htold.before htold.flying]
    exact .told htold.before htold.flying htold.waiting htold.drawn

theorem exec_custody (h : exec env op s = .ok (a, s')) (runId : Uuid) :
    KeyCustody.Step naming (custody runId s) (eventOf runId ⟨s, (env, op), a, s'⟩) (custody runId s') := by
  by_cases hsends : ∀ x, ¬ (op.allows runId).sends x
  · exact unsent_custody h hsends
  · cases op with
    | reserveOutsideCall _ id =>
      obtain rfl : id = runId := by
        by_contra hid
        exact hsends fun x hx => hid hx.1
      obtain ⟨_, _, hcall, hdone⟩ := bind_ok.mp h
      obtain ⟨rfl, rfl⟩ := pure_ok.mp hdone
      obtain ⟨_, _, _, hrow, _, _, _, _, hcases⟩ := reserveOutsideCall_spec hcall
      rcases hcases with ⟨rfl, rfl⟩ | ⟨_, _, _, htakes, rfl, rfl⟩
      · exact .quiet rfl (.inl rfl) fun _ hx => hx
      · unfold eventOf
        rw [sendOf]
        simp only [if_true]
        exact takesKey_step hrow htakes (by simp [hrow]) rfl
    | _ => exact absurd (fun _ hx => hx) hsends

theorem executes_custody {log : History} (h : Executes log s) (runId : Uuid) :
    Runs naming (custody runId {})
      (log.map fun c => ⟨custody runId c.before, eventOf runId c, (), custody runId c.after⟩) (custody runId s) :=
  h.map (custody runId) (eventOf runId) (fun _ => ()) fun _ _ _ _ hstep => exec_custody hstep runId

end Simulation

section Keys
variable {log l₁ l₂ l₃ l₄ : History} {s : Store} {c₁ c₂ t c : Commit Store (Env × Op) Answer} {a b : InFlightRound}
  {runId : Uuid} {k : Uuid}

theorem executes_sound (h : Executes log s) (runId : Uuid) : Sound naming (log.map (eventOf runId)) (custody runId s) := by
  have hsound := (executes_custody h runId).sound rfl rfl
  rw [List.map_map] at hsound
  exact hsound

theorem eventOf_of_sendOf (h : sendOf runId c = some a) : eventOf runId c = .sent a := by
  simp [eventOf, h]

theorem sendOf_of_eventOf (h : eventOf runId c = .sent a) : sendOf runId c = some a := by
  unfold eventOf at h
  split at h
  · next hsend => rw [hsend, Event.sent.inj h]
  · cases h
  · cases h

theorem tellOf_of_eventOf (h : eventOf runId c = .told a) : tellOf runId c = some a := by
  unfold eventOf at h
  split at h
  · cases h
  · next htell => rw [htell, Event.told.inj h]
  · cases h

/-- A recovery that put the interrupted round `a` and an answer for each of its calls into the transcript. -/
structure Recounts (runId : Uuid) (c : Commit Store (Env × Op) Answer) (a : InFlightRound) : Prop where
  told : tellOf runId c = some a
  said : ∃ turn answers, toldAfterInterruption a = some (turn, answers) ∧ answers ∈ ownTurns c.after runId

theorem recounts_of_tellOf (h : Executes log s) (hc : c ∈ log) (htell : tellOf runId c = some a) :
    Recounts runId c a := by
  obtain ⟨_, _, rfl⟩ := List.append_of_mem hc
  obtain ⟨before, ⟨_, op⟩, _, after⟩ := c
  obtain ⟨_, hstep, _⟩ := h.split
  have hsends : ∀ x, ¬ (op.allows runId).sends x := by
    cases op with
    | recoverInterrupted => exact fun _ hx => hx
    | _ => cases htell
  obtain ⟨hbefore, hafter⟩ := flying_of_tellOf htell
  rcases exec_handles hstep hsends with hstill | ⟨hclears, _⟩ | ⟨_, _, htold⟩
  · have hboth : (custody runId after).flying = (custody runId before).flying := hstill.flying
    rw [hbefore, hafter] at hboth
    cases hboth
  · rw [tellOf_eq_none (not_tells_of_clears hclears)] at htell
    cases htell
  · cases hbefore.symm.trans htold.before
    exact ⟨htell, htold.said⟩

theorem fingerprint_of_key (h : Executes log s) (hc : c ∈ log) (hsend : sendOf runId c = some a)
    (hk : a.idempotencyKey = some k) : ∃ fp, a.fingerprint = some fp := by
  obtain ⟨_, _, rfl⟩ := List.append_of_mem hc
  obtain ⟨_, hstep, _⟩ := h.split
  have hcustody := exec_custody hstep runId
  rw [eventOf_of_sendOf hsend] at hcustody
  cases hcustody with
  | plain hkey => cases hkey.symm.trans hk
  | again _ hcontent => exact ⟨_, hcontent⟩
  | anew _ hcontent => exact ⟨_, hcontent⟩

theorem told_between (h : Executes (l₁ ++ c₁ :: (l₂ ++ c₂ :: l₃)) s) (h₁ : sendOf runId c₁ = some a)
    (h₂ : sendOf runId c₂ = some b) (ha : a.idempotencyKey = some k) (hb : b.idempotencyKey = some k) :
    a.fingerprint = b.fingerprint ∧ ∃ c ∈ l₂, Recounts runId c a := by
  have hpaired := (executes_sound h runId).paired
  obtain ⟨hcontent, htold⟩ := hpaired (l₁.map (eventOf runId)) a (l₂.map (eventOf runId)) b (l₃.map (eventOf runId)) k
    (by simp [eventOf_of_sendOf h₁, eventOf_of_sendOf h₂]) ha hb
  obtain ⟨c, hc, htell⟩ := List.mem_map.mp htold
  exact ⟨hcontent, c, hc, recounts_of_tellOf h (by simp [hc]) (tellOf_of_eventOf htell)⟩

structure KeysApart (runId : Uuid) (log : History) : Prop where
  /-- two sends under one key are one write, and the earlier was interrupted and told in between -/
  same_write : ∀ l₁ c₁ l₂ c₂ l₃ a b k, log = l₁ ++ c₁ :: (l₂ ++ c₂ :: l₃) → sendOf runId c₁ = some a →
    sendOf runId c₂ = some b → a.idempotencyKey = some k → b.idempotencyKey = some k →
    (∃ fp, a.fingerprint = some fp ∧ b.fingerprint = some fp) ∧ ∃ c ∈ l₂, Recounts runId c a
  taken_once : ∀ l₁ t after a k, log = l₁ ++ t :: after → tellOf runId t = some a → a.idempotencyKey = some k →
    (∀ c ∈ after, ∀ b, tellOf runId c = some b → b.idempotencyKey ≠ some k) →
    (after.filter fun c => (sendOf runId c).bind (·.idempotencyKey) = some k).length ≤ 1

private theorem key_of_bind (h : (sendOf runId c).bind (·.idempotencyKey) = some k) :
    ∃ a, sendOf runId c = some a ∧ a.idempotencyKey = some k :=
  Option.bind_eq_some_iff.mp h

theorem keys_apart (h : Executes log s) (runId : Uuid) : KeysApart runId log where
  same_write l₁ c₁ l₂ c₂ l₃ a b k hlog h₁ h₂ ha hb := by
    subst hlog
    obtain ⟨hsame, htold⟩ := told_between h h₁ h₂ ha hb
    obtain ⟨fp, hfp⟩ := fingerprint_of_key h (by simp) h₁ ha
    exact ⟨⟨fp, hfp, hsame.symm.trans hfp⟩, htold⟩
  taken_once l₁ t after a k hlog _ _ hquiet := by
    subst hlog
    by_contra hmany
    -- two sends under the key have a telling between them
    cases hfilter : after.filter fun c => (sendOf runId c).bind (·.idempotencyKey) = some k with
    | nil => simp [hfilter] at hmany
    | cons c₁ rest =>
      cases rest with
      | nil => simp [hfilter] at hmany
      | cons c₂ =>
        obtain ⟨m₁, _, rfl, _, h₁, htail⟩ := List.filter_eq_cons_iff.mp hfilter
        obtain ⟨m₂, m₃, rfl, _, h₂, _⟩ := List.filter_eq_cons_iff.mp htail
        obtain ⟨a₁, hs₁, hk₁⟩ := key_of_bind (of_decide_eq_true h₁)
        obtain ⟨_, hs₂, hk₂⟩ := key_of_bind (of_decide_eq_true h₂)
        have hcut : Executes ((l₁ ++ t :: m₁) ++ c₁ :: (m₂ ++ c₂ :: m₃)) s := by simpa using h
        obtain ⟨_, c, hc, htold⟩ := told_between hcut hs₁ hs₂ hk₁ hk₂
        exact hquiet c (by simp [hc]) a₁ htold.told hk₁

end Keys

section Example

def oneWrite : InFlightRound where
  assistant :=
    { role := .assistant
      blocks := [.toolCall
        { callId := "call", name := "orders.create", arguments := "\x7b\x7d", callId_ne := by simp, name_ne := by simp }]
      blocks_ne := by simp }
  finished := []
  callId := "call"
  fingerprint := some "POST /orders"

def sentTwice : List (Env × Op) :=
  [(clock 0, openSession 2), (clock 0, ask 2 3 "a"), (clock 0, take 5),
    (clock 1, .reserveOutsideCall 1 3 5 oneWrite 6), (clock 100, .reclaimExpiredLease 3),
    (clock 100, .recoverInterrupted 3 3), (clock 100, take 7), (clock 101, .reserveOutsideCall 1 3 7 oneWrite 8)]

theorem repeated_write_keys_apart :
    (attempt sentTwice).1.map (fun c => (sendOf 3 c).bind (·.idempotencyKey)) =
      [none, none, none, some 6, none, none, none, some 6] ∧ KeysApart 3 (attempt sentTwice).1 :=
  ⟨by decide +kernel, keys_apart (attempt_executes _) 3⟩

end Example

section Promise
variable {log l₁ l₂ l₃ : History} {s : Store} {t c d : Commit Store (Env × Op) Answer} {a b : InFlightRound}
  {R X : Uuid} {f : String} {k : Uuid}

/-- The answer that tells the model the interrupted call `a` keeps its key when it is repeated exactly. -/
def Promises (a : InFlightRound) (m : CanonicalMessage) : Prop :=
  (toldAfterInterruption a).map (·.2) = some m ∧
    ∃ result ∈ m.results, result.callId = a.callId ∧ ∃ before after, result.output = before ++ sameKeyText ++ after

/-- Run `X` reads what recovery told Run `R` about the write `a`, and sends a write with its fingerprint for
the first time since. -/
structure Promised (R X : Uuid) (t : Commit Store (Env × Op) Answer) (between : History)
    (c : Commit Store (Env × Op) Answer) (a b : InFlightRound) (f : String) (k : Uuid) : Prop where
  told : tellOf R t = some a
  key : a.idempotencyKey = some k
  fingerprint : a.fingerprint = some f
  reads : ∃ m ∈ executionHistory c.before X, Promises a m
  sends : sendOf X c = some b
  repeats : b.fingerprint = some f
  first : ∀ d ∈ between, ∀ b', sendOf X d = some b' → b'.fingerprint ≠ some f

theorem eventOf_of_tellOf (h : tellOf R t = some a) : eventOf R t = .told a := by
  obtain ⟨_, ⟨_, op⟩, _, _⟩ := t
  cases op with
  | recoverInterrupted => simp [eventOf, sendOf, h]
  | _ => cases h

theorem sendOf_run (hX : sendOf X c = some a) (hR : sendOf R c = some b) : X = R := by
  obtain ⟨_, ⟨_, op⟩, answer, _⟩ := c
  cases op with
  | reserveOutsideCall =>
    cases answer with
    | sent recorded =>
      cases recorded with
      | none => cases hX
      | some =>
        simp only [sendOf, Option.ite_none_right_eq_some] at hX hR
        exact hX.1.symm.trans hR.1
    | _ => cases hX
  | _ => cases hX

theorem key_fresh_or_own {i : Env × Op} {answer : Answer} {s' : Store} (h : Executes log s) (hstep : Step s i answer s')
    (hsend : sendOf X ⟨s, i, answer, s'⟩ = some a) (hk : a.idempotencyKey = some k) :
    k ∉ s.drawn ∨ ∃ c ∈ log, ∃ b, sendOf X c = some b ∧ b.idempotencyKey = some k := by
  have hcustody := exec_custody hstep X
  rw [eventOf_of_sendOf hsend] at hcustody
  cases hcustody with
  | plain hkey => cases hkey.symm.trans hk
  | anew hkey _ _ hfresh =>
    cases hkey.symm.trans hk
    exact .inl hfresh
  | @again _ _ l r f k' hkey _ hold =>
    obtain rfl := Option.some.inj (hkey.symm.trans hk)
    obtain ⟨b, _, ⟨_, hes, _⟩, hb, _⟩ := (executes_sound h X).waits (f, k') (by rw [hold]; simp)
    have hin : Event.sent b ∈ log.map (eventOf X) := by
      rw [hes]
      simp
    obtain ⟨c, hc, hevent⟩ := List.mem_map.mp hin
    exact .inr ⟨c, hc, b, sendOf_of_eventOf hevent, hb⟩

theorem key_of_one_run (h : Executes log s) (hc : c ∈ log) (hd : d ∈ log) (hX : sendOf X c = some a)
    (hR : sendOf R d = some b) (ha : a.idempotencyKey = some k) (hb : b.idempotencyKey = some k) : X = R := by
  induction h generalizing c d X R a b with
  | nil => cases hc
  | @snoc log s s' i answer h hstep ih =>
    -- the last send against an earlier one; the other order is the same argument
    have hlast : ∀ {X R a b} {d : Commit Store (Env × Op) Answer}, sendOf X ⟨s, i, answer, s'⟩ = some a → d ∈ log →
        sendOf R d = some b → a.idempotencyKey = some k → b.idempotencyKey = some k → X = R := by
      intro _ R _ b d hX hd hR ha hb
      rcases key_fresh_or_own h hstep hX ha with hfresh | ⟨_, hc, _, hX', ha'⟩
      · have hin : Event.sent b ∈ log.map (eventOf R) := List.mem_map.mpr ⟨d, hd, eventOf_of_sendOf hR⟩
        exact absurd ((executes_sound h R).drawn b k hin hb) hfresh
      · exact ih hc hd hX' hR ha' hb
    rcases List.mem_append.mp hc with hc | hc
    · rcases List.mem_append.mp hd with hd | hd
      · exact ih hc hd hX hR ha hb
      · rw [List.mem_singleton.mp hd] at hR
        exact (hlast hR hc hX hb ha).symm
    · rw [List.mem_singleton.mp hc] at hX
      rcases List.mem_append.mp hd with hd | hd
      · exact hlast hX hd hR ha hb
      · rw [List.mem_singleton.mp hd] at hR
        exact sendOf_run hX hR

theorem told_run_keeps_key (h : Executes (l₁ ++ t :: (l₂ ++ c :: l₃)) s) (hp : Promised R R t l₂ c a b f k) :
    b.idempotencyKey = some k := by
  obtain ⟨_, htell, hrest⟩ := h.split
  obtain ⟨hbetween, hsend, _⟩ := hrest.split
  have hcustody := exec_custody htell R
  rw [eventOf_of_tellOf hp.told] at hcustody
  have hwaits : (f, k) ∈ (custody R t.after).waiting := by
    cases hcustody with
    | told _ _ hwaiting =>
      rw [hwaiting]
      exact List.mem_append_right _ (mem_pending.mpr ⟨hp.fingerprint, hp.key⟩)
  have hlater : Runs naming (custody R t.after)
      (l₂.map fun c => ⟨custody R c.before, eventOf R c, (), custody R c.after⟩) (custody R c.before) :=
    hbetween.map (custody R) (eventOf R) (fun _ => ()) fun _ _ _ _ hstep => exec_custody hstep R
  have hstill : (f, k) ∈ (custody R c.before).waiting := by
    refine hlater.keeps_waiting hwaits fun b' hb' => ?_
    rw [List.map_map] at hb'
    obtain ⟨d, hd, hevent⟩ := List.mem_map.mp hb'
    exact hp.first d hd b' (sendOf_of_eventOf hevent)
  have hprefix : Executes (l₁ ++ t :: l₂) c.before := by
    have hcut : Executes ((l₁ ++ t :: l₂) ++ c :: l₃) s := by simpa using h
    exact hcut.split.1
  have hstep := exec_custody hsend R
  rw [eventOf_of_sendOf hp.sends] at hstep
  exact hstep.takes (executes_sound hprefix R).contents hstill hp.repeats

/-- The promise that a repeat keeps its key holds for the Run that was told, and for no other Run that reads it. -/
theorem same_key_kept_iff (h : Executes (l₁ ++ t :: (l₂ ++ c :: l₃)) s) (hp : Promised R X t l₂ c a b f k) :
    b.idempotencyKey = some k ↔ X = R := by
  constructor
  · intro hb
    -- the told write went out before under the same key, as a send of `R`
    obtain ⟨htold, _, _⟩ := h.split
    obtain ⟨hflying, _⟩ := flying_of_tellOf hp.told
    obtain ⟨_, _, hes, _⟩ := (executes_sound htold R).flies a hflying
    have hin : Event.sent a ∈ l₁.map (eventOf R) := by
      rw [hes]
      simp
    obtain ⟨_, hd, hevent⟩ := List.mem_map.mp hin
    exact key_of_one_run h (by simp) (by simp [hd]) hp.sends (sendOf_of_eventOf hevent) hb hp.key
  · rintro rfl
    exact told_run_keeps_key h hp

theorem told_promises {turn m : CanonicalMessage} (h : toldAfterInterruption a = some (turn, m))
    (hcall : ∃ call ∈ a.assistant.calls, call.callId = a.callId) (hk : a.idempotencyKey.isSome) : Promises a m := by
  refine ⟨by rw [h]; rfl, ?_⟩
  rw [(toldAfterInterruption_results h).2]
  obtain ⟨call, hcall, hid⟩ := hcall
  refine ⟨failedResult call (interruptedOutput a call), mem_toldAnswers hcall hid false, hid, unknownText, ?_⟩
  exact ⟨_, by rw [failedResult, interruptedOutput, if_pos hk]⟩

theorem mem_executionHistory {runId : Uuid} {run : RunRow} {session : SessionRow} {row : SessionMessageRow}
    (hrun : s.runs.lookup runId = some run) (hsession : s.sessions.lookup run.sessionId = some session)
    (hmode : session.sessionMode = .persistent) (hrow : row ∈ s.messages) (hin : row.sessionId = run.sessionId)
    (hkept : row.withdrawnAt = none) : row.message ∈ executionHistory s runId := by
  simp only [executionHistory, hrun, hsession, hmode]
  refine List.mem_map_of_mem (List.mem_mergeSort.mpr (List.mem_filter.mpr ⟨hrow, ?_⟩))
  simp [hin, hkept]

end Promise

section Example

def retriedWrite : List (Env × Op) :=
  sentTwice.take 7 ++
    [(clock 101, .recordSlice (slice 3 7 5 (some .failed))),
      (clock 102, .deriveRetry
        { workspaceId := 1, sourceRunId := 3, caller := somebody, canRetry := true, endpoint := "retry",
          idempotencyKey := "again", requestFingerprint := "again" } 8),
      (clock 103, take 9), (clock 104, .reserveOutsideCall 1 8 9 oneWrite 10)]

def toldWrite : InFlightRound := { oneWrite with idempotencyKey := some 6 }

private theorem cut_at {α : Type} {l : List α} {i : Nat} {x : α} (h : l[i]? = some x) :
    l = l.take i ++ x :: l.drop (i + 1) := by
  obtain ⟨_, hx⟩ := List.getElem?_eq_some_iff.mp h
  rw [← hx, List.cons_getElem_drop_succ, List.take_append_drop]

private theorem retried_write_reads {c : Commit Store (Env × Op) Answer} (hc : (attempt retriedWrite).1[10]? = some c) :
    ∃ m ∈ executionHistory c.before 8, Promises toldWrite m := by
  have hrow : ((attempt retriedWrite).1[10]?).map (fun c => (c.before.runs.lookup 8).map (·.sessionId)) =
      some (some 2) := by decide +kernel
  have hmode : ((attempt retriedWrite).1[10]?).map (fun c => (c.before.sessions.lookup 2).map (·.sessionMode)) =
      some (some .persistent) := by decide +kernel
  have hsaid : ((attempt retriedWrite).1[10]?).map (fun c => c.before.messages.any fun row =>
      row.sessionId = 2 ∧ row.withdrawnAt = none ∧ (toldAfterInterruption toldWrite).map (·.2) = some row.message) =
      some true := by decide +kernel
  simp only [hc, Option.map_some, Option.some.injEq] at hrow hmode hsaid
  obtain ⟨_, hrun, hsession⟩ := Option.map_eq_some_iff.mp hrow
  obtain ⟨_, hlookup, hpersistent⟩ := Option.map_eq_some_iff.mp hmode
  obtain ⟨_, hin, hrow⟩ := List.any_eq_true.mp hsaid
  obtain ⟨hthere, hkept, htold⟩ := of_decide_eq_true hrow
  obtain ⟨⟨_, _⟩, htold, rfl⟩ := Option.map_eq_some_iff.mp htold
  rw [← hsession] at hlookup hthere
  exact ⟨_, mem_executionHistory hrun hlookup hpersistent hin hthere hkept,
    told_promises htold (by decide) (by decide)⟩

private theorem retried_write_promised :
    ∃ l₁ t l₂ c b, (attempt retriedWrite).1 = l₁ ++ t :: (l₂ ++ c :: []) ∧
      Promised 3 8 t l₂ c toldWrite b "POST /orders" 6 ∧ b.idempotencyKey = some 10 ∧
      (c.before.runs.lookup 8).map (·.retryOfRunId) = some (some 3) := by
  have htell : ((attempt retriedWrite).1[5]?).map (tellOf 3) = some (some toldWrite) := by decide +kernel
  have hsend : ((attempt retriedWrite).1[10]?).map (sendOf 8) = some (some { oneWrite with idempotencyKey := some 10 }) := by
    decide +kernel
  have hretry : ((attempt retriedWrite).1[10]?).map (fun c => (c.before.runs.lookup 8).map (·.retryOfRunId)) =
      some (some (some 3)) := by decide +kernel
  have hquiet : (((attempt retriedWrite).1.drop 6).take 4).all (fun d => (sendOf 8 d).isNone) = true := by decide +kernel
  have hend : ((attempt retriedWrite).1.drop 11).isEmpty = true := by decide +kernel
  obtain ⟨t, ht, htell⟩ := Option.map_eq_some_iff.mp htell
  obtain ⟨c, hc, hsend⟩ := Option.map_eq_some_iff.mp hsend
  rw [hc, Option.map_some, Option.some.injEq] at hretry
  have hc' : ((attempt retriedWrite).1.drop 6)[4]? = some c := by
    rw [List.getElem?_drop]
    exact hc
  have hcut := cut_at hc'
  rw [List.drop_drop, List.isEmpty_iff.mp hend] at hcut
  refine ⟨_, t, _, c, _, (cut_at ht).trans (by rw [← hcut]), ⟨htell, rfl, rfl, retried_write_reads hc, hsend, rfl, ?_⟩, rfl,
    hretry⟩
  intro d hd _ hb'
  have hnone := List.all_eq_true.mp hquiet d hd
  rw [hb'] at hnone
  cases hnone

theorem retried_write_same_key_iff :
    ∃ l₁ t l₂ c b, Executes (l₁ ++ t :: (l₂ ++ c :: [])) (attempt retriedWrite).2 ∧
      Promised 3 8 t l₂ c toldWrite b "POST /orders" 6 ∧ (b.idempotencyKey = some 6 ↔ (8 : Uuid) = 3) := by
  obtain ⟨l₁, t, l₂, c, b, hlog, hp, _⟩ := retried_write_promised
  have hexec := attempt_executes retriedWrite
  rw [hlog] at hexec
  exact ⟨l₁, t, l₂, c, b, hexec, hp, same_key_kept_iff hexec hp⟩

/-- The retry of a told Run reads the promise, repeats the write exactly, and sends it under a new key. -/
theorem retried_write_new_key :
    ∃ l₁ t l₂ c b, Executes (l₁ ++ t :: (l₂ ++ c :: [])) (attempt retriedWrite).2 ∧
      (c.before.runs.lookup 8).map (·.retryOfRunId) = some (some 3) ∧
      Promised 3 8 t l₂ c toldWrite b "POST /orders" 6 ∧ b.idempotencyKey ≠ some 6 := by
  obtain ⟨l₁, t, l₂, c, b, hlog, hp, hkey, hretry⟩ := retried_write_promised
  have hexec := attempt_executes retriedWrite
  rw [hlog] at hexec
  refine ⟨l₁, t, l₂, c, b, hexec, hretry, hp, ?_⟩
  rw [hkey]
  decide

end Example

end TinyHermes.Runs.IdempotencyKeys
