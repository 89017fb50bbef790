import TinyHermes.Agents.Publication
import TinyHermes.Outbound.EffectiveScope

/-! Whether what is published is what was checked. -/
namespace TinyHermes.Agents
open Lib Outbound
open Runs (Uuid)
open Runs.ContextBudget (Estimator)

variable {p : Reading} {est : Estimator} {contentHash : DraftSpec → Nat} {s s' : State p est} {i j : Nat}
  {call : Call p est} {action : Action}

/-- What one statement of a call that is under way does. -/
inductive Did (contentHash : DraftSpec → Nat) (s : State p est) (i : Nat) (call : Call p est) : Action → State p est → Prop where
  | abort : Did contentHash s i call .abort (s.finish i call .lost)
  | readAgent : call.phase = .started → Did contentHash s i call .readAgent (s.readAgent i call)
  | readDraft : call.phase = .found → call.request.asked = .publish →
      Did contentHash s i call .readDraft (s.readDraft i call)
  | runCheck {answers c left spec} : call.phase = .checking (c :: left) → State.subject call = some spec →
      Did contentHash s i call (.runCheck answers) (s.runCheck i call answers c left spec)
  | lockAgent {after : State p est} : call.phase = .ready → s.lockAgent i call = some after →
      Did contentHash s i call .lockAgent after
  | lockDraft : call.phase = .locked → Did contentHash s i call .lockDraft (s.lockDraft i call)
  | readCurrent {d} : call.phase = .matched d → call.request.asked = .publish →
      Did contentHash s i call .readCurrent (s.readCurrent contentHash i call d)
  | readHighest {d} : call.phase = .compared d → call.request.asked = .publish →
      Did contentHash s i call .readHighest (s.put i { call with phase := .numbered d (s.highest + 1) })
  | commitVersion {d number newId} : call.phase = .numbered d number → call.request.asked = .publish →
      Did contentHash s i call (.commit newId) (s.commitVersion contentHash i call d number newId)
  | commitDraft {d spec newId} : call.phase = .matched d → call.request.asked = .replaceDraft spec →
      Did contentHash s i call (.commit newId) (s.commitDraft i call d spec)

theorem perform_did (h : perform contentHash s i action = some s') :
    (s.calls i = none ∧ ∃ request answers, s' = s.begin i request answers) ∨
      ∃ call, s.calls i = some call ∧ Did contentHash s i call action s' := by
  unfold perform at h
  cases hcall : s.calls i with
  | none =>
    left
    rw [hcall] at h
    cases action with
    | begin request answers => exact ⟨rfl, request, answers, (Option.some.inj h).symm⟩
    | _ => cases h
  | some call =>
    right
    refine ⟨call, rfl, ?_⟩
    rw [hcall] at h
    dsimp only at h
    split at h
    · cases h
    · cases h
      exact .abort
    · next hphase _ =>
      cases h
      exact .readAgent hphase
    · next hphase hasked =>
      cases h
      exact .readDraft hphase hasked
    · next hphase =>
      obtain ⟨_, hspec, rfl⟩ := Option.map_eq_some_iff.mp h
      exact .runCheck hphase hspec
    · next hphase => exact .lockAgent hphase h
    · next hphase =>
      cases h
      exact .lockDraft hphase
    · next hphase hasked =>
      cases h
      exact .readCurrent hphase hasked
    · next hphase hasked =>
      cases h
      exact .readHighest hphase hasked
    · next hphase hasked =>
      cases h
      exact .commitVersion hphase hasked
    · next hphase hasked =>
      cases h
      exact .commitDraft hphase hasked
    · cases h

def Call.Passes (call : Call p est) (c : Check) (spec : DraftSpec) : Prop := ∃ pass ∈ call.passed, pass.check = c ∧ pass.spec = spec

def Call.Checked (call : Call p est) (spec : DraftSpec) : Prop := ∀ c ∈ Check.all, call.Passes c spec

section Frames

def Keeps (s s' : State p est) : Prop :=
  ∀ j call, s.calls j = some call → ∃ call', s'.calls j = some call' ∧ ∀ c spec, call.Passes c spec → call'.Passes c spec

def Grows (s s' : State p est) : Prop :=
  s'.draft = s.draft ∨ ∃ d spec user, s.draft = some d ∧ s'.draft = some ⟨spec, d.revision + 1, user⟩

/-- What was read of the draft: nothing newer than what there is, and the same where the revision is. -/
def Behind (s : State p est) (d : AgentDraftRow) : Prop :=
  ∃ now ∈ s.draft, d.revision ≤ now.revision ∧ (d.revision = now.revision → d = now)

theorem Behind.grows {d : AgentDraftRow} (h : Behind s d) (hgrows : Grows s s') : Behind s' d := by
  obtain ⟨now, hnow, hle, heq⟩ := h
  obtain hsame | ⟨_, _, _, hbefore, hafter⟩ := hgrows
  · exact ⟨now, hsame ▸ hnow, hle, heq⟩
  · rw [Option.mem_def.mp hnow] at hbefore
    cases hbefore
    refine ⟨_, hafter, Nat.le_succ_of_le hle, ?_⟩
    intro hrevision
    dsimp only at hrevision
    omega

/-- What a statement of one call leaves to the others: the lock is only given up, and the draft only replaced, by who holds it. -/
structure Beside (s s' : State p est) (i : Nat) : Prop where
  calls : ∀ j, j ≠ i → s'.calls j = s.calls j
  holder : ∀ j, j ≠ i → s.holder = some j → s'.holder = some j
  grows : Grows s s'
  draft : s.holder ≠ some i → s'.draft = s.draft

end Frames

def Phase.reading : Phase → Bool
  | .started | .found => true
  | .checking _ | .ready | .locked | .matched _ | .compared _ | .numbered _ _ | .ended _ => false

structure CallInv (s : State p est) (i : Nat) (call : Call p est) : Prop where
  holds : call.phase.holds = true → s.holder = some i
  current : ∀ d ∈ call.phase.draft, s.draft = some d
  seen : ∀ d ∈ call.seen, Behind s d ∧ call.request.asked = .publish
  unread : call.phase.reading = true → call.seen = none
  passed : ∀ c ∈ Check.all, c ∈ call.phase.left ∨ ∀ d ∈ call.seen, call.Passes c d.spec
  read : call.request.asked = .publish → ∀ d ∈ call.phase.draft, call.seen = some d

theorem Phase.holds_of_draft {phase : Phase} {d : AgentDraftRow} (h : d ∈ phase.draft) : phase.holds = true := by
  cases phase <;> first | rfl | cases h

theorem CallInv.beside {other : Call p est} (h : CallInv s j other) (hj : j ≠ i) (hbeside : Beside s s' i) : CallInv s' j other where
  holds hphase := hbeside.holder j hj (h.holds hphase)
  current d hd := by
    have hmine := h.holds (Phase.holds_of_draft hd)
    rw [hbeside.draft]
    · exact h.current d hd
    · rw [hmine]
      exact fun heq => hj (Option.some.inj heq)
  seen d hd := (h.seen d hd).imp_left fun hbehind => hbehind.grows hbeside.grows
  unread := h.unread
  passed := h.passed
  read := h.read

section Effects

theorem put_calls_self (call' : Call p est) : (s.put i call').calls i = some call' := Function.update_self ..

theorem put_beside {call' : Call p est} : Beside s (s.put i call') i where
  calls _ hj := Function.update_of_ne hj ..
  holder _ _ h := h
  grows := .inl rfl
  draft _ := rfl

theorem finish_holder (call : Call p est) (outcome : Outcome) (hj : j ≠ i) (h : s.holder = some j) :
    (s.finish i call outcome).holder = some j := by
  rw [State.finish, if_neg]
  · exact h
  · rw [h]
    exact fun heq => hj (Option.some.inj heq)

theorem finish_beside {outcome : Outcome} : Beside s (s.finish i call outcome) i where
  calls _ hj := Function.update_of_ne hj ..
  holder _ hj h := finish_holder call outcome hj h
  grows := .inl rfl
  draft _ := rfl

theorem did_beside (hinv : CallInv s i call) (h : Did contentHash s i call action s') : Beside s s' i := by
  cases h with
  | abort => exact finish_beside
  | readAgent => 
    unfold State.readAgent
    split <;> exact put_beside
  | readDraft =>
    unfold State.readDraft
    split <;> exact put_beside
  | runCheck =>
    unfold State.runCheck
    split
    · exact finish_beside
    · exact put_beside
  | lockAgent _ hlock =>
    unfold State.lockAgent at hlock
    split at hlock
    · cases hlock
      exact finish_beside
    · split_ifs at hlock with hfree
      cases hlock
      refine ⟨put_beside.calls, ?_, .inl rfl, fun _ => rfl⟩
      intro _ _ hholder
      rw [hfree] at hholder
      cases hholder
  | lockDraft =>
    unfold State.lockDraft
    split
    · exact finish_beside
    · split_ifs
      · exact finish_beside
      · exact put_beside
  | readCurrent =>
    unfold State.readCurrent
    split
    · exact put_beside
    · split_ifs
      · exact finish_beside
      · exact put_beside
  | readHighest => exact put_beside
  | @commitVersion d number newId =>
    exact ⟨fun _ hj => Function.update_of_ne hj .., fun _ hj h => finish_holder call (.published newId) hj h, .inl rfl,
      fun _ => rfl⟩
  | @commitDraft d spec newId hphase =>
    have hdraft := hinv.current d (by rw [hphase]; rfl)
    refine ⟨fun _ hj => Function.update_of_ne hj .., fun _ hj h => finish_holder call (.saved (d.revision + 1)) hj h,
      .inr ⟨d, spec, _, hdraft, rfl⟩, ?_⟩
    intro hnot
    exact absurd (hinv.holds (by rw [hphase]; rfl)) hnot

theorem CallInv.ended {outcome : Outcome} (h : CallInv s i call) (hgrows : Grows s s') :
    CallInv s' i { call with phase := .ended outcome } where
  holds hholds := by cases hholds
  current _ hd := by cases hd
  seen d hd := (h.seen d hd).imp_left fun hbehind => hbehind.grows hgrows
  unread hreading := by cases hreading
  passed c hc := .inl hc
  read _ _ hd := by cases hd

structure GoesOn (s' : State p est) (i : Nat) (call : Call p est) : Prop where
  inv : ∃ call', s'.calls i = some call' ∧ CallInv s' i call' ∧ ∀ c spec, call.Passes c spec → call'.Passes c spec

theorem GoesOn.finish {outcome : Outcome} (h : CallInv s i call) : GoesOn (s.finish i call outcome) i call :=
  ⟨_, Function.update_self .., h.ended (.inl rfl), fun _ _ hpass => hpass⟩

theorem GoesOn.put {call' : Call p est} (h : CallInv (s.put i call') i call')
    (hpassed : ∀ c spec, call.Passes c spec → call'.Passes c spec) : GoesOn (s.put i call') i call :=
  ⟨_, put_calls_self call', h, hpassed⟩

/-- The only step with a condition: a draft that is locked for publication at the expected revision was read at that revision in
front of the checks. -/
def ReadAsExpected (s : State p est) (i : Nat) (action : Action) : Prop :=
  ∀ call ∈ s.calls i, ∀ now ∈ s.draft, action = .lockDraft → call.request.asked = .publish →
    now.revision = call.request.expectedRevision → ∃ d ∈ call.seen, d.revision = call.request.expectedRevision

theorem CallInv.free {call' : Call p est} (hinv : CallInv s i call) (hcall : call'.request = call.request ∧ call'.seen = call.seen)
    (hfree : call'.phase.holds = false) (hunread : call'.phase.reading = true → call.seen = none)
    (hpassed : ∀ c ∈ Check.all, c ∈ call'.phase.left ∨ ∀ d ∈ call.seen, call'.Passes c d.spec) :
    CallInv (s.put i call') i call' where
  holds hholds := by rw [hfree] at hholds; cases hholds
  current d hd := by rw [Phase.holds_of_draft hd] at hfree; cases hfree
  seen := by
    rw [hcall.2, hcall.1]
    exact hinv.seen
  unread hreading := hcall.2.trans (hunread hreading)
  passed := by
    rw [hcall.2]
    exact hpassed
  read _ d hd := by rw [Phase.holds_of_draft hd] at hfree; cases hfree

theorem runCheck_goesOn {answers : Answers} {c : Check} {left : List Check} {spec : DraftSpec} (hinv : CallInv s i call)
    (hphase : call.phase = .checking (c :: left)) (hspec : State.subject call = some spec) :
    GoesOn (s.runCheck i call answers c left spec) i call := by
  unfold State.runCheck
  split
  · exact .finish hinv
  · next hok =>
    -- the check that succeeded is no longer to be made
    have hmade : ∀ c' ∈ Check.all, c' ∈ left ∨ ∀ d ∈ call.seen,
        ∃ pass ∈ (⟨c, answers, spec, hok⟩ : Passed p est call.request) :: call.passed, pass.check = c' ∧ pass.spec = d.spec := by
      intro c' hc'
      obtain hstill | hpassed := hinv.passed c' hc'
      · rw [hphase] at hstill
        obtain rfl | hstill := List.mem_cons.mp hstill
        · right
          intro d hd
          have hread := (hinv.seen d hd).2
          rw [State.subject, hread, Option.mem_def.mp hd] at hspec
          exact ⟨_, List.mem_cons_self, rfl, (Option.some.inj hspec).symm⟩
        · exact .inl hstill
      · right
        intro d hd
        obtain ⟨pass, hpass, hsame⟩ := hpassed d hd
        exact ⟨pass, List.mem_cons_of_mem _ hpass, hsame⟩
    refine .put (hinv.free ⟨rfl, rfl⟩ ?_ ?_ ?_) fun c' spec' hpass => ?_
    · dsimp only
      split_ifs <;> rfl
    · dsimp only
      split_ifs <;> exact fun hreading => absurd hreading Bool.false_ne_true
    · intro c' hc'
      refine (hmade c' hc').imp_left fun hstill => ?_
      dsimp only
      rw [if_neg]
      · exact hstill
      · rw [List.isEmpty_iff]
        exact List.ne_nil_of_mem hstill
    · obtain ⟨pass, hpass, hsame⟩ := hpass
      exact ⟨pass, List.mem_cons_of_mem _ hpass, hsame⟩

theorem readAgent_goesOn (hinv : CallInv s i call) (hphase : call.phase = .started) : GoesOn (s.readAgent i call) i call := by
  have hunread : call.seen = none := hinv.unread (by rw [hphase]; rfl)
  unfold State.readAgent
  split
  · refine .put (hinv.free ⟨rfl, rfl⟩ rfl (fun _ => hunread) fun c _ => ?_) fun _ _ hpass => hpass
    right
    rw [hunread]
    exact fun d hd => nomatch hd
  · exact .put (hinv.free ⟨rfl, rfl⟩ rfl (fun _ => hunread) fun c hc => .inl hc) fun _ _ hpass => hpass

theorem readDraft_goesOn (hinv : CallInv s i call) (hphase : call.phase = .found) (hasked : call.request.asked = .publish) :
    GoesOn (s.readDraft i call) i call := by
  have hunread : call.seen = none := hinv.unread (by rw [hphase]; rfl)
  unfold State.readDraft
  split
  · refine .put (hinv.free ⟨rfl, rfl⟩ rfl (fun _ => hunread) fun c _ => ?_) fun _ _ hpass => hpass
    right
    rw [hunread]
    exact fun d hd => nomatch hd
  · next d hd =>
    refine .put ⟨?_, ?_, ?_, ?_, ?_, ?_⟩ fun _ _ hpass => hpass
    · exact fun hholds => nomatch hholds
    · exact fun _ h => nomatch h
    · intro _ hd'
      cases hd'
      exact ⟨⟨d, hd, Nat.le_refl _, fun _ => rfl⟩, hasked⟩
    · exact fun hreading => nomatch hreading
    · exact fun c hc => .inl hc
    · exact fun _ _ h => nomatch h

theorem lockAgent_goesOn (hinv : CallInv s i call) (hphase : call.phase = .ready) (h : s.lockAgent i call = some s') :
    GoesOn s' i call := by
  have hleft : call.phase.left = [] := by
    rw [hphase]
    rfl
  unfold State.lockAgent at h
  split at h
  · cases h
    exact .finish hinv
  · split_ifs at h with hfree
    cases h
    refine ⟨_, Function.update_self .., ⟨fun _ => rfl, ?_, hinv.seen, ?_, ?_, ?_⟩, fun _ _ hpass => hpass⟩
    · exact fun _ h => nomatch h
    · exact fun hreading => nomatch hreading
    · intro c hc
      have hpassed := hinv.passed c hc
      rw [hleft] at hpassed
      exact hpassed
    · exact fun _ _ h => nomatch h

theorem CallInv.withDraft {phase : Phase} {d : AgentDraftRow} (hinv : CallInv s i call) (hholds : call.phase.holds = true)
    (hdraft : s.draft = some d) (hphase : phase.draft = some d) (hleft : phase.left = []) (hreading : phase.reading = false)
    (hread : call.request.asked = .publish → call.seen = some d) :
    CallInv (s.put i { call with phase := phase }) i { call with phase := phase } where
  holds _ := hinv.holds hholds
  current d' hd' := by
    have hsame := hphase.symm.trans hd'
    cases hsame
    exact hdraft
  seen := hinv.seen
  unread h := by
    dsimp only at h
    rw [hreading] at h
    cases h
  passed c hc := by
    have hnone : call.phase.left = [] := by
      cases hcases : call.phase <;> rw [hcases] at hholds <;> first | rfl | cases hholds
    have hpassed := hinv.passed c hc
    rw [hnone] at hpassed
    dsimp only
    rw [hleft]
    exact hpassed
  read hasked d' hd' := by
    have hsame := hphase.symm.trans hd'
    cases hsame
    exact hread hasked

theorem lockDraft_goesOn (hinv : CallInv s i call) (hcall : s.calls i = some call) (hread : ReadAsExpected s i .lockDraft)
    (hphase : call.phase = .locked) : GoesOn (s.lockDraft i call) i call := by
  have hholds : call.phase.holds = true := by
    rw [hphase]
    rfl
  unfold State.lockDraft
  split
  · exact .finish hinv
  · next d hd =>
    split_ifs with hother
    · exact .finish hinv
    · refine .put (hinv.withDraft hholds hd rfl rfl rfl fun hasked => ?_) fun _ _ hpass => hpass
      -- the draft that was read is at the revision of the one that is locked, so it is that one
      have hexpected := not_not.mp hother
      obtain ⟨before, hbefore, hrevision⟩ := hread call hcall d hd rfl hasked hexpected
      obtain ⟨⟨_, hnow, _, hsame⟩, _⟩ := hinv.seen before hbefore
      rw [Option.mem_def.mp hnow] at hd
      cases hd
      rw [hsame (hrevision.trans hexpected.symm)] at hbefore
      exact hbefore

theorem readCurrent_goesOn {d : AgentDraftRow} (hinv : CallInv s i call) (hphase : call.phase = .matched d)
    (hasked : call.request.asked = .publish) : GoesOn (s.readCurrent contentHash i call d) i call := by
  have hdraft : d ∈ call.phase.draft := by
    rw [hphase]
    rfl
  have hnext : CallInv (s.put i { call with phase := .compared d }) i { call with phase := .compared d } :=
    hinv.withDraft (Phase.holds_of_draft hdraft) (hinv.current d hdraft) rfl rfl rfl fun _ => hinv.read hasked d hdraft
  unfold State.readCurrent
  split
  · exact .put hnext fun _ _ hpass => hpass
  · split_ifs
    · exact .finish hinv
    · exact .put hnext fun _ _ hpass => hpass

theorem did_goesOn (hinv : CallInv s i call) (hcall : s.calls i = some call) (hread : ReadAsExpected s i action)
    (h : Did contentHash s i call action s') : GoesOn s' i call := by
  cases h with
  | abort => exact .finish hinv
  | readAgent hphase => exact readAgent_goesOn hinv hphase
  | readDraft hphase hasked => exact readDraft_goesOn hinv hphase hasked
  | runCheck hphase hspec => exact runCheck_goesOn hinv hphase hspec
  | lockAgent hphase hlock => exact lockAgent_goesOn hinv hphase hlock
  | lockDraft hphase => exact lockDraft_goesOn hinv hcall hread hphase
  | readCurrent hphase hasked => exact readCurrent_goesOn hinv hphase hasked
  | @readHighest d hphase hasked =>
    have hdraft : d ∈ call.phase.draft := by
      rw [hphase]
      rfl
    exact .put (hinv.withDraft (Phase.holds_of_draft hdraft) (hinv.current d hdraft) rfl rfl rfl fun _ =>
      hinv.read hasked d hdraft) fun _ _ hpass => hpass
  | @commitVersion d number newId hphase hasked =>
    exact ⟨_, Function.update_self .., hinv.ended (.inl rfl), fun _ _ hpass => hpass⟩
  | @commitDraft d spec newId hphase hasked =>
    have hdraft := hinv.current d (by rw [hphase]; rfl)
    exact ⟨_, Function.update_self .., hinv.ended (.inr ⟨d, spec, _, hdraft, rfl⟩), fun _ _ hpass => hpass⟩

end Effects

section Runs

def Vouched (s : State p est) (v : AgentVersionRow) : Prop :=
  ∀ i, v.writtenBy = some i → ∃ call, s.calls i = some call ∧ call.Checked v.spec

theorem Vouched.keeps {v : AgentVersionRow} (h : Vouched s v) (hkeeps : Keeps s s') : Vouched s' v := by
  intro i hwritten
  obtain ⟨call, hcall, hchecked⟩ := h i hwritten
  obtain ⟨call', hcall', hpasses⟩ := hkeeps i call hcall
  exact ⟨call', hcall', fun c hc => hpasses c v.spec (hchecked c hc)⟩

structure Inv (s : State p est) : Prop where
  calls : ∀ i call, s.calls i = some call → CallInv s i call
  versions : ∀ v ∈ s.versions, Vouched s v

structure Begins (s : State p est) : Prop where
  calls : ∀ i, s.calls i = none
  versions : ∀ v ∈ s.versions, v.writtenBy = none

theorem Begins.inv (h : Begins s) : Inv s where
  calls i call hcall := by
    rw [h.calls i] at hcall
    cases hcall
  versions v hv i hwritten := by
    rw [h.versions v hv] at hwritten
    cases hwritten

theorem begin_inv {request : Request} {answers : Answers} (hinv : Inv s) (hnone : s.calls i = none) :
    Inv (s.begin i request answers) := by
  have hput : ∃ call, s.begin i request answers = s.put i call ∧ call.seen = none ∧
      (∀ c ∈ Check.all, c ∈ call.phase.left ∨ call.seen = none) ∧ call.phase.holds = false := by
    unfold State.begin
    split_ifs
    · split
      · exact ⟨_, rfl, rfl, fun _ hc => .inl hc, rfl⟩
      · exact ⟨_, rfl, rfl, fun _ _ => .inr rfl, rfl⟩
    · exact ⟨_, rfl, rfl, fun _ hc => .inl hc, rfl⟩
  obtain ⟨call, hbegin, hseen, hpassed, hfree⟩ := hput
  rw [hbegin]
  refine ⟨fun j other hother => ?_, fun v hv => ?_⟩
  · by_cases hj : j = i
    · subst hj
      rw [put_calls_self] at hother
      cases hother
      refine ⟨?_, ?_, ?_, fun _ => hseen, ?_, ?_⟩
      · intro hholds
        rw [hfree] at hholds
        cases hholds
      · intro d hd
        rw [Phase.holds_of_draft hd] at hfree
        cases hfree
      · intro d hd
        rw [hseen] at hd
        cases hd
      · intro c hc
        refine (hpassed c hc).imp_right fun hnone d hd => ?_
        rw [hnone] at hd
        cases hd
      · intro _ _ hd
        rw [Phase.holds_of_draft hd] at hfree
        cases hfree
    · have hbeside : Beside s (s.put i call) i := put_beside
      rw [hbeside.calls j hj] at hother
      exact (hinv.calls j other hother).beside hj hbeside
  · refine (hinv.versions v hv).keeps fun j other hother => ?_
    by_cases hj : j = i
    · rw [hj, hnone] at hother
      cases hother
    · exact ⟨other, (Function.update_of_ne hj ..).trans hother, fun _ _ h => h⟩

theorem did_versions (h : Did contentHash s i call action s') : s'.versions = s.versions ∨
    ∃ d number row, call.phase = .numbered d number ∧ call.request.asked = .publish ∧ s'.versions = s.versions ++ [row] ∧
      row.spec = d.spec ∧ row.writtenBy = some i := by
  cases h with
  | abort => exact .inl rfl
  | readAgent =>
    unfold State.readAgent
    split <;> exact .inl rfl
  | readDraft =>
    unfold State.readDraft
    split <;> exact .inl rfl
  | runCheck =>
    unfold State.runCheck
    split <;> exact .inl rfl
  | lockAgent _ hlock =>
    unfold State.lockAgent at hlock
    split at hlock
    · cases hlock
      exact .inl rfl
    · split_ifs at hlock
      cases hlock
      exact .inl rfl
  | lockDraft =>
    unfold State.lockDraft
    split
    · exact .inl rfl
    · split_ifs <;> exact .inl rfl
  | readCurrent =>
    unfold State.readCurrent
    split
    · exact .inl rfl
    · split_ifs <;> exact .inl rfl
  | readHighest => exact .inl rfl
  | @commitVersion d number newId hphase hasked => exact .inr ⟨d, number, _, hphase, hasked, rfl, rfl, rfl⟩
  | commitDraft => exact .inl rfl

theorem perform_inv (hinv : Inv s) (hread : ReadAsExpected s i action) (h : perform contentHash s i action = some s') :
    Inv s' := by
  obtain ⟨hnone, _, _, rfl⟩ | ⟨call, hcall, hdid⟩ := perform_did h
  · exact begin_inv hinv hnone
  · have hmine := hinv.calls i call hcall
    have hbeside := did_beside hmine hdid
    obtain ⟨call', hcall', hinv', hpasses⟩ := (did_goesOn hmine hcall hread hdid).inv
    have hkeeps : Keeps s s' := by
      intro j other hother
      by_cases hj : j = i
      · subst hj
        rw [hcall] at hother
        cases hother
        exact ⟨call', hcall', hpasses⟩
      · exact ⟨other, (hbeside.calls j hj).trans hother, fun _ _ hpass => hpass⟩
    refine ⟨fun j other hother => ?_, fun v hv => ?_⟩
    · by_cases hj : j = i
      · subst hj
        rw [hcall'] at hother
        cases hother
        exact hinv'
      · rw [hbeside.calls j hj] at hother
        exact (hinv.calls j other hother).beside hj hbeside
    · obtain hsame | ⟨d, _, row, hphase, hasked, hversions, hspec, hwritten⟩ := did_versions hdid
      · rw [hsame] at hv
        exact (hinv.versions v hv).keeps hkeeps
      · rw [hversions] at hv
        obtain hv | hv := List.mem_append.mp hv
        · exact (hinv.versions v hv).keeps hkeeps
        · rw [List.mem_singleton.mp hv]
          intro _ hj
          rw [hwritten] at hj
          cases hj
          -- the draft that is locked is the one that every check was made on
          have hseen := hmine.read hasked d (by rw [hphase]; rfl)
          refine ⟨call', hcall', fun c hc => hpasses c row.spec ?_⟩
          have hpassed := hmine.passed c hc
          rw [hphase] at hpassed
          rw [hspec]
          exact hpassed.resolve_left List.not_mem_nil d hseen

variable {start : State p est} {log : List (Commit (State p est) (Nat × Action) Unit)}

/-- In a run in which every draft that is locked for publication was read at that revision in front of the checks, each new
version says what every check of the publication that wrote it was made on. -/
theorem published_checked (hstart : Begins start)
    (hrun : Execution (Statement contentHash) start log s)
    (hread : ∀ c ∈ log, ReadAsExpected c.before c.input.1 c.input.2) : ∀ v ∈ s.versions, Vouched s v := by
  have hrun' := hrun.strengthen (P := fun s x _ _ => ReadAsExpected s x.1 x.2) hread
  have hinv := hrun'.invariant (I := Inv) hstart.inv fun s x _ s' hstep hinv => perform_inv hinv hstep.1 hstep.2
  exact hinv.versions

def readAsExpected (s : State p est) (i : Nat) (action : Action) : Bool :=
  match action, s.calls i, s.draft with
  | .lockDraft, some call, some now =>
    now.revision != call.request.expectedRevision || call.seen.any (·.revision == call.request.expectedRevision)
  | _, _, _ => true

theorem ReadAsExpected.of_check (h : readAsExpected s i action = true) : ReadAsExpected s i action := by
  rintro _ hcall _ hnow rfl _ hexpected
  simp only [readAsExpected, Option.mem_def.mp hcall, Option.mem_def.mp hnow, hexpected, bne_self_eq_false,
    Bool.false_or] at h
  obtain ⟨d, hd, hrevision⟩ := (Option.any_eq_true _ _).mp h
  exact ⟨d, hd, beq_iff_eq.mp hrevision⟩

end Runs

section Examples

def noEstimate : Estimator := ⟨fun _ => 0, fun _ => ""⟩

def noCatalogs : Answers where
  roleFor _ _ := some .developer
  endpoints := none
  skills := none
  scopes := none
  httpTools := none
  mcp := none
  publishedAliases _ _ := []
  workspaceCeilings := none

def oneAgent : State hostsOnly noEstimate where
  agent := some { workspaceId := 1 }
  draft := some { spec := {}, revision := 1, updatedBy := 7 }
  versions := []

theorem oneAgent_begins : Begins oneAgent := ⟨fun _ => rfl, fun _ hv => absurd hv List.not_mem_nil⟩

def developer (expectedRevision : Nat) (asked : Asked) : Request :=
  { workspaceId := 1, actor := { id := 7 }, expectedRevision, asked }

def checksOf (i : Nat) (expectedRevision : Nat) : List (Nat × Action) :=
  [(i, .begin (developer expectedRevision .publish) noCatalogs), (i, .readAgent), (i, .readDraft)] ++
    Check.all.map fun _ => (i, .runCheck noCatalogs)

def writesOf (i : Nat) (version : Uuid) : List (Nat × Action) :=
  [(i, .lockAgent), (i, .lockDraft), (i, .readCurrent), (i, .readHighest), (i, .commit version)]

def unknownEndpoint : DraftSpec := { modelPolicy := .endpoint { endpointId := 9 } }

def saves (i : Nat) : List (Nat × Action) :=
  [(i, .begin (developer 1 (.replaceDraft unknownEndpoint)) noCatalogs), (i, .runCheck noCatalogs), (i, .lockAgent),
    (i, .lockDraft), (i, .commit 0)]

def runOf (inputs : List (Nat × Action)) : List (Commit (State hostsOnly noEstimate) (Nat × Action) Unit) × State hostsOnly noEstimate :=
  replay (fun s x => (perform (fun _ => 0) s x.1 x.2).map fun s' => ((), s')) oneAgent inputs

theorem runOf_execution (inputs : List (Nat × Action)) :
    Execution (Statement fun _ => 0) oneAgent (runOf inputs).1 (runOf inputs).2 := by
  apply replay_execution
  intro _ _ _ _ h
  obtain ⟨_, hafter, hsame⟩ := Option.map_eq_some_iff.mp h
  cases hsame
  exact hafter

theorem first_version_vouched : ∃ v ∈ (runOf (checksOf 1 1 ++ writesOf 1 5)).2.versions, v.writtenBy = some 1 ∧
    Vouched (runOf (checksOf 1 1 ++ writesOf 1 5)).2 v := by
  have hread : (runOf (checksOf 1 1 ++ writesOf 1 5)).1.all (fun c => readAsExpected c.before c.input.1 c.input.2) = true := rfl
  have hvouched := published_checked oneAgent_begins (runOf_execution (checksOf 1 1 ++ writesOf 1 5)) fun c hc =>
    ReadAsExpected.of_check (List.all_eq_true.mp hread c hc)
  exact ⟨_, List.mem_cons_self, rfl, hvouched _ List.mem_cons_self⟩

def DraftSpec.usesEndpoint (spec : DraftSpec) : Bool :=
  match spec.modelPolicy with
  | .deterministic => false
  | .endpoint _ => true

/-- A draft saved between the two reads of a publication that expects its revision is published, although no check of that
publication was made on it. -/
theorem unchecked_version : Begins oneAgent ∧ ∃ log s,
    Execution (Statement fun _ => 0) oneAgent log s ∧
      ∃ v ∈ s.versions, ¬ Vouched s v := by
  refine ⟨oneAgent_begins, _, _, runOf_execution (checksOf 1 2 ++ saves 2 ++ writesOf 1 5), _, List.mem_cons_self, ?_⟩
  intro hvouched
  obtain ⟨call, hcall, hchecked⟩ := hvouched 1 rfl
  obtain ⟨pass, hpass, _, hspec⟩ := hchecked .endpoint List.mem_cons_self
  have hother : (((runOf (checksOf 1 2 ++ saves 2 ++ writesOf 1 5)).2.calls 1).map fun call =>
      call.passed.all fun pass => !pass.spec.usesEndpoint) = some true := rfl
  rw [hcall] at hother
  have hnot := List.all_eq_true.mp (Option.some.inj hother) pass hpass
  rw [hspec] at hnot
  cases hnot

end Examples

end TinyHermes.Agents
