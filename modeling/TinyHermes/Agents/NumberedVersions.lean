import TinyHermes.Agents.CheckedVersions

/-! Saves and publications side by side: versions are numbered one after another as they are committed, the Agent names the last of
them, and no save is lost. -/
namespace TinyHermes.Agents.NumberedVersions
open Lib Outbound
open Runs (Uuid)
open Runs.ContextBudget (Estimator)

variable {p : Reading} {est : Estimator} {contentHash : DraftSpec → Nat} {start s s' : State p est} {i j : Nat}
  {call call' : Call p est} {action : Action}

/-- What the lock on the Agent's row gives a call: the draft it compared is the draft, and its number is the next. -/
structure Working (s : State p est) (i : Nat) (call : Call p est) : Prop where
  holds : call.phase.holds = true → s.holder = some i
  draft : ∀ d ∈ call.phase.draft, s.draft = some d ∧ d.revision = call.request.expectedRevision
  number : ∀ d n, call.phase = .numbered d n → n = s.versions.length + 1

structure Answered (s : State p est) (i : Nat) (call : Call p est) : Prop where
  saved : ∀ r, call.phase = .ended (.saved r) → r = call.request.expectedRevision + 1 ∧ ∃ now ∈ s.draft, r ≤ now.revision
  published : ∀ id, call.phase = .ended (.published id) →
    ∃ row ∈ s.versions, row.id = id ∧ row.writtenBy = some i ∧ row.publishedBy = call.request.actor.id

structure Numbered (s : State p est) : Prop where
  agent : s.agent.isSome = true
  numbers : s.versions.map (·.versionNumber) = List.range' 1 s.versions.length
  current : s.agent.bind (·.currentVersionId) = s.versions.getLast?.map (·.id)

structure InOrder (start s : State p est) : Prop extends Numbered s where
  working : ∀ i call, s.calls i = some call → Working s i call
  answered : ∀ i call, s.calls i = some call → Answered s i call
  kept : start.versions <+: s.versions
  written : ∀ row ∈ s.versions, row ∈ start.versions ∨
    ∃ i call, row.writtenBy = some i ∧ s.calls i = some call ∧ call.phase = .ended (.published row.id)
  /-- of the saves that expected one revision, one was made -/
  apart : ∀ i j call other r, s.calls i = some call → s.calls j = some other → call.phase = .ended (.saved r) →
    other.phase = .ended (.saved r) → i = j

section Frames

structure Aside (s s' : State p est) (i : Nat) : Prop where
  calls : ∀ j, j ≠ i → s'.calls j = s.calls j
  holder : ∀ j, j ≠ i → s.holder = some j → s'.holder = some j
  locked : s.holder ≠ some i → s'.draft = s.draft ∧ s'.versions = s.versions
  draft : ∀ now ∈ s.draft, ∃ now' ∈ s'.draft, now.revision ≤ now'.revision
  versions : s.versions <+: s'.versions

theorem Working.aside {other : Call p est} (h : Working s j other) (hj : j ≠ i) (haside : Aside s s' i) : Working s' j other := by
  have hlocked (hphase : other.phase.holds = true) : s'.draft = s.draft ∧ s'.versions = s.versions := by
    apply haside.locked
    rw [h.holds hphase]
    exact fun heq => hj (Option.some.inj heq)
  refine ⟨fun hphase => haside.holder j hj (h.holds hphase), fun d hd => ?_, fun d n hn => ?_⟩
  · rw [(hlocked (Phase.holds_of_draft hd)).1]
    exact h.draft d hd
  · rw [(hlocked (by rw [hn]; rfl)).2]
    exact h.number d n hn

theorem Answered.aside {other : Call p est} (h : Answered s j other) (haside : Aside s s' i) : Answered s' j other where
  saved r hr := by
    obtain ⟨hexpected, now, hnow, hle⟩ := h.saved r hr
    obtain ⟨now', hnow', hle'⟩ := haside.draft now hnow
    exact ⟨hexpected, now', hnow', hle.trans hle'⟩
  published id hid := by
    obtain ⟨row, hrow, hsame⟩ := h.published id hid
    exact ⟨row, haside.versions.subset hrow, hsame⟩

theorem Working.idle (h : call.phase.holds = false) : Working s i call where
  holds hphase := by rw [h] at hphase; cases hphase
  draft d hd := by rw [Phase.holds_of_draft hd] at h; cases h
  number d n hn := by rw [hn] at h; cases h

/-- A call that is not over, or whose answer promises nothing. -/
def Unanswered (call : Call p est) : Prop :=
  (∀ r, call.phase ≠ .ended (.saved r)) ∧ ∀ id, call.phase ≠ .ended (.published id)

/-- A statement that writes neither the draft nor a version. -/
structure Quiet (s s' : State p est) (i : Nat) : Prop where
  calls : ∀ j, j ≠ i → s'.calls j = s.calls j
  holder : ∀ j, j ≠ i → s.holder = some j → s'.holder = some j
  draft : s'.draft = s.draft
  versions : s'.versions = s.versions
  agent : s'.agent = s.agent
  now : ∃ call, s'.calls i = some call ∧ Working s' i call ∧ Unanswered call

theorem Quiet.aside (h : Quiet s s' i) : Aside s s' i where
  calls := h.calls
  holder := h.holder
  locked _ := ⟨h.draft, h.versions⟩
  draft now hnow := ⟨now, h.draft ▸ hnow, le_rfl⟩
  versions := h.versions ▸ List.prefix_rfl

theorem quiet_put (hworking : Working (s.put i call') i call') (hquiet : Unanswered call') : Quiet s (s.put i call') i where
  calls _ hj := Function.update_of_ne hj ..
  holder _ _ h := h
  draft := rfl
  versions := rfl
  agent := rfl
  now := ⟨call', put_calls_self call', hworking, hquiet⟩

theorem quiet_finish {outcome : Outcome} (hsaved : ∀ r, outcome ≠ .saved r) (hpublished : ∀ id, outcome ≠ .published id) :
    Quiet s (s.finish i call outcome) i where
  calls _ hj := Function.update_of_ne hj ..
  holder _ hj h := finish_holder call outcome hj h
  draft := rfl
  versions := rfl
  agent := rfl
  now := by
    refine ⟨_, Function.update_self .., .idle rfl, fun r heq => ?_, fun id heq => ?_⟩
    · exact hsaved r (Phase.ended.inj heq)
    · exact hpublished id (Phase.ended.inj heq)

end Frames

section Statements

theorem foldl_max_range (n : Nat) : (List.range' 1 n).foldl max 0 = n := by
  induction n with
  | zero => rfl
  | succ n ih =>
    rw [List.range'_concat, List.foldl_append, ih]
    simp only [List.foldl_cons, List.foldl_nil]
    omega

theorem Numbered.highest (h : Numbered s) : s.highest = s.versions.length := by
  rw [State.highest, h.numbers, foldl_max_range]

theorem begin_quiet {request : Request} {answers : Answers} : Quiet s (s.begin i request answers) i := by
  unfold State.begin
  split
  · split
    · exact quiet_put (.idle rfl) ⟨nofun, nofun⟩
    · exact quiet_put (.idle rfl) ⟨nofun, nofun⟩
  · exact quiet_put (.idle rfl) ⟨nofun, nofun⟩

theorem did_cases (hworking : Working s i call) (hnumbered : Numbered s) (h : Did contentHash s i call action s') :
    Quiet s s' i ∨
      (∃ d number newId, call.phase = .numbered d number ∧ s' = s.commitVersion contentHash i call d number newId) ∨
      ∃ d spec, call.phase = .matched d ∧ s' = s.commitDraft i call d spec := by
  cases h with
  | abort => exact .inl (quiet_finish nofun nofun)
  | readAgent =>
    left
    unfold State.readAgent
    split <;> exact quiet_put (.idle rfl) ⟨nofun, nofun⟩
  | readDraft =>
    left
    unfold State.readDraft
    split <;> exact quiet_put (.idle rfl) ⟨nofun, nofun⟩
  | runCheck =>
    left
    unfold State.runCheck
    split
    · exact quiet_finish nofun nofun
    · refine quiet_put (.idle ?_) ⟨fun r => ?_, fun id => ?_⟩ <;> dsimp only <;> split_ifs <;> first | rfl | exact nofun
  | lockAgent _ hlock =>
    left
    unfold State.lockAgent at hlock
    split at hlock
    · cases hlock
      exact quiet_finish nofun nofun
    · split_ifs at hlock with hfree
      cases hlock
      refine ⟨fun _ hj => Function.update_of_ne hj .., fun _ _ hholder => ?_, rfl, rfl, rfl, ?_⟩
      · rw [hfree] at hholder
        cases hholder
      · exact ⟨_, put_calls_self _, ⟨fun _ => rfl, nofun, nofun⟩, nofun, nofun⟩
  | lockDraft hphase =>
    left
    unfold State.lockDraft
    split
    · exact quiet_finish nofun nofun
    · next d hd =>
      split_ifs with hrevision
      · exact quiet_finish nofun nofun
      · rw [ne_eq, not_not] at hrevision
        refine quiet_put ⟨fun _ => hworking.holds (by rw [hphase]; rfl), fun _ hmine => ?_, nofun⟩ ⟨nofun, nofun⟩
        cases hmine
        exact ⟨hd, hrevision⟩
  | @readCurrent d hphase =>
    left
    have hcompared : Quiet s (s.put i { call with phase := .compared d }) i := by
      refine quiet_put ⟨fun _ => hworking.holds (by rw [hphase]; rfl), fun _ hmine => ?_, nofun⟩ ⟨nofun, nofun⟩
      cases hmine
      exact hworking.draft d (by rw [hphase]; rfl)
    unfold State.readCurrent
    split
    · exact hcompared
    · split_ifs
      · exact quiet_finish nofun nofun
      · exact hcompared
  | @readHighest d hphase =>
    left
    refine quiet_put ⟨fun _ => hworking.holds (by rw [hphase]; rfl), fun _ hmine => ?_, fun _ n hn => ?_⟩ ⟨nofun, nofun⟩
    · cases hmine
      exact hworking.draft d (by rw [hphase]; rfl)
    · cases hn
      exact congrArg (· + 1) hnumbered.highest
  | @commitVersion d number newId hphase => exact .inr (.inl ⟨d, number, newId, hphase, rfl⟩)
  | @commitDraft d spec _ hphase => exact .inr (.inr ⟨d, spec, hphase, rfl⟩)

theorem perform_open (h : perform contentHash s i action = some s') (hcall : s.calls i = some call) (outcome : Outcome) :
    call.phase ≠ .ended outcome := by
  intro hover
  unfold perform at h
  rw [hcall] at h
  dsimp only at h
  rw [hover] at h
  cases action <;> cases h

end Statements

section Runs

theorem written_kept {row : AgentVersionRow} (haside : Aside s s' i) (hopen : ∀ call, s.calls i = some call → ∀ o, call.phase ≠ .ended o)
    (h : row ∈ start.versions ∨
      ∃ j call, row.writtenBy = some j ∧ s.calls j = some call ∧ call.phase = .ended (.published row.id)) :
    row ∈ start.versions ∨
      ∃ j call, row.writtenBy = some j ∧ s'.calls j = some call ∧ call.phase = .ended (.published row.id) := by
  refine h.imp_right fun ⟨j, call, hby, hcall, hphase⟩ => ⟨j, call, hby, ?_, hphase⟩
  rw [haside.calls j]
  · exact hcall
  · rintro rfl
    exact hopen call hcall _ hphase

theorem InOrder.calls_aside (h : InOrder start s) (haside : Aside s s' i) (hmine : s'.calls i = some call)
    (hworking : Working s' i call) (hanswered : Answered s' i call) :
    (∀ j other, s'.calls j = some other → Working s' j other) ∧ ∀ j other, s'.calls j = some other → Answered s' j other := by
  refine ⟨fun j other hother => ?_, fun j other hother => ?_⟩
  · by_cases hj : j = i
    · subst hj
      cases hmine.symm.trans hother
      exact hworking
    · rw [haside.calls j hj] at hother
      exact (h.working j other hother).aside hj haside
  · by_cases hj : j = i
    · subst hj
      cases hmine.symm.trans hother
      exact hanswered
    · rw [haside.calls j hj] at hother
      exact (h.answered j other hother).aside haside

theorem InOrder.apart_aside (h : InOrder start s) (haside : Aside s s' i) (hmine : s'.calls i = some call)
    (hnew : ∀ r, call.phase = .ended (.saved r) → ∀ now ∈ s.draft, now.revision < r) :
    ∀ j k other another r, s'.calls j = some other → s'.calls k = some another → other.phase = .ended (.saved r) →
      another.phase = .ended (.saved r) → j = k := by
  have hold (j : Nat) (other : Call p est) (r : Nat) (hj : j ≠ i) (hother : s'.calls j = some other)
      (hphase : other.phase = .ended (.saved r)) : call.phase ≠ .ended (.saved r) := by
    intro hsaved
    rw [haside.calls j hj] at hother
    obtain ⟨_, now, hnow, hle⟩ := (h.answered j other hother).saved r hphase
    exact absurd hle (Nat.not_le_of_lt (hnew r hsaved now hnow))
  intro j k other another r hother hanother hphase hphase'
  by_cases hj : j = i
  · by_cases hk : k = i
    · rw [hj, hk]
    · subst hj
      cases hmine.symm.trans hother
      exact absurd hphase (hold k another r hk hanother hphase')
  · by_cases hk : k = i
    · subst hk
      cases hmine.symm.trans hanother
      exact absurd hphase' (hold j other r hj hother hphase)
    · rw [haside.calls j hj] at hother
      rw [haside.calls k hk] at hanother
      exact h.apart j k other another r hother hanother hphase hphase'

theorem InOrder.quiet (h : InOrder start s) (hquiet : Quiet s s' i)
    (hopen : ∀ call, s.calls i = some call → ∀ o, call.phase ≠ .ended o) : InOrder start s' := by
  obtain ⟨call, hmine, hworking, hsaved, hpublished⟩ := hquiet.now
  obtain ⟨hworks, hanswers⟩ := h.calls_aside hquiet.aside hmine hworking
    ⟨fun r hr => absurd hr (hsaved r), fun id hid => absurd hid (hpublished id)⟩
  refine ⟨⟨?_, ?_, ?_⟩, hworks, hanswers, ?_, fun row hrow => ?_, ?_⟩
  · rw [hquiet.agent]
    exact h.agent
  · rw [hquiet.versions]
    exact h.numbers
  · rw [hquiet.agent, hquiet.versions]
    exact h.current
  · rw [hquiet.versions]
    exact h.kept
  · rw [hquiet.versions] at hrow
    exact written_kept hquiet.aside hopen (h.written row hrow)
  · exact h.apart_aside hquiet.aside hmine fun r hr => absurd hr (hsaved r)

theorem InOrder.commitVersion {d : AgentDraftRow} {number : Nat} {newId : Uuid} (h : InOrder start s) (hcall : s.calls i = some call)
    (hphase : call.phase = .numbered d number) : InOrder start (s.commitVersion contentHash i call d number newId) := by
  have hworking := h.working i call hcall
  have hholder := hworking.holds (by rw [hphase]; rfl)
  have hnumber := hworking.number d number hphase
  obtain ⟨agent, hagent⟩ := Option.isSome_iff_exists.mp h.agent
  have haside : Aside s (s.commitVersion contentHash i call d number newId) i := by
    refine ⟨fun _ hj => Function.update_of_ne hj .., fun _ hj hother => finish_holder call (.published newId) hj hother, ?_,
      fun now hnow => ⟨now, hnow, le_rfl⟩, List.prefix_append _ _⟩
    exact fun hnot => absurd hholder hnot
  have hmine : (s.commitVersion contentHash i call d number newId).calls i =
      some { call with phase := .ended (.published newId) } := Function.update_self ..
  obtain ⟨hworks, hanswers⟩ := h.calls_aside haside hmine (.idle rfl) ⟨nofun, fun id hid => by
    cases hid
    exact ⟨_, List.mem_append_right _ (List.mem_singleton_self _), rfl, rfl, rfl⟩⟩
  refine ⟨⟨?_, ?_, ?_⟩, hworks, hanswers, h.kept.trans haside.versions, fun row hrow => ?_, h.apart_aside haside hmine nofun⟩
  · simp [State.commitVersion, hagent]
  · simp [State.commitVersion, h.numbers, hnumber, List.range'_concat, Nat.add_comm]
  · simp [State.commitVersion, hagent]
  · rcases List.mem_append.mp hrow with hrow | hrow
    · refine written_kept haside (fun other hother o hover => ?_) (h.written row hrow)
      cases hcall.symm.trans hother
      rw [hphase] at hover
      cases hover
    · rw [List.mem_singleton] at hrow
      subst hrow
      exact .inr ⟨i, _, rfl, hmine, rfl⟩

theorem InOrder.commitDraft {d : AgentDraftRow} {spec : DraftSpec} (h : InOrder start s) (hcall : s.calls i = some call)
    (hphase : call.phase = .matched d) : InOrder start (s.commitDraft i call d spec) := by
  have hworking := h.working i call hcall
  have hholder := hworking.holds (by rw [hphase]; rfl)
  obtain ⟨hdraft, hrevision⟩ := hworking.draft d (by rw [hphase]; rfl)
  have haside : Aside s (s.commitDraft i call d spec) i := by
    refine ⟨fun _ hj => Function.update_of_ne hj .., fun _ hj hother => finish_holder call (.saved (d.revision + 1)) hj hother,
      fun hnot => absurd hholder hnot, fun now hnow => ?_, List.prefix_rfl⟩
    rw [hdraft] at hnow
    cases hnow
    exact ⟨_, rfl, Nat.le_succ _⟩
  have hmine : (s.commitDraft i call d spec).calls i = some { call with phase := .ended (.saved (d.revision + 1)) } :=
    Function.update_self ..
  obtain ⟨hworks, hanswers⟩ := h.calls_aside haside hmine (.idle rfl) ⟨fun r hr => by
    cases hr
    exact ⟨congrArg (· + 1) hrevision, _, rfl, le_rfl⟩, nofun⟩
  refine ⟨⟨h.agent, h.numbers, h.current⟩, hworks, hanswers, h.kept, fun row hrow => ?_, h.apart_aside haside hmine ?_⟩
  · refine written_kept haside (fun other hother o hover => ?_) (h.written row hrow)
    cases hcall.symm.trans hother
    rw [hphase] at hover
    cases hover
  · intro r hr now hnow
    cases hr
    rw [hdraft] at hnow
    cases hnow
    exact Nat.lt_succ_self _

theorem statement_inOrder (h : InOrder start s) (hperform : perform contentHash s i action = some s') : InOrder start s' := by
  rcases perform_did hperform with ⟨hnone, _, _, rfl⟩ | ⟨call, hcall, hdid⟩
  · refine h.quiet begin_quiet fun call hcall => ?_
    rw [hnone] at hcall
    cases hcall
  · rcases did_cases (h.working i call hcall) h.toNumbered hdid with hquiet | ⟨d, number, newId, hphase, rfl⟩ | ⟨d, spec, hphase, rfl⟩
    · exact h.quiet hquiet fun other hother => perform_open hperform hother
    · exact h.commitVersion hcall hphase
    · exact h.commitDraft hcall hphase

/-- An Agent nobody is working on. -/
structure Idle (s : State p est) : Prop extends Numbered s where
  calls : ∀ i, s.calls i = none

/-- However saves and publications of one Agent fall between each other: versions are only added, numbered from 1 on, each the answer of
one call, and the Agent names the last; and no revision of the draft is saved over twice. -/
theorem versions_in_order {log : List (Commit (State p est) (Nat × Action) Unit)} (hstart : Idle start)
    (hrun : Execution (Statement contentHash) start log s) : InOrder start s := by
  refine hrun.invariant (I := InOrder start) ?_ fun _ _ _ _ hstep hs => statement_inOrder hs hstep
  have hnone (i : Nat) (call : Call p est) : start.calls i ≠ some call := by
    rw [hstart.calls]
    exact nofun
  refine ⟨hstart.toNumbered, fun i call hcall => absurd hcall (hnone i call), fun i call hcall => absurd hcall (hnone i call),
    List.prefix_rfl, fun _ hrow => .inl hrow, fun i _ call _ _ hcall => absurd hcall (hnone i call)⟩

end Runs

section Example

/-- Two publications and a save, checked side by side and written one after another. -/
def sideBySide : List (Nat × Action) := checksOf 1 1 ++ checksOf 2 1 ++ writesOf 1 5 ++ saves 3 ++ writesOf 2 6

theorem sideBySide_in_order : (runOf sideBySide).2.versions.map (·.id) = [5] ∧ InOrder oneAgent (runOf sideBySide).2 :=
  ⟨rfl, versions_in_order ⟨⟨rfl, rfl, rfl⟩, fun _ => rfl⟩ (runOf_execution sideBySide)⟩

end Example
end TinyHermes.Agents.NumberedVersions
