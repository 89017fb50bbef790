import TinyHermes.Lib.Execution
import TinyHermes.Lib.Ledger
import TinyHermes.Runs.CompactionFixedPoint

/-! The one summary a Session has stored, the Workers that write it, and the messages that are withdrawn meanwhile. -/
namespace TinyHermes.Runs.StoredSummaries
open Lib ContextBudget

/-- `SessionMessageRow`, with whether `withdrawn_at` is set. -/
structure MessageRow where
  item : StoredMessage
  sourceRunId : Uuid
  withdrawn : Bool := false

def MessageRow.mark (taken : List Nat) (row : MessageRow) : MessageRow :=
  if row.item.sequence ∈ taken then { row with withdrawn := true } else row

/-- `SessionCompactionRow`. `quoted` is not in the row: the sequences its text was written from. -/
structure SummaryRow where
  firstSequence : Nat
  lastSequence : Nat
  text : String
  quoted : List Nat
  deriving DecidableEq

def SummaryRow.coverage (s : SummaryRow) : CoveredSummary where
  text := s.text
  lastSequence := s.lastSequence

/-- `first_sequence <= sequence <= last_sequence`. -/
def SummaryRow.covers (s : SummaryRow) (sequence : Nat) : Prop := s.firstSequence ≤ sequence ∧ sequence ≤ s.lastSequence

instance (s : SummaryRow) (sequence : Nat) : Decidable (s.covers sequence) := inferInstanceAs (Decidable (_ ∧ _))

inductive WithdrawScope where
  | lastExchange | all
  deriving DecidableEq, Repr

/-- What a withdrawal writes and has not committed: it holds the Session's row lock meanwhile, and the summary's when
it deletes that. -/
structure Withdrawal where
  taken : List Nat
  forgets : Bool

inductive WorkerAt where
  | idle
  | planning (history : List StoredMessage)
  | summarizing (history : List StoredMessage) (stored : Option SummaryRow)

/-- One Session with its transcript, its stored summary, the withdrawal under way and the Workers on its Runs. -/
structure Conversation where
  mode : SessionMode
  messages : List MessageRow := []
  nextMessageSequence : Nat := 1
  summary : Option SummaryRow := none
  withdrawal : Option Withdrawal := none
  workers : Nat → WorkerAt := fun _ => .idle

namespace Conversation
variable (c : Conversation)

def shown : List MessageRow := c.messages.filter fun row => !row.withdrawn

/-- The history of `execution_context`: a persistent Session's whole transcript, an ephemeral one's own turns. -/
def history (runId : Uuid) : List StoredMessage :=
  let rows :=
    match c.mode with
    | .persistent => c.shown
    | .ephemeral => c.shown.filter fun row => row.sourceRunId = runId
  rows.map (·.item)

/-- `withdrawable`, by sequence. -/
def withdrawable (scope : WithdrawScope) (turns : Nat) : List Nat :=
  match scope with
  | .all => c.shown.map (·.item.sequence)
  | .lastExchange =>
    let users := c.shown.filter fun row => row.item.message.role = .user
    match users[users.length - turns]? with
    | none => []
    | some anchor => (c.shown.filter fun row => anchor.item.sequence ≤ row.item.sequence).map (·.item.sequence)

def append (id sourceRunId : Uuid) (message : ContextBudget.CanonicalMessage) : Conversation :=
  { c with
    messages := c.messages ++ [{ item := { id, sequence := c.nextMessageSequence, message }, sourceRunId }]
    nextMessageSequence := c.nextMessageSequence + 1 }

/-- `mark_withdrawn` before its commit; `_forget_summaries_covering` deletes the row it finds. -/
def choose (scope : WithdrawScope) (turns : Nat) : Conversation :=
  let taken := c.withdrawable scope turns
  { c with withdrawal := some { taken, forgets := c.summary.any fun s => taken.any fun sequence => s.covers sequence } }

def commit (w : Withdrawal) : Conversation :=
  { c with
    messages := c.messages.map (·.mark w.taken)
    summary := if w.forgets then none else c.summary
    withdrawal := none }

def setWorker (n : Nat) (at' : WorkerAt) : Conversation := { c with workers := fun m => if m = n then at' else c.workers m }

end Conversation

/-- `_summary_holds`. -/
def summaryHolds (candidate baseline : ContextPlan) : Bool :=
  candidate.fits && candidate.compacted.isNone && baseline.compacted.isSome &&
    candidate.checkpoint = baseline.compacted.map (·.lastSequence) &&
    baseline.beforeCompactionEstimate.any fun before => candidate.inputEstimate < before

def roundOf (round : PlanInput) (history : List StoredMessage) (stored : Option SummaryRow) : PlanInput :=
  { round with history := history, storedSummary := stored.map (·.coverage) }

/-- What `_generate_summary` writes from: what the compaction covers and the stored summary has not digested, and that
summary when the plan was built on it. -/
def quotedFrom (history : List StoredMessage) (stored : Option SummaryRow) (baseline : ContextPlan) (record : CompactionRecord) :
    List Nat :=
  let previous := if baseline.checkpoint.isSome then stored else none
  let covered := history.filter fun item => item.id ∈ record.messageIds && previous.all fun s => s.lastSequence < item.sequence
  covered.map (·.sequence) ++ (previous.map (·.quoted)).getD []

/-- The row `_save_summary` writes after this plan, or none when there is nothing it would save. -/
def savedRow (est : Estimator) (round : PlanInput) (history : List StoredMessage) (stored : Option SummaryRow) (text : String) :
    Option SummaryRow := do
  let baseline := planContext est (roundOf round history stored)
  let record ← baseline.compacted
  let candidate := planContext est
    { roundOf round history stored with storedSummary := some { text, lastSequence := record.lastSequence }, forced := false }
  if summaryHolds candidate baseline then
    some
      { firstSequence := record.firstSequence, lastSequence := record.lastSequence, text
        quoted := quotedFrom history stored baseline record }
  else none

inductive Move where
  | append (id sourceRunId : Uuid) (message : ContextBudget.CanonicalMessage)
  | choose (scope : WithdrawScope) (turns : Nat)
  | commit
  | rollback
  | readContext (worker : Nat) (runId : Uuid)
  | readSummary (worker : Nat)
  | save (worker : Nat) (est : Estimator) (round : PlanInput) (text : String)

/-- One committed step. A Worker's steps ask for no lease; appending and withdrawing hold the Session's row lock, and saving waits
for a withdrawal that deletes the row. -/
def perform (c : Conversation) : Move → Option (Unit × Conversation)
  | .append id sourceRunId message =>
    if c.withdrawal.isNone ∧ id ∉ c.messages.map (·.item.id) then some ((), c.append id sourceRunId message) else none
  | .choose scope turns =>
    if c.withdrawal.isNone ∧ c.withdrawable scope turns ≠ [] then some ((), c.choose scope turns) else none
  | .commit => c.withdrawal.map fun w => ((), c.commit w)
  | .rollback => some ((), { c with withdrawal := none })
  | .readContext worker runId => some ((), c.setWorker worker (.planning (c.history runId)))
  | .readSummary worker =>
    match c.workers worker with
    | .planning history => some ((), c.setWorker worker (.summarizing history c.summary))
    | _ => none
  | .save worker est round text =>
    match c.workers worker with
    | .summarizing history stored =>
      if c.withdrawal.any (·.forgets) then none
      else (savedRow est round history stored text).map fun row => ((), { c.setWorker worker .idle with summary := some row })
    | _ => none

def Step (c : Conversation) (m : Move) (answer : Unit) (c' : Conversation) : Prop := perform c m = some (answer, c')

/-- Every interleaving of appends, withdrawals and Workers' rounds on a Session of this mode. -/
def Reachable (mode : SessionMode) (c : Conversation) : Prop := Lib.Reachable Step { mode } c

variable {c c' : Conversation}

namespace Conversation

/-- The sequences of the transcript, and those that are withdrawn. -/
def ledger (c : Conversation) : Ledger Nat where
  entered := {n | ∃ row ∈ c.messages, row.item.sequence = n}
  retracted := {n | ∃ row ∈ c.messages, row.item.sequence = n ∧ row.withdrawn = true}

def Withdrawn (c : Conversation) (sequence : Nat) : Prop := sequence ∈ c.ledger.retracted

end Conversation

/-- What the text was written from is withdrawn only together with the message the summary ends with. -/
def SummaryRow.Sound (l : Ledger Nat) (s : SummaryRow) : Prop := ∀ n ∈ s.quoted, l.Tied n s.lastSequence

/-- A history in order whose messages are withdrawn only together with those after them. -/
structure Recalled (l : Ledger Nat) (history : List StoredMessage) : Prop where
  ordered : history.Pairwise fun a b => a.sequence < b.sequence
  ids : (history.map (·.id)).Nodup
  tied : ∀ a ∈ history, ∀ b ∈ history, a.sequence ≤ b.sequence → l.Tied a.sequence b.sequence

def WorkerAt.Sound (l : Ledger Nat) : WorkerAt → Prop
  | .idle => True
  | .planning history => Recalled l history
  | .summarizing history stored => Recalled l history ∧ ∀ s ∈ stored, s.Sound l

structure Conversation.Sound (c : Conversation) : Prop where
  ordered : c.messages.Pairwise fun a b => a.item.sequence < b.item.sequence
  below : ∀ row ∈ c.messages, row.item.sequence < c.nextMessageSequence
  ids : (c.messages.map (·.item.id)).Nodup
  /-- A withdrawal takes everything that is still shown after what it takes. -/
  rest : ∀ w ∈ c.withdrawal, ∀ a ∈ w.taken, ∀ b ∈ c.ledger.visible, a ≤ b → b ∈ w.taken
  workers : ∀ n, (c.workers n).Sound c.ledger
  summary : ∀ s ∈ c.summary, s.Sound c.ledger

section Growth
variable {l l' : Ledger Nat}

theorem SummaryRow.Sound.grows {s : SummaryRow} (h : s.Sound l) (hgrows : l.Grows l') : s.Sound l' :=
  fun n hn => (h n hn).grows hgrows

theorem Recalled.grows {history : List StoredMessage} (h : Recalled l history) (hgrows : l.Grows l') : Recalled l' history :=
  ⟨h.ordered, h.ids, fun a ha b hb hle => (h.tied a ha b hb hle).grows hgrows⟩

theorem WorkerAt.Sound.grows {at' : WorkerAt} (h : at'.Sound l) (hgrows : l.Grows l') : at'.Sound l' := by
  cases at' with
  | idle => trivial
  | planning => exact Recalled.grows h hgrows
  | summarizing => exact ⟨h.1.grows hgrows, fun s hs => (h.2 s hs).grows hgrows⟩

theorem append_grows (id sourceRunId : Uuid) (message : ContextBudget.CanonicalMessage) :
    c.ledger.Grows (c.append id sourceRunId message).ledger := by
  apply Ledger.Grows.of_retracted
  · rintro n ⟨row, hrow, hn⟩
    exact ⟨row, List.mem_append_left _ hrow, hn⟩
  · ext n
    constructor
    · rintro ⟨row, hrow, hn, hwithdrawn⟩
      rcases List.mem_append.mp hrow with hrow | hrow
      · exact ⟨row, hrow, hn, hwithdrawn⟩
      · rw [List.mem_singleton.mp hrow] at hwithdrawn
        cases hwithdrawn
    · rintro ⟨row, hrow, hn⟩
      exact ⟨row, List.mem_append_left _ hrow, hn⟩

theorem mark_item (taken : List Nat) (row : MessageRow) : (row.mark taken).item = row.item := by
  rw [MessageRow.mark]
  split_ifs <;> rfl

theorem mark_withdrawn (taken : List Nat) (row : MessageRow) :
    (row.mark taken).withdrawn = true ↔ row.withdrawn = true ∨ row.item.sequence ∈ taken := by
  rw [MessageRow.mark]
  split_ifs with htaken
  · simp only [htaken, or_true]
  · simp only [htaken, or_false]

theorem commit_entered (w : Withdrawal) : (c.commit w).ledger.entered = c.ledger.entered := by
  ext n
  constructor
  · rintro ⟨row, hrow, hn⟩
    obtain ⟨before, hbefore, rfl⟩ := List.mem_map.mp hrow
    rw [mark_item] at hn
    exact ⟨before, hbefore, hn⟩
  · rintro ⟨row, hrow, hn⟩
    refine ⟨row.mark w.taken, List.mem_map_of_mem hrow, ?_⟩
    rw [mark_item]
    exact hn

theorem commit_retracted (w : Withdrawal) :
    (c.commit w).ledger.retracted = c.ledger.retracted ∪ {n ∈ c.ledger.entered | n ∈ w.taken} := by
  ext n
  constructor
  · rintro ⟨row, hrow, rfl, hwithdrawn⟩
    obtain ⟨before, hbefore, rfl⟩ := List.mem_map.mp hrow
    rw [mark_item]
    rcases (mark_withdrawn w.taken before).mp hwithdrawn with hold | htaken
    · exact .inl ⟨before, hbefore, rfl, hold⟩
    · exact .inr ⟨⟨before, hbefore, rfl⟩, htaken⟩
  · rintro (⟨row, hrow, rfl, hold⟩ | ⟨⟨row, hrow, rfl⟩, htaken⟩)
    · exact ⟨row.mark w.taken, List.mem_map_of_mem hrow, by rw [mark_item], (mark_withdrawn w.taken row).mpr (.inl hold)⟩
    · exact ⟨row.mark w.taken, List.mem_map_of_mem hrow, by rw [mark_item], (mark_withdrawn w.taken row).mpr (.inr htaken)⟩

theorem commit_grows (hc : c.Sound) {w : Withdrawal} (hw : c.withdrawal = some w) : c.ledger.Grows (c.commit w).ledger where
  entered := (commit_entered w).ge
  retracted := by
    rw [commit_retracted]
    exact Set.subset_union_left
  along := by
    intro a ha hnew b hb hle
    rw [commit_retracted] at ha ⊢
    obtain ⟨_, htaken⟩ := ha.resolve_left hnew
    by_cases hold : b ∈ c.ledger.retracted
    · exact .inl hold
    · exact .inr ⟨hb, hc.rest w hw a htaken b ⟨hb, hold⟩ hle⟩

end Growth

section Reading

theorem shown_sublist : c.shown.Sublist c.messages := List.filter_sublist

theorem mem_shown {row : MessageRow} : row ∈ c.shown ↔ row ∈ c.messages ∧ row.withdrawn = false := by
  rw [Conversation.shown, List.mem_filter, Bool.not_eq_eq_eq_not, Bool.not_true]

theorem mem_visible (hc : c.Sound) {n : Nat} : n ∈ c.ledger.visible ↔ ∃ row ∈ c.shown, row.item.sequence = n := by
  constructor
  · rintro ⟨⟨row, hrow, rfl⟩, hshown⟩
    refine ⟨row, mem_shown.mpr ⟨hrow, ?_⟩, rfl⟩
    apply eq_false_of_ne_true
    intro hwithdrawn
    exact hshown ⟨row, hrow, rfl, hwithdrawn⟩
  · rintro ⟨row, hrow, rfl⟩
    obtain ⟨hrow, hshown⟩ := mem_shown.mp hrow
    refine ⟨⟨row, hrow, rfl⟩, ?_⟩
    rintro ⟨_, hother, hsequence, hwithdrawn⟩
    have hdistinct : (c.messages.map (·.item.sequence)).Nodup :=
      List.pairwise_map.mpr (hc.ordered.imp fun hlt => hlt.ne)
    obtain rfl := List.inj_on_of_nodup_map hdistinct hother hrow hsequence
    rw [hshown] at hwithdrawn
    cases hwithdrawn

theorem history_rows (c : Conversation) (runId : Uuid) :
    ∃ rows : List MessageRow, rows.Sublist c.shown ∧ c.history runId = rows.map (·.item) := by
  rw [Conversation.history]
  cases c.mode with
  | persistent => exact ⟨_, List.Sublist.refl _, rfl⟩
  | ephemeral => exact ⟨_, List.filter_sublist, rfl⟩

theorem history_visible (hc : c.Sound) (runId : Uuid) : ∀ item ∈ c.history runId, item.sequence ∈ c.ledger.visible := by
  obtain ⟨_, hrows, hhistory⟩ := history_rows c runId
  intro _ hitem
  rw [hhistory] at hitem
  obtain ⟨row, hrow, rfl⟩ := List.mem_map.mp hitem
  exact (mem_visible hc).mpr ⟨row, hrows.subset hrow, rfl⟩

theorem history_recalled (hc : c.Sound) (runId : Uuid) : Recalled c.ledger (c.history runId) := by
  have hvisible := history_visible hc runId
  obtain ⟨_, hrows, hhistory⟩ := history_rows c runId
  have hsublist := hrows.trans shown_sublist
  constructor
  · rw [hhistory]
    exact List.pairwise_map.mpr (hc.ordered.sublist hsublist)
  · rw [hhistory, List.map_map]
    exact hc.ids.sublist (hsublist.map _)
  · intro a ha b hb hle
    exact .of_visible (hvisible a ha) (hvisible b hb) hle

theorem withdrawable_rest (hc : c.Sound) (scope : WithdrawScope) (turns : Nat) :
    ∀ a ∈ c.withdrawable scope turns, ∀ b ∈ c.ledger.visible, a ≤ b → b ∈ c.withdrawable scope turns := by
  intro _ ha _ hb hle
  obtain ⟨row, hrow, rfl⟩ := (mem_visible hc).mp hb
  cases scope with
  | all => exact List.mem_map_of_mem hrow
  | lastExchange =>
    rw [Conversation.withdrawable] at ha ⊢
    cases hanchor : (c.shown.filter fun row => row.item.message.role = .user)[
        (c.shown.filter fun row => row.item.message.role = .user).length - turns]? with
    | none =>
      rw [hanchor] at ha
      cases ha
    | some anchor =>
      rw [hanchor] at ha
      obtain ⟨_, htaken, rfl⟩ := List.mem_map.mp ha
      obtain ⟨_, hfrom⟩ := List.mem_filter.mp htaken
      have hle' : anchor.item.sequence ≤ row.item.sequence := (of_decide_eq_true hfrom).trans hle
      exact List.mem_map_of_mem (List.mem_filter.mpr ⟨hrow, decide_eq_true hle'⟩)

end Reading

section Saving
variable {est : Estimator} {round : PlanInput} {history : List StoredMessage} {stored : Option SummaryRow} {text : String}
  {row : SummaryRow}

theorem savedRow_some (h : savedRow est round history stored text = some row) :
    ∃ record, (planContext est (roundOf round history stored)).compacted = some record ∧
      row.lastSequence = record.lastSequence ∧
      row.quoted = quotedFrom history stored (planContext est (roundOf round history stored)) record := by
  obtain ⟨record, hrecord, h⟩ := Option.bind_eq_some_iff.mp h
  dsimp only at h
  split_ifs at h
  cases h
  exact ⟨record, hrecord, rfl, rfl⟩

theorem mem_quotedFrom {baseline : ContextPlan} {record : CompactionRecord} {n : Nat}
    (h : n ∈ quotedFrom history stored baseline record) :
    (∃ item ∈ history, item.sequence = n ∧ item.id ∈ record.messageIds) ∨
      baseline.checkpoint.isSome ∧ ∃ s ∈ stored, n ∈ s.quoted := by
  rw [quotedFrom] at h
  rcases List.mem_append.mp h with h | h
  · obtain ⟨item, hitem, rfl⟩ := List.mem_map.mp h
    obtain ⟨hitem, hcovered⟩ := List.mem_filter.mp hitem
    exact .inl ⟨item, hitem, rfl, of_decide_eq_true (Bool.and_eq_true_iff.mp hcovered).1⟩
  · right
    split_ifs at h with hcheckpoint
    · cases stored with
      | none => cases h
      | some s => exact ⟨hcheckpoint, s, rfl, h⟩
    · cases h

theorem savedRow_sound {l : Ledger Nat} (hhistory : Recalled l history) (hstored : ∀ s ∈ stored, s.Sound l)
    (h : savedRow est round history stored text = some row) : row.Sound l := by
  obtain ⟨_, hrecord, hlast, hquoted⟩ := savedRow_some h
  obtain ⟨found, hlt, _, hsequence, hids, hcheckpoint⟩ := PlanInput.compacted_some hrecord
  intro n hn
  rw [hquoted] at hn
  rw [hlast, hsequence]
  rcases mem_quotedFrom hn with ⟨item, hitem, rfl, hid⟩ | ⟨hsome, s, hs, hn⟩
  · -- A message the compaction covers comes no later than the one it ends with.
    rw [hids] at hid
    obtain ⟨_, hnamed, hid⟩ := List.mem_map.mp hid
    have htaken := List.mem_of_mem_drop hnamed
    obtain rfl := List.inj_on_of_nodup_map hhistory.ids hitem (List.mem_of_mem_take htaken) hid.symm
    obtain ⟨_, _, rfl⟩ := List.mem_take_iff_getElem.mp htaken
    exact hhistory.tied _ hitem _ (List.getElem_mem hlt) (PlanInput.sequence_le hhistory.ordered (by omega) hlt)
  · -- What the stored summary quotes goes with its own end, which the history has before the new one.
    rw [hcheckpoint, PlanInput.checkpoint, Option.isSome_map] at hsome
    obtain ⟨⟨coverage, _⟩, husable⟩ := Option.isSome_iff_exists.mp hsome
    obtain ⟨hcoverage, _, before, _, hbefore, hitem, hend⟩ := PlanInput.usableSummary_some husable
    obtain ⟨hlt', rfl⟩ := List.getElem?_eq_some_iff.mp hitem
    have hstart : (roundOf round history stored).start = before + 1 := by
      rw [PlanInput.start, husable, ← hbefore]
      rfl
    have hsame : s.lastSequence = history[before].sequence := by
      obtain rfl := Option.mem_def.mp hs
      obtain rfl : s.coverage = coverage := Option.some.inj hcoverage
      exact hend.symm
    have hle := PlanInput.sequence_le hhistory.ordered (show before ≤ found by omega) hlt
    have hown := hstored s hs n hn
    rw [hsame] at hown
    exact hown.trans (hhistory.tied _ (List.getElem_mem hlt') _ (List.getElem_mem hlt) hle)

end Saving

section Steps

theorem append_sound (hc : c.Sound) (hfree : c.withdrawal = none) {id : Uuid} (hid : id ∉ c.messages.map (·.item.id))
    (sourceRunId : Uuid) (message : ContextBudget.CanonicalMessage) : (c.append id sourceRunId message).Sound := by
  have hgrows := append_grows (c := c) id sourceRunId message
  constructor
  · apply List.pairwise_append.mpr
    refine ⟨hc.ordered, List.pairwise_singleton _ _, ?_⟩
    intro row hrow _ hnew
    rw [List.mem_singleton.mp hnew]
    exact hc.below row hrow
  · intro row hrow
    rcases List.mem_append.mp hrow with hrow | hrow
    · exact (hc.below row hrow).trans (Nat.lt_succ_self _)
    · rw [List.mem_singleton.mp hrow]
      exact Nat.lt_succ_self _
  · rw [Conversation.append, List.map_append]
    apply List.nodup_append'.mpr
    refine ⟨hc.ids, List.nodup_singleton _, ?_⟩
    exact List.disjoint_singleton.mpr hid
  · intro _ hw
    rw [Conversation.append, hfree] at hw
    cases hw
  · intro n
    exact (hc.workers n).grows hgrows
  · intro s hs
    exact (hc.summary s hs).grows hgrows

theorem choose_sound (hc : c.Sound) (scope : WithdrawScope) (turns : Nat) : (c.choose scope turns).Sound where
  ordered := hc.ordered
  below := hc.below
  ids := hc.ids
  rest := by
    intro _ hw
    cases hw
    exact withdrawable_rest hc scope turns
  workers := hc.workers
  summary := hc.summary

theorem commit_sound (hc : c.Sound) {w : Withdrawal} (hw : c.withdrawal = some w) : (c.commit w).Sound where
  ordered := by
    apply List.pairwise_map.mpr
    exact hc.ordered.imp fun hlt => by rwa [mark_item, mark_item]
  below := by
    intro row hrow
    obtain ⟨before, hbefore, rfl⟩ := List.mem_map.mp hrow
    rw [mark_item]
    exact hc.below before hbefore
  ids := by
    have hsame : (c.commit w).messages.map (·.item.id) = c.messages.map (·.item.id) := by
      rw [Conversation.commit, List.map_map]
      exact List.map_congr_left fun row _ => by rw [Function.comp_apply, mark_item]
    rw [hsame]
    exact hc.ids
  rest := fun _ hnone => (nomatch hnone)
  workers := fun n => (hc.workers n).grows (commit_grows hc hw)
  summary := by
    intro s hs
    have hold : c.summary = some s := by
      rw [Conversation.commit] at hs
      dsimp only at hs
      split_ifs at hs
      · cases hs
      · exact hs
    exact (hc.summary s hold).grows (commit_grows hc hw)

theorem setWorker_sound (hc : c.Sound) (worker : Nat) {at' : WorkerAt} (h : at'.Sound c.ledger) :
    (c.setWorker worker at').Sound where
  ordered := hc.ordered
  below := hc.below
  ids := hc.ids
  rest := hc.rest
  workers := by
    intro n
    rw [Conversation.setWorker]
    dsimp only
    split_ifs
    · exact h
    · exact hc.workers n
  summary := hc.summary

theorem perform_sound {m : Move} (hc : c.Sound) (h : perform c m = some ((), c')) : c'.Sound := by
  cases m with
  | append id sourceRunId message =>
    rw [perform] at h
    split_ifs at h with hfree
    cases h
    exact append_sound hc (Option.isNone_iff_eq_none.mp hfree.1) hfree.2 sourceRunId message
  | choose scope turns =>
    rw [perform] at h
    split_ifs at h
    cases h
    exact choose_sound hc scope turns
  | commit =>
    obtain ⟨_, hw, h⟩ := Option.map_eq_some_iff.mp h
    cases h
    exact commit_sound hc hw
  | rollback =>
    cases h
    exact ⟨hc.ordered, hc.below, hc.ids, fun _ hnone => (nomatch hnone), hc.workers, hc.summary⟩
  | readContext worker runId =>
    cases h
    exact setWorker_sound hc worker (history_recalled hc runId)
  | readSummary worker =>
    have hworker := hc.workers worker
    rw [perform] at h
    cases hat : c.workers worker with
    | planning =>
      rw [hat] at h hworker
      cases h
      exact setWorker_sound hc worker ⟨hworker, hc.summary⟩
    | idle | summarizing =>
      rw [hat] at h
      cases h
  | save worker =>
    have hworker := hc.workers worker
    rw [perform] at h
    cases hat : c.workers worker with
    | summarizing =>
      rw [hat] at h hworker
      dsimp only at h
      split_ifs at h
      obtain ⟨_, hrow, h⟩ := Option.map_eq_some_iff.mp h
      cases h
      have hidle := setWorker_sound hc worker (show WorkerAt.Sound c.ledger .idle from trivial)
      refine ⟨hidle.ordered, hidle.below, hidle.ids, hidle.rest, hidle.workers, ?_⟩
      intro _ hs
      cases hs
      exact savedRow_sound hworker.1 hworker.2 hrow
    | idle | planning =>
      rw [hat] at h
      cases h

theorem start_sound (mode : SessionMode) : Conversation.Sound { mode } where
  ordered := .nil
  below := fun _ hrow => (nomatch hrow)
  ids := .nil
  rest := fun _ hnone => (nomatch hnone)
  workers := fun _ => trivial
  summary := fun _ hnone => (nomatch hnone)

theorem reachable_sound {mode : SessionMode} (h : Reachable mode c) : c.Sound :=
  Lib.Reachable.invariant h (start_sound mode) fun _ _ _ _ hstep hc => perform_sound hc hstep

end Steps

def Conversation.roundNow (c : Conversation) (runId : Uuid) (round : PlanInput) : PlanInput :=
  roundOf round (c.history runId) c.summary

/-- A stored summary that a round would use was written from no message that is withdrawn. -/
theorem stored_summary_quotes_shown (mode : SessionMode) (c : Conversation) (h : Reachable mode c) (s : SummaryRow)
    (hs : c.summary = some s) (runId : Uuid) (round : PlanInput) (huse : (c.roundNow runId round).usableSummary ≠ none) :
    ∀ n ∈ s.quoted, ¬ c.Withdrawn n := by
  have hc := reachable_sound h
  obtain ⟨⟨coverage, _⟩, husable⟩ := Option.ne_none_iff_exists'.mp huse
  obtain ⟨hcoverage, _, _, item, _, hitem, hend⟩ := PlanInput.usableSummary_some husable
  have hsame : s.coverage = coverage := by
    rw [Conversation.roundNow, roundOf, hs] at hcoverage
    exact Option.some.inj hcoverage
  have hvisible := history_visible hc runId item (List.mem_of_getElem? hitem)
  rw [hend, ← hsame] at hvisible
  intro n hn
  exact (hc.summary s hs n hn).not_retracted hvisible

def undone : List Move :=
  [.append 1 1 (spoken .user "long"), .append 2 2 (spoken .user "first"), .choose .lastExchange 1, .commit,
    .append 3 3 (spoken .user "long"), .append 4 4 (spoken .user "what now"), .readContext 0 4, .readSummary 0,
    .save 0 oneLong longTalk "what was said"]

def afterUndo : Conversation := (replay perform { mode := .persistent } undone).2

theorem afterUndo_reachable : Reachable .persistent afterUndo :=
  ⟨_, replay_execution perform (fun _ _ _ _ h => h) _ undone⟩

theorem afterUndo_summary : afterUndo.summary = some ⟨1, 3, "what was said", [1, 3]⟩ := by decide +kernel

theorem afterUndo_usable : (afterUndo.roundNow 4 longTalk).usableSummary ≠ none := by
  have hsome : (afterUndo.roundNow 4 longTalk).usableSummary.isSome = true := by decide +kernel
  exact Option.isSome_iff_ne_none.mp hsome

theorem afterUndo_quotes_shown : ¬ afterUndo.Withdrawn 1 ∧ ¬ afterUndo.Withdrawn 3 := by
  have hshown := stored_summary_quotes_shown .persistent afterUndo afterUndo_reachable _ afterUndo_summary 4 longTalk afterUndo_usable
  exact ⟨hshown 1 (by decide), hshown 3 (by decide)⟩

/-- The range of a summary that is used may reach over a turn withdrawn before it was written. -/
theorem withdrawn_in_range :
    Reachable .persistent afterUndo ∧ afterUndo.summary = some ⟨1, 3, "what was said", [1, 3]⟩ ∧
      (afterUndo.roundNow 4 longTalk).usableSummary ≠ none ∧ SummaryRow.covers ⟨1, 3, "what was said", [1, 3]⟩ 2 ∧
      afterUndo.Withdrawn 2 := by
  refine ⟨afterUndo_reachable, afterUndo_summary, afterUndo_usable, by decide, ?_⟩
  have hrows : afterUndo.messages.map (fun row => (row.item.sequence, row.withdrawn)) =
      [(1, false), (2, true), (3, false), (4, false)] := by decide +kernel
  have hrow : (2, true) ∈ afterUndo.messages.map (fun row => (row.item.sequence, row.withdrawn)) := by
    rw [hrows]
    decide
  obtain ⟨row, hmem, hrow⟩ := List.mem_map.mp hrow
  exact ⟨row, hmem, congrArg Prod.fst hrow, congrArg Prod.snd hrow⟩

end TinyHermes.Runs.StoredSummaries
