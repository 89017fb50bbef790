import TinyHermes.Runs.Models

/-! Withdrawing the last exchanges of a Session: which rows of its transcript `/undo` takes, whoever wrote them. -/
namespace TinyHermes.Runs.Withdrawals

inductive WithdrawScope where
  | lastExchange | all
  deriving DecidableEq, Repr

/-- `SessionMessageRow`. -/
structure SessionMessageRow where
  id : Uuid
  sequence : Nat
  message : CanonicalMessage
  redacted : Bool := false
  withdrawnAt : Option Time := none
  deriving DecidableEq

namespace SessionMessageRow

/-- `redacted.is_(False)` and `withdrawn_at.is_(None)`: erased is as good as not there. -/
def readable (row : SessionMessageRow) : Bool := !row.redacted && row.withdrawnAt.isNone

def isUser (row : SessionMessageRow) : Bool := row.message.role = .user

/-- A turn a person wrote: nobody else is named as its author. -/
def byPerson (row : SessionMessageRow) : Bool := row.isUser && !row.message.byPlatform

theorem isUser_of_byPerson {row : SessionMessageRow} (h : row.byPerson = true) : row.isUser = true :=
  (Bool.and_eq_true_iff.mp h).1

/-- What `mark_withdrawn` writes: the first time stands. -/
def mark (ids : List Uuid) (at' : Time) (row : SessionMessageRow) : SessionMessageRow :=
  if row.id ∈ ids ∧ row.withdrawnAt.isNone then { row with withdrawnAt := some at' } else row

theorem mark_keeps (ids : List Uuid) (at' : Time) (row : SessionMessageRow) :
    (row.mark ids at').sequence = row.sequence ∧ (row.mark ids at').id = row.id := by
  unfold mark
  split <;> exact ⟨rfl, rfl⟩

theorem mark_of_notMem {ids : List Uuid} (at' : Time) {row : SessionMessageRow} (h : row.id ∉ ids) : row.mark ids at' = row :=
  if_neg fun hmarked => h hmarked.1

theorem mark_readable (ids : List Uuid) (at' : Time) (row : SessionMessageRow) :
    (row.mark ids at').readable = (row.readable && decide (row.id ∉ ids)) := by
  by_cases hid : row.id ∈ ids
  · rw [decide_eq_false (not_not_intro hid), Bool.and_false, mark]
    split
    · simp [readable]
    · next hunmarked =>
      have hwithdrawn : row.withdrawnAt.isNone = false := Bool.eq_false_iff.mpr fun hnone => hunmarked ⟨hid, hnone⟩
      rw [readable, hwithdrawn, Bool.and_false]
  · rw [mark_of_notMem at' hid, decide_eq_true hid, Bool.and_true]

end SessionMessageRow

/-- The rows of one Session by `sequence`, which `uq_session_messages_sequence` keeps apart. -/
structure Transcript where
  rows : List SessionMessageRow
  ordered : rows.Pairwise fun a b => a.sequence < b.sequence
  distinct : (rows.map (·.id)).Nodup

namespace Transcript
variable (t : Transcript)

def readable : List SessionMessageRow := t.rows.filter (·.readable)

/-- The rows to withdraw, how many turns they are, and the text of the turn they start at. -/
def withdrawable (scope : WithdrawScope) (turns : Nat) : List Uuid × Nat × String :=
  let found := t.readable
  let users := found.filter (·.isUser)
  match scope with
  | .all => (found.map (·.id), users.length, (users.head?.map (·.message.text)).getD "")
  | .lastExchange =>
    let index := users.length - turns
    match users[index]? with
    | none => ([], 0, "")
    | some anchor =>
      ((found.filter fun row => anchor.sequence ≤ row.sequence).map (·.id), users.length - index, anchor.message.text)

theorem marked_ordered (ids : List Uuid) (at' : Time) :
    (t.rows.map (·.mark ids at')).Pairwise fun a b => a.sequence < b.sequence := by
  rw [List.pairwise_map]
  refine t.ordered.imp ?_
  intro a b _
  rwa [(SessionMessageRow.mark_keeps ids at' a).1, (SessionMessageRow.mark_keeps ids at' b).1]

theorem marked_distinct (ids : List Uuid) (at' : Time) : ((t.rows.map (·.mark ids at')).map (·.id)).Nodup := by
  have hids : ((t.rows.map (·.mark ids at')).map (·.id)) = t.rows.map (·.id) := by
    rw [List.map_map]
    exact List.map_congr_left fun row _ => (SessionMessageRow.mark_keeps ids at' row).2
  rw [hids]
  exact t.distinct

def markWithdrawn (ids : List Uuid) (at' : Time) : Transcript where
  rows := t.rows.map (·.mark ids at')
  ordered := t.marked_ordered ids at'
  distinct := t.marked_distinct ids at'

def withdraw (scope : WithdrawScope) (turns : Nat) (at' : Time) : Transcript :=
  t.markWithdrawn (t.withdrawable scope turns).1 at'

variable {t}

theorem readable_ordered : t.readable.Pairwise fun a b => a.sequence < b.sequence := t.ordered.filter _

theorem readable_distinct : (t.readable.map (·.id)).Nodup := t.distinct.sublist (List.filter_sublist.map _)

theorem readable_markWithdrawn (ids : List Uuid) (at' : Time) :
    (t.markWithdrawn ids at').readable = t.readable.filter fun row => row.id ∉ ids := by
  have hreadable : (SessionMessageRow.readable ∘ SessionMessageRow.mark ids at') =
      fun row => row.readable && decide (row.id ∉ ids) := funext (SessionMessageRow.mark_readable ids at')
  have hkept : ∀ row ∈ t.rows.filter (fun row => row.readable && decide (row.id ∉ ids)), row.mark ids at' = id row := by
    intro row hrow
    have hid := (Bool.and_eq_true_iff.mp (List.mem_filter.mp hrow).2).2
    exact SessionMessageRow.mark_of_notMem at' (of_decide_eq_true hid)
  calc (t.markWithdrawn ids at').readable
      = (t.rows.filter fun row => row.readable && decide (row.id ∉ ids)).map (·.mark ids at') := by
        rw [readable, markWithdrawn, List.filter_map, hreadable]
    _ = t.rows.filter fun row => row.readable && decide (row.id ∉ ids) := by
        rw [List.map_congr_left hkept, List.map_id]
    _ = t.readable.filter fun row => row.id ∉ ids := by
        rw [readable, List.filter_filter]
        exact List.filter_congr fun row _ => Bool.and_comm _ _

theorem filter_from_anchor {before after : List SessionMessageRow} {anchor : SessionMessageRow}
    (hsplit : t.readable = before ++ anchor :: after) :
    (t.readable.filter fun row => anchor.sequence ≤ row.sequence) = anchor :: after := by
  have hordered := hsplit ▸ t.readable_ordered
  obtain ⟨-, hafter, hacross⟩ := List.pairwise_append.mp hordered
  have hbefore : (before.filter fun row => anchor.sequence ≤ row.sequence) = [] := by
    rw [List.filter_eq_nil_iff]
    intro row hrow
    have hlt := hacross row hrow anchor List.mem_cons_self
    simpa using hlt
  have hfrom : ((anchor :: after).filter fun row => anchor.sequence ≤ row.sequence) = anchor :: after := by
    rw [List.filter_eq_self]
    intro _ hrow
    rcases List.mem_cons.mp hrow with rfl | hlater
    · simp
    · simpa using Nat.le_of_lt (List.rel_of_pairwise_cons hafter hlater)
  rw [hsplit, List.filter_append, hbefore, hfrom, List.nil_append]

theorem readable_markWithdrawn_last {before taken : List SessionMessageRow} (hsplit : t.readable = before ++ taken) (at' : Time) :
    (t.markWithdrawn (taken.map (·.id)) at').readable = before := by
  have hdistinct := hsplit ▸ t.readable_distinct
  rw [List.map_append] at hdistinct
  have happart := List.disjoint_of_nodup_append hdistinct
  rw [readable_markWithdrawn, hsplit, List.filter_append]
  have hbefore : (before.filter fun row => row.id ∉ taken.map (·.id)) = before := by
    rw [List.filter_eq_self]
    intro row hrow
    exact decide_eq_true (happart (List.mem_map_of_mem hrow))
  have htaken : (taken.filter fun row => row.id ∉ taken.map (·.id)) = [] := by
    rw [List.filter_eq_nil_iff]
    intro _ hrow habsent
    exact of_decide_eq_true habsent (List.mem_map_of_mem hrow)
  rw [hbefore, htaken, List.append_nil]

/-- Either nobody's turn is among the readable rows and nothing goes, or the rows go from a `user` row on: the one
before which as many `user` rows are as the withdrawal does not ask for. -/
theorem withdraw_lastExchange (t : Transcript) (turns : Nat) (at' : Time) :
    (t.readable.filter (·.isUser) = [] ∨ turns = 0) ∧ (t.withdraw .lastExchange turns at').readable = t.readable ∨
      ∃ before anchor after, t.readable = before ++ anchor :: after ∧ anchor.isUser = true ∧
        (before.filter (·.isUser)).length = (t.readable.filter (·.isUser)).length - turns ∧
        (t.withdraw .lastExchange turns at').readable = before := by
  rw [withdraw, withdrawable]
  split
  · next hnone =>
    left
    refine ⟨?_, ?_⟩
    · have hlength := List.getElem?_eq_none_iff.mp hnone
      rw [← List.length_eq_zero_iff]
      omega
    · simpa using @readable_markWithdrawn_last t t.readable [] (List.append_nil _).symm at'
  · next anchor hanchor =>
    right
    obtain ⟨hindex, hget⟩ := List.getElem?_eq_some_iff.mp hanchor
    have husers := List.take_append_drop ((t.readable.filter (·.isUser)).length - turns) (t.readable.filter (·.isUser))
    rw [List.drop_eq_getElem_cons hindex, hget] at husers
    obtain ⟨first, _, hreadable, hfirst, hrest⟩ := List.filter_eq_append_iff.mp husers.symm
    obtain ⟨between, after, rfl, hbetween, huser, _⟩ := List.filter_eq_cons_iff.mp hrest
    have hsplit : t.readable = (first ++ between) ++ anchor :: after := by rw [hreadable, List.append_assoc]
    refine ⟨first ++ between, anchor, after, hsplit, huser, ?_, ?_⟩
    · have hnone : between.filter (·.isUser) = [] := List.filter_eq_nil_iff.mpr hbetween
      rw [List.filter_append, hnone, List.append_nil, hfirst, List.length_take]
      omega
    · rw [filter_from_anchor hsplit]
      exact readable_markWithdrawn_last hsplit at'

end Transcript

/-- What a withdrawal of the last `turns` exchanges is for: it takes the end of the readable rows from a person's turn on, with
this many of them or all; with no such turn, nothing. -/
def TakesExchanges (turns : Nat) (before after : Transcript) : Prop :=
  ∃ taken, before.readable = after.readable ++ taken ∧
    (taken = [] ∧ before.readable.filter (·.byPerson) = [] ∨
      ∃ anchor rest, taken = anchor :: rest ∧ anchor.byPerson = true ∧
        (taken.filter (·.byPerson)).length = min turns (before.readable.filter (·.byPerson)).length)

/-- The first of the last `turns` `user` rows is a person's, and the others are as well or no person wrote before it;
or there is no `user` row. -/
def PersonsLast (turns : Nat) (t : Transcript) : Prop :=
  let users := t.readable.filter (·.isUser)
  let index := users.length - turns
  users = [] ∨ (users[index]?).any (·.byPerson) = true ∧
    ((users.drop index).all (·.byPerson) = true ∨ (users.take index).any (·.byPerson) = false)

theorem filter_byPerson (rows : List SessionMessageRow) : (rows.filter (·.isUser)).filter (·.byPerson) = rows.filter (·.byPerson) := by
  rw [List.filter_filter]
  refine List.filter_congr fun row _ => ?_
  cases hperson : row.byPerson
  · rfl
  · rw [SessionMessageRow.isUser_of_byPerson hperson, Bool.true_and]

/-- `/undo` takes back a person's last exchanges exactly when the `user` rows it counts are the person's own, or the person
has none before them. -/
theorem withdraw_takes_iff (t : Transcript) (turns : Nat) (at' : Time) (h : 1 ≤ turns) :
    TakesExchanges turns t (t.withdraw .lastExchange turns at') ↔ PersonsLast turns t := by
  rcases t.withdraw_lastExchange turns at' with ⟨hnone, hkept⟩ | ⟨before, anchor, after, hsplit, huser, hindex, hkept⟩
  · have husers : t.readable.filter (·.isUser) = [] := hnone.resolve_right (by omega)
    have hpersons : t.readable.filter (·.byPerson) = [] := by rw [← filter_byPerson, husers, List.filter_nil]
    refine ⟨fun _ => .inl husers, fun _ => ⟨[], ?_, .inl ⟨rfl, hpersons⟩⟩⟩
    rw [hkept, List.append_nil]
  · have husers : t.readable.filter (·.isUser) = before.filter (·.isUser) ++ anchor :: after.filter (·.isUser) := by
      rw [hsplit, List.filter_append, List.filter_cons, if_pos huser]
    have hlength := congrArg List.length husers
    rw [List.length_append, List.length_cons] at hlength
    have hpersons : t.readable.filter (·.byPerson) =
        before.filter (·.byPerson) ++ (anchor :: after.filter (·.isUser)).filter (·.byPerson) := by
      rw [← filter_byPerson, husers, List.filter_append, filter_byPerson]
    have hwindow : (anchor :: after.filter (·.isUser)).filter (·.byPerson) = (anchor :: after).filter (·.byPerson) := by
      rw [List.filter_cons, List.filter_cons, filter_byPerson]
    have hcounted := congrArg List.length hpersons
    rw [List.length_append] at hcounted
    have hbound := List.length_filter_le (·.byPerson) (anchor :: after.filter (·.isUser))
    rw [List.length_cons] at hbound
    have hpersonsLast : PersonsLast turns t ↔ anchor.byPerson = true ∧
        ((anchor :: after.filter (·.isUser)).all (·.byPerson) = true ∨ before.filter (·.byPerson) = []) := by
      have hany : (before.filter (·.isUser)).any (·.byPerson) = false ↔ before.filter (·.byPerson) = [] := by
        rw [← filter_byPerson, List.any_eq_false, List.filter_eq_nil_iff]
      have hsome : ¬ t.readable.filter (·.isUser) = [] := by
        rw [husers]
        exact List.append_ne_nil_of_right_ne_nil _ (List.cons_ne_nil _ _)
      rw [← hany]
      simp only [PersonsLast, hsome, ← hindex, false_or]
      rw [husers, List.getElem?_append_right (Nat.le_refl _), Nat.sub_self, List.drop_left, List.take_left]
      rfl
    rw [hpersonsLast]
    constructor
    · rintro ⟨taken, htaken, hstart⟩
      obtain rfl : taken = anchor :: after := by
        rw [hkept, hsplit] at htaken
        exact (List.append_cancel_left htaken).symm
      rcases hstart with ⟨hnothing, -⟩ | ⟨_, _, hfirst, hperson, hcount⟩
      · cases hnothing
      · obtain ⟨rfl, rfl⟩ := List.cons.inj hfirst
        refine ⟨hperson, ?_⟩
        rw [← hwindow, hcounted] at hcount
        by_cases hearlier : before.filter (·.byPerson) = []
        · exact .inr hearlier
        · left
          have hpositive := List.length_pos_iff.mpr hearlier
          have hfull : ((anchor :: after.filter (·.isUser)).filter (·.byPerson)).length = (anchor :: after.filter (·.isUser)).length := by
            rw [List.length_cons]
            omega
          exact List.all_eq_true.mpr (List.length_filter_eq_length_iff.mp hfull)
    · rintro ⟨hperson, hwho⟩
      refine ⟨anchor :: after, ?_, .inr ⟨anchor, after, rfl, hperson, ?_⟩⟩
      · rw [hkept, hsplit]
      · rw [← hwindow, hcounted]
        rcases hwho with hall | hearlier
        · have hfull := List.length_filter_eq_length_iff.mpr (List.all_eq_true.mp hall)
          rw [List.length_cons] at hfull
          have hfew := List.length_filter_le (·.byPerson) (before.filter (·.isUser))
          rw [filter_byPerson] at hfew
          omega
        · rw [hearlier, List.length_nil]
          omega

def said (role : Role) (words : String) (byPlatform : Bool) : CanonicalMessage where
  role := role
  blocks := [.text words]
  byPlatform := byPlatform
  blocks_ne := List.cons_ne_nil _ _

def row (sequence : Nat) (message : CanonicalMessage) : SessionMessageRow where
  id := sequence
  sequence := sequence
  message := message

def relayedRows : List SessionMessageRow :=
  [row 1 (said .user "Compare the two" false), row 2 (said .assistant "I will delegate" false),
    row 3 (said .user "- child [completed]: done" true), row 4 (said .assistant "Here it is" false)]

theorem relayed_ordered : relayedRows.Pairwise fun a b => a.sequence < b.sequence := by decide

theorem relayed_distinct : (relayedRows.map (·.id)).Nodup := by decide

def relayed : Transcript where
  rows := relayedRows
  ordered := relayed_ordered
  distinct := relayed_distinct

def asked : Transcript where
  rows := relayedRows.take 2
  ordered := relayed_ordered.sublist (List.take_sublist 2 relayedRows)
  distinct := relayed_distinct.sublist ((List.take_sublist 2 relayedRows).map _)

theorem asked_taken : TakesExchanges 1 asked (asked.withdraw .lastExchange 1 0) :=
  (withdraw_takes_iff asked 1 0 (Nat.le_refl 1)).mpr (.inr ⟨rfl, .inl rfl⟩)

/-- `/undo` after the report takes the report and the answer, gives the report's words back, and leaves what was asked. -/
theorem report_counted : ∃ (t : Transcript) (turns : Nat), 1 ≤ turns ∧
    t.withdrawable .lastExchange turns = ([3, 4], 1, "- child [completed]: done") ∧
    ¬ TakesExchanges turns t (t.withdraw .lastExchange turns 0) := by
  refine ⟨relayed, 1, Nat.le_refl 1, rfl, ?_⟩
  rintro ⟨taken, htaken, hstart⟩
  have hreadable : relayedRows.take 2 ++ relayedRows.drop 2 = relayedRows.take 2 ++ taken := htaken
  obtain rfl := List.append_cancel_left hreadable
  rcases hstart with ⟨hnothing, -⟩ | ⟨_, _, hfirst, hperson, -⟩
  · cases hnothing
  · obtain ⟨rfl, -⟩ := List.cons.inj hfirst
    cases hperson

end TinyHermes.Runs.Withdrawals
