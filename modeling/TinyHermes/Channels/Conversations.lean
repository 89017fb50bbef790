import TinyHermes.Channels.Events
import TinyHermes.Lib.Execution
import TinyHermes.Lib.Table

/-! Who talks in which Session. A gather pass looks a person up, starts a conversation where there is none and remembers it; a
command on arrival acts on one there is. One pass is open at a time, under its scan lock, and that keeps one person in one
Session. -/
namespace TinyHermes.Channels.Conversations
open Lib

/-- A participant: the binding, and who is written to through it. -/
abbrev Person := Nat × String

/-- A row of `channel_conversations`. -/
structure Conversation where
  person : Person
  session : Nat
  deriving DecidableEq

structure SubmittedRun where
  id : Nat
  person : Person
  session : Nat
  deriving DecidableEq

section Lookups

/-- `session_for`. -/
def sessionFor (person : Person) (conversations : List Conversation) : Option Nat :=
  (conversations.find? fun c => c.person = person).map Conversation.session

/-- `delivery_target_for`, reduced to whom it finds. -/
def deliveryTargetFor (session : Nat) (conversations : List Conversation) : Option Person :=
  (conversations.find? fun c => c.session = session).map Conversation.person

/-- `remember_session`: the row is inserted unless the participant has one. -/
def rememberSession (person : Person) (session : Nat) (there own : List Conversation) : List Conversation :=
  if (sessionFor person (there ++ own)).isSome then own else own ++ [⟨person, session⟩]

variable {person : Person} {session : Nat} {conversations more : List Conversation}

theorem sessionFor_append_some (h : sessionFor person conversations = some session) :
    sessionFor person (conversations ++ more) = some session := by
  obtain ⟨_, hc, rfl⟩ := Option.map_eq_some_iff.mp h
  rw [sessionFor, List.find?_append, hc]
  rfl

theorem sessionFor_append_new (h : sessionFor person conversations = none) :
    sessionFor person (conversations ++ [⟨person, session⟩]) = some session := by
  have hnone := Option.map_eq_none_iff.mp h
  rw [sessionFor, List.find?_append, hnone]
  simp

theorem sessionFor_mem (h : sessionFor person conversations = some session) : (⟨person, session⟩ : Conversation) ∈ conversations := by
  obtain ⟨_, hc, rfl⟩ := Option.map_eq_some_iff.mp h
  have hperson := List.find?_some hc
  obtain rfl := of_decide_eq_true hperson
  exact List.mem_of_find?_eq_some hc

theorem deliveryTarget_of_session (hsessions : (conversations.map Conversation.session).Nodup)
    (h : sessionFor person conversations = some session) : deliveryTargetFor session conversations = some person := by
  have hmem := sessionFor_mem h
  cases hfound : conversations.find? fun c => c.session = session with
  | none => exact absurd (List.find?_eq_none.mp hfound _ hmem) (by simp)
  | some c =>
    have hc := List.mem_of_find?_eq_some hfound
    have hfind := List.find?_some hfound
    have hsame : c = ⟨person, session⟩ := List.inj_on_of_nodup_map hsessions hc hmem (of_decide_eq_true hfind)
    rw [deliveryTargetFor, hfound, hsame]
    rfl

end Lookups

section System

/-- Where `run_for` is for one person. -/
inductive Turn where
  | idle
  | entered (person : Person) (command : Option ChatCommand)
  | missing (person : Person)
  | created (person : Person) (session : Nat)
  | found (person : Person) (session : Nat)

structure Writes where
  conversations : List Conversation := []
  runs : List SubmittedRun := []

structure Transaction where
  /-- A gather pass, which holds the scan lock, or a delivery. -/
  pass : Bool
  writes : Writes := {}
  /-- What the savepoint of the sender a pass is at goes back to. -/
  saved : Writes := {}
  turn : Turn := .idle

structure World where
  conversations : List Conversation := []
  runs : List SubmittedRun := []
  transactions : Table Nat Transaction := ∅
  scanLock : Option Nat := none
  /-- Not the code's: the Session ids that have been drawn. -/
  drawn : List Nat := []

inductive Act where
  /-- `accept` in a delivery: a message is held, a command is carried out. -/
  | accept (bindingId : Nat) (event : ChannelEvent)
  /-- `run_for` in a pass, for the messages of one sender together, under a savepoint. -/
  | gather (bindingId : Nat) (event : ChannelEvent)
  | lookUp
  | createSession (session : Nat)
  | remember
  | submit (run : Nat)
  /-- `run_for` ends without a new Run: the sender is erased, there is nothing to compact, or the key had its Run. -/
  | leave
  /-- The sender's savepoint is rolled back. -/
  | undo

inductive Input where
  | starts (t : Nat) (pass : Bool)
  | acts (t : Nat) (act : Act)
  | ends (t : Nat) (commits : Bool)

variable (lower : String → String)

/-- After `session_for`: a message goes on, of the commands only `/compact` does, and none starts a conversation. -/
def afterLookup (person : Person) : Option ChatCommand → Option Nat → Turn
  | none, none => .missing person
  | none, some session => .found person session
  | some { name := .compact, .. }, some session => .found person session
  | some _, _ => .idle

/-- One statement of a transaction. `blocked` says for whom another transaction has inserted a row it has not committed. -/
def Transaction.act (there : List Conversation) (blocked : Person → Bool) (drawn : List Nat) (tx : Transaction) :
    Act → Option Transaction
  | .accept bindingId event =>
    match tx.pass, tx.turn, event.command lower with
    | false, .idle, none => some tx
    | false, .idle, some command => some { tx with turn := .entered (bindingId, event.externalUserId) (some command) }
    | _, _, _ => none
  | .gather bindingId event =>
    match tx.pass, tx.turn with
    | true, .idle =>
      some { tx with saved := tx.writes, turn := .entered (bindingId, event.externalUserId) (event.command lower) }
    | _, _ => none
  | .lookUp =>
    match tx.turn with
    | .entered person command =>
      some { tx with turn := afterLookup person command (sessionFor person (there ++ tx.writes.conversations)) }
    | _ => none
  | .createSession session =>
    match tx.turn with
    | .missing person => if session ∈ drawn then none else some { tx with turn := .created person session }
    | _ => none
  | .remember =>
    match tx.turn with
    | .created person session =>
      if blocked person then none
      else some { tx with
        writes := { tx.writes with conversations := rememberSession person session there tx.writes.conversations }
        turn := .found person session }
    | _ => none
  | .submit run =>
    match tx.turn with
    | .found person session =>
      some { tx with writes := { tx.writes with runs := tx.writes.runs ++ [{ id := run, person, session }] }, turn := .idle }
    | _ => none
  | .leave =>
    match tx.turn with
    | .entered _ _ | .found _ _ => some { tx with turn := .idle }
    | _ => none
  | .undo => if tx.pass then some { tx with writes := tx.saved, turn := .idle } else none

def Act.draws : Act → List Nat
  | .createSession session => [session]
  | _ => []

def World.blocked (w : World) (t : Nat) (person : Person) : Bool :=
  w.transactions.entries.any fun e => e.1 ≠ t && e.2.writes.conversations.any fun c => c.person = person

def starts (w : World) (t : Nat) (pass : Bool) : Option World :=
  if (w.transactions.lookup t).isSome then none
  else if pass && w.scanLock.isSome then some w
  else some { w with transactions := w.transactions.insert t { pass }, scanLock := if pass then some t else w.scanLock }

def acts (w : World) (t : Nat) (act : Act) : Option World := do
  let tx ← w.transactions.lookup t
  let tx ← tx.act lower w.conversations (w.blocked t) w.drawn act
  return { w with transactions := w.transactions.insert t tx, drawn := act.draws ++ w.drawn }

def ends (w : World) (t : Nat) (commits : Bool) : Option World := do
  let tx ← w.transactions.lookup t
  let ended := { w with transactions := w.transactions.erase t, scanLock := if tx.pass then none else w.scanLock }
  match commits, tx.turn with
  | false, _ => some ended
  | true, .idle =>
    some { ended with conversations := w.conversations ++ tx.writes.conversations, runs := w.runs ++ tx.writes.runs }
  | true, _ => none

def perform (w : World) : Input → Option World
  | .starts t pass => starts w t pass
  | .acts t act => acts lower w t act
  | .ends t commits => ends w t commits

def Step (w : World) (input : Input) (_ : Unit) (w' : World) : Prop := perform lower w input = some w'

end System
section Invariants
variable {lower : String → String} {there more : List Conversation} {drawn : List Nat} {tx tx' : Transaction} {person : Person}
  {session : Nat}

def Mapped (conversations : List Conversation) (runs : List SubmittedRun) : Prop :=
  ∀ run ∈ runs, sessionFor run.person conversations = some run.session

structure Distinct (drawn : List Nat) (conversations : List Conversation) : Prop where
  once : (conversations.map Conversation.session).Nodup
  known : ∀ c ∈ conversations, c.session ∈ drawn

structure Writes.Sound (there : List Conversation) (drawn : List Nat) (writes : Writes) : Prop where
  mapped : Mapped (there ++ writes.conversations) writes.runs
  distinct : Distinct drawn (there ++ writes.conversations)

def Turn.Sound (conversations : List Conversation) (drawn : List Nat) : Turn → Prop
  | .idle | .entered _ _ => True
  | .missing person => sessionFor person conversations = none
  | .created person session =>
    sessionFor person conversations = none ∧ session ∈ drawn ∧ session ∉ conversations.map Conversation.session
  | .found person session => sessionFor person conversations = some session

/-- Where a command may be in `run_for`: it starts no conversation. -/
def Turn.ofCommand : Turn → Bool
  | .idle | .found _ _ => true
  | .entered _ command => command.isSome
  | .missing _ | .created _ _ => false

structure Transaction.Sound (there : List Conversation) (drawn : List Nat) (tx : Transaction) : Prop where
  writes : tx.writes.Sound there drawn
  saved : tx.saved.Sound there drawn
  turn : tx.turn.Sound (there ++ tx.writes.conversations) drawn
  delivery : tx.pass = false → tx.writes.conversations = [] ∧ tx.saved.conversations = [] ∧ tx.turn.ofCommand

theorem Distinct.mono {conversations : List Conversation} (h : Distinct drawn conversations) (drew : List Nat) :
    Distinct (drew ++ drawn) conversations :=
  ⟨h.once, fun c hc => List.mem_append_right _ (h.known c hc)⟩

theorem Writes.Sound.mono {writes : Writes} (h : writes.Sound there drawn) (drew : List Nat) :
    writes.Sound there (drew ++ drawn) :=
  ⟨h.mapped, h.distinct.mono drew⟩

theorem Turn.Sound.mono {turn : Turn} {conversations : List Conversation} (h : turn.Sound conversations drawn) (drew : List Nat) :
    turn.Sound conversations (drew ++ drawn) := by
  cases turn with
  | created => exact ⟨h.1, List.mem_append_right _ h.2.1, h.2.2⟩
  | _ => exact h

theorem Transaction.Sound.mono (h : tx.Sound there drawn) (drew : List Nat) : tx.Sound there (drew ++ drawn) :=
  ⟨h.writes.mono drew, h.saved.mono drew, h.turn.mono drew, h.delivery⟩

theorem afterLookup_sound (person : Person) (command : Option ChatCommand) (conversations : List Conversation) :
    (afterLookup person command (sessionFor person conversations)).Sound conversations drawn := by
  cases hfound : sessionFor person conversations with
  | none =>
    cases command with
    | none => exact hfound
    | some command =>
      obtain ⟨name, turns⟩ := command
      cases name <;> exact trivial
  | some =>
    cases command with
    | none => exact hfound
    | some command =>
      obtain ⟨name, _⟩ := command
      cases name with
      | compact => exact hfound
      | _ => exact trivial

theorem afterLookup_command (person : Person) {command : Option ChatCommand} (h : command.isSome) (session : Option Nat) :
    (afterLookup person command session).ofCommand := by
  obtain ⟨⟨name, _⟩, rfl⟩ := Option.isSome_iff_exists.mp h
  cases session <;> cases name <;> rfl

theorem remember_sound {writes : Writes} (h : writes.Sound there drawn)
    (hnone : sessionFor person (there ++ writes.conversations) = none) (hdrawn : session ∈ drawn)
    (hnew : session ∉ (there ++ writes.conversations).map Conversation.session) :
    let after := rememberSession person session there writes.conversations
    Writes.Sound there drawn { writes with conversations := after } ∧ sessionFor person (there ++ after) = some session := by
  have hafter : there ++ rememberSession person session there writes.conversations =
      there ++ writes.conversations ++ [⟨person, session⟩] := by
    rw [rememberSession, hnone, Option.isSome_none, if_neg Bool.false_ne_true, List.append_assoc]
  refine ⟨⟨fun run hrun => ?_, ?_, fun c hc => ?_⟩, ?_⟩
  · rw [hafter]
    exact sessionFor_append_some (h.mapped run hrun)
  · rw [hafter, List.map_append]
    refine List.nodup_append.mpr ⟨h.distinct.once, List.nodup_singleton _, fun s hs s' hs' => ?_⟩
    obtain rfl := List.mem_singleton.mp hs'
    rintro rfl
    exact hnew hs
  · rw [hafter] at hc
    rcases List.mem_append.mp hc with hc | hc
    · exact h.distinct.known c hc
    · obtain rfl := List.mem_singleton.mp hc
      exact hdrawn
  · rw [hafter]
    exact sessionFor_append_new hnone

theorem Transaction.Sound.act {blocked : Person → Bool} {act : Act} (h : tx.Sound there drawn)
    (hact : tx.act lower there blocked drawn act = some tx') : tx'.Sound there (act.draws ++ drawn) ∧ tx'.pass = tx.pass := by
  have hleaves : Transaction.Sound there drawn { tx with turn := .idle } :=
    ⟨h.writes, h.saved, trivial, fun hpass => ⟨(h.delivery hpass).1, (h.delivery hpass).2.1, rfl⟩⟩
  cases act with
  | accept =>
    simp only [Transaction.act] at hact
    split at hact
    · cases hact
      exact ⟨h, rfl⟩
    · cases hact
      exact ⟨⟨h.writes, h.saved, trivial, fun hpass => ⟨(h.delivery hpass).1, (h.delivery hpass).2.1, rfl⟩⟩, rfl⟩
    · cases hact
  | gather =>
    simp only [Transaction.act] at hact
    split at hact
    · next hpass _ =>
      cases hact
      refine ⟨⟨h.writes, h.writes, trivial, fun hdelivery => ?_⟩, rfl⟩
      exact absurd (hpass.symm.trans hdelivery) (by decide)
    · cases hact
  | lookUp =>
    simp only [Transaction.act] at hact
    split at hact
    · next person command hturn =>
      cases hact
      refine ⟨⟨h.writes, h.saved, afterLookup_sound .., fun hpass => ?_⟩, rfl⟩
      obtain ⟨hwrites, hsaved, hcommand⟩ := h.delivery hpass
      rw [hturn] at hcommand
      exact ⟨hwrites, hsaved, afterLookup_command person hcommand _⟩
    · cases hact
  | createSession =>
    simp only [Transaction.act] at hact
    split at hact
    · next person hturn =>
      split at hact
      · cases hact
      · next hnew =>
        cases hact
        refine ⟨⟨h.writes.mono _, h.saved.mono _, ?_, fun hpass => ?_⟩, rfl⟩
        · have hnone := h.turn
          rw [hturn] at hnone
          refine ⟨hnone, List.mem_append_left _ (List.mem_singleton_self _), fun hmem => hnew ?_⟩
          obtain ⟨c, hc, rfl⟩ := List.mem_map.mp hmem
          exact h.writes.distinct.known c hc
        · have hcommand := (h.delivery hpass).2.2
          rw [hturn] at hcommand
          cases hcommand
    · cases hact
  | remember =>
    simp only [Transaction.act] at hact
    split at hact
    · next person session hturn =>
      split at hact
      · cases hact
      · cases hact
        have hcreated := h.turn
        rw [hturn] at hcreated
        obtain ⟨hwrites, hfound⟩ := remember_sound h.writes hcreated.1 hcreated.2.1 hcreated.2.2
        refine ⟨⟨hwrites, h.saved, hfound, fun hpass => ?_⟩, rfl⟩
        have hcommand := (h.delivery hpass).2.2
        rw [hturn] at hcommand
        cases hcommand
    · cases hact
  | submit =>
    simp only [Transaction.act] at hact
    split at hact
    · next person session hturn =>
      cases hact
      have hfound := h.turn
      rw [hturn] at hfound
      refine ⟨⟨⟨fun submitted hmem => ?_, h.writes.distinct⟩, h.saved, trivial, hleaves.delivery⟩, rfl⟩
      rcases List.mem_append.mp hmem with hmem | hmem
      · exact h.writes.mapped submitted hmem
      · obtain rfl := List.mem_singleton.mp hmem
        exact hfound
    · cases hact
  | leave =>
    simp only [Transaction.act] at hact
    split at hact
    · cases hact
      exact ⟨hleaves, rfl⟩
    · cases hact
      exact ⟨hleaves, rfl⟩
    · cases hact
  | undo =>
    simp only [Transaction.act] at hact
    split at hact
    · next hpass =>
      cases hact
      exact ⟨⟨h.saved, h.saved, trivial, fun hdelivery => absurd (hpass.symm.trans hdelivery) (by decide)⟩, rfl⟩
    · cases hact

theorem Transaction.Sound.grows (h : tx.Sound there drawn) (hpass : tx.pass = false) (hdistinct : Distinct drawn (there ++ more)) :
    tx.Sound (there ++ more) drawn := by
  obtain ⟨hwrites, hsaved, hcommand⟩ := h.delivery hpass
  have hkeeps {writes : Writes} (hnone : writes.conversations = []) (hsound : writes.Sound there drawn) :
      writes.Sound (there ++ more) drawn := by
    refine ⟨fun run hrun => ?_, ?_⟩
    · have hmapped := hsound.mapped run hrun
      rw [hnone, List.append_nil] at hmapped ⊢
      exact sessionFor_append_some hmapped
    · rw [hnone, List.append_nil]
      exact hdistinct
  refine ⟨hkeeps hwrites h.writes, hkeeps hsaved h.saved, ?_, h.delivery⟩
  have hturn := h.turn
  rw [hwrites, List.append_nil] at hturn ⊢
  cases hwhere : tx.turn with
  | idle => exact trivial
  | entered => exact trivial
  | found =>
    rw [hwhere] at hturn
    exact sessionFor_append_some hturn
  | missing =>
    rw [hwhere] at hcommand
    cases hcommand
  | created =>
    rw [hwhere] at hcommand
    cases hcommand

end Invariants

section Runs
variable {lower : String → String} {log : List (Commit World Input Unit)} {w w' : World} {input : Input} {u : Unit}

structure World.Sound (w : World) : Prop where
  mapped : Mapped w.conversations w.runs
  distinct : Distinct w.drawn w.conversations
  transactions : ∀ t tx, w.transactions.lookup t = some tx → tx.Sound w.conversations w.drawn
  lock : ∀ t tx, w.transactions.lookup t = some tx → tx.pass → w.scanLock = some t

theorem sound_start : ({} : World).Sound :=
  ⟨fun _ hrun => absurd hrun List.not_mem_nil, ⟨List.nodup_nil, fun _ hc => absurd hc List.not_mem_nil⟩,
    fun _ _ hnone => absurd hnone.symm (Option.some_ne_none _), fun _ _ hnone => absurd hnone.symm (Option.some_ne_none _)⟩

theorem World.Sound.starts (h : w.Sound) {t : Nat} {pass : Bool} (hstep : starts w t pass = some w') : w'.Sound := by
  unfold Conversations.starts at hstep
  split at hstep
  · cases hstep
  · split at hstep
    · cases hstep
      exact h
    · next hlock =>
      cases hstep
      have hempty : Writes.Sound w.conversations w.drawn {} :=
        ⟨fun _ hrun => absurd hrun List.not_mem_nil, by rw [List.append_nil]; exact h.distinct⟩
      refine ⟨h.mapped, h.distinct, fun t' tx htx => ?_, fun t' tx htx hpass => ?_⟩
      · rw [Table.lookup_insert_ite] at htx
        split at htx
        · cases htx
          exact ⟨hempty, hempty, trivial, fun _ => ⟨rfl, rfl, rfl⟩⟩
        · exact h.transactions t' tx htx
      · rw [Table.lookup_insert_ite] at htx
        split at htx
        · next ht =>
          cases htx
          have hpasses : pass = true := hpass
          rw [hpasses, if_pos rfl, ht]
        · have hheld := h.lock t' tx htx hpass
          cases pass with
          | true => exact absurd (by rw [hheld]; rfl) hlock
          | false => exact hheld

theorem World.Sound.acts (h : w.Sound) {t : Nat} {act : Act} (hstep : acts lower w t act = some w') : w'.Sound := by
  obtain ⟨tx, htx, hstep⟩ := Option.bind_eq_some_iff.mp hstep
  obtain ⟨_, hafter, hstep⟩ := Option.bind_eq_some_iff.mp hstep
  cases hstep
  obtain ⟨hsound, hpass⟩ := (h.transactions t tx htx).act hafter
  refine ⟨h.mapped, h.distinct.mono _, fun t' other hother => ?_, fun t' other hother hisPass => ?_⟩
  · rw [Table.lookup_insert_ite] at hother
    split at hother
    · cases hother
      exact hsound
    · exact (h.transactions t' other hother).mono _
  · rw [Table.lookup_insert_ite] at hother
    split at hother
    · next ht =>
      cases hother
      rw [ht]
      exact h.lock t tx htx (hpass ▸ hisPass)
    · exact h.lock t' other hother hisPass

theorem World.Sound.ends (h : w.Sound) {t : Nat} {commits : Bool} (hstep : ends w t commits = some w') : w'.Sound := by
  obtain ⟨tx, htx, hstep⟩ := Option.bind_eq_some_iff.mp hstep
  have hends := h.transactions t tx htx
  have hlock {t' : Nat} {other : Transaction} (hother : (w.transactions.erase t).lookup t' = some other) (hpass : other.pass) :
      (if tx.pass then none else w.scanLock) = some t' := by
    obtain ⟨hne, hother⟩ := Table.lookup_erase_some hother
    have hholder := h.lock t' other hother hpass
    split
    · next hself => exact absurd (Option.some.inj (hholder.symm.trans (h.lock t tx htx hself))) hne
    · exact hholder
  dsimp only at hstep
  split at hstep
  · cases hstep
    exact ⟨h.mapped, h.distinct, fun t' other hother => h.transactions t' other (Table.lookup_erase_some hother).2,
      fun t' other hother => hlock hother⟩
  · cases hstep
    refine ⟨fun run hrun => ?_, hends.writes.distinct, fun t' other hother => ?_, fun t' other hother => hlock hother⟩
    · rcases List.mem_append.mp hrun with hrun | hrun
      · exact sessionFor_append_some (h.mapped run hrun)
      · exact hends.writes.mapped run hrun
    · obtain ⟨hne, hother⟩ := Table.lookup_erase_some hother
      have hsound := h.transactions t' other hother
      cases hself : tx.pass with
      | true =>
        -- The scan lock is this pass's, so the other transaction is a delivery.
        refine hsound.grows (Bool.eq_false_iff.mpr fun hpass => hne ?_) hends.writes.distinct
        exact Option.some.inj ((h.lock t' other hother hpass).symm.trans (h.lock t tx htx hself))
      | false =>
        dsimp only
        rw [(hends.delivery hself).1, List.append_nil]
        exact hsound
  · cases hstep

theorem World.Sound.step (h : w.Sound) (hstep : Step lower w input u w') : w'.Sound := by
  cases input with
  | starts => exact h.starts hstep
  | acts => exact h.acts hstep
  | ends => exact h.ends hstep

/-- Whatever deliveries and passes do in whatever order, a Run that is committed is in the Session its person is mapped to
then and ever after, and the answer goes back to that person. -/
theorem one_person_one_session (h : Execution (Step lower) {} log w) :
    (∀ commit ∈ log, ∀ run ∈ commit.after.runs, run ∉ commit.before.runs →
      sessionFor run.person commit.after.conversations = some run.session) ∧
    ∀ run ∈ w.runs, sessionFor run.person w.conversations = some run.session ∧
      deliveryTargetFor run.session w.conversations = some run.person := by
  have hreached : w.Sound ∧ ∀ commit ∈ log, commit.after.Sound := by
    induction h with
    | nil => exact ⟨sound_start, fun _ hc => absurd hc List.not_mem_nil⟩
    | snoc _ hstep ih =>
      obtain ⟨hw, hlog⟩ := ih
      refine ⟨hw.step hstep, fun commit hcommit => ?_⟩
      rcases List.mem_append.mp hcommit with hcommit | hcommit
      · exact hlog commit hcommit
      · obtain rfl := List.mem_singleton.mp hcommit
        exact hw.step hstep
  obtain ⟨hw, hlog⟩ := hreached
  refine ⟨fun commit hcommit run hrun _ => (hlog commit hcommit).mapped run hrun, fun run hrun => ?_⟩
  have hfound := hw.mapped run hrun
  exact ⟨hfound, deliveryTarget_of_session hw.distinct.once hfound⟩

def attempt (w : World) (input : Input) : Option (Unit × World) := (perform id w input).map fun w' => ((), w')

theorem attempt_step (h : attempt w input = some (u, w')) : Step id w input u w' := by
  obtain ⟨_, hafter, hpair⟩ := Option.map_eq_some_iff.mp h
  rw [← (Prod.mk.inj hpair).2]
  exact hafter

def hello : ChannelEvent := { channel := "feishu", channelEventId := "h", externalUserId := "u", text := "hello" }

def compaction : ChannelEvent := { channel := "feishu", channelEventId := "c", externalUserId := "u", text := "/compact" }

/-- A pass starts the conversation, a second one finds the lock taken, a `/compact` arrives, and a third pass goes on. -/
def oneSession : List Input :=
  [.starts 0 true, .acts 0 (.gather 1 hello), .acts 0 .lookUp, .acts 0 (.createSession 5), .starts 1 true, .acts 0 .remember,
    .acts 0 (.submit 7), .ends 0 true, .starts 2 false, .acts 2 (.accept 1 compaction), .starts 3 true,
    .acts 3 (.gather 1 hello), .acts 2 .lookUp, .acts 3 .lookUp, .acts 2 (.submit 8), .acts 3 (.submit 9), .ends 3 true, .ends 2 true]

theorem three_runs_one_session :
    ((replay attempt {} oneSession).2.runs.map fun run => (run.id, run.session)) = [(7, 5), (9, 5), (8, 5)] ∧
      (∀ commit ∈ (replay attempt {} oneSession).1, ∀ run ∈ commit.after.runs, run ∉ commit.before.runs →
        sessionFor run.person commit.after.conversations = some run.session) ∧
      ∀ run ∈ (replay attempt {} oneSession).2.runs,
        sessionFor run.person (replay attempt {} oneSession).2.conversations = some run.session ∧
          deliveryTargetFor run.session (replay attempt {} oneSession).2.conversations = some run.person :=
  ⟨by decide, one_person_one_session (replay_execution attempt (fun _ _ _ _ => attempt_step) {} oneSession)⟩

end Runs
end TinyHermes.Channels.Conversations
