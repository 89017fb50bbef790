import Mathlib

/-! A command's output on its way into an artifact: the sink that keeps a preview, the queue of bounded length, and the task that
uploads what is put there. -/
namespace TinyHermes.Artifacts

abbrev Chunk := List UInt8

/-- What one sink is set up with, and what its outside does. -/
structure Setup where
  previewLimit : Nat
  opens : Bool := true
  artifactMaxBytes : Nat
  runArtifactMaxBytes : Nat
  /-- What the two counts of the Run's artifact bytes answer, unless they raise. -/
  existing : Option Nat := some 0
  existingAgain : Option Nat := some 0
  registers : Bool := true
  /-- How many chunks the object store takes before it fails, if it does. -/
  outage : Option Nat := none
  /-- All that `finish` does after the upload succeeds. -/
  finalizes : Bool := true

namespace Setup
variable (setup : Setup)

/-- `_begin` gets as far as the task. -/
def begins : Bool :=
  setup.existing.any (· < setup.runArtifactMaxBytes) && setup.registers && setup.existingAgain.isSome

/-- `_begin` gets as far as the row. -/
def records : Bool := setup.existing.any (· < setup.runArtifactMaxBytes) && setup.registers

/-- `limit_bytes`. -/
def limitBytes : Nat := max (min setup.artifactMaxBytes (setup.runArtifactMaxBytes - setup.existingAgain.getD 0)) 1

end Setup

/-- `asyncio.Queue(maxsize=8)`. -/
def queueSize : Nat := 8

inductive Upload where
  | stored (size : Nat)
  | tooLarge
  | failed
  deriving DecidableEq, Repr

/-- The task that uploads: it reads, it has seen the end of what it reads, or it has ended. -/
inductive Uploader where
  | absent
  | reading (taken total : Nat)
  | closing (taken total : Nat)
  | ended (upload : Upload)
  deriving DecidableEq, Repr

inductive Ledger where
  | unregistered
  | uploading
  | abandoned (reason : String)
  | committed (size : Nat)
  deriving DecidableEq, Repr

/-- Where the command's output is: chunks a `deliver` has still to put, the end mark of `finish`, `finish` waiting for the task,
or all of it done. -/
inductive Phase where
  | delivering (items : List Chunk)
  | finishing
  | awaiting
  | done
  deriving DecidableEq, Repr

structure State where
  /-- The chunks that are still to come. -/
  chunks : List Chunk
  preview : Chunk := []
  storeFailed : Bool := false
  opened : Bool := false
  phase : Phase := .delivering []
  queue : List (Option Chunk) := []
  uploader : Uploader := .absent
  ledger : Ledger := .unregistered
  deriving DecidableEq

section Steps
variable (setup : Setup)

/-- `PreviewingSink.deliver` up to its first `put`. -/
def deliver (s : State) (chunk : Chunk) : State :=
  if s.storeFailed then s
  else if s.opened then { s with phase := .delivering [chunk] }
  else
    let room := setup.previewLimit - s.preview.length
    if chunk.length ≤ room then { s with preview := s.preview ++ chunk }
    else
      let preview := s.preview ++ chunk.take room
      let leftover := chunk.drop room
      if !setup.opens then { s with preview }
      else if setup.begins then
        { s with
          preview, opened := true, uploader := .reading 0 0, ledger := .uploading
          phase := .delivering (preview :: if leftover.isEmpty then [] else [leftover]) }
      else { s with preview, opened := true, storeFailed := true, ledger := if setup.records then .uploading else .unregistered }

/-- The end of `finish`, once the task has ended. -/
def settle (s : State) : Upload → State
  | .stored size =>
    if setup.finalizes then { s with phase := .done, ledger := .committed size } else { s with phase := .done, storeFailed := true }
  | .tooLarge => { s with phase := .done, storeFailed := true, ledger := .abandoned "artifact_over_limit" }
  | .failed => { s with phase := .done, storeFailed := true, ledger := .abandoned "artifact_upload_failed" }

/-- `readinto` at the next chunk. -/
def read (s : State) (taken total : Nat) : Option State :=
  if setup.outage = some taken then some { s with uploader := .ended .failed }
  else
    match s.queue with
    | [] => none
    | none :: queue => some { s with queue, uploader := .closing (taken + 1) total }
    | some chunk :: queue =>
      if setup.limitBytes < total + chunk.length then some { s with queue, uploader := .ended .tooLarge }
      -- an empty chunk reads as the end of what is uploaded
      else if chunk.isEmpty then some { s with queue, uploader := .closing (taken + 1) total }
      else some { s with queue, uploader := .reading (taken + 1) (total + chunk.length) }

inductive Move where
  | deliver | put | finish | settle | read | close
  deriving DecidableEq, Repr

def act (s : State) : Move → Option State
  | .deliver =>
    match s.phase, s.chunks with
    | .delivering [], chunk :: chunks => some (deliver setup { s with chunks } chunk)
    | _, _ => none
  | .put =>
    if s.queue.length < queueSize then
      match s.phase with
      | .delivering (item :: items) => some { s with phase := .delivering items, queue := s.queue ++ [some item] }
      | .finishing => some { s with phase := .awaiting, queue := s.queue ++ [none] }
      | _ => none
    else none
  | .finish =>
    match s.phase, s.chunks with
    | .delivering [], [] => some { s with phase := if s.uploader = .absent then .done else .finishing }
    | _, _ => none
  | .settle =>
    match s.phase, s.uploader with
    | .awaiting, .ended upload => some (settle setup s upload)
    | _, _ => none
  | .read =>
    match s.uploader with
    | .reading taken total => read setup s taken total
    | _ => none
  | .close =>
    match s.uploader with
    | .closing taken total =>
      some { s with uploader := .ended (if setup.outage = some taken then .failed else .stored total) }
    | _ => none

def Step (s s' : State) : Prop := ∃ move, act setup s move = some s'

def Steps : State → State → Prop := Relation.ReflTransGen (Step setup)

end Steps

/-- The sink waits to put into a full queue that nobody reads any more. -/
def Blocked (s : State) : Prop :=
  ((∃ item items, s.phase = .delivering (item :: items)) ∨ s.phase = .finishing) ∧ queueSize ≤ s.queue.length ∧
    ∃ upload, s.uploader = .ended upload

section Plan
variable (setup : Setup)

/-- All that is put into the queue while the chunks come, from a preview on that is not full. -/
def puts (preview : Chunk) : List Chunk → List (Option Chunk)
  | [] => []
  | chunk :: chunks =>
    let room := setup.previewLimit - preview.length
    if chunk.length ≤ room then puts (preview ++ chunk) chunks
    else if !setup.opens then puts (preview ++ chunk.take room) chunks
    else if setup.begins then
      some (preview ++ chunk.take room) :: ((if (chunk.drop room).isEmpty then [] else [chunk.drop room]) ++ chunks).map some ++
        [none]
    else []

/-- How many of the items in the queue the task takes, before it ends or waits for more. -/
def takes (taken total : Nat) : List (Option Chunk) → Nat
  | [] => taken
  | item :: items =>
    if setup.outage = some taken then taken
    else
      match item with
      | none => taken + 1
      | some chunk =>
        if setup.limitBytes < total + chunk.length ∨ chunk.isEmpty then taken + 1
        else takes (taken + 1) (total + chunk.length) items

def toCome (s : State) : List (Option Chunk) :=
  match s.phase with
  | .delivering items =>
    if s.uploader = .absent then if s.opened then [] else puts setup s.preview s.chunks
    else (items ++ s.chunks).map some ++ [none]
  | .finishing => [none]
  | .awaiting | .done => []

end Plan

/-- How far the task is with all that is put, of which `gone` is gone from the queue. -/
def Progress (setup : Setup) (all gone later : List (Option Chunk)) : Uploader → Prop
  | .absent => gone = []
  | .reading taken total => gone.length = taken ∧ takes setup 0 0 all = takes setup taken total later
  | .closing taken _ => gone.length = taken ∧ takes setup 0 0 all = taken
  | .ended _ => takes setup 0 0 all = gone.length

/-- What the steps keep: what is put is gone, queued or to come, and the sink knows of a failure only when there is no task or it
is done. -/
structure Sound (setup : Setup) (all : List (Option Chunk)) (s : State) : Prop where
  parts : ∃ gone, all = gone ++ (s.queue ++ toCome setup s) ∧ Progress setup all gone (s.queue ++ toCome setup s) s.uploader
  room : s.queue.length ≤ queueSize
  absent : s.uploader = .absent → s.queue = [] ∧ (s.phase = .delivering [] ∨ s.phase = .done) ∧ s.opened = s.storeFailed
  present : s.uploader ≠ .absent → s.opened = true ∧ (s.phase ≠ .done → s.storeFailed = false)
  mark : s.phase = .awaiting → (∃ taken total, s.uploader = .reading taken total) → none ∈ s.queue
  done : s.phase = .done → s.uploader = .absent ∨ ∃ upload, s.uploader = .ended upload ∧
    (upload = .tooLarge ∨ upload = .failed → s.storeFailed = true ∧ ∃ reason, s.ledger = .abandoned reason)

section Sound
variable {setup : Setup} {all items : List (Option Chunk)} {s s' : State}

theorem takes_outage {taken total : Nat} (h : setup.outage = some taken) :
    takes setup taken total items = taken := by
  cases items with
  | nil => rfl
  | cons => exact if_pos h

theorem takes_none {taken total : Nat} (h : setup.outage ≠ some taken) :
    takes setup taken total (none :: items) = taken + 1 := if_neg h

theorem takes_last {taken total : Nat} {chunk : Chunk} (h : setup.outage ≠ some taken)
    (hends : setup.limitBytes < total + chunk.length ∨ chunk.isEmpty = true) :
    takes setup taken total (some chunk :: items) = taken + 1 := (if_neg h).trans (if_pos hends)

theorem takes_more {taken total : Nat} {chunk : Chunk} (h : setup.outage ≠ some taken)
    (hgoes : ¬ (setup.limitBytes < total + chunk.length ∨ chunk.isEmpty = true)) :
    takes setup taken total (some chunk :: items) = takes setup (taken + 1) (total + chunk.length) items :=
  (if_neg h).trans (if_neg hgoes)

theorem Sound.start (chunks : List Chunk) : Sound setup (puts setup [] chunks) { chunks } where
  parts := ⟨[], rfl, rfl⟩
  room := Nat.zero_le _
  absent _ := ⟨rfl, .inl rfl, rfl⟩
  present h := absurd rfl h
  mark h := nomatch h
  done h := nomatch h

theorem toCome_present {items : List Chunk} (hphase : s.phase = .delivering items) (hpresent : s.uploader ≠ .absent) :
    toCome setup s = (items ++ s.chunks).map some ++ [none] := by
  rw [toCome, hphase]
  exact if_neg hpresent

theorem toCome_absent {items : List Chunk} (hphase : s.phase = .delivering items) (habsent : s.uploader = .absent)
    (hopened : s.opened = false) : toCome setup s = puts setup s.preview s.chunks := by
  rw [toCome, hphase]
  dsimp only
  rw [if_pos habsent, hopened]
  rfl

theorem toCome_failed {items : List Chunk} (hphase : s.phase = .delivering items) (habsent : s.uploader = .absent)
    (hopened : s.opened = true) : toCome setup s = [] := by
  rw [toCome, hphase]
  dsimp only
  rw [if_pos habsent, if_pos hopened]

theorem Sound.same (h : Sound setup all s) (hcome : toCome setup s' = toCome setup s) (hqueue : s'.queue = s.queue)
    (huploader : s'.uploader = s.uploader) (hopened : s'.opened = s.opened) (hfailed : s'.storeFailed = s.storeFailed)
    (hgoing : ∃ items, s'.phase = .delivering items ∧ (s.uploader = .absent → items = [])) (hwas : s.phase ≠ .done) :
    Sound setup all s' := by
  obtain ⟨_, hphase, hnothing⟩ := hgoing
  obtain ⟨gone, hall, hprogress⟩ := h.parts
  constructor
  · refine ⟨gone, ?_, ?_⟩
    · rw [hqueue, hcome]
      exact hall
    · rw [hqueue, hcome, huploader]
      exact hprogress
  · rw [hqueue]
    exact h.room
  · intro habsent
    rw [huploader] at habsent
    obtain ⟨hempty, _, hsame⟩ := h.absent habsent
    rw [hqueue, hopened, hfailed, hphase, hnothing habsent]
    exact ⟨hempty, .inl rfl, hsame⟩
  · intro hpresent
    rw [huploader] at hpresent
    obtain ⟨hopen, hnot⟩ := h.present hpresent
    rw [hopened, hfailed]
    exact ⟨hopen, fun _ => hnot hwas⟩
  · intro hawaiting
    rw [hphase] at hawaiting
    cases hawaiting
  · intro hdone
    rw [hphase] at hdone
    cases hdone

theorem Sound.deliver {chunk : Chunk} {chunks : List Chunk} (h : Sound setup all s) (hphase : s.phase = .delivering [])
    (hchunks : s.chunks = chunk :: chunks) : Sound setup all (deliver setup { s with chunks } chunk) := by
  have hgoing : s.phase ≠ .done := by
    rw [hphase]
    exact fun h => nomatch h
  have hidle : ∃ items, s.phase = .delivering items ∧ (s.uploader = .absent → items = []) := ⟨[], hphase, fun _ => rfl⟩
  unfold Artifacts.deliver
  by_cases hpresent : s.uploader = .absent
  · obtain ⟨hqueue, _, hsame⟩ := h.absent hpresent
    by_cases hfailed : s.storeFailed = true
    · -- the sink takes no more notice of what comes
      have hcome : toCome setup { s with chunks } = [] := toCome_failed hphase hpresent (hsame.trans hfailed)
      have hcame : toCome setup s = [] := toCome_failed hphase hpresent (hsame.trans hfailed)
      rw [if_pos hfailed]
      exact h.same (hcome.trans hcame.symm) rfl rfl rfl rfl hidle hgoing
    · have hopened : s.opened = false := hsame.trans (Bool.not_eq_true _ ▸ hfailed)
      have hcame : toCome setup s = puts setup s.preview (chunk :: chunks) := by
        rw [toCome_absent hphase hpresent hopened, hchunks]
      rw [if_neg hfailed, if_neg (by simp [hopened])]
      rw [puts] at hcame
      dsimp only at hcame ⊢
      by_cases hfits : chunk.length ≤ setup.previewLimit - s.preview.length
      · have hcome : toCome setup { s with chunks, preview := s.preview ++ chunk } = puts setup (s.preview ++ chunk) chunks :=
          toCome_absent hphase hpresent hopened
        rw [if_pos hfits] at hcame ⊢
        exact h.same (hcome.trans hcame.symm) rfl rfl rfl rfl hidle hgoing
      · rw [if_neg hfits] at hcame ⊢
        by_cases hopens : setup.opens = true
        · rw [if_neg (by simp [hopens])] at hcame ⊢
          obtain ⟨gone, hall, hprogress⟩ := h.parts
          rw [hpresent] at hprogress
          rw [show gone = [] from hprogress, hqueue, hcame, List.nil_append, List.nil_append] at hall
          by_cases hbegins : setup.begins = true
          · rw [if_pos hbegins] at hall ⊢
            have hparts : all = s.queue ++ toCome setup { s with
                chunks, preview := s.preview ++ chunk.take (setup.previewLimit - s.preview.length), opened := true
                uploader := .reading 0 0, ledger := .uploading
                phase := .delivering ((s.preview ++ chunk.take (setup.previewLimit - s.preview.length)) ::
                  if (chunk.drop (setup.previewLimit - s.preview.length)).isEmpty then []
                  else [chunk.drop (setup.previewLimit - s.preview.length)]) } := by
              rw [toCome_present rfl Uploader.noConfusion, hqueue, hall]
              rfl
            have hstarted := congrArg (takes setup 0 0) hparts
            refine ⟨⟨[], hparts, And.intro rfl hstarted⟩, h.room, ?_, ?_, ?_, ?_⟩
            · exact fun habsent => nomatch habsent
            · exact fun _ => ⟨rfl, fun _ => hsame.symm.trans hopened⟩
            · exact fun hawaiting => nomatch hawaiting
            · exact fun hdone => nomatch hdone
          · rw [if_neg hbegins] at hall ⊢
            have hcome : toCome setup { s with
                chunks, preview := s.preview ++ chunk.take (setup.previewLimit - s.preview.length), opened := true
                storeFailed := true, ledger := if setup.records then .uploading else .unregistered } = [] :=
              toCome_failed hphase hpresent rfl
            refine ⟨⟨[], ?_, ?_⟩, h.room, fun _ => ⟨hqueue, .inl hphase, rfl⟩, fun hnot => absurd hpresent hnot, ?_, ?_⟩
            · rw [hcome, hall, List.append_nil]
              exact hqueue.symm
            · dsimp only
              rw [hpresent]
              rfl
            · exact fun hawaiting => absurd (hphase.symm.trans hawaiting) (fun h => nomatch h)
            · exact fun hdone => absurd hdone hgoing
        · have hcome : toCome setup { s with
              chunks, preview := s.preview ++ chunk.take (setup.previewLimit - s.preview.length) } =
                puts setup (s.preview ++ chunk.take (setup.previewLimit - s.preview.length)) chunks :=
            toCome_absent hphase hpresent hopened
          rw [if_pos (by simpa using hopens)] at hcame ⊢
          exact h.same (hcome.trans hcame.symm) rfl rfl rfl rfl hidle hgoing
  · obtain ⟨hopened, hfailed⟩ := h.present hpresent
    have hcome : toCome setup { s with chunks, phase := .delivering [chunk] } = toCome setup s := by
      rw [toCome_present hphase hpresent, hchunks]
      exact toCome_present (s := { s with chunks, phase := .delivering [chunk] }) rfl hpresent
    rw [if_neg (by simp [hfailed hgoing]), if_pos hopened]
    exact h.same hcome rfl rfl rfl rfl ⟨[chunk], rfl, fun habsent => absurd habsent hpresent⟩ hgoing

theorem Sound.put {item : Option Chunk} (h : Sound setup all s) (hroom : s.queue.length < queueSize)
    (hpresent : s.uploader ≠ .absent) (hqueue : s'.queue = s.queue ++ [item])
    (hcome : toCome setup s = item :: toCome setup s') (huploader : s'.uploader = s.uploader) (hopened : s'.opened = s.opened)
    (hfailed : s'.storeFailed = s.storeFailed) (hwas : s.phase ≠ .done) (hphase : s'.phase ≠ .done)
    (hmark : s'.phase = .awaiting → item = none) : Sound setup all s' := by
  obtain ⟨gone, hall, hprogress⟩ := h.parts
  have hlater : s'.queue ++ toCome setup s' = s.queue ++ toCome setup s := by
    rw [hqueue, hcome, List.append_assoc]
    rfl
  constructor
  · refine ⟨gone, ?_, ?_⟩
    · rw [hlater]
      exact hall
    · rw [hlater, huploader]
      exact hprogress
  · rw [hqueue, List.length_append]
    exact hroom
  · intro habsent
    exact absurd (huploader.symm.trans habsent) hpresent
  · intro _
    obtain ⟨hopen, hnot⟩ := h.present hpresent
    rw [hopened, hfailed]
    exact ⟨hopen, fun _ => hnot hwas⟩
  · intro hawaiting _
    rw [hqueue, hmark hawaiting]
    exact List.mem_append_right _ (List.mem_singleton_self _)
  · exact fun hdone => absurd hdone hphase

theorem Sound.finish (h : Sound setup all s) (hphase : s.phase = .delivering []) (hchunks : s.chunks = []) :
    Sound setup all { s with phase := if s.uploader = .absent then .done else .finishing } := by
  obtain ⟨gone, hall, hprogress⟩ := h.parts
  by_cases habsent : s.uploader = .absent
  · obtain ⟨hqueue, _, hsame⟩ := h.absent habsent
    rw [habsent] at hprogress
    have hnothing : all = [] := by
      have hcome : toCome setup s = [] := by
        by_cases hopened : s.opened = true
        · exact toCome_failed hphase habsent hopened
        · rw [toCome_absent hphase habsent (Bool.not_eq_true _ ▸ hopened), hchunks, puts]
      rw [hall, show gone = [] from hprogress, hqueue, hcome]
      rfl
    rw [if_pos habsent]
    refine ⟨⟨[], ?_, ?_⟩, h.room, fun _ => ⟨hqueue, .inr rfl, hsame⟩, fun hpresent => absurd habsent hpresent, ?_, ?_⟩
    · simp [hnothing, toCome, hqueue]
    · dsimp only
      rw [habsent]
      rfl
    · exact fun hawaiting => nomatch hawaiting
    · exact fun _ => .inl habsent
  · have hcome : toCome setup s = toCome setup { s with phase := .finishing } := by
      rw [toCome_present hphase habsent, hchunks]
      rfl
    obtain ⟨hopened, hfailed⟩ := h.present habsent
    rw [if_neg habsent]
    rw [hcome] at hall hprogress
    refine ⟨⟨gone, hall, hprogress⟩, h.room, fun hnot => absurd hnot habsent, fun _ => ⟨hopened, fun _ => hfailed ?_⟩, ?_, ?_⟩
    · rw [hphase]
      exact fun hdone => nomatch hdone
    · exact fun hawaiting => nomatch hawaiting
    · exact fun hdone => nomatch hdone

theorem Sound.settle {upload : Upload} (h : Sound setup all s) (hphase : s.phase = .awaiting)
    (huploader : s.uploader = .ended upload) : Sound setup all (settle setup s upload) := by
  obtain ⟨gone, hall, hprogress⟩ := h.parts
  have hcome : toCome setup s = [] := by rw [toCome, hphase]
  rw [hcome, huploader] at hprogress
  rw [hcome] at hall
  have hopened := (h.present (huploader ▸ Uploader.noConfusion)).1
  -- whatever is settled, only what the sink and the ledger say of it changes
  have hsettled : ∀ failed ledger, ((upload = .tooLarge ∨ upload = .failed) → failed = true ∧ ∃ reason, ledger = .abandoned reason) →
      Sound setup all { s with phase := .done, storeFailed := failed, ledger := ledger } := by
    intro failed ledger hreported
    refine ⟨⟨gone, hall, ?_⟩, h.room, ?_, fun _ => ⟨hopened, fun hnot => absurd rfl hnot⟩, ?_, ?_⟩
    · dsimp only
      rw [huploader]
      exact hprogress
    · exact fun habsent => nomatch huploader.symm.trans habsent
    · exact fun hawaiting => nomatch hawaiting
    · exact fun _ => .inr ⟨upload, huploader, hreported⟩
  cases upload with
  | stored size =>
    rw [Artifacts.settle]
    split_ifs
    · exact hsettled s.storeFailed (.committed size) (by simp)
    · exact hsettled true s.ledger (by simp)
  | tooLarge => exact hsettled true _ fun _ => ⟨rfl, _, rfl⟩
  | failed => exact hsettled true _ fun _ => ⟨rfl, _, rfl⟩

theorem Sound.task {gone' queue : List (Option Chunk)} {uploader : Uploader} (h : Sound setup all s)
    (hgoing : s.phase ≠ .done) (hpresent : s.uploader ≠ .absent) (habsent : uploader ≠ .absent)
    (hall : all = gone' ++ (queue ++ toCome setup s)) (hroom : queue.length ≤ queueSize)
    (hprogress : Progress setup all gone' (queue ++ toCome setup s) uploader)
    (hmark : s.phase = .awaiting → (∃ taken total, uploader = .reading taken total) → none ∈ queue) :
    Sound setup all { s with queue, uploader } := by
  have hcome : toCome setup { s with queue, uploader } = toCome setup s := by
    cases hphase : s.phase with
    | delivering items =>
      rw [toCome_present hphase hpresent]
      exact toCome_present (s := { s with phase := .delivering items, queue, uploader }) rfl habsent
    | finishing => rw [toCome, toCome, hphase]
    | awaiting => rw [toCome, toCome, hphase]
    | done => exact absurd hphase hgoing
  refine ⟨⟨gone', ?_, ?_⟩, hroom, fun hnot => absurd hnot habsent, fun _ => h.present hpresent, hmark,
    fun hdone => absurd hdone hgoing⟩
  · rw [hcome]
    exact hall
  · rw [hcome]
    exact hprogress

theorem Sound.going (h : Sound setup all s) (hpresent : s.uploader ≠ .absent) (hended : ∀ upload, s.uploader ≠ .ended upload) :
    s.phase ≠ .done := by
  intro hdone
  obtain habsent | ⟨upload, hupload, _⟩ := h.done hdone
  · exact hpresent habsent
  · exact hended upload hupload

theorem Sound.read {taken total : Nat} (h : Sound setup all s) (huploader : s.uploader = .reading taken total)
    (hread : read setup s taken total = some s') : Sound setup all s' := by
  have hpresent : s.uploader ≠ .absent := huploader ▸ Uploader.noConfusion
  have hgoing := h.going hpresent fun upload => huploader ▸ Uploader.noConfusion
  have hroom := h.room
  obtain ⟨gone, hall, hprogress⟩ := h.parts
  rw [huploader] at hprogress
  obtain ⟨hgone, htakes⟩ := hprogress
  unfold Artifacts.read at hread
  by_cases houtage : setup.outage = some taken
  · rw [if_pos houtage] at hread
    cases hread
    apply h.task hgoing hpresent Uploader.noConfusion hall hroom
    · exact htakes.trans ((takes_outage houtage).trans hgone.symm)
    · rintro _ ⟨_, _, hnot⟩
      cases hnot
  · rw [if_neg houtage] at hread
    cases hqueue : s.queue with
    | nil =>
      rw [hqueue] at hread
      cases hread
    | cons item queue =>
      rw [hqueue] at hread hall htakes hroom
      rw [List.length_cons] at hroom
      have hall' : all = (gone ++ [item]) ++ (queue ++ toCome setup s) := by
        rw [hall, List.append_assoc]
        rfl
      have hcount : (gone ++ [item]).length = taken + 1 := by rw [List.length_append, hgone]; rfl
      cases item with
      | none =>
        cases hread
        apply h.task hgoing hpresent Uploader.noConfusion hall' (by omega)
        · exact ⟨hcount, htakes.trans (takes_none houtage)⟩
        · rintro _ ⟨_, _, hnot⟩
          cases hnot
      | some chunk =>
        dsimp only at hread
        by_cases hends : setup.limitBytes < total + chunk.length ∨ chunk.isEmpty = true
        · have hlast : takes setup 0 0 all = taken + 1 := htakes.trans (takes_last houtage hends)
          split_ifs at hread with hlarge hempty
          · cases hread
            apply h.task hgoing hpresent Uploader.noConfusion hall' (by omega)
            · exact hlast.trans hcount.symm
            · rintro _ ⟨_, _, hnot⟩
              cases hnot
          · cases hread
            apply h.task hgoing hpresent Uploader.noConfusion hall' (by omega)
            · exact ⟨hcount, hlast⟩
            · rintro _ ⟨_, _, hnot⟩
              cases hnot
          · exact absurd hends (not_or.mpr ⟨hlarge, hempty⟩)
        · obtain ⟨hlarge, hempty⟩ := not_or.mp hends
          rw [if_neg hlarge, if_neg hempty] at hread
          cases hread
          apply h.task hgoing hpresent Uploader.noConfusion hall' (by omega)
          · exact ⟨hcount, htakes.trans (takes_more houtage hends)⟩
          · intro hawaiting _
            have hmem := h.mark hawaiting ⟨taken, total, huploader⟩
            rw [hqueue] at hmem
            exact (List.mem_cons.mp hmem).resolve_left (fun hnot => nomatch hnot)

theorem Sound.step (h : Sound setup all s) (hstep : Step setup s s') : Sound setup all s' := by
  obtain ⟨move, hmove⟩ := hstep
  cases move with
  | deliver =>
    rw [act] at hmove
    split at hmove
    · next hphase hchunks =>
      cases hmove
      exact h.deliver hphase hchunks
    · cases hmove
  | put =>
    rw [act] at hmove
    split_ifs at hmove with hroom
    split at hmove
    · next item items hphase =>
      have hpresent : s.uploader ≠ .absent := by
        intro habsent
        obtain hidle | hdone := (h.absent habsent).2.1
        · exact nomatch hphase.symm.trans hidle
        · exact nomatch hphase.symm.trans hdone
      cases hmove
      have hgoing : s.phase ≠ .done := hphase ▸ Phase.noConfusion
      refine h.put hroom hpresent rfl ?_ rfl rfl rfl hgoing Phase.noConfusion fun hawaiting => nomatch hawaiting
      rw [toCome_present hphase hpresent]
      have hafter : toCome setup { s with phase := .delivering items, queue := s.queue ++ [some item] } =
          (items ++ s.chunks).map some ++ [none] :=
        toCome_present (s := { s with phase := .delivering items, queue := s.queue ++ [some item] }) rfl hpresent
      rw [hafter]
      rfl
    · next hphase =>
      have hpresent : s.uploader ≠ .absent := by
        intro habsent
        obtain hidle | hdone := (h.absent habsent).2.1
        · exact nomatch hphase.symm.trans hidle
        · exact nomatch hphase.symm.trans hdone
      cases hmove
      have hgoing : s.phase ≠ .done := hphase ▸ Phase.noConfusion
      refine h.put hroom hpresent rfl ?_ rfl rfl rfl hgoing Phase.noConfusion fun _ => rfl
      rw [toCome, hphase]
      rfl
    · cases hmove
  | finish =>
    rw [act] at hmove
    split at hmove
    · next hphase hchunks =>
      cases hmove
      exact h.finish hphase hchunks
    · cases hmove
  | settle =>
    rw [act] at hmove
    split at hmove
    · next hphase huploader =>
      cases hmove
      exact h.settle hphase huploader
    · cases hmove
  | read =>
    rw [act] at hmove
    split at hmove
    · next huploader => exact h.read huploader hmove
    · cases hmove
  | close =>
    rw [act] at hmove
    split at hmove
    · next taken total huploader =>
      cases hmove
      have hpresent : s.uploader ≠ .absent := huploader ▸ Uploader.noConfusion
      have hgoing := h.going hpresent fun upload => huploader ▸ Uploader.noConfusion
      obtain ⟨_, hall, hprogress⟩ := h.parts
      rw [huploader] at hprogress
      apply h.task hgoing hpresent Uploader.noConfusion hall h.room
      · exact hprogress.2.trans hprogress.1.symm
      · rintro _ ⟨_, _, hnot⟩
        cases hnot
    · cases hmove

theorem Sound.steps (h : Sound setup all s) (hsteps : Steps setup s s') : Sound setup all s' := by
  induction hsteps with
  | refl => exact h
  | tail _ hstep ih => exact ih.step hstep

theorem acts (move : Move) (h : (act setup s move).isSome = true) : ∃ s', Step setup s s' := by
  obtain ⟨s', hact⟩ := Option.isSome_iff_exists.mp h
  exact ⟨s', move, hact⟩

theorem Sound.moves (h : Sound setup all s) : (∃ s', Step setup s s') ∨ s.phase = .done ∨ Blocked s := by
  -- a queue with something in it is read, unless the task has ended
  have hreads : s.uploader ≠ .absent → s.queue ≠ [] → (∃ s', Step setup s s') ∨ ∃ upload, s.uploader = .ended upload := by
    intro hpresent hqueue
    cases huploader : s.uploader with
    | absent => exact absurd huploader hpresent
    | reading taken total =>
      left
      have hread : ∃ s', Artifacts.read setup s taken total = some s' := by
        unfold Artifacts.read
        obtain ⟨item, queue, hitems⟩ := List.exists_cons_of_ne_nil hqueue
        rw [hitems]
        cases item with
        | none => split_ifs <;> exact ⟨_, rfl⟩
        | some =>
          dsimp only
          split_ifs <;> exact ⟨_, rfl⟩
      obtain ⟨s', hread⟩ := hread
      refine ⟨s', .read, ?_⟩
      rw [act, huploader]
      exact hread
    | closing =>
      exact .inl (acts .close (by rw [act, huploader]; rfl))
    | ended upload => exact .inr ⟨upload, rfl⟩
  have hputs : s.uploader ≠ .absent → ((∃ item items, s.phase = .delivering (item :: items)) ∨ s.phase = .finishing) →
      (∃ s', Step setup s s') ∨ Blocked s := by
    intro hpresent hphase
    by_cases hroom : s.queue.length < queueSize
    · left
      obtain ⟨item, items, hphase⟩ | hphase := hphase
      · exact acts .put (by rw [act, if_pos hroom, hphase]; rfl)
      · exact acts .put (by rw [act, if_pos hroom, hphase]; rfl)
    · have hfull : queueSize ≤ s.queue.length := Nat.not_lt.mp hroom
      have hne : s.queue ≠ [] := by
        intro hnil
        rw [hnil] at hfull
        exact absurd hfull (by decide)
      exact (hreads hpresent hne).imp_right fun hended => ⟨hphase, hfull, hended⟩
  cases hphase : s.phase with
  | delivering items =>
    cases items with
    | nil =>
      left
      cases hchunks : s.chunks with
      | nil => exact acts .finish (by rw [act, hphase, hchunks]; rfl)
      | cons => exact acts .deliver (by rw [act, hphase, hchunks]; rfl)
    | cons item items =>
      have hpresent : s.uploader ≠ .absent := by
        intro habsent
        obtain hidle | hdone := (h.absent habsent).2.1
        · exact nomatch hphase.symm.trans hidle
        · exact nomatch hphase.symm.trans hdone
      exact (hputs hpresent (.inl ⟨item, items, hphase⟩)).imp_right .inr
  | finishing =>
    have hpresent : s.uploader ≠ .absent := by
      intro habsent
      obtain hidle | hdone := (h.absent habsent).2.1
      · exact nomatch hphase.symm.trans hidle
      · exact nomatch hphase.symm.trans hdone
    exact (hputs hpresent (.inr hphase)).imp_right .inr
  | awaiting =>
    left
    have hpresent : s.uploader ≠ .absent := by
      intro habsent
      obtain hidle | hdone := (h.absent habsent).2.1
      · exact nomatch hphase.symm.trans hidle
      · exact nomatch hphase.symm.trans hdone
    have hsettles : ∀ upload, s.uploader = .ended upload → ∃ s', Step setup s s' := by
      intro upload huploader
      exact acts .settle (by rw [act, hphase, huploader]; rfl)
    cases huploader : s.uploader with
    | absent => exact absurd huploader hpresent
    | reading taken total =>
      have hmem := h.mark hphase ⟨taken, total, huploader⟩
      obtain hstep | ⟨upload, hended⟩ := hreads hpresent (List.ne_nil_of_mem hmem)
      · exact hstep
      · exact hsettles upload hended
    | closing => exact acts .close (by rw [act, huploader]; rfl)
    | ended upload => exact hsettles upload huploader
  | done => exact .inr (.inl rfl)

/-- How much is left to do: a chunk is put twice at most, and what is put is taken. -/
def weight (s : State) : Nat :=
  6 * s.chunks.length + s.queue.length +
    (match s.phase with
      | .delivering items => 6 + 2 * items.length
      | .finishing => 4
      | .awaiting => 2
      | .done => 0) +
    match s.uploader with
    | .absent => 3
    | .reading _ _ => 2
    | .closing _ _ => 1
    | .ended _ => 0

theorem Sound.lighter (h : Sound setup all s) (hstep : Step setup s s') : weight s' < weight s := by
  obtain ⟨move, hmove⟩ := hstep
  cases move with
  | deliver =>
    rw [act] at hmove
    split at hmove
    · next hphase hchunks =>
      cases hmove
      have habsent : s.opened = false → s.uploader = .absent := by
        intro hopened
        by_contra hpresent
        rw [(h.present hpresent).1] at hopened
        cases hopened
      unfold Artifacts.deliver
      dsimp only
      split_ifs with hfailed hopened hfits hopens hbegins hleft hrecorded
      · simp only [weight, hphase, hchunks, List.length_cons]
        omega
      · simp only [weight, hphase, hchunks, List.length_cons, List.length_nil]
        omega
      · simp only [weight, hphase, hchunks, List.length_cons]
        omega
      · simp only [weight, hphase, hchunks, List.length_cons]
        omega
      · simp only [weight, hphase, hchunks, List.length_cons, List.length_nil, habsent (Bool.not_eq_true _ ▸ hopened)]
        omega
      · simp only [weight, hphase, hchunks, List.length_cons, List.length_nil, habsent (Bool.not_eq_true _ ▸ hopened)]
        omega
      · simp only [weight, hphase, hchunks, List.length_cons]
        omega
      · simp only [weight, hphase, hchunks, List.length_cons]
        omega
    · cases hmove
  | put =>
    rw [act] at hmove
    split_ifs at hmove
    split at hmove
    · next hphase =>
      cases hmove
      simp only [weight, hphase, List.length_append, List.length_cons, List.length_nil]
      omega
    · next hphase =>
      cases hmove
      simp only [weight, hphase, List.length_append, List.length_cons, List.length_nil]
      omega
    · cases hmove
  | finish =>
    rw [act] at hmove
    split at hmove
    · next hphase _ =>
      cases hmove
      simp only [weight, hphase]
      split_ifs <;> simp only [List.length_nil] <;> omega
    · cases hmove
  | settle =>
    rw [act] at hmove
    split at hmove
    · next upload hphase _ =>
      cases hmove
      cases upload with
      | stored =>
        rw [Artifacts.settle]
        split_ifs <;> simp only [weight, hphase] <;> omega
      | tooLarge => simp only [Artifacts.settle, weight, hphase]; omega
      | failed => simp only [Artifacts.settle, weight, hphase]; omega
    · cases hmove
  | read =>
    rw [act] at hmove
    split at hmove
    · next taken total huploader =>
      unfold Artifacts.read at hmove
      split_ifs at hmove with houtage
      · cases hmove
        simp only [weight, huploader]
        omega
      · cases hqueue : s.queue with
        | nil =>
          rw [hqueue] at hmove
          cases hmove
        | cons item =>
          rw [hqueue] at hmove
          cases item with
          | none =>
            cases hmove
            simp only [weight, huploader, hqueue, List.length_cons]
            omega
          | some =>
            dsimp only at hmove
            split_ifs at hmove <;>
            · cases hmove
              simp only [weight, huploader, hqueue, List.length_cons]
              omega
    · cases hmove
  | close =>
    rw [act] at hmove
    split at hmove
    · next huploader =>
      cases hmove
      simp only [weight, huploader]
      omega
    · cases hmove

theorem Sound.ends (h : Sound setup all s) : ∃ s', Steps setup s s' ∧ (s'.phase = .done ∨ Blocked s') := by
  induction hweight : weight s using Nat.strong_induction_on generalizing s with
  | _ n ih =>
    obtain ⟨s', hstep⟩ | hends := h.moves
    · obtain ⟨last, hsteps, hlast⟩ := ih (weight s') (hweight ▸ h.lighter hstep) (h.step hstep) rfl
      exact ⟨last, .head hstep hsteps, hlast⟩
    · exact ⟨s, .refl, hends⟩

theorem Sound.blocked (h : Sound setup all s) (hblocked : Blocked s) : takes setup 0 0 all + queueSize < all.length := by
  obtain ⟨hphase, _, _, huploader⟩ := hblocked
  obtain ⟨gone, hall, hprogress⟩ := h.parts
  rw [huploader] at hprogress
  have htakes : takes setup 0 0 all = gone.length := hprogress
  have hmore : 0 < (toCome setup s).length := by
    obtain ⟨_, _, hphase⟩ | hphase := hphase
    · rw [toCome_present hphase (huploader ▸ Uploader.noConfusion)]
      simp
    · rw [toCome, hphase]
      exact Nat.one_pos
  rw [htakes, hall, List.length_append, List.length_append]
  omega

theorem Sound.over (h : Sound setup all s) (hdone : s.phase = .done) : all.length ≤ takes setup 0 0 all + queueSize := by
  obtain ⟨gone, hall, hprogress⟩ := h.parts
  have hcome : toCome setup s = [] := by rw [toCome, hdone]
  rw [hcome, List.append_nil] at hall
  have hlength := congrArg List.length hall
  rw [List.length_append] at hlength
  have hroom := h.room
  obtain habsent | ⟨_, hupload, _⟩ := h.done hdone
  · rw [habsent] at hprogress
    rw [show gone = [] from hprogress, List.length_nil] at hlength
    omega
  · rw [hupload] at hprogress
    have htakes : takes setup 0 0 all = gone.length := hprogress
    omega

end Sound

/-- The sink is never blocked, can always get done, and where the upload failed it says so and the row is abandoned, if and only if
the sink puts no more than the task takes before it ends and the queue holds. -/
theorem never_blocked_iff (setup : Setup) (chunks : List Chunk) :
    (∀ s, Steps setup { chunks } s → ¬ Blocked s ∧ (∃ s', Steps setup s s' ∧ s'.phase = .done) ∧
      (s.phase = .done → s.uploader = .ended .tooLarge ∨ s.uploader = .ended .failed →
        s.storeFailed = true ∧ ∃ reason, s.ledger = .abandoned reason)) ↔
    (puts setup [] chunks).length ≤ takes setup 0 0 (puts setup [] chunks) + queueSize := by
  have hstart : Sound setup (puts setup [] chunks) { chunks } := .start chunks
  constructor
  · intro hgood
    obtain ⟨s, hsteps, hends⟩ := hstart.ends
    obtain hdone | hblocked := hends
    · exact (hstart.steps hsteps).over hdone
    · exact absurd hblocked (hgood s hsteps).1
  · intro _ s hsteps
    have hsound := hstart.steps hsteps
    have hfree : ∀ s', Sound setup (puts setup [] chunks) s' → ¬ Blocked s' := by
      intro s' hs' hblocked
      have hover := hs'.blocked hblocked
      omega
    refine ⟨hfree s hsound, ?_, ?_⟩
    · obtain ⟨s', hmore, hends⟩ := hsound.ends
      exact ⟨s', hmore, hends.resolve_right (hfree s' (hsound.steps hmore))⟩
    · intro hdone hfailed
      obtain habsent | ⟨_, hupload, hreported⟩ := hsound.done hdone
      · rw [habsent] at hfailed
        simp at hfailed
      · rw [hupload] at hfailed
        apply hreported
        simpa using hfailed

def play (setup : Setup) (s : State) : List Move → Option State
  | [] => some s
  | move :: moves => (act setup s move).bind (play setup · moves)

theorem play_steps {setup : Setup} {s s' : State} {moves : List Move} (h : play setup s moves = some s') : Steps setup s s' := by
  induction moves generalizing s with
  | nil =>
    cases h
    exact .refl
  | cons move moves ih =>
    obtain ⟨_, hact, hplay⟩ := Option.bind_eq_some_iff.mp h
    exact .head ⟨move, hact⟩ (ih hplay)

def narrowRun : Setup := { previewLimit := 1, artifactMaxBytes := 100, runArtifactMaxBytes := 1 }

def tenChunks : List Chunk := [0, 0] :: List.replicate 9 [0]

def untilBlocked : List Move :=
  [.deliver, .put, .put, .read, .read] ++ (List.replicate 8 [Move.deliver, .put]).flatten ++ [.deliver]

/-- The task ends at its second chunk, and the sink waits for ever once eight more are in the queue. -/
theorem full_queue_blocks : ¬ ∀ s, Steps narrowRun { chunks := tenChunks } s → ¬ Blocked s ∧
    (∃ s', Steps narrowRun s s' ∧ s'.phase = .done) ∧
    (s.phase = .done → s.uploader = .ended .tooLarge ∨ s.uploader = .ended .failed →
      s.storeFailed = true ∧ ∃ reason, s.ledger = .abandoned reason) := by
  intro hgood
  have hplayed : play narrowRun { chunks := tenChunks } untilBlocked = some {
      chunks := [], preview := [0], opened := true, phase := .delivering [[0]], queue := List.replicate 8 (some [0])
      uploader := .ended .tooLarge, ledger := .uploading } := by
    decide
  exact (hgood _ (play_steps hplayed)).1 ⟨.inl ⟨[0], [], rfl⟩, Nat.le_refl _, .tooLarge, rfl⟩

end TinyHermes.Artifacts
