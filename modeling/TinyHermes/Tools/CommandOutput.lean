import TinyHermes.Lib.Text

/-! What the model is shown of a command's output: the preview that a sink keeps, the recorder that is opened once there is more,
and the notes that say so. -/
namespace TinyHermes.Tools.CommandOutput
open Lib

abbrev Chunk := List UInt8

structure Artifact where
  id : String
  truncated : Bool

/-- The write half of a recorder, by what it does once it was given these chunks. -/
structure ArtifactUpload where
  /-- `deliver` of the last of them returns. -/
  takes : List Chunk → Bool
  /-- `finish(truncated=…)`, unless it raises. -/
  finish : List Chunk → Bool → Option (Option Artifact)

/-- `open_artifact`. -/
inductive Opener where
  | absent
  | raises
  | opens (upload : ArtifactUpload)

structure Setup where
  previewLimit : Nat
  artifactLimit : Option Nat
  openArtifact : Opener
  timeoutSeconds : Nat
  /-- `decode("utf-8", errors="replace")`. -/
  decode : Chunk → List Char

structure Output where
  chunks : List Chunk
  exitCode : Int
  timedOut : Bool

def Output.bytes (o : Output) : Chunk := o.chunks.flatten

structure StreamedResult where
  exitCode : Int
  timedOut : Bool
  observedBytes : Nat
  deliveredBytes : Nat
  truncated : Bool

structure PreviewingSink where
  preview : Chunk := []
  storeFailed : Bool := false
  recorder : Option ArtifactUpload := none
  given : List Chunk := []

structure ToolResultBlock where
  output : List Char
  exitCode : Int
  failed : Bool

structure Shown where
  sink : PreviewingSink
  notes : List (List Char)
  block : ToolResultBlock

section Streaming

/-- `drain`: what of the chunks reaches a sink that takes so many bytes. -/
def drain (limit delivered : Nat) : List Chunk → List Chunk
  | [] => []
  | chunk :: rest =>
    if 0 < limit - delivered then
      chunk.take (limit - delivered) :: drain limit (delivered + (chunk.take (limit - delivered)).length) rest
    else drain limit delivered rest

/-- What `execute_streamed` answers behind it. -/
def streamed (limit : Nat) (o : Output) : StreamedResult where
  exitCode := o.exitCode
  timedOut := o.timedOut
  observedBytes := o.bytes.length
  deliveredBytes := (drain limit 0 o.chunks).flatten.length
  truncated := (drain limit 0 o.chunks).flatten.length < o.bytes.length

/-- `_push`. -/
def push (sink : PreviewingSink) (chunk : Chunk) : PreviewingSink :=
  match sink.recorder with
  | none => sink
  | some upload =>
    if sink.storeFailed then sink
    else
      { sink with
        given := sink.given ++ [chunk]
        storeFailed := !upload.takes (sink.given ++ [chunk]) }

/-- `PreviewingSink.deliver`, unless `open_artifact` raises. -/
def deliver (setup : Setup) (sink : PreviewingSink) (chunk : Chunk) : Option PreviewingSink :=
  if sink.storeFailed then some sink
  else if sink.recorder.isSome then some (push sink chunk)
  else
    let room := setup.previewLimit - sink.preview.length
    if chunk.length ≤ room then some { sink with preview := sink.preview ++ chunk }
    else
      let sink := { sink with preview := sink.preview ++ chunk.take room }
      let leftover := chunk.drop room
      match setup.openArtifact with
      | .absent => some sink
      | .raises => none
      | .opens upload =>
        let sink := push { sink with recorder := some upload } sink.preview
        some (if leftover.isEmpty then sink else push sink leftover)

/-- `PreviewingSink.finish`. -/
def finish (sink : PreviewingSink) (truncated : Bool) : PreviewingSink × Option Artifact :=
  match sink.recorder with
  | none => (sink, none)
  | some upload =>
    match upload.finish sink.given truncated with
    | none => ({ sink with storeFailed := true }, none)
    | some artifact => (sink, artifact)

end Streaming

section Notes
variable (setup : Setup)

def artifactNote (artifact : Artifact) : List Char := "artifact_id=".toList ++ artifact.id.toList

def storeFailedNote : List Char := "artifact_store_failed".toList

def truncatedNote : List Char := "[output truncated by the platform]".toList

/-- What is said of the bytes that the preview does not hold. -/
def lossNotes (result : StreamedResult) (artifact : Option Artifact) (storeFailed : Bool) : List (List Char) :=
  if storeFailed then [storeFailedNote]
  else
    match artifact with
    | some artifact =>
      [artifactNote artifact,
        "artifact_truncated=".toList ++ (if artifact.truncated || result.truncated then "true" else "false").toList]
    | none => if result.truncated then [truncatedNote] else []

def timeoutNote : List Char :=
  "[the command timed out after ".toList ++ (toString setup.timeoutSeconds).toList ++ "s and was stopped]".toList

def notesOf (result : StreamedResult) (artifact : Option Artifact) (storeFailed : Bool) : List (List Char) :=
  (if result.timedOut then [timeoutNote setup] else []) ++ lossNotes result artifact storeFailed

/-- The text of the preview, and the notes in lines of their own behind it. -/
def outputOf (preview : Chunk) (notes : List (List Char)) : List Char :=
  let output := setup.decode preview
  if notes.isEmpty then output
  else if output.isEmpty then ['\n'].intercalate notes
  else output.rdropWhile Text.isSpace ++ '\n' :: ['\n'].intercalate notes

/-- `_from_stream`. -/
def fromStream (sink : PreviewingSink) (result : StreamedResult) (artifact : Option Artifact) : Shown where
  sink := sink
  notes := notesOf setup result artifact sink.storeFailed
  block :=
    { output := outputOf setup sink.preview (notesOf setup result artifact sink.storeFailed)
      exitCode := result.exitCode
      failed := false }

/-- `sink.artifact_limit`. -/
def cap : Nat :=
  match setup.artifactLimit, setup.openArtifact with
  | some limit, _ => limit
  | none, .absent => setup.previewLimit
  | none, _ => max setup.previewLimit 104857600

/-- `_run_streamed`, unless `open_artifact` raises. -/
def runStreamed (o : Output) : Option Shown := do
  let sink ← (drain (cap setup) 0 o.chunks).foldlM (deliver setup) {}
  let result := streamed (cap setup) o
  let (sink, artifact) := finish sink result.truncated
  return fromStream setup sink result artifact

end Notes

structure Honest (setup : Setup) (o : Output) (shown : Shown) : Prop where
  preview : shown.sink.preview = o.bytes.take setup.previewLimit
  recorded : shown.sink.recorder.isSome = true → shown.sink.storeFailed = false →
    shown.sink.given.flatten = o.bytes.take (cap setup)
  told : shown.sink.preview.length < o.bytes.length →
    storeFailedNote ∈ shown.notes ∨ truncatedNote ∈ shown.notes ∨ ∃ artifact, artifactNote artifact ∈ shown.notes

/-- What a recorder is given, if all of it is taken: the preview, what is left of the chunk that is too long for it, and the chunks
behind that one. -/
def spilled (limit : Nat) (preview : Chunk) : List Chunk → List Chunk
  | [] => []
  | chunk :: rest =>
    if chunk.length ≤ limit - preview.length then spilled limit (preview ++ chunk) rest
    else (preview ++ chunk.take (limit - preview.length)) :: chunk.drop (limit - preview.length) :: rest

def ArtifactUpload.takesAll (upload : ArtifactUpload) (given : List Chunk) : List Chunk → Bool
  | [] => true
  | chunk :: rest => upload.takes (given ++ [chunk]) && takesAll upload (given ++ [chunk]) rest

def ArtifactUpload.finishesWithNothing (upload : ArtifactUpload) (chunks : List Chunk) : Bool :=
  upload.takesAll [] chunks && (upload.finish chunks false).any (·.isNone)

/-- The bytes beyond the preview are not lost without a word. -/
def spillTold (setup : Setup) (o : Output) : Prop :=
  match setup.openArtifact with
  | .absent => cap setup < o.bytes.length
  | .raises => False
  | .opens upload =>
    cap setup < o.bytes.length ∨ upload.finishesWithNothing (spilled setup.previewLimit [] (drain (cap setup) 0 o.chunks)) = false

section Draining

theorem drain_flatten (limit delivered : Nat) (chunks : List Chunk) :
    (drain limit delivered chunks).flatten = chunks.flatten.take (limit - delivered) := by
  induction chunks generalizing delivered with
  | nil => rw [drain, List.flatten_nil, List.take_nil]
  | cons chunk rest ih =>
    rw [drain, List.flatten_cons, List.take_append]
    by_cases hroom : 0 < limit - delivered
    · have hrest : limit - (delivered + (chunk.take (limit - delivered)).length) = limit - delivered - chunk.length := by
        rw [List.length_take]
        omega
      rw [if_pos hroom, List.flatten_cons, ih, hrest]
    · have hnone : limit - delivered = 0 := Nat.eq_zero_of_not_pos hroom
      rw [if_neg hroom, ih, hnone, Nat.zero_sub, List.take_zero, List.take_zero]
      rfl

theorem truncated_iff (limit : Nat) (o : Output) : (streamed limit o).truncated = true ↔ limit < o.bytes.length := by
  rw [streamed, decide_eq_true_iff, drain_flatten, List.length_take, Output.bytes]
  omega

end Draining

section Delivering
variable {setup : Setup} {upload : ArtifactUpload}

theorem deliver_failed {sink : PreviewingSink} (h : sink.storeFailed = true) (chunks : List Chunk) :
    chunks.foldlM (deliver setup) sink = some sink := by
  induction chunks with
  | nil => rfl
  | cons chunk rest ih =>
    have hstays : deliver setup sink chunk = some sink := if_pos h
    rw [List.foldlM_cons, hstays]
    exact ih

theorem takesAll_first (chunk : Chunk) (rest : List Chunk) :
    upload.takesAll [] (chunk :: rest) = (upload.takes [chunk] && upload.takesAll [chunk] rest) := rfl

theorem recording (preview : Chunk) (chunks given : List Chunk) :
    ∃ later failed, chunks.foldlM (deliver setup) { preview, recorder := some upload, given } =
        some { preview, storeFailed := failed, recorder := some upload, given := given ++ later } ∧
      failed = !upload.takesAll given chunks ∧ (failed = false → later = chunks) := by
  induction chunks generalizing given with
  | nil => exact ⟨[], false, by rw [List.append_nil]; rfl, rfl, fun _ => rfl⟩
  | cons chunk rest ih =>
    have hdeliver : deliver setup { preview, recorder := some upload, given } chunk =
        some { preview, storeFailed := !upload.takes (given ++ [chunk]), recorder := some upload, given := given ++ [chunk] } := rfl
    rw [List.foldlM_cons, hdeliver, ArtifactUpload.takesAll]
    cases htakes : upload.takes (given ++ [chunk]) with
    | false => exact ⟨[chunk], true, deliver_failed rfl rest, rfl, fun h => nomatch h⟩
    | true =>
      obtain ⟨later, failed, hrest, hfailed, hall⟩ := ih (given ++ [chunk])
      refine ⟨chunk :: later, failed, ?_, hfailed, fun h => congrArg (chunk :: ·) (hall h)⟩
      rw [List.append_assoc] at hrest
      exact hrest

theorem previewing {preview : Chunk} {chunks : List Chunk} (h : (preview ++ chunks.flatten).length ≤ setup.previewLimit) :
    chunks.foldlM (deliver setup) { preview } = some { preview := preview ++ chunks.flatten } := by
  induction chunks generalizing preview with
  | nil => rw [List.flatten_nil, List.append_nil]; rfl
  | cons chunk rest ih =>
    rw [List.flatten_cons, ← List.append_assoc] at h ⊢
    have hfits : chunk.length ≤ setup.previewLimit - preview.length := by
      rw [List.length_append, List.length_append] at h
      omega
    have hdeliver : deliver setup { preview } chunk = some { preview := preview ++ chunk } := if_pos hfits
    rw [List.foldlM_cons, hdeliver]
    exact ih h

theorem take_chunk {limit : Nat} {preview chunk rest : Chunk} (hroom : preview.length ≤ limit)
    (hlong : ¬ chunk.length ≤ limit - preview.length) :
    (preview ++ (chunk ++ rest)).take limit = preview ++ chunk.take (limit - preview.length) := by
  rw [List.take_append, List.take_of_length_le hroom, List.take_append_of_le_length (Nat.le_of_not_le hlong)]

theorem overflow_absent (habsent : setup.openArtifact = .absent) {preview : Chunk} (hroom : preview.length ≤ setup.previewLimit)
    (chunks : List Chunk) :
    chunks.foldlM (deliver setup) { preview } = some { preview := (preview ++ chunks.flatten).take setup.previewLimit } := by
  induction chunks generalizing preview with
  | nil => rw [List.flatten_nil, List.append_nil, List.take_of_length_le hroom]; rfl
  | cons chunk rest ih =>
    rw [List.foldlM_cons, List.flatten_cons]
    by_cases hfits : chunk.length ≤ setup.previewLimit - preview.length
    · have hdeliver : deliver setup { preview } chunk = some { preview := preview ++ chunk } := if_pos hfits
      have hkept : (preview ++ chunk).length ≤ setup.previewLimit := by
        rw [List.length_append]
        omega
      rw [hdeliver, ← List.append_assoc]
      exact ih hkept
    · have hdeliver : deliver setup { preview } chunk =
          some { preview := preview ++ chunk.take (setup.previewLimit - preview.length) } := by
        refine (if_neg hfits).trans ?_
        rw [habsent]
      have hfull : (preview ++ chunk.take (setup.previewLimit - preview.length)).length = setup.previewLimit := by
        rw [List.length_append, List.length_take]
        omega
      have hrest := ih hfull.le
      rw [List.take_left' hfull] at hrest
      rw [hdeliver, take_chunk hroom hfits]
      exact hrest

theorem overflow_raises (hraises : setup.openArtifact = .raises) {preview : Chunk} {chunks : List Chunk}
    (hlong : setup.previewLimit < (preview ++ chunks.flatten).length) (hroom : preview.length ≤ setup.previewLimit) :
    chunks.foldlM (deliver setup) { preview } = none := by
  induction chunks generalizing preview with
  | nil =>
    rw [List.flatten_nil, List.append_nil] at hlong
    exact absurd hroom (Nat.not_le.mpr hlong)
  | cons chunk rest ih =>
    rw [List.foldlM_cons]
    by_cases hfits : chunk.length ≤ setup.previewLimit - preview.length
    · have hdeliver : deliver setup { preview } chunk = some { preview := preview ++ chunk } := if_pos hfits
      have hkept : (preview ++ chunk).length ≤ setup.previewLimit := by
        rw [List.length_append]
        omega
      rw [List.flatten_cons, ← List.append_assoc] at hlong
      rw [hdeliver]
      exact ih hlong hkept
    · have hdeliver : deliver setup { preview } chunk = none := by
        refine (if_neg hfits).trans ?_
        rw [hraises]
      rw [hdeliver]
      rfl

theorem overflow_opens (hopens : setup.openArtifact = .opens upload) {preview : Chunk} {chunks : List Chunk}
    (hlong : setup.previewLimit < (preview ++ chunks.flatten).length) (hroom : preview.length ≤ setup.previewLimit) :
    ∃ given failed, chunks.foldlM (deliver setup) { preview } =
        some { preview := (preview ++ chunks.flatten).take setup.previewLimit, storeFailed := failed,
               recorder := some upload, given } ∧
      failed = !upload.takesAll [] (spilled setup.previewLimit preview chunks) ∧
      (failed = false → given = spilled setup.previewLimit preview chunks) ∧
      (spilled setup.previewLimit preview chunks).flatten = preview ++ chunks.flatten := by
  induction chunks generalizing preview with
  | nil =>
    rw [List.flatten_nil, List.append_nil] at hlong
    exact absurd hroom (Nat.not_le.mpr hlong)
  | cons chunk rest ih =>
    rw [List.foldlM_cons, spilled, List.flatten_cons]
    by_cases hfits : chunk.length ≤ setup.previewLimit - preview.length
    · have hdeliver : deliver setup { preview } chunk = some { preview := preview ++ chunk } := if_pos hfits
      have hkept : (preview ++ chunk).length ≤ setup.previewLimit := by
        rw [List.length_append]
        omega
      rw [List.flatten_cons, ← List.append_assoc] at hlong
      rw [hdeliver, if_pos hfits, ← List.append_assoc]
      exact ih hlong hkept
    · have hkept := @take_chunk _ _ _ rest.flatten hroom hfits
      rw [if_neg hfits]
      generalize hfirst : preview ++ chunk.take (setup.previewLimit - preview.length) = first at hkept
      generalize hleft : chunk.drop (setup.previewLimit - preview.length) = leftover
      have hleftover : leftover.isEmpty = false := by
        have hlength := congrArg List.length hleft
        rw [List.length_drop] at hlength
        rw [List.isEmpty_eq_false_iff, ← List.length_pos_iff]
        omega
      have hbytes : first ++ leftover = preview ++ chunk := by
        rw [← hfirst, ← hleft, List.append_assoc, List.take_append_drop]
      have hdeliver : deliver setup { preview } chunk = some (push (push { preview := first, recorder := some upload } first) leftover) := by
        refine (if_neg hfits).trans ?_
        rw [hopens]
        dsimp only
        rw [hfirst, hleft, hleftover]
        rfl
      have hall : (first :: leftover :: rest).flatten = preview ++ (chunk ++ rest.flatten) := by
        rw [List.flatten_cons, List.flatten_cons, ← List.append_assoc, hbytes, List.append_assoc]
      rw [hdeliver, hkept]
      cases htakes : upload.takes [first] with
      | false =>
        have hpush : push (push { preview := first, recorder := some upload } first) leftover =
            { preview := first, storeFailed := true, recorder := some upload, given := [first] } := by
          simp [push, htakes]
        rw [hpush]
        refine ⟨[first], true, deliver_failed rfl rest, ?_, (fun h => nomatch h), hall⟩
        rw [takesAll_first, htakes]
        rfl
      | true =>
        have hpush : push { preview := first, recorder := some upload } first =
            { preview := first, recorder := some upload, given := [first] } := by
          simp [push, htakes]
        obtain ⟨later, failed, hrest, hfailed, hgiven⟩ := @recording setup upload first (leftover :: rest) [first]
        rw [hpush]
        refine ⟨[first] ++ later, failed, hrest, ?_, fun h => congrArg (first :: ·) (hgiven h), hall⟩
        rw [hfailed, takesAll_first, htakes, Bool.true_and]

end Delivering

section Honest
variable {setup : Setup} {o : Output}

theorem timeoutNote_start (setup : Setup) : (timeoutNote setup).take 2 = ['[', 't'] := rfl

theorem storeFailedNote_start : storeFailedNote.take 2 = ['a', 'r'] := rfl

theorem truncatedNote_start : truncatedNote.take 2 = ['[', 'o'] := rfl

theorem artifactNote_start (artifact : Artifact) : (artifactNote artifact).take 2 = ['a', 'r'] := rfl

theorem notes_quiet {result : StreamedResult} (htruncated : result.truncated = false) {note : List Char}
    (h : note ∈ notesOf setup result none false) : note = timeoutNote setup := by
  rw [notesOf, lossNotes, if_neg Bool.false_ne_true, htruncated, if_neg Bool.false_ne_true, List.append_nil] at h
  split_ifs at h
  · exact List.mem_singleton.mp h
  · cases h

theorem notes_told {result : StreamedResult} {artifact : Option Artifact} {storeFailed : Bool} :
    (storeFailedNote ∈ notesOf setup result artifact storeFailed ∨ truncatedNote ∈ notesOf setup result artifact storeFailed ∨
        ∃ a, artifactNote a ∈ notesOf setup result artifact storeFailed) ↔
      storeFailed = true ∨ artifact.isSome = true ∨ result.truncated = true := by
  cases storeFailed with
  | true => exact ⟨fun _ => .inl rfl, fun _ => .inl (List.mem_append_right _ (List.mem_singleton_self _))⟩
  | false =>
    cases artifact with
    | some a => exact ⟨fun _ => .inr (.inl rfl), fun _ => .inr (.inr ⟨a, List.mem_append_right _ List.mem_cons_self⟩)⟩
    | none =>
      cases htruncated : result.truncated with
      | true =>
        have hloss : lossNotes result none false = [truncatedNote] := by
          rw [lossNotes, if_neg Bool.false_ne_true]
          exact if_pos htruncated
        refine ⟨fun _ => .inr (.inr rfl), fun _ => .inr (.inl (List.mem_append_right _ ?_))⟩
        rw [hloss]
        exact List.mem_singleton_self _
      | false =>
        refine ⟨fun h => ?_, fun h => by simp at h⟩
        have hstart := timeoutNote_start setup
        rcases h with hnote | hnote | ⟨_, hnote⟩
        · rw [← notes_quiet htruncated hnote, storeFailedNote_start] at hstart
          exact absurd hstart (by decide)
        · rw [← notes_quiet htruncated hnote, truncatedNote_start] at hstart
          exact absurd hstart (by decide)
        · rw [← notes_quiet htruncated hnote, artifactNote_start] at hstart
          exact absurd hstart (by decide)

theorem runStreamed_of {sink : PreviewingSink} (h : (drain (cap setup) 0 o.chunks).foldlM (deliver setup) {} = some sink) :
    runStreamed setup o = some (fromStream setup (finish sink (streamed (cap setup) o).truncated).1 (streamed (cap setup) o)
      (finish sink (streamed (cap setup) o).truncated).2) := by
  rw [runStreamed, h]
  rfl

theorem honest_alone {preview : Chunk}
    (h : (drain (cap setup) 0 o.chunks).foldlM (deliver setup) {} = some { preview }) :
    (∃ shown, runStreamed setup o = some shown ∧ Honest setup o shown) ↔
      preview = o.bytes.take setup.previewLimit ∧ (preview.length < o.bytes.length → cap setup < o.bytes.length) := by
  rw [runStreamed_of h]
  constructor
  · rintro ⟨_, ⟨⟩, hhonest⟩
    refine ⟨hhonest.preview, fun hmore => ?_⟩
    rcases notes_told.mp (hhonest.told hmore) with hfailed | hartifact | htruncated
    · cases hfailed
    · cases hartifact
    · exact (truncated_iff _ _).mp htruncated
  · intro ⟨hpreview, htold⟩
    refine ⟨_, rfl, hpreview, (fun hrecorder => nomatch hrecorder), fun hmore => ?_⟩
    exact notes_told.mpr (.inr (.inr ((truncated_iff _ _).mpr (htold hmore))))

/-- What `finish` leaves of a sink, and when the notes made from it are not only on the time. -/
theorem finish_told (upload : ArtifactUpload) (given : List Chunk) (failed : Bool) (preview : Chunk) (truncated : Bool) :
    let ended := finish { preview, storeFailed := failed, recorder := some upload, given } truncated
    ended.1.preview = preview ∧ (ended.1.storeFailed = false → failed = false ∧ ended.1.given = given) ∧
      ((ended.1.storeFailed = true ∨ ended.2.isSome = true) ↔
        failed = true ∨ (upload.finish given truncated).any (·.isNone) = false) := by
  dsimp only [finish]
  cases upload.finish given truncated with
  | none => exact ⟨rfl, (fun h => nomatch h), fun _ => .inr rfl, fun _ => .inl rfl⟩
  | some artifact => cases artifact <;> simp

theorem honest_recorded {upload : ArtifactUpload} {given : List Chunk} {failed : Bool} {spilled : List Chunk}
    (h : (drain (cap setup) 0 o.chunks).foldlM (deliver setup) {} =
      some { preview := o.bytes.take setup.previewLimit, storeFailed := failed, recorder := some upload, given })
    (hfailed : failed = !upload.takesAll [] spilled) (hgiven : failed = false → given = spilled)
    (hspilled : spilled.flatten = o.bytes.take (cap setup)) (hless : (o.bytes.take setup.previewLimit).length < o.bytes.length) :
    (∃ shown, runStreamed setup o = some shown ∧ Honest setup o shown) ↔
      cap setup < o.bytes.length ∨ upload.finishesWithNothing spilled = false := by
  have hnothing : failed = true ∨ (upload.finish given false).any (·.isNone) = false ↔
      upload.finishesWithNothing spilled = false := by
    rw [ArtifactUpload.finishesWithNothing]
    cases hfails : failed with
    | true =>
      rw [hfails] at hfailed
      rw [(Bool.not_eq_true' _).mp hfailed.symm]
      exact ⟨fun _ => rfl, fun _ => .inl rfl⟩
    | false =>
      rw [hfails] at hfailed
      rw [hgiven hfails, (Bool.not_eq_false' _).mp hfailed.symm, Bool.true_and]
      exact ⟨fun h => h.resolve_left Bool.false_ne_true, .inr⟩
  have hcut := truncated_iff (cap setup) o
  rw [runStreamed_of h]
  generalize streamed (cap setup) o = result at hcut
  obtain ⟨hpreview, hkept, hnote⟩ := finish_told upload given failed (o.bytes.take setup.previewLimit) result.truncated
  constructor
  · rintro ⟨_, ⟨⟩, hhonest⟩
    have htold := hhonest.told ((congrArg List.length hpreview).trans_lt hless)
    cases htruncated : result.truncated with
    | true => exact .inl (hcut.mp htruncated)
    | false =>
      rw [htruncated] at hnote
      rcases notes_told.mp htold with hfails | hartifact | hsaid
      · exact .inr (hnothing.mp (hnote.mp (.inl (htruncated ▸ hfails))))
      · exact .inr (hnothing.mp (hnote.mp (.inr (htruncated ▸ hartifact))))
      · cases htruncated.symm.trans hsaid
  · intro htold
    refine ⟨_, rfl, hpreview, fun _ hfails => ?_, fun _ => ?_⟩
    · obtain ⟨hnot, hsame⟩ := hkept hfails
      exact (congrArg List.flatten (hsame.trans (hgiven hnot))).trans hspilled
    · refine notes_told.mpr ?_
      cases htruncated : result.truncated with
      | true => exact .inr (.inr rfl)
      | false =>
        have hmore : ¬ cap setup < o.bytes.length := fun hless => by
          rw [hcut.mpr hless] at htruncated
          cases htruncated
        rw [htruncated] at hnote
        exact (hnote.mpr (hnothing.mpr (htold.resolve_left hmore))).imp_right .inl

/-- The preview is exact and honest just where nothing of the output is beyond the artifact's limit but inside of the preview's,
and nothing between the two is lost without a word. -/
theorem honest_iff (setup : Setup) (o : Output) : (∃ shown, runStreamed setup o = some shown ∧ Honest setup o shown) ↔
    (o.bytes.length ≤ cap setup ∨ setup.previewLimit ≤ cap setup) ∧
      (setup.previewLimit < min o.bytes.length (cap setup) → spillTold setup o) := by
  have hbytes : (drain (cap setup) 0 o.chunks).flatten = o.bytes.take (cap setup) := drain_flatten _ 0 _
  have hempty : ([] : Chunk).length ≤ setup.previewLimit := Nat.zero_le _
  by_cases hlong : setup.previewLimit < min o.bytes.length (cap setup)
  · have hover : setup.previewLimit < (([] : Chunk) ++ (drain (cap setup) 0 o.chunks).flatten).length := by
      rw [List.nil_append, hbytes, List.length_take, Nat.min_comm]
      exact hlong
    have hpreview : (([] : Chunk) ++ (drain (cap setup) 0 o.chunks).flatten).take setup.previewLimit =
        o.bytes.take setup.previewLimit := by
      rw [List.nil_append, hbytes, List.take_take, Nat.min_eq_left (by omega)]
    have hless : (o.bytes.take setup.previewLimit).length < o.bytes.length := by
      rw [List.length_take]
      omega
    have hright : (o.bytes.length ≤ cap setup ∨ setup.previewLimit ≤ cap setup) := .inr (by omega)
    rw [and_iff_right hright, forall_prop_of_true hlong, spillTold]
    cases hopen : setup.openArtifact with
    | absent =>
      have hrun := overflow_absent hopen hempty (drain (cap setup) 0 o.chunks)
      rw [honest_alone hrun, hpreview, and_iff_right rfl, forall_prop_of_true hless]
    | raises =>
      have hrun := overflow_raises hopen hover hempty
      rw [runStreamed, hrun]
      exact ⟨fun ⟨_, hnone, _⟩ => (nomatch hnone), False.elim⟩
    | opens =>
      obtain ⟨_, _, hrun, hfailed, hgiven, hspilled⟩ := overflow_opens hopen hover hempty
      rw [hpreview] at hrun
      rw [List.nil_append, hbytes] at hspilled
      exact honest_recorded hrun hfailed hgiven hspilled hless
  · rw [forall_prop_of_false hlong, and_true]
    have hfits : (([] : Chunk) ++ (drain (cap setup) 0 o.chunks).flatten).length ≤ setup.previewLimit := by
      rw [List.nil_append, hbytes, List.length_take, Nat.min_comm]
      exact Nat.not_lt.mp hlong
    have hrun := previewing hfits
    rw [honest_alone hrun, List.nil_append, hbytes]
    constructor
    · intro ⟨hsame, _⟩
      have hlength := congrArg List.length hsame
      rw [List.length_take, List.length_take] at hlength
      omega
    · intro _
      rw [List.length_take]
      refine ⟨?_, fun _ => by omega⟩
      rcases Nat.lt_or_ge (cap setup) o.bytes.length with _ | hwhole
      · have hsame : cap setup = setup.previewLimit := by omega
        rw [hsame]
      · rw [List.take_of_length_le hwhole, List.take_of_length_le (by omega)]

def emptyHanded : ArtifactUpload where
  takes _ := true
  finish _ _ := some none

def twoBytes : Setup where
  previewLimit := 2
  artifactLimit := some 10
  openArtifact := .opens emptyHanded
  timeoutSeconds := 30
  decode := List.map fun b => Char.ofNat b.toNat

def threeBytes : Output where
  chunks := [[0x6f], [0x6b, 0x21]]
  exitCode := 0
  timedOut := false

/-- The third byte is nowhere, and nothing says so. -/
theorem silent_loss : (runStreamed twoBytes threeBytes).map (fun shown => (shown.sink.preview, shown.block.output)) =
      some ([0x6f, 0x6b], ['o', 'k']) ∧
    ¬ ∃ shown, runStreamed twoBytes threeBytes = some shown ∧ Honest twoBytes threeBytes shown := by
  refine ⟨rfl, ?_⟩
  rintro ⟨_, ⟨⟩, hhonest⟩
  rcases hhonest.told (by decide) with hnote | hnote | ⟨_, hnote⟩ <;> cases hnote

end Honest

end TinyHermes.Tools.CommandOutput
