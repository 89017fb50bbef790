import TinyHermes.Lib.Fallible
import TinyHermes.Sandbox.Streams

/-! What a stream's two senders write, and what a receiver that credits each payload hands on of it. -/
namespace TinyHermes.Sandbox
open Lib

/-- `MAX_FRAME_PAYLOAD`. -/
def maxFramePayload : Nat := 1048576

/-- `_MAX_SEQUENCE`. -/
def maxSequence : Nat := 2 ^ 64 - 1

inductive FrameFault where
  | tooLarge | sequenceOutOfRange
  deriving DecidableEq, Repr

/-- What `encode_frame` checks before it writes a frame. -/
def encodable (frame : Frame) : Except FrameFault Unit :=
  if maxFramePayload < frame.payload.length then .error .tooLarge
  else if maxSequence < frame.sequence then .error .sequenceOutOfRange
  else .ok ()

/-- `.encode()` of a text that is plain ASCII. -/
def ascii (text : String) : List UInt8 := text.toList.map fun ch => UInt8.ofNat ch.toNat

/-- `json.dumps({"total_limit": total_limit}).encode()`. -/
def startPayload (totalLimit : Int) : List UInt8 := ascii s!"\x7b\"total_limit\": {totalLimit}\x7d"

/-- `json.dumps(totals).encode()`. -/
def endPayload (totalBytes frameCount : Nat) (sha256 : String) : List UInt8 :=
  ascii s!"\x7b\"total_bytes\": {totalBytes}, \"frame_count\": {frameCount}, \"sha256\": \"{sha256}\"\x7d"

def pieces (size : Nat) (chunk : List UInt8) : List (List UInt8) :=
  (List.range ((chunk.length + size - 1) / size)).map fun i => (chunk.drop (i * size)).take size

/-- What a sender counts, and the frames it has written. -/
structure Outgoing where
  sequence : Nat := 0
  sent : Nat := 0
  dataFrames : Nat := 0
  hashed : List UInt8 := []
  written : List Frame := []

namespace Outgoing

/-- `_write_frame`. -/
def writeFrame (out : Outgoing) (type : FrameType) (payload : List UInt8) : Except FrameFault Outgoing := do
  encodable ⟨type, out.sequence, payload⟩
  return { out with sequence := out.sequence + 1, written := out.written ++ [⟨type, out.sequence, payload⟩] }

/-- One `DATA` frame and what is counted of it. -/
def piece (out : Outgoing) (payload : List UInt8) : Except FrameFault Outgoing := do
  let out ← out.writeFrame .data payload
  return { out with
    sent := out.sent + payload.length, dataFrames := out.dataFrames + 1, hashed := out.hashed ++ payload }

def chunk (out : Outgoing) (bytes : List UInt8) : Except FrameFault Outgoing :=
  (pieces maxFramePayload bytes).foldlM piece out

def ending (digest : List UInt8 → String) (out : Outgoing) : Except FrameFault Outgoing :=
  out.writeFrame .ending (endPayload out.sent out.dataFrames (digest out.hashed))

end Outgoing

/-- `ServerStream`, as a sender. -/
structure ServerStream extends Outgoing where
  sending : Bool := false

/-- What comes between `start_send` and `finish_send`. -/
inductive SendCall where
  | push (chunk : List UInt8)
  | progress

namespace SendCall

def bytes : SendCall → List UInt8
  | .push chunk => chunk
  | .progress => []

def dataFrames : SendCall → Nat
  | .push chunk => (pieces maxFramePayload chunk).length
  | .progress => 0

def frames : SendCall → Nat
  | .push chunk => (pieces maxFramePayload chunk).length
  | .progress => 1

end SendCall

namespace ServerStream

def startSend (s : ServerStream) (totalLimit : Int) : Except FrameFault ServerStream := do
  let out ← { s.toOutgoing with sequence := 0 }.writeFrame .start (startPayload totalLimit)
  return { out with sending := true }

def push (s : ServerStream) (chunk : List UInt8) : Except FrameFault ServerStream := do
  return { ← s.chunk chunk with sending := s.sending }

def progress (s : ServerStream) : Except FrameFault ServerStream :=
  if s.sending then do return { ← s.writeFrame .progress [] with sending := s.sending } else .ok s

def finishSend (digest : List UInt8 → String) (s : ServerStream) : Except FrameFault ServerStream := do
  return { ← s.ending digest with sending := false }

def call (s : ServerStream) : SendCall → Except FrameFault ServerStream
  | .push bytes => s.push bytes
  | .progress => s.progress

/-- `start_send`, pushes and keep-alives in any order, `finish_send`. -/
def send (digest : List UInt8 → String) (totalLimit : Int) (calls : List SendCall) : Except FrameFault ServerStream := do
  let s ← startSend {} totalLimit
  let s ← calls.foldlM call s
  s.finishSend digest

end ServerStream

structure UploadChunk where
  bytes : List UInt8
  answered : Bool := false

namespace ControllerClient

/-- The loop over the chunks, which an answer of the server ends, with whether one did. -/
def sendChunks (out : Outgoing) : List UploadChunk → Except FrameFault (Outgoing × Bool)
  | [] => .ok (out, false)
  | chunk :: rest =>
    if chunk.answered then .ok (out, true)
    else do
      let out ← out.chunk chunk.bytes
      sendChunks out rest

/-- The frames of `send_stream`; `answered` is whether the server had answered after the last chunk. -/
def sendStream (digest : List UInt8 → String) (declaredTotal : Int) (chunks : List UploadChunk) (answered : Bool) :
    Except FrameFault Outgoing := do
  let out ← Outgoing.writeFrame {} .start (startPayload declaredTotal)
  let (out, final) ← sendChunks out chunks
  if final || answered then return out else out.ending digest

end ControllerClient

inductive Outcome where
  | waiting
  | returned (receivedBytes : Nat)
  | refusedBecause (reason : Option StreamRefusal)
  | cancelled
  deriving DecidableEq

structure Reception where
  receiver : StreamReceiver
  delivered : List (List UInt8) := []
  outcome : Outcome := .waiting
  unread : List Frame := []

def Frame.payloads (frame : Frame) : List (List UInt8) := if frame.type = .data then [frame.payload] else []

def StreamReceiver.creditFor (r : StreamReceiver) (frame : Frame) : StreamReceiver :=
  if frame.type = .data then r.credit frame.payload.length else r

/-- `receive`: each payload is handed on and then credited, until the stream is over or one frame is refused. -/
def receive (c : Codec) (r : StreamReceiver) : List Frame → Reception
  | [] => { receiver := r }
  | frame :: rest =>
    let (after, decided) := r.accept c frame
    if decided.ok = false then { receiver := after, outcome := .refusedBecause decided.reason, unread := rest }
    else if decided.finished then
      { receiver := after.creditFor frame, delivered := frame.payloads, unread := rest
        outcome := if frame.type = .ending then .returned after.receivedBytes else .cancelled }
    else
      let later := receive c (after.creditFor frame) rest
      { later with delivered := frame.payloads ++ later.delivered }

variable {c : Codec} {r r' fresh : StreamReceiver} {out out' : Outgoing} {total : Int} {payload : List UInt8}

theorem writeFrame_ok {type : FrameType} : out.writeFrame type payload = .ok out' ↔
    (payload.length ≤ maxFramePayload ∧ out.sequence ≤ maxSequence) ∧
      out' = { out with sequence := out.sequence + 1, written := out.written ++ [⟨type, out.sequence, payload⟩] } := by
  unfold Outgoing.writeFrame encodable
  dsimp only
  by_cases hsize : maxFramePayload < payload.length
  · rw [if_pos hsize]
    constructor
    · intro h
      cases h
    · rintro ⟨⟨hfits, _⟩, _⟩
      exact absurd hsize (Nat.not_lt.mpr hfits)
  · rw [if_neg hsize]
    by_cases hsequence : maxSequence < out.sequence
    · rw [if_pos hsequence]
      constructor
      · intro h
        cases h
      · rintro ⟨⟨_, hfits⟩, _⟩
        exact absurd hsequence (Nat.not_lt.mpr hfits)
    · rw [if_neg hsequence]
      constructor
      · intro h
        cases h
        exact ⟨⟨Nat.not_lt.mp hsize, Nat.not_lt.mp hsequence⟩, rfl⟩
      · rintro ⟨_, rfl⟩
        rfl

section Pieces
variable (size : Nat) (chunk : List UInt8)

theorem flatten_slices (k : Nat) :
    ((List.range k).map fun i => (chunk.drop (i * size)).take size).flatten = chunk.take (k * size) := by
  induction k with
  | zero => simp
  | succ k ih =>
    rw [List.range_succ, List.map_append, List.flatten_append, ih, Nat.succ_mul, List.take_add]
    simp

theorem pieces_flatten (hsize : 0 < size) : (pieces size chunk).flatten = chunk := by
  rw [pieces, flatten_slices]
  apply List.take_of_length_le
  have hdiv := Nat.lt_div_mul_add hsize (a := chunk.length + size - 1)
  omega

theorem pieces_length_le {p : List UInt8} (h : p ∈ pieces size chunk) : p.length ≤ size := by
  obtain ⟨_, _, rfl⟩ := List.mem_map.mp h
  exact List.length_take_le _ _

end Pieces

/-- The receiver's counters are the sender's, and nothing waits to be credited. -/
structure Mirrors (r : StreamReceiver) (out : Outgoing) (total : Int) : Prop where
  declared : r.declaredTotal = some total
  next : r.nextSequence = out.sequence
  window : r.outstanding = 0
  frames : r.dataFrames = out.dataFrames
  bytes : r.receivedBytes = out.sent
  hashed : r.hashed = out.hashed
  live : r.terminal = none

section Receive
variable {frame : Frame} {rest : List Frame}

theorem receive_accepted (h : r.accept c frame = (r', accepted)) :
    receive c r (frame :: rest) =
      { receive c (r'.creditFor frame) rest with
        delivered := frame.payloads ++ (receive c (r'.creditFor frame) rest).delivered } := by
  rw [receive, h]
  rfl

theorem receive_finished (h : r.accept c frame = (r', finished)) :
    receive c r (frame :: rest) =
      { receiver := r'.creditFor frame, delivered := frame.payloads, unread := rest
        outcome := if frame.type = .ending then .returned r'.receivedBytes else .cancelled } := by
  rw [receive, h]
  rfl

/-- What `receive` makes of two stretches of frames, the first of which it waits through. -/
theorem receive_append {xs ys : List Frame} {delivered : List (List UInt8)}
    (h : receive c r xs = { receiver := r', delivered := delivered }) :
    receive c r (xs ++ ys) = { receive c r' ys with delivered := delivered ++ (receive c r' ys).delivered } := by
  induction xs generalizing r delivered with
  | nil =>
    cases h
    rfl
  | cons frame xs ih =>
    rw [List.cons_append]
    simp only [receive] at h ⊢
    by_cases hrefused : (r.accept c frame).2.ok = false
    · rw [if_pos hrefused] at h
      cases h
    rw [if_neg hrefused] at h ⊢
    by_cases hfinished : (r.accept c frame).2.finished = true
    · rw [if_pos hfinished] at h
      injection h with _ _ houtcome
      split_ifs at houtcome
    rw [if_neg hfinished] at h ⊢
    injection h with hreceiver hdelivered houtcome hunread
    have hfirst : receive c ((r.accept c frame).1.creditFor frame) xs =
        { receiver := r', delivered := (receive c ((r.accept c frame).1.creditFor frame) xs).delivered } := by
      rw [← hreceiver, ← houtcome, ← hunread]
    rw [ih hfirst, ← hdelivered, List.append_assoc]

end Receive

variable {frame : Frame}

section Mirrors

theorem accept_let_in (hlive : r.terminal = none) {decided : ReceiverDecision} (hok : decided.ok = true)
    (hdecided : r.decision c frame = (r', decided)) :
    r.accept c frame = ({ r' with
      nextSequence := frame.sequence + 1, terminal := if decided.finished then some decided else r'.terminal }, decided) := by
  rw [StreamReceiver.accept, if_neg (by simp [hlive]), hdecided]
  dsimp only
  rw [if_pos hok]

structure Decided (c : Codec) (r : StreamReceiver) (frame : Frame) (declared : Int) : Prop where
  data : frame.type = .data → r.decision c frame = r.data frame declared
  progress : frame.type = .progress → r.decision c frame = (r, accepted)
  ending : frame.type = .ending → r.decision c frame = (r, r.close c frame)
  broken : frame.type = .cancel ∨ frame.type = .error → r.decision c frame = (r, finished)
  start : frame.type = .start → r.decision c frame = (r, refused .malformed)

theorem decided {declared : Int} (hdeclared : r.declaredTotal = some declared)
    (hsequence : frame.sequence = r.nextSequence) : Decided c r frame declared := by
  have hplace : ¬ frame.sequence ≠ r.nextSequence := not_not.mpr hsequence
  constructor
  · intro htype
    simp only [StreamReceiver.decision, hdeclared, if_neg hplace, htype]
  · intro htype
    simp only [StreamReceiver.decision, hdeclared, if_neg hplace, htype]
  · intro htype
    simp only [StreamReceiver.decision, hdeclared, if_neg hplace, htype]
  · rintro (htype | htype)
    · simp only [StreamReceiver.decision, hdeclared, if_neg hplace, htype]
    · simp only [StreamReceiver.decision, hdeclared, if_neg hplace, htype]
  · intro htype
    simp only [StreamReceiver.decision, hdeclared, if_neg hplace, htype]

theorem Mirrors.decided (h : Mirrors r out total) (frame : Frame) (hsequence : frame.sequence = out.sequence) :
    Decided c r frame total := Sandbox.decided h.declared (hsequence.trans h.next.symm)

theorem Mirrors.data (h : Mirrors r out total) (htotal : (out.sent + payload.length : Int) ≤ total)
    (hsize : payload.length ≤ maxFramePayload) :
    ∃ r', receive c r [⟨.data, out.sequence, payload⟩] = { receiver := r', delivered := [payload] } ∧
      Mirrors r' { out with
        sequence := out.sequence + 1, sent := out.sent + payload.length, dataFrames := out.dataFrames + 1
        hashed := out.hashed ++ payload, written := out.written ++ [⟨.data, out.sequence, payload⟩] } total := by
  have hfits : ¬ total < (r.receivedBytes : Int) + payload.length := by
    rw [h.bytes]
    exact Int.not_lt.mpr htotal
  have hcredit : ¬ receiveCredit < r.outstanding + payload.length := by
    rw [h.window]
    have hless : maxFramePayload ≤ receiveCredit := by decide
    omega
  have hdecided := (h.decided (c := c) ⟨.data, out.sequence, payload⟩ rfl).data rfl
  rw [StreamReceiver.data, if_neg hfits, if_neg hcredit] at hdecided
  have haccept := accept_let_in (c := c) h.live rfl hdecided
  refine ⟨_, receive_accepted haccept, ?_⟩
  constructor
  · exact h.declared
  · rfl
  · show r.outstanding + payload.length - payload.length = 0
    rw [Nat.add_sub_cancel, h.window]
  · exact congrArg (· + 1) h.frames
  · exact congrArg (· + payload.length) h.bytes
  · exact congrArg (· ++ payload) h.hashed
  · exact h.live

theorem Mirrors.progress (h : Mirrors r out total) :
    ∃ r', receive c r [⟨.progress, out.sequence, []⟩] = { receiver := r' } ∧
      Mirrors r' { out with
        sequence := out.sequence + 1, written := out.written ++ [⟨.progress, out.sequence, []⟩] } total := by
  have haccept := accept_let_in (c := c) h.live rfl ((h.decided ⟨.progress, out.sequence, []⟩ rfl).progress rfl)
  exact ⟨_, receive_accepted haccept, h.declared, rfl, h.window, h.frames, h.bytes, h.hashed, h.live⟩

theorem Mirrors.ending (h : Mirrors r out total) {document : Document} (hread : c.document payload = some document)
    (hbytes : document.totalBytes = some (out.sent : Int)) (hframes : document.frameCount = some (out.dataFrames : Int))
    (hdigest : document.sha256 = some (c.digest out.hashed)) :
    ∃ r', receive c r [⟨.ending, out.sequence, payload⟩] = { receiver := r', outcome := .returned out.sent } := by
  have hclose : r.close c ⟨.ending, out.sequence, payload⟩ = finished := by
    obtain ⟨_, bytes, frames, _⟩ := document
    cases hbytes
    cases hframes
    cases hdigest
    rw [StreamReceiver.close, hread]
    dsimp only
    rw [h.bytes, h.frames, h.hashed, if_neg (by simp), if_neg (by simp)]
  have hdecided := (h.decided (c := c) ⟨.ending, out.sequence, payload⟩ rfl).ending rfl
  rw [hclose] at hdecided
  have haccept := accept_let_in (c := c) h.live rfl hdecided
  rw [receive_finished haccept, ← h.bytes]
  exact ⟨_, rfl⟩

end Mirrors

/-- Every frame written so far was let in by a receiver that began as `fresh`, and it handed on what was hashed. -/
structure Follows (c : Codec) (fresh : StreamReceiver) (total : Int) (out : Outgoing) : Prop where
  heard : ∃ r delivered, receive c fresh out.written = { receiver := r, delivered := delivered } ∧
    delivered.flatten = out.hashed ∧ Mirrors r out total
  counted : out.sent = out.hashed.length

section Follows

theorem Follows.piece (h : Follows c fresh total out) (hwritten : out.piece payload = .ok out')
    (htotal : (out.sent + payload.length : Int) ≤ total) :
    Follows c fresh total out' ∧ out'.hashed = out.hashed ++ payload ∧ out'.dataFrames = out.dataFrames + 1 := by
  obtain ⟨_, hframe, hafter⟩ := Fallible.bind_ok.mp hwritten
  obtain ⟨⟨hsize, _⟩, rfl⟩ := writeFrame_ok.mp hframe
  cases hafter
  obtain ⟨_, delivered, hheard, hflatten, hmirrors⟩ := h.heard
  obtain ⟨r', hreceive, hmirrors'⟩ := hmirrors.data (c := c) htotal hsize
  refine ⟨⟨⟨r', delivered ++ [payload], ?_, ?_, hmirrors'⟩, ?_⟩, rfl, rfl⟩
  · rw [receive_append hheard, hreceive]
  · rw [List.flatten_append, hflatten]
    simp
  · rw [List.length_append, ← h.counted]

theorem Follows.pieces {ps : List (List UInt8)} (h : Follows c fresh total out)
    (hwritten : ps.foldlM Outgoing.piece out = .ok out')
    (htotal : (out.hashed.length + ps.flatten.length : Int) ≤ total) :
    Follows c fresh total out' ∧ out'.hashed = out.hashed ++ ps.flatten ∧ out'.dataFrames = out.dataFrames + ps.length := by
  induction ps generalizing out with
  | nil =>
    cases hwritten
    exact ⟨h, (List.append_nil _).symm, rfl⟩
  | cons p ps ih =>
    obtain ⟨next, hpiece, hrest⟩ := Fallible.foldlM_cons_ok.mp hwritten
    rw [List.flatten_cons, List.length_append] at htotal
    have hfirst : (out.sent + p.length : Int) ≤ total := by
      rw [h.counted]
      omega
    obtain ⟨hfollows, hhashed, hframes⟩ := h.piece hpiece hfirst
    have hlater : (next.hashed.length + ps.flatten.length : Int) ≤ total := by
      rw [hhashed, List.length_append]
      omega
    obtain ⟨hfollows', hhashed', hframes'⟩ := ih hfollows hrest hlater
    refine ⟨hfollows', ?_, ?_⟩
    · rw [hhashed', hhashed, List.flatten_cons, List.append_assoc]
    · rw [hframes', hframes, List.length_cons]
      omega

theorem Follows.chunk {bytes : List UInt8} (h : Follows c fresh total out) (hwritten : out.chunk bytes = .ok out')
    (htotal : (out.hashed.length + bytes.length : Int) ≤ total) :
    Follows c fresh total out' ∧ out'.hashed = out.hashed ++ bytes ∧
      out'.dataFrames = out.dataFrames + (Sandbox.pieces maxFramePayload bytes).length := by
  have hflatten := pieces_flatten maxFramePayload bytes (by decide)
  have hpieces := h.pieces hwritten (by rw [hflatten]; exact htotal)
  rw [hflatten] at hpieces
  exact hpieces

theorem Follows.progress (h : Follows c fresh total out) (hwritten : out.writeFrame .progress [] = .ok out') :
    Follows c fresh total out' ∧ out'.hashed = out.hashed ∧ out'.dataFrames = out.dataFrames := by
  obtain ⟨_, rfl⟩ := writeFrame_ok.mp hwritten
  obtain ⟨_, delivered, hheard, hflatten, hmirrors⟩ := h.heard
  obtain ⟨r', hreceive, hmirrors'⟩ := hmirrors.progress (c := c)
  refine ⟨⟨⟨r', delivered, ?_, hflatten, hmirrors'⟩, h.counted⟩, rfl, rfl⟩
  rw [receive_append hheard, hreceive, List.append_nil]

/-- The `START` frame opens a fresh receiver whose limit is no smaller than the declared total. -/
theorem follows_start {limit : Int} (hlimit : 0 < limit) (hnonneg : 0 ≤ total) (hwithin : total ≤ limit)
    (hread : c.document (startPayload total) = some { totalLimit := some total })
    (hwritten : Outgoing.writeFrame {} .start (startPayload total) = .ok out) :
    Follows c { limit := limit, limit_pos := hlimit } total out ∧ out.hashed = [] ∧ out.dataFrames = 0 := by
  obtain ⟨_, rfl⟩ := writeFrame_ok.mp hwritten
  have hopen : StreamReceiver.open_ c { limit := limit, limit_pos := hlimit } ⟨.start, 0, startPayload total⟩ =
      ({ limit := limit, limit_pos := hlimit, declaredTotal := some total }, accepted) := by
    rw [StreamReceiver.open_, if_neg (by simp), hread, Option.bind_some]
    dsimp only
    rw [if_neg (Int.not_lt.mpr hnonneg), if_neg (Int.not_lt.mpr hwithin)]
  have haccept : StreamReceiver.accept c { limit := limit, limit_pos := hlimit } ⟨.start, 0, startPayload total⟩ =
      ({ limit := limit, limit_pos := hlimit, declaredTotal := some total, nextSequence := 1 }, accepted) := by
    rw [StreamReceiver.accept, if_neg (by simp), StreamReceiver.decision]
    dsimp only
    rw [hopen]
    rfl
  exact ⟨⟨⟨_, [], receive_accepted haccept, rfl, rfl, rfl, rfl, rfl, rfl, rfl, rfl⟩, rfl⟩, rfl, rfl⟩

/-- The `END` frame, read as it was written, brings the receiving loop to its return. -/
theorem Follows.ending {bytes : List UInt8} {frames : Nat} (h : Follows c fresh total out) (hbytes : out.hashed = bytes)
    (hframes : out.dataFrames = frames)
    (hread : c.document (endPayload bytes.length frames (c.digest bytes)) = some
      { totalBytes := some bytes.length, frameCount := some frames, sha256 := some (c.digest bytes) })
    (hwritten : out.ending c.digest = .ok out') :
    ∃ r delivered, receive c fresh out'.written =
      { receiver := r, delivered := delivered, outcome := .returned bytes.length } ∧ delivered.flatten = bytes := by
  subst hbytes hframes
  obtain ⟨_, rfl⟩ := writeFrame_ok.mp hwritten
  obtain ⟨_, delivered, hheard, hflatten, hmirrors⟩ := h.heard
  rw [← h.counted] at hread
  obtain ⟨r', hreceive⟩ := hmirrors.ending hread rfl rfl rfl
  refine ⟨r', delivered, ?_, hflatten⟩
  rw [receive_append hheard, hreceive, List.append_nil, h.counted]

end Follows

section Room

theorem pieces_return {ps : List (List UInt8)} (hsize : ∀ p ∈ ps, p.length ≤ maxFramePayload)
    (hroom : out.sequence + ps.length ≤ maxSequence + 1) :
    ∃ out', ps.foldlM Outgoing.piece out = .ok out' ∧ out'.sequence = out.sequence + ps.length := by
  induction ps generalizing out with
  | nil => exact ⟨out, rfl, rfl⟩
  | cons p ps ih =>
    rw [List.length_cons] at hroom
    have hframe : out.writeFrame .data p = .ok _ :=
      writeFrame_ok.mpr ⟨⟨hsize p List.mem_cons_self, by omega⟩, rfl⟩
    obtain ⟨next, hpiece, hnext⟩ : ∃ next, out.piece p = .ok next ∧ next.sequence = out.sequence + 1 :=
      ⟨_, Fallible.bind_ok.mpr ⟨_, hframe, rfl⟩, rfl⟩
    obtain ⟨last, hrest, hsequence⟩ :=
      ih (fun q hq => hsize q (List.mem_cons_of_mem _ hq)) (by rw [hnext]; omega)
    refine ⟨last, Fallible.foldlM_cons_ok.mpr ⟨next, hpiece, hrest⟩, ?_⟩
    rw [hsequence, hnext, List.length_cons]
    omega

theorem chunk_returns (bytes : List UInt8) (hroom : out.sequence + (pieces maxFramePayload bytes).length ≤ maxSequence + 1) :
    ∃ out', out.chunk bytes = .ok out' ∧ out'.sequence = out.sequence + (pieces maxFramePayload bytes).length :=
  pieces_return (fun _ hp => pieces_length_le _ _ hp) hroom

theorem progress_returns (hroom : out.sequence ≤ maxSequence) :
    ∃ out', out.writeFrame .progress [] = .ok out' ∧ out'.sequence = out.sequence + 1 :=
  ⟨_, writeFrame_ok.mpr ⟨⟨Nat.zero_le _, hroom⟩, rfl⟩, rfl⟩

end Room

section Server
variable {s s' : ServerStream} {call : SendCall} {calls : List SendCall}

theorem call_follows (h : Follows c fresh total s.toOutgoing) (hsending : s.sending = true) (hcall : s.call call = .ok s')
    (htotal : (s.hashed.length + call.bytes.length : Int) ≤ total) :
    Follows c fresh total s'.toOutgoing ∧ s'.sending = true ∧ s'.hashed = s.hashed ++ call.bytes ∧
      s'.dataFrames = s.dataFrames + call.dataFrames := by
  cases call with
  | push =>
    obtain ⟨out, hchunk, hafter⟩ := Fallible.bind_ok.mp hcall
    cases hafter
    obtain ⟨hfollows, hhashed, hframes⟩ := h.chunk hchunk htotal
    exact ⟨hfollows, hsending, hhashed, hframes⟩
  | progress =>
    simp only [ServerStream.call, ServerStream.progress, if_pos hsending] at hcall
    obtain ⟨_, hframe, hafter⟩ := Fallible.bind_ok.mp hcall
    cases hafter
    obtain ⟨hfollows, hhashed, hframes⟩ := h.progress hframe
    exact ⟨hfollows, hsending, hhashed.trans (List.append_nil _).symm, hframes⟩

theorem calls_follow (h : Follows c fresh total s.toOutgoing) (hsending : s.sending = true)
    (hcalls : calls.foldlM ServerStream.call s = .ok s')
    (htotal : (s.hashed.length + (calls.flatMap (·.bytes)).length : Int) ≤ total) :
    Follows c fresh total s'.toOutgoing ∧ s'.hashed = s.hashed ++ calls.flatMap (·.bytes) ∧
      s'.dataFrames = s.dataFrames + (calls.map (·.dataFrames)).sum := by
  induction calls generalizing s with
  | nil =>
    cases hcalls
    exact ⟨h, (List.append_nil _).symm, rfl⟩
  | cons call calls ih =>
    obtain ⟨next, hcall, hrest⟩ := Fallible.foldlM_cons_ok.mp hcalls
    rw [List.flatMap_cons, List.length_append] at htotal
    obtain ⟨hfollows, hnext, hhashed, hframes⟩ := call_follows h hsending hcall (by omega)
    have hlater : (next.hashed.length + (calls.flatMap (·.bytes)).length : Int) ≤ total := by
      rw [hhashed, List.length_append]
      omega
    obtain ⟨hfollows', hhashed', hframes'⟩ := ih hfollows hnext hrest hlater
    refine ⟨hfollows', ?_, ?_⟩
    · rw [hhashed', hhashed, List.flatMap_cons, List.append_assoc]
    · rw [hframes', hframes, List.map_cons, List.sum_cons, Nat.add_assoc]

theorem calls_return (hsending : s.sending = true)
    (hroom : s.sequence + (calls.map (·.frames)).sum ≤ maxSequence + 1) :
    ∃ s', calls.foldlM ServerStream.call s = .ok s' ∧ s'.sequence = s.sequence + (calls.map (·.frames)).sum := by
  induction calls generalizing s with
  | nil => exact ⟨s, rfl, rfl⟩
  | cons call calls ih =>
    rw [List.map_cons, List.sum_cons] at hroom ⊢
    obtain ⟨next, hcall, hnext, hsequence⟩ : ∃ next, s.call call = .ok next ∧ next.sending = true ∧
        next.sequence = s.sequence + call.frames := by
      cases call with
      | push bytes =>
        obtain ⟨out, hchunk, hsequence⟩ := chunk_returns bytes
          ((Nat.add_le_add_left (Nat.le_add_right _ _) _).trans hroom)
        exact ⟨_, Fallible.bind_ok.mpr ⟨out, hchunk, rfl⟩, hsending, hsequence⟩
      | progress =>
        simp only [SendCall.frames] at hroom
        obtain ⟨out, hframe, hsequence⟩ := progress_returns (by omega : s.sequence ≤ maxSequence)
        refine ⟨{ out with sending := s.sending }, ?_, hsending, hsequence⟩
        rw [ServerStream.call, ServerStream.progress, if_pos hsending]
        exact Fallible.bind_ok.mpr ⟨out, hframe, rfl⟩
    obtain ⟨last, hrest, hlast⟩ := ih hnext (by rw [hsequence]; omega)
    refine ⟨last, Fallible.foldlM_cons_ok.mpr ⟨next, hcall, hrest⟩, ?_⟩
    rw [hlast, hsequence, Nat.add_assoc]

end Server

def takenUp (chunks : List UploadChunk) : List UploadChunk := chunks.takeWhile fun chunk => !chunk.answered

def uploadFrames (chunks : List UploadChunk) : Nat :=
  ((takenUp chunks).map fun chunk => (pieces maxFramePayload chunk.bytes).length).sum

section Client
variable {chunks : List UploadChunk}

theorem sendChunks_follows {final : Bool} (h : Follows c fresh total out)
    (hsent : ControllerClient.sendChunks out chunks = .ok (out', final))
    (htotal : (out.hashed.length + ((takenUp chunks).flatMap (·.bytes)).length : Int) ≤ total) :
    Follows c fresh total out' ∧ out'.hashed = out.hashed ++ (takenUp chunks).flatMap (·.bytes) ∧
      out'.dataFrames = out.dataFrames + uploadFrames chunks ∧ final = chunks.any (·.answered) := by
  induction chunks generalizing out with
  | nil =>
    cases hsent
    exact ⟨h, (List.append_nil _).symm, rfl, rfl⟩
  | cons chunk chunks ih =>
    cases hanswered : chunk.answered with
    | true =>
      simp only [ControllerClient.sendChunks, if_pos hanswered] at hsent
      cases hsent
      simp [takenUp, uploadFrames, hanswered, h]
    | false =>
      simp only [ControllerClient.sendChunks, hanswered, Bool.false_eq_true, if_false] at hsent
      have htaken : takenUp (chunk :: chunks) = chunk :: takenUp chunks := by
        simp [takenUp, hanswered]
      have hframes : uploadFrames (chunk :: chunks) =
          (pieces maxFramePayload chunk.bytes).length + uploadFrames chunks := by
        rw [uploadFrames, htaken]
        rfl
      rw [htaken, List.flatMap_cons, List.length_append] at htotal
      obtain ⟨next, hchunk, hrest⟩ := Fallible.bind_ok.mp hsent
      obtain ⟨hfollows, hhashed, hcount⟩ := h.chunk hchunk (by omega)
      have hlater : (next.hashed.length + ((takenUp chunks).flatMap (·.bytes)).length : Int) ≤ total := by
        rw [hhashed, List.length_append]
        omega
      obtain ⟨hfollows', hhashed', hcount', hfinal⟩ := ih hfollows hrest hlater
      refine ⟨hfollows', ?_, ?_, ?_⟩
      · rw [hhashed', hhashed, htaken, List.flatMap_cons, List.append_assoc]
      · rw [hcount', hcount, hframes, Nat.add_assoc]
      · rw [hfinal, List.any_cons, hanswered, Bool.false_or]

theorem sendChunks_return {out : Outgoing} (hroom : out.sequence + uploadFrames chunks ≤ maxSequence + 1) :
    ∃ out' final, ControllerClient.sendChunks out chunks = .ok (out', final) ∧
      out'.sequence = out.sequence + uploadFrames chunks := by
  induction chunks generalizing out with
  | nil => exact ⟨out, false, rfl, rfl⟩
  | cons chunk chunks ih =>
    cases hanswered : chunk.answered with
    | true =>
      refine ⟨out, true, ?_, ?_⟩
      · rw [ControllerClient.sendChunks, if_pos hanswered]
      · simp [uploadFrames, takenUp, hanswered]
    | false =>
      have hframes : uploadFrames (chunk :: chunks) =
          (pieces maxFramePayload chunk.bytes).length + uploadFrames chunks := by
        simp [uploadFrames, takenUp, hanswered]
      rw [hframes] at hroom
      obtain ⟨next, hchunk, hsequence⟩ := chunk_returns chunk.bytes (by omega : out.sequence + _ ≤ _)
      have hlater : next.sequence + uploadFrames chunks ≤ maxSequence + 1 := by
        rw [hsequence]
        omega
      obtain ⟨last, final, hrest, hlast⟩ := ih hlater
      refine ⟨last, final, ?_, ?_⟩
      · rw [ControllerClient.sendChunks, if_neg (by simp [hanswered])]
        exact Fallible.bind_ok.mpr ⟨next, hchunk, hrest⟩
      · rw [hlast, hsequence, hframes, Nat.add_assoc]

end Client

inductive Taken (c : Codec) (r : StreamReceiver) (frame : Frame) : StreamReceiver → ReceiverDecision → Prop
  | closed (h : r.terminal.isSome = true) : Taken c r frame r (refused .dataAfterEnd)
  | broken (hlive : r.terminal = none) (reason : StreamRefusal) (hreason : reason ≠ .creditExceeded) :
      Taken c r frame { r with terminal := some (refused reason) } (refused reason)
  | full (hlive : r.terminal = none) : Taken c r frame r (refused .creditExceeded)
  | opened (hlive : r.terminal = none) (hnew : r.declaredTotal = none) (htype : frame.type = .start) (total : Int)
      (htotal : (c.document frame.payload).bind (·.totalLimit) = some total) (hlimit : total ≤ r.limit) (hnonneg : 0 ≤ total) :
      Taken c r frame { r with declaredTotal := some total, nextSequence := frame.sequence + 1 } accepted
  | data (hlive : r.terminal = none) (htype : frame.type = .data) (declared : Int) (hdeclared : r.declaredTotal = some declared)
      (hfits : (r.receivedBytes + frame.payload.length : Int) ≤ declared) :
      Taken c r frame
        { r with
          receivedBytes := r.receivedBytes + frame.payload.length, outstanding := r.outstanding + frame.payload.length
          dataFrames := r.dataFrames + 1, hashed := r.hashed ++ frame.payload, nextSequence := frame.sequence + 1 } accepted
  | progress (hlive : r.terminal = none) (htype : frame.type = .progress) :
      Taken c r frame { r with nextSequence := frame.sequence + 1 } accepted
  | ended (hlive : r.terminal = none) (htype : frame.type ≠ .data ∧ frame.type ≠ .start)
      (hclose : frame.type = .ending → r.close c frame = finished) :
      Taken c r frame { r with nextSequence := frame.sequence + 1, terminal := some finished } finished

section Taken
variable {frame : Frame}

theorem accept_refused (hlive : r.terminal = none) {reason : StreamRefusal} (hreason : reason ≠ .creditExceeded)
    (hdecided : r.decision c frame = (r, refused reason)) :
    Taken c r frame (r.accept c frame).1 (r.accept c frame).2 := by
  have hnot : ¬ (refused reason).ok = true := Bool.false_ne_true
  have hterminal : (refused reason).reason ≠ some .creditExceeded := fun h => hreason (Option.some.inj h)
  have haccept : r.accept c frame = ({ r with terminal := some (refused reason) }, refused reason) := by
    rw [StreamReceiver.accept, if_neg (by simp [hlive]), hdecided]
    dsimp only
    rw [if_neg hnot, if_pos hterminal]
  rw [haccept]
  exact .broken hlive reason hreason

theorem open_taken (hlive : r.terminal = none) (hnew : r.declaredTotal = none) :
    Taken c r frame (r.accept c frame).1 (r.accept c frame).2 := by
  have hdecision : r.decision c frame = r.open_ c frame := by
    rw [StreamReceiver.decision, hnew]
  rw [StreamReceiver.open_] at hdecision
  by_cases hfirst : frame.type ≠ .start ∨ frame.sequence ≠ 0
  · rw [if_pos hfirst] at hdecision
    exact accept_refused hlive (by decide) hdecision
  rw [if_neg hfirst] at hdecision
  cases htotal : (c.document frame.payload).bind (·.totalLimit) with
  | none =>
    rw [htotal] at hdecision
    exact accept_refused hlive (by decide) hdecision
  | some total =>
    rw [htotal] at hdecision
    dsimp only at hdecision
    by_cases hneg : total < 0
    · rw [if_pos hneg] at hdecision
      exact accept_refused hlive (by decide) hdecision
    rw [if_neg hneg] at hdecision
    by_cases hover : r.limit < total
    · rw [if_pos hover] at hdecision
      exact accept_refused hlive (by decide) hdecision
    rw [if_neg hover] at hdecision
    rw [accept_let_in hlive rfl hdecision]
    rw [not_or, not_not, not_not] at hfirst
    have hopened := Taken.opened (c := c) hlive hnew hfirst.1 total htotal (Int.not_lt.mp hover) (Int.not_lt.mp hneg)
    simpa [accepted, hlive] using hopened

theorem close_taken (hlive : r.terminal = none) (htype : frame.type = .ending)
    (hdecision : r.decision c frame = (r, r.close c frame)) :
    Taken c r frame (r.accept c frame).1 (r.accept c frame).2 := by
  have hclose : r.close c frame = finished ∨ ∃ reason, reason ≠ .creditExceeded ∧ r.close c frame = refused reason := by
    unfold StreamReceiver.close
    split
    · split_ifs
      · exact .inr ⟨.totalMismatch, by decide, rfl⟩
      · exact .inr ⟨.digestMismatch, by decide, rfl⟩
      · exact .inl rfl
    · exact .inr ⟨.malformed, by decide, rfl⟩
  obtain hfinished | ⟨_, hreason, hrefused⟩ := hclose
  · rw [hfinished] at hdecision
    rw [accept_let_in hlive rfl hdecision]
    exact .ended hlive (by rw [htype]; decide) fun _ => hfinished
  · rw [hrefused] at hdecision
    exact accept_refused hlive hreason hdecision

/-- `accept` does one of these. -/
theorem accept_taken (c : Codec) (r : StreamReceiver) (frame : Frame) : Taken c r frame (r.accept c frame).1 (r.accept c frame).2 := by
  by_cases hover : r.terminal.isSome = true
  · rw [StreamReceiver.accept, if_pos hover]
    exact .closed hover
  have hlive : r.terminal = none := Option.not_isSome_iff_eq_none.mp hover
  cases hdeclared : r.declaredTotal with
  | none => exact open_taken hlive hdeclared
  | some declared =>
    by_cases hsequence : frame.sequence ≠ r.nextSequence
    · have hdecision : r.decision c frame = (r, refused .sequenceGap) := by
        rw [StreamReceiver.decision, hdeclared]
        dsimp only
        rw [if_pos hsequence]
      exact accept_refused hlive (by decide) hdecision
    have hdecided := decided (c := c) hdeclared (not_not.mp hsequence)
    cases htype : frame.type with
    | start => exact accept_refused hlive (by decide) (hdecided.start htype)
    | data =>
      have hdecision := hdecided.data htype
      rw [StreamReceiver.data] at hdecision
      by_cases hfits : declared < r.receivedBytes + frame.payload.length
      · rw [if_pos hfits] at hdecision
        exact accept_refused hlive (by decide) hdecision
      rw [if_neg hfits] at hdecision
      by_cases hcredit : receiveCredit < r.outstanding + frame.payload.length
      · rw [if_pos hcredit] at hdecision
        have haccept : r.accept c frame = (r, refused .creditExceeded) := by
          rw [StreamReceiver.accept, if_neg hover, hdecision]
          rfl
        rw [haccept]
        exact .full hlive
      rw [if_neg hcredit] at hdecision
      rw [accept_let_in hlive rfl hdecision]
      exact .data hlive htype declared hdeclared (Int.not_lt.mp hfits)
    | progress =>
      rw [accept_let_in hlive rfl (hdecided.progress htype)]
      exact .progress hlive htype
    | ending => exact close_taken hlive htype (hdecided.ending htype)
    | cancel =>
      rw [accept_let_in hlive rfl (hdecided.broken (.inl htype))]
      exact .ended hlive (by rw [htype]; decide) (by rw [htype]; rintro ⟨⟩)
    | error =>
      rw [accept_let_in hlive rfl (hdecided.broken (.inr htype))]
      exact .ended hlive (by rw [htype]; decide) (by rw [htype]; rintro ⟨⟩)

end Taken

/-- What a receiver is told: a frame, or that its consumer took bytes. -/
inductive Signal where
  | frame (frame : Frame)
  | credit (consumed : Nat)

/-- The frames a receiver was given and what it answered. -/
abbrev Transcript := List (Frame × ReceiverDecision)

def hearOne (c : Codec) (h : StreamReceiver × Transcript) : Signal → StreamReceiver × Transcript
  | .frame frame => ((h.1.accept c frame).1, h.2 ++ [(frame, (h.1.accept c frame).2)])
  | .credit consumed => (h.1.credit consumed, h.2)

def hear (c : Codec) (r : StreamReceiver) (signals : List Signal) : StreamReceiver × Transcript :=
  signals.foldl (hearOne c) (r, [])

namespace Transcript

def payloads (heard : Transcript) : List (List UInt8) := (heard.filter (·.2.ok)).flatMap (·.1.payloads)

/-- A total that an accepted `START` declared. -/
def Declares (c : Codec) (heard : Transcript) (total : Int) : Prop :=
  ∃ e ∈ heard, e.1.type = .start ∧ e.2.ok = true ∧ (c.document e.1.payload).bind (·.totalLimit) = some total

/-- The stream is over: it ended or was broken off, or a frame was refused for good. -/
def Over (heard : Transcript) : Prop :=
  ∃ e ∈ heard, e.2.finished = true ∨ e.2.ok = false ∧ e.2.reason ≠ some .creditExceeded

variable {heard : Transcript} {frame : Frame} {decided : ReceiverDecision}

theorem payloads_snoc : payloads (heard ++ [(frame, decided)]) =
    payloads heard ++ if decided.ok then frame.payloads else [] := by
  rw [payloads, List.filter_append, List.flatMap_append, ← payloads]
  cases hok : decided.ok <;> simp [hok]

theorem declares_snoc : Declares c (heard ++ [(frame, decided)]) total ↔ Declares c heard total ∨
    (frame.type = .start ∧ decided.ok = true ∧ (c.document frame.payload).bind (·.totalLimit) = some total) := by
  constructor
  · rintro ⟨e, he, hstart⟩
    obtain he | he := List.mem_append.mp he
    · exact .inl ⟨e, he, hstart⟩
    · rw [List.mem_singleton] at he
      subst he
      exact .inr hstart
  · rintro (⟨e, he, hstart⟩ | hstart)
    · exact ⟨e, List.mem_append_left _ he, hstart⟩
    · exact ⟨(frame, decided), List.mem_append_right _ List.mem_cons_self, hstart⟩

theorem over_snoc : Over (heard ++ [(frame, decided)]) ↔ Over heard ∨
    (decided.finished = true ∨ decided.ok = false ∧ decided.reason ≠ some .creditExceeded) := by
  constructor
  · rintro ⟨e, he, hover⟩
    obtain he | he := List.mem_append.mp he
    · exact .inl ⟨e, he, hover⟩
    · rw [List.mem_singleton] at he
      subst he
      exact .inr hover
  · rintro (⟨e, he, hover⟩ | hover)
    · exact ⟨e, List.mem_append_left _ he, hover⟩
    · exact ⟨(frame, decided), List.mem_append_right _ List.mem_cons_self, hover⟩

end Transcript

structure Accounts (c : Codec) (limit : Int) (r : StreamReceiver) (heard : Transcript) : Prop where
  limited : r.limit = limit
  bytes : r.receivedBytes = heard.payloads.flatten.length
  frames : r.dataFrames = heard.payloads.length
  hashed : r.hashed = heard.payloads.flatten
  declares : ∀ total, heard.Declares c total ↔ r.declaredTotal = some total
  within : ∀ total, r.declaredTotal = some total → total ≤ limit ∧ (heard.payloads.flatten.length : Int) ≤ total
  new : r.declaredTotal = none → heard.payloads = []
  ended : heard.Over → r.terminal.isSome = true

section Accounts
variable {limit : Int} {heard : Transcript} {frame : Frame}

theorem Accounts.beside {decided : ReceiverDecision} (h : Accounts c limit r heard) (hlimit : r'.limit = r.limit)
    (hbytes : r'.receivedBytes = r.receivedBytes) (hframes : r'.dataFrames = r.dataFrames) (hhashed : r'.hashed = r.hashed)
    (hdeclared : r'.declaredTotal = r.declaredTotal) (hstart : decided.ok = true → frame.type ≠ .start)
    (hdata : decided.ok = true → frame.type ≠ .data) (hterminal : r.terminal.isSome = true → r'.terminal.isSome = true)
    (hover : decided.finished = true ∨ decided.ok = false ∧ decided.reason ≠ some .creditExceeded → r'.terminal.isSome = true) :
    Accounts c limit r' (heard ++ [(frame, decided)]) := by
  have hpayloads : Transcript.payloads (heard ++ [(frame, decided)]) = heard.payloads := by
    rw [Transcript.payloads_snoc]
    cases hok : decided.ok with
    | false => simp
    | true => simp [Frame.payloads, hdata hok]
  constructor
  · rw [hlimit, h.limited]
  · rw [hbytes, hpayloads, h.bytes]
  · rw [hframes, hpayloads, h.frames]
  · rw [hhashed, hpayloads, h.hashed]
  · intro total
    rw [Transcript.declares_snoc, hdeclared, ← h.declares total]
    constructor
    · rintro (hbefore | ⟨htype, hok, _⟩)
      · exact hbefore
      · exact absurd htype (hstart hok)
    · exact .inl
  · rw [hdeclared, hpayloads]
    exact h.within
  · rw [hdeclared, hpayloads]
    exact h.new
  · rw [Transcript.over_snoc]
    rintro (hbefore | hnow)
    · exact hterminal (h.ended hbefore)
    · exact hover hnow

theorem Accounts.accept (h : Accounts c limit r heard) :
    Accounts c limit (r.accept c frame).1 (heard ++ [(frame, (r.accept c frame).2)]) := by
  have htaken := accept_taken c r frame
  generalize (r.accept c frame).1 = after at htaken ⊢
  generalize (r.accept c frame).2 = decided at htaken ⊢
  cases htaken with
  | closed hover => exact h.beside rfl rfl rfl rfl rfl (by rintro ⟨⟩) (by rintro ⟨⟩) id fun _ => hover
  | broken =>
    exact h.beside rfl rfl rfl rfl rfl (by rintro ⟨⟩) (by rintro ⟨⟩) (fun _ => rfl) fun _ => rfl
  | full =>
    refine h.beside rfl rfl rfl rfl rfl (by rintro ⟨⟩) (by rintro ⟨⟩) id ?_
    rintro (hfinished | ⟨_, hreason⟩)
    · cases hfinished
    · exact absurd rfl hreason
  | progress hlive htype =>
    refine h.beside rfl rfl rfl rfl rfl (fun _ => by rw [htype]; decide) (fun _ => by rw [htype]; decide) id ?_
    rintro (hfinished | ⟨hok, _⟩)
    · cases hfinished
    · cases hok
  | ended _ htype =>
    exact h.beside rfl rfl rfl rfl rfl (fun _ => htype.2) (fun _ => htype.1) (fun _ => rfl) fun _ => rfl
  | opened hlive hnew htype total htotal hlimit hnonneg =>
    have hpayloads : Transcript.payloads (heard ++ [(frame, accepted)]) = [] := by
      rw [Transcript.payloads_snoc, h.new hnew]
      simp [Frame.payloads, htype]
    have hempty := h.new hnew
    constructor
    · exact h.limited
    · rw [hpayloads, ← hempty]
      exact h.bytes
    · rw [hpayloads, ← hempty]
      exact h.frames
    · rw [hpayloads, ← hempty]
      exact h.hashed
    · intro declared
      rw [Transcript.declares_snoc, h.declares, hnew, htotal]
      simp [htype, accepted]
    · intro declared hdeclared
      cases hdeclared
      rw [hpayloads]
      exact ⟨by rw [← h.limited]; exact hlimit, hnonneg⟩
    · rintro ⟨⟩
    · rw [Transcript.over_snoc]
      rintro (hbefore | hnow)
      · exact h.ended hbefore
      · simp [accepted] at hnow
  | data hlive htype declared hdeclared hfits =>
    have hpayloads : Transcript.payloads (heard ++ [(frame, accepted)]) = heard.payloads ++ [frame.payload] := by
      rw [Transcript.payloads_snoc]
      simp [Frame.payloads, htype, accepted]
    have hflatten : (Transcript.payloads (heard ++ [(frame, accepted)])).flatten = heard.payloads.flatten ++ frame.payload := by
      rw [hpayloads, List.flatten_append]
      simp
    constructor
    · exact h.limited
    · rw [hflatten, List.length_append, ← h.bytes]
    · rw [hpayloads, List.length_append, ← h.frames]
      rfl
    · rw [hflatten, ← h.hashed]
    · intro total
      rw [Transcript.declares_snoc, h.declares, htype]
      simp
    · intro _ htotal
      cases hdeclared.symm.trans htotal
      refine ⟨(h.within declared hdeclared).1, ?_⟩
      rw [hflatten, List.length_append, ← h.bytes]
      exact hfits
    · intro hnone
      cases hdeclared.symm.trans hnone
    · rw [Transcript.over_snoc]
      rintro (hbefore | hnow)
      · exact h.ended hbefore
      · simp [accepted] at hnow

theorem hearOne_accounts {signal : Signal} {h : StreamReceiver × Transcript} (haccounts : Accounts c limit h.1 h.2) :
    Accounts c limit (hearOne c h signal).1 (hearOne c h signal).2 := by
  cases signal with
  | frame => exact haccounts.accept
  | credit =>
    obtain ⟨hlimited, hbytes, hframes, hhashed, hdeclares, hwithin, hnew, hended⟩ := haccounts
    exact ⟨hlimited, hbytes, hframes, hhashed, hdeclares, hwithin, hnew, hended⟩

theorem hear_accounts (hlimit : 0 < limit) (signals : List Signal) :
    Accounts c limit (hear c { limit := limit, limit_pos := hlimit } signals).1
      (hear c { limit := limit, limit_pos := hlimit } signals).2 := by
  have hfresh : Accounts c limit { limit := limit, limit_pos := hlimit } [] := by
    constructor <;> simp [Transcript.payloads, Transcript.Declares, Transcript.Over]
  suffices h : ∀ start : StreamReceiver × Transcript, Accounts c limit start.1 start.2 →
      Accounts c limit (signals.foldl (hearOne c) start).1 (signals.foldl (hearOne c) start).2 from h _ hfresh
  induction signals with
  | nil => exact fun _ h => h
  | cons signal rest ih => exact fun start h => ih _ (hearOne_accounts h)

end Accounts

theorem close_finished (h : r.close c frame = finished) :
    ∃ document, c.document frame.payload = some document ∧ document.totalBytes = some (r.receivedBytes : Int) ∧
      document.frameCount = some (r.dataFrames : Int) ∧ document.sha256 = some (c.digest r.hashed) := by
  unfold StreamReceiver.close at h
  split at h
  · next limit total count digest hdocument =>
    split_ifs at h with htotals hdigest
    · cases h
    · cases h
    rw [not_or, not_not, not_not] at htotals
    rw [not_not] at hdigest
    exact ⟨_, hdocument, congrArg some htotals.1, congrArg some htotals.2, congrArg some hdigest⟩
  · cases h

/-- An `END` is let in only of a live stream and after a look at its totals. -/
theorem accept_ending (htype : frame.type = .ending) (h : (r.accept c frame).2.finished = true) :
    r.close c frame = finished := by
  have htaken := accept_taken c r frame
  generalize (r.accept c frame).1 = after at htaken
  generalize (r.accept c frame).2 = decided at htaken h
  cases htaken with
  | ended _ _ hclose => exact hclose htype
  | _ => cases h

theorem accept_closed (h : r.terminal.isSome = true) : r.accept c frame = (r, refused .dataAfterEnd) := by
  rw [StreamReceiver.accept, if_pos h]

theorem accept_full (h : (r.accept c frame).2 = refused .creditExceeded) : (r.accept c frame).1 = r := by
  have htaken := accept_taken c r frame
  generalize (r.accept c frame).1 = after at htaken ⊢
  generalize (r.accept c frame).2 = decided at htaken h
  cases htaken with
  | closed | full => rfl
  | broken _ reason hreason =>
    cases h
    exact absurd rfl hreason
  | _ => cases h

/-- `json.loads` reads of the two documents of a stream what `json.dumps` wrote. -/
structure Codec.ReadsBack (c : Codec) (total : Int) (bytes : List UInt8) (frames : Nat) : Prop where
  start : c.document (startPayload total) = some { totalLimit := some total }
  ending : c.document (endPayload bytes.length frames (c.digest bytes)) = some
    { totalBytes := some bytes.length, frameCount := some frames, sha256 := some (c.digest bytes) }

/-- A fresh receiver takes all of these frames, the bytes it hands on are these, and this is how far it came. -/
def Arrives (c : Codec) {limit : Int} (hlimit : 0 < limit) (written : List Frame) (bytes : List UInt8) (outcome : Outcome) : Prop :=
  ∃ r delivered, receive c { limit := limit, limit_pos := hlimit } written =
    { receiver := r, delivered := delivered, outcome := outcome } ∧ delivered.flatten = bytes

/-- The frames of a stream are within what one frame holds and a sequence number counts. -/
structure Writable (c : Codec) (total : Int) (bytes : List UInt8) (dataFrames frames : Nat) : Prop where
  start : (startPayload total).length ≤ maxFramePayload
  ending : (endPayload bytes.length dataFrames (c.digest bytes)).length ≤ maxFramePayload
  sequence : frames + 1 ≤ maxSequence

section Exact
variable {limit : Int}

theorem server_arrives (hlimit : 0 < limit) (hnonneg : 0 ≤ total) (hwithin : total ≤ limit) {calls : List SendCall} {s : ServerStream}
    (htotal : ((calls.flatMap (·.bytes)).length : Int) ≤ total)
    (hreads : c.ReadsBack total (calls.flatMap (·.bytes)) (calls.map (·.dataFrames)).sum)
    (hsend : ServerStream.send c.digest total calls = .ok s) :
    Arrives c hlimit s.written (calls.flatMap (·.bytes)) (.returned (calls.flatMap (·.bytes)).length) := by
  obtain ⟨_, hstart, hrest⟩ := Fallible.bind_ok.mp hsend
  obtain ⟨_, hcalls, hfinish⟩ := Fallible.bind_ok.mp hrest
  obtain ⟨_, hending, hlast⟩ := Fallible.bind_ok.mp hfinish
  cases hlast
  obtain ⟨out, hframe, hopened⟩ := Fallible.bind_ok.mp hstart
  cases hopened
  obtain ⟨hfollows, hhashed, hframes⟩ := follows_start hlimit hnonneg hwithin hreads.start hframe
  have hbytes : (out.hashed.length + (calls.flatMap (·.bytes)).length : Int) ≤ total := by
    rw [hhashed]
    simpa using htotal
  obtain ⟨hfollows', hhashed', hframes'⟩ := calls_follow hfollows rfl hcalls hbytes
  apply hfollows'.ending _ _ hreads.ending hending
  · exact hhashed'.trans (by rw [hhashed, List.nil_append])
  · exact hframes'.trans (by rw [hframes, Nat.zero_add])

theorem upload_arrives (hlimit : 0 < limit) (hnonneg : 0 ≤ total) (hwithin : total ≤ limit) {chunks : List UploadChunk}
    {answered : Bool} (htotal : (((takenUp chunks).flatMap (·.bytes)).length : Int) ≤ total)
    (hreads : c.ReadsBack total ((takenUp chunks).flatMap (·.bytes)) (uploadFrames chunks))
    (hsend : ControllerClient.sendStream c.digest total chunks answered = .ok out) :
    Arrives c hlimit out.written ((takenUp chunks).flatMap (·.bytes))
      (if chunks.any (·.answered) || answered then .waiting
        else .returned ((takenUp chunks).flatMap (·.bytes)).length) := by
  obtain ⟨opened, hframe, hrest⟩ := Fallible.bind_ok.mp hsend
  obtain ⟨⟨_, final⟩, hchunks, hlast⟩ := Fallible.bind_ok.mp hrest
  obtain ⟨hfollows, hhashed, hframes⟩ := follows_start hlimit hnonneg hwithin hreads.start hframe
  have hbytes : (opened.hashed.length + ((takenUp chunks).flatMap (·.bytes)).length : Int) ≤ total := by
    rw [hhashed]
    simpa using htotal
  obtain ⟨hfollows', hhashed', hframes', hfinal⟩ := sendChunks_follows hfollows hchunks hbytes
  rw [hhashed, List.nil_append] at hhashed'
  rw [hframes, Nat.zero_add] at hframes'
  rw [← hfinal]
  dsimp only at hlast
  cases hstop : final || answered with
  | true =>
    rw [if_pos hstop] at hlast
    cases hlast
    obtain ⟨r, delivered, hheard, hflatten, _⟩ := hfollows'.heard
    exact ⟨r, delivered, hheard, hflatten.trans hhashed'⟩
  | false =>
    rw [if_neg (by simp [hstop])] at hlast
    exact hfollows'.ending hhashed' hframes' hreads.ending hlast

theorem ending_returns {bytes : List UInt8} {frames all : Nat} (hwritable : Writable c total bytes frames all)
    (hfollows : Follows c fresh total out) (hbytes : out.hashed = bytes) (hframes : out.dataFrames = frames)
    (hsequence : out.sequence = 1 + all) : ∃ out', out.ending c.digest = .ok out' := by
  subst hbytes hframes
  have hsize : (endPayload out.sent out.dataFrames (c.digest out.hashed)).length ≤ maxFramePayload := by
    rw [hfollows.counted]
    exact hwritable.ending
  have hroom : out.sequence ≤ maxSequence := by
    rw [hsequence, Nat.add_comm]
    exact hwritable.sequence
  exact ⟨_, writeFrame_ok.mpr ⟨⟨hsize, hroom⟩, rfl⟩⟩

theorem server_returns (hlimit : 0 < limit) (hnonneg : 0 ≤ total) (hwithin : total ≤ limit) {calls : List SendCall}
    (htotal : ((calls.flatMap (·.bytes)).length : Int) ≤ total)
    (hreads : c.ReadsBack total (calls.flatMap (·.bytes)) (calls.map (·.dataFrames)).sum)
    (hwritable : Writable c total (calls.flatMap (·.bytes)) (calls.map (·.dataFrames)).sum (calls.map (·.frames)).sum) :
    ∃ s, ServerStream.send c.digest total calls = .ok s := by
  have hframe : Outgoing.writeFrame {} .start (startPayload total) = .ok _ :=
    writeFrame_ok.mpr ⟨⟨hwritable.start, Nat.zero_le _⟩, rfl⟩
  obtain ⟨hfollows, _, _⟩ := follows_start hlimit hnonneg hwithin hreads.start hframe
  obtain ⟨started, hstart, hsame, hsending⟩ : ∃ started, ServerStream.startSend {} total = .ok started ∧
      started.toOutgoing = { sequence := 1, written := [⟨.start, 0, startPayload total⟩] } ∧ started.sending = true :=
    ⟨_, Fallible.bind_ok.mpr ⟨_, hframe, rfl⟩, rfl, rfl⟩
  have hroom : started.sequence + (calls.map (·.frames)).sum ≤ maxSequence + 1 := by
    rw [hsame]
    have hsequence := hwritable.sequence
    dsimp only
    omega
  obtain ⟨pushed, hcalls, hsequence⟩ := calls_return hsending hroom
  have hopened : Follows c { limit := limit, limit_pos := hlimit } total started.toOutgoing := by
    rw [hsame]
    exact hfollows
  have hbytes : (started.hashed.length + (calls.flatMap (·.bytes)).length : Int) ≤ total := by
    rw [hsame]
    simpa using htotal
  obtain ⟨hfollows', hhashed', hframes'⟩ := calls_follow hopened hsending hcalls hbytes
  rw [hsame] at hhashed' hframes' hsequence
  obtain ⟨ended, hending⟩ := ending_returns hwritable hfollows' (hhashed'.trans (List.nil_append _))
    (hframes'.trans (Nat.zero_add _)) hsequence
  have hfinish : pushed.finishSend c.digest = .ok _ := Fallible.bind_ok.mpr ⟨ended, hending, rfl⟩
  exact ⟨_, Fallible.bind_ok.mpr ⟨started, hstart, Fallible.bind_ok.mpr ⟨pushed, hcalls, hfinish⟩⟩⟩

theorem upload_returns (hlimit : 0 < limit) (hnonneg : 0 ≤ total) (hwithin : total ≤ limit) {chunks : List UploadChunk}
    (answered : Bool) (htotal : (((takenUp chunks).flatMap (·.bytes)).length : Int) ≤ total)
    (hreads : c.ReadsBack total ((takenUp chunks).flatMap (·.bytes)) (uploadFrames chunks))
    (hwritable : Writable c total ((takenUp chunks).flatMap (·.bytes)) (uploadFrames chunks) (uploadFrames chunks)) :
    ∃ out, ControllerClient.sendStream c.digest total chunks answered = .ok out := by
  obtain ⟨opened, hframe, hfirst⟩ : ∃ opened, Outgoing.writeFrame {} .start (startPayload total) = .ok opened ∧
      opened.sequence = 1 :=
    ⟨_, writeFrame_ok.mpr ⟨⟨hwritable.start, Nat.zero_le _⟩, rfl⟩, rfl⟩
  obtain ⟨hfollows, hhashed, hframes⟩ := follows_start hlimit hnonneg hwithin hreads.start hframe
  have hroom : opened.sequence + uploadFrames chunks ≤ maxSequence + 1 := by
    have hsequence := hwritable.sequence
    omega
  obtain ⟨sent, final, hchunks, hsequence⟩ := sendChunks_return hroom
  obtain ⟨hfollows', hhashed', hframes', _⟩ := sendChunks_follows hfollows hchunks (by rw [hhashed]; simpa using htotal)
  rw [hhashed, List.nil_append] at hhashed'
  rw [hframes, Nat.zero_add] at hframes'
  rw [hfirst] at hsequence
  obtain ⟨ended, hending⟩ := ending_returns hwritable hfollows' hhashed' hframes' hsequence
  cases hstop : final || answered with
  | true =>
    refine ⟨sent, Fallible.bind_ok.mpr ⟨_, hframe, Fallible.bind_ok.mpr ⟨_, hchunks, ?_⟩⟩⟩
    dsimp only
    rw [if_pos hstop]
    rfl
  | false =>
    refine ⟨ended, Fallible.bind_ok.mpr ⟨_, hframe, Fallible.bind_ok.mpr ⟨_, hchunks, ?_⟩⟩⟩
    dsimp only
    rw [if_neg (by simp [hstop])]
    exact hending

structure Checked (c : Codec) (limit : Int) (r : StreamReceiver) (heard : Transcript) : Prop where
  ending : ∀ frame, frame.type = .ending → (r.accept c frame).2.finished = true →
    ∃ document, c.document frame.payload = some document ∧
      document.totalBytes = some (heard.payloads.flatten.length : Int) ∧
      document.frameCount = some (heard.payloads.length : Int) ∧
      document.sha256 = some (c.digest heard.payloads.flatten) ∧
      (Function.Injective c.digest → ∀ bytes, document.sha256 = some (c.digest bytes) → heard.payloads.flatten = bytes)
  opened : heard.payloads ≠ [] → ∃ total, heard.Declares c total
  within : ∀ total, heard.Declares c total → total ≤ limit ∧ (heard.payloads.flatten.length : Int) ≤ total
  closed : heard.Over → ∀ frame, r.accept c frame = (r, refused .dataAfterEnd)
  full : ∀ frame, (r.accept c frame).2 = refused .creditExceeded → (r.accept c frame).1 = r

theorem Accounts.checked {heard : Transcript} (h : Accounts c limit r heard) : Checked c limit r heard := by
  constructor
  · intro frame htype hfinished
    obtain ⟨document, hread, hbytes, hframes, hdigest⟩ := close_finished (accept_ending htype hfinished)
    rw [h.bytes] at hbytes
    rw [h.frames] at hframes
    rw [h.hashed] at hdigest
    refine ⟨document, hread, hbytes, hframes, hdigest, ?_⟩
    intro hinjective _ hstated
    exact hinjective (Option.some.inj (hdigest.symm.trans hstated))
  · intro hpayloads
    cases hdeclared : r.declaredTotal with
    | none => exact absurd (h.new hdeclared) hpayloads
    | some total => exact ⟨total, (h.declares total).mpr hdeclared⟩
  · intro total hdeclares
    exact h.within total ((h.declares total).mp hdeclares)
  · intro hover frame
    exact accept_closed (h.ended hover)
  · intro _ hfull
    exact accept_full hfull

/-- What either sender writes within the totals arrives byte for byte, and a receiver ends a stream only
on the totals of what it accepted. -/
theorem stream_transfer_exact (c : Codec) {limit : Int} (hlimit : 0 < limit) :
    (∀ total calls, 0 ≤ total → total ≤ limit → ((calls.flatMap (·.bytes)).length : Int) ≤ total →
      c.ReadsBack total (calls.flatMap (·.bytes)) (calls.map (·.dataFrames)).sum →
      (∀ s, ServerStream.send c.digest total calls = .ok s →
        Arrives c hlimit s.written (calls.flatMap (·.bytes)) (.returned (calls.flatMap (·.bytes)).length)) ∧
      (Writable c total (calls.flatMap (·.bytes)) (calls.map (·.dataFrames)).sum (calls.map (·.frames)).sum →
        ∃ s, ServerStream.send c.digest total calls = .ok s)) ∧
    (∀ total chunks answered, 0 ≤ total → total ≤ limit → (((takenUp chunks).flatMap (·.bytes)).length : Int) ≤ total →
      c.ReadsBack total ((takenUp chunks).flatMap (·.bytes)) (uploadFrames chunks) →
      (∀ out, ControllerClient.sendStream c.digest total chunks answered = .ok out →
        Arrives c hlimit out.written ((takenUp chunks).flatMap (·.bytes))
          (if chunks.any (·.answered) || answered then .waiting
            else .returned ((takenUp chunks).flatMap (·.bytes)).length)) ∧
      (Writable c total ((takenUp chunks).flatMap (·.bytes)) (uploadFrames chunks) (uploadFrames chunks) →
        ∃ out, ControllerClient.sendStream c.digest total chunks answered = .ok out)) ∧
    ∀ signals, Checked c limit (hear c { limit := limit, limit_pos := hlimit } signals).1
      (hear c { limit := limit, limit_pos := hlimit } signals).2 := by
  refine ⟨?server, ?upload, ?receiver⟩
  case server =>
    intro total _ hnonneg hwithin htotal hreads
    constructor
    · intro _ hsend
      exact server_arrives hlimit hnonneg hwithin htotal hreads hsend
    · exact server_returns hlimit hnonneg hwithin htotal hreads
  case upload =>
    intro _ _ answered hnonneg hwithin htotal hreads
    constructor
    · intro _ hsend
      exact upload_arrives hlimit hnonneg hwithin htotal hreads hsend
    · exact upload_returns hlimit hnonneg hwithin answered htotal hreads
  case receiver =>
    intro signals
    exact (hear_accounts hlimit signals).checked

end Exact

/-- JSON and digest of one stream that carries `hi`. -/
def greeting : Codec where
  document payload :=
    if payload = startPayload 16 then some { totalLimit := some 16 }
    else if payload = endPayload 2 1 "8f434346648f6b96df89dda901c5176b10a6d83961dd3c1ac88b59b2dc327aa4" then
      some
        { totalBytes := some 2, frameCount := some 1
          sha256 := some "8f434346648f6b96df89dda901c5176b10a6d83961dd3c1ac88b59b2dc327aa4" }
    else none
  digest bytes := if bytes = [104, 105] then "8f434346648f6b96df89dda901c5176b10a6d83961dd3c1ac88b59b2dc327aa4" else ""

/-- A keep-alive between the pushes does not show in what arrives. -/
theorem greeting_arrives : ∃ s, ServerStream.send greeting.digest 16 [.progress, .push [104, 105], .progress] = .ok s ∧
    Arrives greeting (by decide : (0 : Int) < 16) s.written [104, 105] (.returned 2) := by
  have hreads : greeting.ReadsBack 16 [104, 105] 1 := by
    have hother : endPayload 2 1 "8f434346648f6b96df89dda901c5176b10a6d83961dd3c1ac88b59b2dc327aa4" ≠ startPayload 16 := by
      decide +kernel
    have hdigest : greeting.digest [104, 105] = "8f434346648f6b96df89dda901c5176b10a6d83961dd3c1ac88b59b2dc327aa4" := by
      decide
    constructor
    · simp only [greeting, if_true]
    · rw [hdigest]
      simp only [greeting, List.length_cons, List.length_nil, Nat.zero_add, Nat.reduceAdd]
      rw [if_neg hother, if_pos trivial]
      rfl
  obtain ⟨harrives, hreturns⟩ := (stream_transfer_exact greeting (by decide : (0 : Int) < 16)).1 16
    [.progress, .push [104, 105], .progress] (by decide) (by decide) (by decide) hreads
  obtain ⟨s, hsend⟩ := hreturns ⟨by decide +kernel, by decide +kernel, by decide⟩
  exact ⟨s, hsend, harrives s hsend⟩

end TinyHermes.Sandbox
