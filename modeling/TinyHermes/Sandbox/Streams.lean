import Mathlib

/-! One inbound stream's rules, decided frame by frame. -/
namespace TinyHermes.Sandbox

inductive FrameType where
  | start | data | progress | ending | cancel | error
  deriving DecidableEq, Repr

structure Frame where
  type : FrameType
  sequence : Nat
  payload : List UInt8

inductive StreamRefusal where
  | sequenceGap | overDeclaredTotal | digestMismatch | dataAfterEnd | creditExceeded | totalAboveLimit | totalMismatch | malformed
  deriving DecidableEq, Repr

structure ReceiverDecision where
  ok : Bool
  reason : Option StreamRefusal := none
  finished : Bool := false
  deriving DecidableEq

def accepted : ReceiverDecision := { ok := true }

def finished : ReceiverDecision := { ok := true, finished := true }

def refused (reason : StreamRefusal) : ReceiverDecision := { ok := false, reason := some reason }

/-- `RECEIVE_CREDIT`. -/
def receiveCredit : Nat := 8388608

/-- What the receiver reads of a payload that is a JSON object: the values that are there and of their type. -/
structure Document where
  totalLimit : Option Int := none
  totalBytes : Option Int := none
  frameCount : Option Int := none
  sha256 : Option String := none

structure Codec where
  document : List UInt8 → Option Document
  digest : List UInt8 → String

structure StreamReceiver where
  limit : Int
  limit_pos : 0 < limit
  declaredTotal : Option Int := none
  nextSequence : Nat := 0
  outstanding : Nat := 0
  dataFrames : Nat := 0
  hashed : List UInt8 := []
  terminal : Option ReceiverDecision := none
  receivedBytes : Nat := 0

namespace StreamReceiver
variable (c : Codec) (r : StreamReceiver) (frame : Frame)

/-- `credit`. -/
def credit (consumed : Nat) : StreamReceiver := { r with outstanding := r.outstanding - consumed }

/-- `_open`. -/
def open_ : StreamReceiver × ReceiverDecision :=
  if frame.type ≠ .start ∨ frame.sequence ≠ 0 then (r, refused .malformed)
  else
    match (c.document frame.payload).bind (·.totalLimit) with
    | none => (r, refused .malformed)
    | some total =>
      if total < 0 then (r, refused .malformed)
      else if r.limit < total then (r, refused .totalAboveLimit)
      else ({ r with declaredTotal := some total }, accepted)

/-- `_data`. -/
def data (declared : Int) : StreamReceiver × ReceiverDecision :=
  if declared < r.receivedBytes + frame.payload.length then (r, refused .overDeclaredTotal)
  else if receiveCredit < r.outstanding + frame.payload.length then (r, refused .creditExceeded)
  else
    ({ r with
        receivedBytes := r.receivedBytes + frame.payload.length
        outstanding := r.outstanding + frame.payload.length
        dataFrames := r.dataFrames + 1
        hashed := r.hashed ++ frame.payload }, accepted)

/-- `_close`. -/
def close : ReceiverDecision :=
  match c.document frame.payload with
  | some { totalBytes := some total, frameCount := some count, sha256 := some digest, .. } =>
    if total ≠ r.receivedBytes ∨ count ≠ r.dataFrames then refused .totalMismatch
    else if digest ≠ c.digest r.hashed then refused .digestMismatch
    else finished
  | _ => refused .malformed

/-- `_decide`. -/
def decision : StreamReceiver × ReceiverDecision :=
  match r.declaredTotal with
  | none => r.open_ c frame
  | some declared =>
    if frame.sequence ≠ r.nextSequence then (r, refused .sequenceGap)
    else match frame.type with
      | .data => r.data frame declared
      | .progress => (r, accepted)
      | .ending => (r, r.close c frame)
      | .cancel | .error => (r, finished)
      | .start => (r, refused .malformed)

/-- `accept`: every refusal but that of a credit is terminal. -/
def accept : StreamReceiver × ReceiverDecision :=
  if r.terminal.isSome then (r, refused .dataAfterEnd)
  else
    let (after, decided) := r.decision c frame
    if decided.ok then
      ({ after with
          nextSequence := frame.sequence + 1
          terminal := if decided.finished then some decided else after.terminal }, decided)
    else if decided.reason ≠ some .creditExceeded then ({ after with terminal := some decided }, decided)
    else (after, decided)

theorem accept_decision {c : Codec} {r : StreamReceiver} {frame : Frame} (h : r.terminal = none) :
    (r.accept c frame).2 = (r.decision c frame).2 := by
  have hlive : ¬ r.terminal.isSome = true := by simp [h]
  rw [accept, if_neg hlive]
  dsimp only
  split_ifs <;> rfl

theorem accept_start_ok_iff {c : Codec} {r : StreamReceiver} (hlive : r.terminal = none) (hnew : r.declaredTotal = none)
    {payload : List UInt8} {document : Document} (hdocument : c.document payload = some document) {total : Int}
    (htotal : document.totalLimit = some total) (hnonneg : 0 ≤ total) :
    (r.accept c ⟨.start, 0, payload⟩).2.ok = true ↔ total ≤ r.limit := by
  have hfound : (c.document payload).bind (·.totalLimit) = some total := by
    rw [hdocument, Option.bind_some, htotal]
  have hopens : r.decision c ⟨.start, 0, payload⟩ = r.open_ c ⟨.start, 0, payload⟩ := by
    rw [decision, hnew]
  rw [accept_decision hlive, hopens, open_, if_neg (by simp), hfound]
  dsimp only
  rw [if_neg (Int.not_lt.mpr hnonneg), ← Int.not_lt]
  by_cases hover : r.limit < total
  · rw [if_pos hover]
    exact iff_of_false Bool.false_ne_true (not_not.mpr hover)
  · rw [if_neg hover]
    exact iff_of_true rfl hover

end StreamReceiver

end TinyHermes.Sandbox
