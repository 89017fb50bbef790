import TinyHermes.Identity.Tables
import TinyHermes.Secrets.Envelope

/-! `SecretService.rewrap` over `secrets/infrastructure/tables.py`: every record under the previous KEK is wrapped anew, written,
read back, and put back if it does not open. -/
namespace TinyHermes.Secrets
open Lib
open Runs (Uuid Time)
open Identity (fits)

inductive SecretScope where
  | workspace | platform
  deriving DecidableEq, Repr

inductive SecretPurpose where
  | general | model | tool | channel | login
  deriving DecidableEq, Repr

inductive SecretStatus where
  | active | disabled
  deriving DecidableEq, Repr

structure SecretRow where
  purpose : SecretPurpose := .general
  name : String
  scope : SecretScope
  workspaceId : Option Uuid
  status : SecretStatus := .active
  mask : String
  ciphertext : Bytes
  nonce : Bytes
  wrappedDek : Bytes
  wrapNonce : Bytes
  keyId : String
  createdAt : Time
  updatedAt : Time
  deriving DecidableEq, Repr

abbrev Store := Table Uuid SecretRow

structure SecretRecord extends SecretRow where
  id : Uuid
  deriving DecidableEq, Repr

def SecretRow.envelope (row : SecretRow) : Envelope :=
  { ciphertext := row.ciphertext, nonce := row.nonce, wrappedDek := row.wrappedDek, wrapNonce := row.wrapNonce, keyId := row.keyId }

def SecretRow.wrapped (row : SecretRow) (wrappedDek wrapNonce : Bytes) (keyId : String) (now : Time) : SecretRow :=
  { row with wrappedDek, wrapNonce, keyId, updatedAt := now }

def record (id : Uuid) (row : SecretRow) : SecretRecord := { row with id }

namespace Store

def get (store : Store) (secretId : Uuid) : Option SecretRecord := (store.lookup secretId).map (record secretId)

/-- `ORDER BY created_at, id`. -/
def earlier (a b : SecretRecord) : Prop := a.createdAt < b.createdAt ∨ a.createdAt = b.createdAt ∧ a.id ≤ b.id

instance (a b : SecretRecord) : Decidable (earlier a b) := by unfold earlier; infer_instance

def listByKeyId (store : Store) (keyId : String) : List SecretRecord :=
  ((store.select fun _ row => row.keyId = keyId).map fun found => record found.1 found.2).insertionSort earlier

/-- The row is flushed at once, so a key id its column cannot hold is refused here. -/
def replaceWrap (store : Store) (secretId : Uuid) (wrappedDek wrapNonce : Bytes) (keyId : String) (now : Time) :
    Except SecretError Store :=
  match store.lookup secretId with
  | none => .ok store
  | some _ =>
    if fits 64 keyId then
      .ok (store.modify secretId fun row => row.wrapped wrappedDek wrapNonce keyId now)
    else .error .dataError

def countByKeyId (store : Store) (keyId : String) : Nat := store.count fun _ row => row.keyId = keyId

end Store

structure KekSettings where
  current : String
  currentId : String
  previous : String := ""
  previousId : String := ""

structure Actor where
  isServiceAccount : Bool := false
  isPlatformAdmin : Bool := false

structure RewrapResult where
  processed : Nat
  remaining : Nat
  currentKeyId : String
  /-- records the previous KEK could not unwrap -/
  unrecoverable : Nat := 0
  /-- records put back because the new wrap did not open -/
  unverifiable : Nat := 0
  deriving DecidableEq, Repr

/-- Standard base64 of 32 bytes; `b64decode` is the standard library's, `none` where it raises. -/
def decodeKek (b64decode : String → Option Bytes) (value : String) : Option Bytes :=
  (b64decode value).filter fun kek => kek.length = kekLength

def currentKek (b64decode : String → Option Bytes) (kek : KekSettings) : Except SecretError Bytes :=
  if kek.current = "" then .error .kekMissing
  else match decodeKek b64decode kek.current with
    | some bytes => .ok bytes
    | none => .error .kekMissing

def previousKek (b64decode : String → Option Bytes) (kek : KekSettings) : Except SecretError Bytes :=
  if kek.previous = "" ∨ kek.previousId = "" then .error .previousKekMissing
  else match decodeKek b64decode kek.previous with
    | some bytes => .ok bytes
    | none => .error .previousKekMissing

structure Progress where
  store : Store
  processed : Nat := 0
  unrecoverable : Nat := 0
  unverifiable : Nat := 0

section Service
variable (aes : AesGcm)

/-- `_reopens`: does the row as stored still yield the plaintext it held? -/
def reopens (store : Store) (secretId : Uuid) (kek expected : Bytes) : Except SecretError Bool :=
  match store.get secretId with
  | none => .ok false
  | some stored => match Envelope.unseal aes stored.envelope kek with
    | .ok plaintext => .ok (plaintext = expected)
    | .error .unwrapFailed => .ok false
    | .error e => .error e

/-- One turn of the loop. `wrapNonce` is the record's draw of `token_bytes`. -/
def rotate (kek : KekSettings) (current previous : Bytes) (wrapNonce : Uuid → Bytes) (now : Time) (progress : Progress)
    (record : SecretRecord) : Except SecretError Progress :=
  match Envelope.rewrap aes (wrapNonce record.id) record.envelope previous current kek.currentId with
  | .error .unwrapFailed => .ok { progress with unrecoverable := progress.unrecoverable + 1 }
  | .error e => .error e
  | .ok rotated => do
    let expected ← Envelope.unseal aes record.envelope previous
    let written ← progress.store.replaceWrap record.id rotated.wrappedDek rotated.wrapNonce rotated.keyId now
    let reopened ← reopens aes written record.id current expected
    if reopened then
      .ok { progress with store := written, processed := progress.processed + 1 }
    else do
      let restored ← written.replaceWrap record.id record.wrappedDek record.wrapNonce record.keyId now
      .ok { progress with store := restored, unverifiable := progress.unverifiable + 1 }

/-- The whole rotation, and the store its transaction commits; what raises is rolled back. -/
def rewrap (b64decode : String → Option Bytes) (kek : KekSettings) (wrapNonce : Uuid → Bytes) (now : Time) (actor : Actor)
    (store : Store) : Except SecretError (RewrapResult × Store) :=
  if actor.isServiceAccount ∨ ¬ actor.isPlatformAdmin then .error .forbiddenSecretAction
  else do
    let current ← currentKek b64decode kek
    let previous ← previousKek b64decode kek
    let progress ← (store.listByKeyId kek.previousId).foldlM (rotate aes kek current previous wrapNonce now) { store }
    return ({
      processed := progress.processed
      remaining := progress.store.countByKeyId kek.previousId
      currentKeyId := kek.currentId
      unrecoverable := progress.unrecoverable
      unverifiable := progress.unverifiable }, progress.store)

end Service

/-! ### What a rotation is for -/

section Purpose
variable (aes : AesGcm)

def plaintextOf (kekNamed : String → Option Bytes) (row : SecretRow) : Option Bytes :=
  (kekNamed row.keyId).bind fun kek => (Envelope.unseal aes row.envelope kek).toOption

/-- The KEKs in use: the two of the rotation under their ids, and any others. -/
structure Ring (kek : KekSettings) (current previous : Bytes) (kekNamed : String → Option Bytes) : Prop where
  current : kekNamed kek.currentId = some current
  previous : kekNamed kek.previousId = some previous

/-- No secret is lost, and every record is accounted for. -/
structure Rotated (kek : KekSettings) (current previous : Bytes) (before : Store) (result : RewrapResult) (after : Store) :
    Prop where
  kept : ∀ kekNamed, Ring kek current previous kekNamed → ∀ id row plaintext, before.lookup id = some row →
    plaintextOf aes kekNamed row = some plaintext →
    ∃ row', after.lookup id = some row' ∧ plaintextOf aes kekNamed row' = some plaintext
  others : ∀ id row, before.lookup id = some row → row.keyId ≠ kek.previousId → after.lookup id = some row
  counted : result.processed + result.unrecoverable + result.unverifiable = before.countByKeyId kek.previousId
  remaining : result.remaining = result.unrecoverable + result.unverifiable
  destroyable : result.remaining = 0 → (∀ id row, after.lookup id = some row → row.keyId ≠ kek.previousId) ∧
    ∀ kekNamed, Ring kek current previous kekNamed → ∀ id row plaintext, before.lookup id = some row →
      plaintextOf aes kekNamed row = some plaintext →
      ∃ row', after.lookup id = some row' ∧
        plaintextOf aes (Function.update kekNamed kek.previousId none) row' = some plaintext

/-- If the wrap opens, it holds the key of a payload that opens, and can be written under the new name. -/
def CleanRow (kek : KekSettings) (previous : Bytes) (row : SecretRow) : Prop :=
  ∀ dek, dekOf aes row.envelope previous = some dek → (payloadOf aes row.envelope dek).isSome ∧ fits 64 kek.currentId

def RotatesCleanly (kek : KekSettings) (previous : Bytes) (store : Store) : Prop :=
  ∀ id row, store.lookup id = some row → row.keyId = kek.previousId → CleanRow aes kek previous row

end Purpose

/-! ### One turn of the loop -/

section Turns
variable {aes : AesGcm} {kek : KekSettings} {current previous : Bytes} {wrapNonce : Uuid → Bytes} {now : Time}
  {store written : Store} {progress next last : Progress} {records : List SecretRecord} {r : SecretRecord} {keyId : String}

theorem replaceWrap_ok {secretId : Uuid} {row : SecretRow} {wrappedDek nonce : Bytes} (hrow : store.lookup secretId = some row) :
    store.replaceWrap secretId wrappedDek nonce keyId now = .ok written ↔ fits 64 keyId ∧
      written = store.modify secretId fun row => row.wrapped wrappedDek nonce keyId now := by
  rw [Store.replaceWrap, hrow]
  dsimp only
  by_cases hfits : fits 64 keyId
  · rw [if_pos hfits]
    simp [hfits, eq_comm]
  · rw [if_neg hfits]
    simp [hfits]

variable (aes kek current previous wrapNonce now) in
def rotatedRow (id : Uuid) (row : SecretRow) : SecretRow :=
  match dekOf aes row.envelope previous with
  | none => row
  | some dek => row.wrapped (aes.encrypt current (wrapNonce id) dek (encoded kek.currentId)) (wrapNonce id) kek.currentId now

variable (aes previous) in
def unopened (row : SecretRow) : Bool := (dekOf aes row.envelope previous).isNone

theorem rotatedRow_of_unopened {id : Uuid} {row : SecretRow} (h : dekOf aes row.envelope previous = none) :
    rotatedRow aes kek current previous wrapNonce now id row = row := by
  rw [rotatedRow, h]

theorem rotatedRow_keyId {id : Uuid} {row : SecretRow} (hdistinct : kek.currentId ≠ kek.previousId)
    (hkey : row.keyId = kek.previousId) :
    (rotatedRow aes kek current previous wrapNonce now id row).keyId = kek.previousId ↔
      unopened aes previous row = true := by
  unfold rotatedRow unopened
  cases dekOf aes row.envelope previous with
  | none => simp [hkey]
  | some => simpa [SecretRow.wrapped] using hdistinct

theorem unseal_rotatedRow {id : Uuid} {row : SecretRow} {plaintext : Bytes} (hcurrent : current.length = kekLength)
    (h : Envelope.unseal aes row.envelope previous = .ok plaintext) :
    (rotatedRow aes kek current previous wrapNonce now id row).keyId = kek.currentId ∧
      Envelope.unseal aes (rotatedRow aes kek current previous wrapNonce now id row).envelope current = .ok plaintext := by
  obtain ⟨_, dek, hdek, hpayload⟩ := unseal_ok.mp h
  rw [rotatedRow, hdek]
  exact ⟨rfl, unseal_ok.mpr ⟨hcurrent, dek, aes.decrypt_encrypt _ _ _ _, hpayload⟩⟩

theorem reopens_written {dek plaintext : Bytes} (hcurrent : current.length = kekLength)
    (hrow : store.lookup r.id = some r.toSecretRow) (hdek : dekOf aes r.envelope previous = some dek)
    (hpayload : payloadOf aes r.envelope dek = some plaintext) :
    reopens aes (store.modify r.id fun row => row.wrapped
      (aes.encrypt current (wrapNonce r.id) dek (encoded kek.currentId)) (wrapNonce r.id) kek.currentId now)
      r.id current plaintext = .ok true := by
  have hopens : Envelope.unseal aes (rotatedRow aes kek current previous wrapNonce now r.id r.toSecretRow).envelope current =
      .ok plaintext := by
    rw [rotatedRow, hdek]
    exact unseal_ok.mpr ⟨hcurrent, dek, aes.decrypt_encrypt _ _ _ _, hpayload⟩
  rw [rotatedRow, hdek] at hopens
  rw [reopens, Store.get, Table.lookup_modify_self, hrow]
  simp only [Option.map_some, record]
  rw [hopens]
  simp

theorem rotate_ok (hcurrent : current.length = kekLength) (hprevious : previous.length = kekLength)
    (hrow : progress.store.lookup r.id = some r.toSecretRow) :
    rotate aes kek current previous wrapNonce now progress r = .ok next ↔
      (dekOf aes r.envelope previous = none ∧ next = { progress with unrecoverable := progress.unrecoverable + 1 }) ∨
      ∃ dek, dekOf aes r.envelope previous = some dek ∧ (payloadOf aes r.envelope dek).isSome ∧ fits 64 kek.currentId ∧
        next = { progress with
          store := progress.store.modify r.id fun row => row.wrapped
            (aes.encrypt current (wrapNonce r.id) dek (encoded kek.currentId)) (wrapNonce r.id) kek.currentId now
          processed := progress.processed + 1 } := by
  have hkeks : ¬ (previous.length ≠ kekLength ∨ current.length ≠ kekLength) := by simp [hcurrent, hprevious]
  rw [rotate, Envelope.rewrap, if_neg hkeks]
  cases hdek : dekOf aes r.envelope previous with
  | none =>
    constructor
    · intro h
      exact .inl ⟨rfl, (Except.ok.inj h).symm⟩
    · rintro (⟨_, rfl⟩ | ⟨dek, hsome, _⟩)
      · rfl
      · cases hsome
  | some dek =>
    dsimp only
    cases hpayload : payloadOf aes r.envelope dek with
    | none =>
      have hsealed : Envelope.unseal aes r.envelope previous = .error .unwrapFailed := by
        rw [Envelope.unseal, if_neg (not_not.mpr hprevious), hdek]
        simp [hpayload]
      rw [hsealed]
      simp [hpayload, bind, Except.bind]
    | some plaintext =>
      have hopened : Envelope.unseal aes r.envelope previous = .ok plaintext := unseal_ok.mpr ⟨hprevious, dek, hdek, hpayload⟩
      rw [hopened, Fallible.bind_ok]
      constructor
      · rintro ⟨_, hexpected, h⟩
        obtain rfl := Except.ok.inj hexpected
        obtain ⟨_, hwritten, h⟩ := Fallible.bind_ok.mp h
        obtain ⟨hfits, rfl⟩ := (replaceWrap_ok hrow).mp hwritten
        rw [reopens_written hcurrent hrow hdek hpayload] at h
        exact .inr ⟨dek, rfl, by rw [hpayload]; rfl, hfits, (Except.ok.inj h).symm⟩
      · rintro (⟨hnone, _⟩ | ⟨dek', hdek', _, hfits, rfl⟩)
        · cases hnone
        · cases hdek'
          refine ⟨plaintext, rfl, Fallible.bind_ok.mpr ⟨_, (replaceWrap_ok hrow).mpr ⟨hfits, rfl⟩, ?_⟩⟩
          rw [reopens_written hcurrent hrow hdek hpayload]
          rfl

/-- What the loop has done once it is through with `records`. -/
structure Turned (aes : AesGcm) (kek : KekSettings) (current previous : Bytes) (wrapNonce : Uuid → Bytes) (now : Time)
    (progress : Progress) (records : List SecretRecord) (last : Progress) : Prop where
  clean : ∀ r ∈ records, CleanRow aes kek previous r.toSecretRow
  rows : ∀ r ∈ records, last.store.lookup r.id =
    some (rotatedRow aes kek current previous wrapNonce now r.id r.toSecretRow)
  others : ∀ id, id ∉ records.map (·.id) → last.store.lookup id = progress.store.lookup id
  processed : last.processed + last.unrecoverable = progress.processed + progress.unrecoverable + records.length
  unrecoverable : last.unrecoverable = progress.unrecoverable + records.countP fun r => unopened aes previous r.toSecretRow
  unverifiable : last.unverifiable = progress.unverifiable

theorem rotate_turned (hcurrent : current.length = kekLength) (hprevious : previous.length = kekLength)
    (hrow : progress.store.lookup r.id = some r.toSecretRow)
    (h : rotate aes kek current previous wrapNonce now progress r = .ok next) :
    Turned aes kek current previous wrapNonce now progress [r] next := by
  rcases (rotate_ok hcurrent hprevious hrow).mp h with ⟨hnone, rfl⟩ | ⟨dek, hdek, hpayload, hfits, rfl⟩
  · constructor
    · intro r' hr' _ hdek
      obtain rfl := List.mem_singleton.mp hr'
      rw [hnone] at hdek
      cases hdek
    · intro r' hr'
      obtain rfl := List.mem_singleton.mp hr'
      rw [rotatedRow_of_unopened hnone]
      exact hrow
    · intro _ _
      rfl
    · dsimp only [List.length_singleton]
      omega
    · simp [unopened, hnone]
    · rfl
  · constructor
    · intro r' hr' _ hdek'
      obtain rfl := List.mem_singleton.mp hr'
      cases hdek.symm.trans hdek'
      exact ⟨hpayload, hfits⟩
    · intro _ hr'
      obtain rfl := List.mem_singleton.mp hr'
      rw [Table.lookup_modify_self, hrow, rotatedRow, hdek]
      rfl
    · intro _ hid
      rw [List.map_singleton, List.mem_singleton] at hid
      exact Table.lookup_modify_of_ne hid _ _
    · dsimp only [List.length_singleton]
      omega
    · simp [unopened, hdek]
    · rfl

theorem rotate_returns (wrapNonce : Uuid → Bytes) (now : Time) (hcurrent : current.length = kekLength) (hprevious : previous.length = kekLength)
    (hrow : progress.store.lookup r.id = some r.toSecretRow) (hclean : CleanRow aes kek previous r.toSecretRow) :
    ∃ next, rotate aes kek current previous wrapNonce now progress r = .ok next := by
  cases hdek : dekOf aes r.envelope previous with
  | none => exact ⟨_, (rotate_ok hcurrent hprevious hrow).mpr (.inl ⟨hdek, rfl⟩)⟩
  | some dek =>
    obtain ⟨hpayload, hfits⟩ := hclean dek hdek
    exact ⟨_, (rotate_ok hcurrent hprevious hrow).mpr (.inr ⟨dek, hdek, hpayload, hfits, rfl⟩)⟩

theorem Turned.cons (h : Turned aes kek current previous wrapNonce now progress [r] next)
    (hrest : Turned aes kek current previous wrapNonce now next records last) (hfresh : r.id ∉ records.map (·.id)) :
    Turned aes kek current previous wrapNonce now progress (r :: records) last := by
  have hr : r ∈ [r] := List.mem_singleton_self r
  constructor
  · intro r' hr'
    rcases List.mem_cons.mp hr' with rfl | hr'
    · exact h.clean r' hr
    · exact hrest.clean r' hr'
  · intro r' hr'
    rcases List.mem_cons.mp hr' with rfl | hr'
    · rw [hrest.others r'.id hfresh]
      exact h.rows r' hr
    · exact hrest.rows r' hr'
  · intro id hid
    rw [List.map_cons, List.mem_cons, not_or] at hid
    rw [hrest.others id hid.2]
    apply h.others
    rw [List.map_singleton, List.mem_singleton]
    exact hid.1
  · have hone := h.processed
    rw [List.length_singleton] at hone
    rw [hrest.processed, hone, List.length_cons]
    omega
  · rw [hrest.unrecoverable, h.unrecoverable, List.countP_cons, List.countP_cons, List.countP_nil]
    omega
  · rw [hrest.unverifiable, h.unverifiable]

theorem Turned.untouched (h : Turned aes kek current previous wrapNonce now progress [r] next)
    (hfresh : r.id ∉ records.map (·.id)) (hrows : ∀ r' ∈ records, progress.store.lookup r'.id = some r'.toSecretRow) :
    ∀ r' ∈ records, next.store.lookup r'.id = some r'.toSecretRow := by
  intro r' hr'
  rw [h.others, hrows r' hr']
  rw [List.map_singleton, List.mem_singleton]
  intro hsame
  apply hfresh
  rw [← hsame]
  exact List.mem_map_of_mem hr'

theorem foldlM_turned (hcurrent : current.length = kekLength) (hprevious : previous.length = kekLength)
    (hnodup : (records.map (·.id)).Nodup) (hrows : ∀ r ∈ records, progress.store.lookup r.id = some r.toSecretRow)
    (h : records.foldlM (rotate aes kek current previous wrapNonce now) progress = .ok last) :
    Turned aes kek current previous wrapNonce now progress records last := by
  induction records generalizing progress with
  | nil =>
    obtain rfl := Except.ok.inj h
    exact ⟨by simp, by simp, fun _ _ => rfl, rfl, rfl, rfl⟩
  | cons r records ih =>
    obtain ⟨_, hnext, hrest⟩ := Fallible.foldlM_cons_ok.mp h
    obtain ⟨hfresh, hnodup⟩ := List.nodup_cons.mp hnodup
    have hturned := rotate_turned hcurrent hprevious (hrows r List.mem_cons_self) hnext
    have hlater := hturned.untouched hfresh fun r' hr' => hrows r' (List.mem_cons_of_mem _ hr')
    exact hturned.cons (ih hnodup hlater hrest) hfresh

theorem foldlM_returns (progress : Progress) (wrapNonce : Uuid → Bytes) (now : Time) (hcurrent : current.length = kekLength) (hprevious : previous.length = kekLength)
    (hnodup : (records.map (·.id)).Nodup) (hrows : ∀ r ∈ records, progress.store.lookup r.id = some r.toSecretRow)
    (hclean : ∀ r ∈ records, CleanRow aes kek previous r.toSecretRow) :
    ∃ last, records.foldlM (rotate aes kek current previous wrapNonce now) progress = .ok last := by
  induction records generalizing progress with
  | nil => exact ⟨progress, rfl⟩
  | cons r records ih =>
    obtain ⟨hfresh, hnodup⟩ := List.nodup_cons.mp hnodup
    have hrow := hrows r List.mem_cons_self
    obtain ⟨next, hnext⟩ := rotate_returns wrapNonce now hcurrent hprevious hrow
      (hclean r List.mem_cons_self)
    have hlater := (rotate_turned hcurrent hprevious hrow hnext).untouched hfresh
      fun r' hr' => hrows r' (List.mem_cons_of_mem _ hr')
    obtain ⟨last, hlast⟩ := ih next hnodup hlater fun r' hr' => hclean r' (List.mem_cons_of_mem _ hr')
    exact ⟨last, Fallible.foldlM_cons_ok.mpr ⟨next, hnext, hlast⟩⟩

end Turns

/-! ### The records of a key id -/

section Records
variable {store : Store} {keyId : String} {r : SecretRecord}

theorem mem_listByKeyId : r ∈ store.listByKeyId keyId ↔ store.lookup r.id = some r.toSecretRow ∧ r.keyId = keyId := by
  rw [Store.listByKeyId, List.mem_insertionSort, List.mem_map]
  constructor
  · rintro ⟨⟨id, _⟩, hfound, rfl⟩
    obtain ⟨hrow, hkey⟩ := Table.mem_select.mp hfound
    exact ⟨hrow, of_decide_eq_true hkey⟩
  · rintro ⟨hrow, hkey⟩
    exact ⟨(r.id, r.toSecretRow), Table.mem_select.mpr ⟨hrow, decide_eq_true hkey⟩, rfl⟩

theorem listByKeyId_nodup : ((store.listByKeyId keyId).map (·.id)).Nodup := by
  rw [Store.listByKeyId, ((List.perm_insertionSort _ _).map SecretRecord.id).nodup_iff, List.map_map]
  exact Table.nodup_select _ _

theorem length_listByKeyId : (store.listByKeyId keyId).length = store.countByKeyId keyId := by
  rw [Store.listByKeyId, List.length_insertionSort, List.length_map]
  rfl

theorem countP_listByKeyId (p : SecretRow → Bool) : (store.listByKeyId keyId).countP (fun r => p r.toSecretRow) =
    store.count fun _ row => decide (row.keyId = keyId) && p row := by
  rw [Store.listByKeyId, (List.perm_insertionSort _ _).countP_eq, List.countP_map]
  exact Table.countP_select _ (fun _ row => p row) store

end Records

section Rotation
variable {aes : AesGcm} {b64decode : String → Option Bytes} {kek : KekSettings} {current previous : Bytes}
  {wrapNonce : Uuid → Bytes} {now : Time} {actor : Actor} {store : Store} {last : Progress} {id : Uuid} {row : SecretRow}

theorem decodeKek_length {value : String} {bytes : Bytes} (h : decodeKek b64decode value = some bytes) :
    bytes.length = kekLength :=
  of_decide_eq_true (Option.filter_eq_some_iff.mp h).2

theorem currentKek_length (h : currentKek b64decode kek = .ok current) : current.length = kekLength := by
  rw [currentKek] at h
  split_ifs at h
  cases hdecoded : decodeKek b64decode kek.current with
  | none =>
    rw [hdecoded] at h
    cases h
  | some =>
    rw [hdecoded] at h
    cases h
    exact decodeKek_length hdecoded

theorem previousKek_length (h : previousKek b64decode kek = .ok previous) : previous.length = kekLength := by
  rw [previousKek] at h
  split_ifs at h
  cases hdecoded : decodeKek b64decode kek.previous with
  | none =>
    rw [hdecoded] at h
    cases h
  | some =>
    rw [hdecoded] at h
    cases h
    exact decodeKek_length hdecoded

section Loop
variable (h : Turned aes kek current previous wrapNonce now { store } (store.listByKeyId kek.previousId) last)
include h

theorem Turned.lookup_under (hrow : store.lookup id = some row) (hkey : row.keyId = kek.previousId) :
    last.store.lookup id = some (rotatedRow aes kek current previous wrapNonce now id row) :=
  h.rows (record id row) (mem_listByKeyId.mpr ⟨hrow, hkey⟩)

theorem Turned.lookup_beside (hrow : ∀ row, store.lookup id = some row → row.keyId ≠ kek.previousId) :
    last.store.lookup id = store.lookup id := by
  apply h.others
  intro hid
  obtain ⟨_, hr, rfl⟩ := List.mem_map.mp hid
  obtain ⟨hlookup, hkey⟩ := mem_listByKeyId.mp hr
  exact hrow _ hlookup hkey

theorem Turned.remaining (hdistinct : kek.currentId ≠ kek.previousId) :
    last.store.countByKeyId kek.previousId = last.unrecoverable := by
  have hunrecoverable := h.unrecoverable
  rw [countP_listByKeyId] at hunrecoverable
  rw [hunrecoverable, Nat.zero_add]
  apply Table.count_congr
  intro id
  simp only [decide_eq_true_eq, Bool.and_eq_true]
  constructor
  · rintro ⟨row', hrow', hkey'⟩
    by_cases hunder : ∃ row, store.lookup id = some row ∧ row.keyId = kek.previousId
    · obtain ⟨row, hrow, hkey⟩ := hunder
      rw [h.lookup_under hrow hkey] at hrow'
      cases hrow'
      exact ⟨row, hrow, hkey, (rotatedRow_keyId hdistinct hkey).mp hkey'⟩
    · rw [h.lookup_beside fun row hrow hkey => hunder ⟨row, hrow, hkey⟩] at hrow'
      exact absurd ⟨row', hrow', hkey'⟩ hunder
  · rintro ⟨_, hrow, hkey, hunopened⟩
    exact ⟨_, h.lookup_under hrow hkey, (rotatedRow_keyId hdistinct hkey).mpr hunopened⟩

theorem Turned.kept (hcurrent : current.length = kekLength) {kekNamed : String → Option Bytes}
    (hring : Ring kek current previous kekNamed) {plaintext : Bytes} (hrow : store.lookup id = some row)
    (hopens : plaintextOf aes kekNamed row = some plaintext) :
    ∃ row', last.store.lookup id = some row' ∧ plaintextOf aes kekNamed row' = some plaintext := by
  by_cases hkey : row.keyId = kek.previousId
  · refine ⟨_, h.lookup_under hrow hkey, ?_⟩
    rw [plaintextOf, hkey, hring.previous, Option.bind_some] at hopens
    obtain ⟨hnamed, hunsealed⟩ := unseal_rotatedRow hcurrent (Tx.ok_of_toOption hopens)
    rw [plaintextOf, hnamed, hring.current, Option.bind_some, hunsealed]
    rfl
  · refine ⟨row, ?_, hopens⟩
    rw [h.lookup_beside, hrow]
    intro _ hrow'
    cases hrow.symm.trans hrow'
    exact hkey

end Loop

theorem Turned.rotated (h : Turned aes kek current previous wrapNonce now { store } (store.listByKeyId kek.previousId) last)
    (hcurrent : current.length = kekLength) (hdistinct : kek.currentId ≠ kek.previousId) :
    Rotated aes kek current previous store {
      processed := last.processed
      remaining := last.store.countByKeyId kek.previousId
      currentKeyId := kek.currentId
      unrecoverable := last.unrecoverable
      unverifiable := last.unverifiable } last.store := by
  have hunverifiable : last.unverifiable = 0 := h.unverifiable
  constructor
  · intro kekNamed hring id row plaintext hrow hopens
    exact h.kept hcurrent hring hrow hopens
  · intro id row hrow hkey
    rw [h.lookup_beside, hrow]
    intro row' hrow'
    cases hrow.symm.trans hrow'
    exact hkey
  · have hprocessed := h.processed
    rw [length_listByKeyId] at hprocessed
    dsimp only at hprocessed ⊢
    omega
  · dsimp only
    rw [h.remaining hdistinct, hunverifiable, Nat.add_zero]
  · intro hzero
    have hnone : ∀ id row, last.store.lookup id = some row → row.keyId ≠ kek.previousId := by
      intro id row hrow hkey
      have hmem : (id, row) ∈ last.store.select fun _ row => row.keyId = kek.previousId :=
        Table.mem_select.mpr ⟨hrow, decide_eq_true hkey⟩
      rw [List.length_eq_zero_iff.mp hzero] at hmem
      cases hmem
    refine ⟨hnone, ?_⟩
    intro _ hring id _ _ hrow hopens
    obtain ⟨row', hrow', hopens'⟩ := h.kept hcurrent hring hrow hopens
    refine ⟨row', hrow', ?_⟩
    rw [plaintextOf, Function.update_of_ne (hnone id row' hrow')]
    exact hopens'

theorem rewrap_eq (hservice : actor.isServiceAccount = false) (hadmin : actor.isPlatformAdmin = true)
    (hcurrent : currentKek b64decode kek = .ok current) (hprevious : previousKek b64decode kek = .ok previous) :
    rewrap aes b64decode kek wrapNonce now actor store =
      (store.listByKeyId kek.previousId).foldlM (rotate aes kek current previous wrapNonce now) { store } >>= fun progress =>
        .ok ({
          processed := progress.processed
          remaining := progress.store.countByKeyId kek.previousId
          currentKeyId := kek.currentId
          unrecoverable := progress.unrecoverable
          unverifiable := progress.unverifiable }, progress.store) := by
  have hactor : ¬ (actor.isServiceAccount = true ∨ ¬ actor.isPlatformAdmin = true) := by simp [hservice, hadmin]
  rw [rewrap, if_neg hactor, hcurrent, hprevious]
  rfl

theorem rewrap_clean (hservice : actor.isServiceAccount = false) (hadmin : actor.isPlatformAdmin = true)
    (hcurrent : currentKek b64decode kek = .ok current) (hprevious : previousKek b64decode kek = .ok previous)
    {result : RewrapResult} {after : Store} (h : rewrap aes b64decode kek wrapNonce now actor store = .ok (result, after)) :
    RotatesCleanly aes kek previous store := by
  rw [rewrap_eq hservice hadmin hcurrent hprevious] at h
  obtain ⟨_, hlast, _⟩ := Fallible.bind_ok.mp h
  have hturned := foldlM_turned (currentKek_length hcurrent) (previousKek_length hprevious) listByKeyId_nodup
    (fun r hr => (mem_listByKeyId.mp hr).1) hlast
  intro id row hrow hkey
  exact hturned.clean (record id row) (mem_listByKeyId.mpr ⟨hrow, hkey⟩)

theorem rewrap_returns (wrapNonce : Uuid → Bytes) (now : Time) (hservice : actor.isServiceAccount = false)
    (hadmin : actor.isPlatformAdmin = true) (hcurrent : currentKek b64decode kek = .ok current)
    (hprevious : previousKek b64decode kek = .ok previous) (hdistinct : kek.currentId ≠ kek.previousId)
    (hclean : RotatesCleanly aes kek previous store) :
    ∃ result after, rewrap aes b64decode kek wrapNonce now actor store = .ok (result, after) ∧
      Rotated aes kek current previous store result after := by
  have hlength := currentKek_length hcurrent
  have hlength' := previousKek_length hprevious
  have hrows : ∀ r ∈ store.listByKeyId kek.previousId, store.lookup r.id = some r.toSecretRow :=
    fun r hr => (mem_listByKeyId.mp hr).1
  obtain ⟨last, hlast⟩ := foldlM_returns { store } wrapNonce now hlength hlength' listByKeyId_nodup hrows
    fun r hr => hclean r.id r.toSecretRow (mem_listByKeyId.mp hr).1 (mem_listByKeyId.mp hr).2
  have hturned := foldlM_turned hlength hlength' listByKeyId_nodup hrows hlast
  refine ⟨_, _, ?_, hturned.rotated hlength hdistinct⟩
  rw [rewrap_eq hservice hadmin hcurrent hprevious]
  exact Fallible.bind_ok.mpr ⟨last, hlast, rfl⟩

/-- A rotation finishes, having lost no secret, exactly when no wrap under the previous KEK opens onto the
key of a payload that does not, and the new key id fits its column if any wrap opens. -/
theorem rewrap_finishes_iff (hservice : actor.isServiceAccount = false) (hadmin : actor.isPlatformAdmin = true)
    (hcurrent : currentKek b64decode kek = .ok current) (hprevious : previousKek b64decode kek = .ok previous)
    (hdistinct : kek.currentId ≠ kek.previousId) :
    (∃ result after, rewrap aes b64decode kek wrapNonce now actor store = .ok (result, after) ∧
      Rotated aes kek current previous store result after) ↔ RotatesCleanly aes kek previous store := by
  constructor
  · rintro ⟨_, _, hreturned, _⟩
    exact rewrap_clean hservice hadmin hcurrent hprevious hreturned
  · exact rewrap_returns wrapNonce now hservice hadmin hcurrent hprevious hdistinct

/-! A rotation from `v1`, 32 zeros, to `v2`, 32 ones. -/

def zeros : String := "AAAAAAAAAAAAAAAAAAAAAAAAAAAAAAAAAAAAAAAAAAA="

def ones : String := "AQEBAQEBAQEBAQEBAQEBAQEBAQEBAQEBAQEBAQEBAQE="

def decoded (value : String) : Option Bytes :=
  if value = zeros then some (List.replicate 32 0) else if value = ones then some (List.replicate 32 1) else none

def rotation : KekSettings := { current := ones, currentId := "v2", previous := zeros, previousId := "v1" }

def admin : Actor := { isPlatformAdmin := true }

def sealedRow : SecretRow where
  name := "openai"
  scope := .platform
  workspaceId := none
  mask := "****"
  ciphertext := Sealing.framed.encrypt (List.replicate 32 2) (List.replicate 12 3) [97] []
  nonce := List.replicate 12 3
  wrappedDek := Sealing.framed.encrypt (List.replicate 32 0) (List.replicate 12 4) (List.replicate 32 2) (encoded "v1")
  wrapNonce := List.replicate 12 4
  keyId := "v1"
  createdAt := 0
  updatedAt := 0

theorem dekOf_sealedRow : dekOf Sealing.framed sealedRow.envelope (List.replicate 32 0) = some (List.replicate 32 2) :=
  Sealing.decrypt_encrypt _ _ _ _ _

def storeWithLost : Store := AList.insert 1 sealedRow (AList.insert 2 { sealedRow with wrappedDek := [] } ∅)

theorem storeWithLost_clean : RotatesCleanly Sealing.framed rotation (List.replicate 32 0) storeWithLost := by
  intro _ _ hrow _ _ hdek
  rw [storeWithLost, Table.lookup_insert_ite] at hrow
  split_ifs at hrow
  · cases hrow
    cases dekOf_sealedRow.symm.trans hdek
    exact ⟨Option.isSome_iff_exists.mpr ⟨_, Sealing.decrypt_encrypt _ _ _ _ _⟩, by decide⟩
  · rw [Table.lookup_insert_ite] at hrow
    split_ifs at hrow
    · cases hrow
      cases hdek
    · cases hrow

theorem rotation_past_lost : ∃ result after,
    rewrap Sealing.framed decoded rotation (fun _ => List.replicate 12 5) 0 admin storeWithLost = .ok (result, after) ∧
      Rotated Sealing.framed rotation (List.replicate 32 1) (List.replicate 32 0) storeWithLost result after :=
  (rewrap_finishes_iff rfl rfl (by decide) (by decide) (by decide)).mpr storeWithLost_clean

def storeWithDamaged : Store := AList.insert 1 { sealedRow with ciphertext := [] } ∅

theorem damaged_stops_rotation : ¬ ∃ result after,
    rewrap Sealing.framed decoded rotation (fun _ => List.replicate 12 5) 0 admin storeWithDamaged = .ok (result, after) ∧
      Rotated Sealing.framed rotation (List.replicate 32 1) (List.replicate 32 0) storeWithDamaged result after := by
  rintro ⟨_, _, hreturned, _⟩
  have hcurrent : currentKek decoded rotation = .ok (List.replicate 32 1) := by decide
  have hprevious : previousKek decoded rotation = .ok (List.replicate 32 0) := by decide
  have hclean := rewrap_clean rfl rfl hcurrent hprevious hreturned
  obtain ⟨hpayload, _⟩ := hclean 1 { sealedRow with ciphertext := [] } (AList.lookup_insert _) rfl _ dekOf_sealedRow
  cases hpayload

end Rotation

end TinyHermes.Secrets
