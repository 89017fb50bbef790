import TinyHermes.Lib.Fallible
import TinyHermes.Lib.Sealing

/-! `secrets/domain/envelope.py`: a DEK wraps the value, a KEK wraps the DEK, and the KEK's name is bound
into the wrap. AES-GCM is any sealing. -/
namespace TinyHermes.Secrets
open Lib

abbrev Bytes := List UInt8

/-- `str.encode("utf-8")`. -/
def encoded (text : String) : Bytes := text.toList.flatMap String.utf8EncodeChar

abbrev AesGcm := Sealing Bytes Bytes Bytes Bytes Bytes

inductive SecretError where
  | forbiddenSecretAction | kekMissing | previousKekMissing
  | invalidKek | unwrapFailed
  /-- the database refused a value -/
  | dataError
  deriving DecidableEq, Repr

structure Envelope where
  ciphertext : Bytes
  nonce : Bytes
  wrappedDek : Bytes
  wrapNonce : Bytes
  keyId : String
  deriving DecidableEq, Repr

def kekLength : Nat := 32

section Cipher
variable (aes : AesGcm)

/-- The DEK, data key, and the two nonces are `token_bytes`. -/
def Envelope.seal (dek nonce wrapNonce plaintext kek : Bytes) (keyId : String) : Except SecretError Envelope :=
  if kek.length ≠ kekLength then .error .invalidKek
  else .ok {
    ciphertext := aes.encrypt dek nonce plaintext []
    nonce
    wrappedDek := aes.encrypt kek wrapNonce dek (encoded keyId)
    wrapNonce
    keyId }

/-- The first of the two openings: what the wrap holds. -/
def dekOf (envelope : Envelope) (kek : Bytes) : Option Bytes :=
  aes.decrypt kek envelope.wrapNonce envelope.wrappedDek (encoded envelope.keyId)

def payloadOf (envelope : Envelope) (dek : Bytes) : Option Bytes :=
  aes.decrypt dek envelope.nonce envelope.ciphertext []

def Envelope.unseal (envelope : Envelope) (kek : Bytes) : Except SecretError Bytes :=
  if kek.length ≠ kekLength then .error .invalidKek
  else match (dekOf aes envelope kek).bind (payloadOf aes envelope) with
    | some plaintext => .ok plaintext
    | none => .error .unwrapFailed

/-- The same DEK under a new KEK; the payload does not move. -/
def Envelope.rewrap (wrapNonce : Bytes) (envelope : Envelope) (previousKek newKek : Bytes) (newKeyId : String) :
    Except SecretError Envelope :=
  if previousKek.length ≠ kekLength ∨ newKek.length ≠ kekLength then .error .invalidKek
  else match dekOf aes envelope previousKek with
    | some dek => .ok { envelope with
        wrappedDek := aes.encrypt newKek wrapNonce dek (encoded newKeyId), wrapNonce, keyId := newKeyId }
    | none => .error .unwrapFailed

end Cipher

section Openings
variable {aes : AesGcm} {envelope rotated : Envelope} {kek newKek dek plaintext wrapNonce : Bytes} {newKeyId : String}

theorem unseal_ok : Envelope.unseal aes envelope kek = .ok plaintext ↔
    kek.length = kekLength ∧ ∃ dek, dekOf aes envelope kek = some dek ∧ payloadOf aes envelope dek = some plaintext := by
  unfold Envelope.unseal
  by_cases hkek : kek.length = kekLength
  · rw [if_neg (not_not.mpr hkek), ← Option.bind_eq_some_iff]
    cases (dekOf aes envelope kek).bind (payloadOf aes envelope) with
    | none => simp
    | some => simp [hkek]
  · rw [if_pos hkek]
    simp [hkek]

theorem unseal_error (hkek : kek.length = kekLength) {e : SecretError} (h : Envelope.unseal aes envelope kek = .error e) :
    e = .unwrapFailed := by
  rw [Envelope.unseal, if_neg (not_not.mpr hkek)] at h
  cases hopened : (dekOf aes envelope kek).bind (payloadOf aes envelope) with
  | none =>
    rw [hopened] at h
    exact (Except.error.inj h).symm
  | some =>
    rw [hopened] at h
    cases h

theorem unseal_seal (hkek : kek.length = kekLength) (nonce : Bytes) (keyId : String) :
    ∃ envelope, Envelope.seal aes dek nonce wrapNonce plaintext kek keyId = .ok envelope ∧ envelope.keyId = keyId ∧
      Envelope.unseal aes envelope kek = .ok plaintext := by
  refine ⟨_, if_neg (not_not.mpr hkek), rfl, unseal_ok.mpr ⟨hkek, dek, ?_, ?_⟩⟩
  · exact aes.decrypt_encrypt _ _ _ _
  · exact aes.decrypt_encrypt _ _ _ _

theorem dekOf_rewrapped (wrapNonce : Bytes) : dekOf aes { envelope with
    wrappedDek := aes.encrypt newKek wrapNonce dek (encoded newKeyId), wrapNonce, keyId := newKeyId } newKek = some dek :=
  aes.decrypt_encrypt _ _ _ _

end Openings

end TinyHermes.Secrets
