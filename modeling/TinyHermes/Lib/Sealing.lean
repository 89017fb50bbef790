import Mathlib

/-! Authenticated encryption as its users see it: a ciphertext opens under the key, nonce and associated data it was sealed with,
and nothing else opens. -/
namespace TinyHermes.Lib

structure Sealing (κ ν δ μ γ : Type) where
  encrypt : (key : κ) → (nonce : ν) → (message : μ) → (associated : δ) → γ
  /-- `none` where the tag does not verify. -/
  decrypt : (key : κ) → (nonce : ν) → (ciphertext : γ) → (associated : δ) → Option μ
  opens : ∀ key nonce message associated ciphertext,
    decrypt key nonce ciphertext associated = some message ↔ ciphertext = encrypt key nonce message associated

namespace Sealing
variable {κ ν δ μ γ α : Type}

@[simp] theorem decrypt_encrypt (sealing : Sealing κ ν δ μ γ) (key : κ) (nonce : ν) (message : μ) (associated : δ) :
    sealing.decrypt key nonce (sealing.encrypt key nonce message associated) associated = some message :=
  (sealing.opens key nonce message associated _).mpr rfl

def framed [DecidableEq α] : Sealing (List α) (List α) (List α) (List α) (List α) where
  encrypt key nonce message associated := key ++ nonce ++ associated ++ message
  decrypt key nonce ciphertext associated := (key ++ nonce ++ associated).isPrefixOf? ciphertext
  opens _ _ _ _ _ := List.isPrefixOf?_eq_some_iff_append_eq.trans eq_comm

end Sealing
end TinyHermes.Lib
