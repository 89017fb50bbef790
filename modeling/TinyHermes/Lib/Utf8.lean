import Mathlib

/-! Texts as the octets of UTF-8: reading them back, and their order. -/
namespace TinyHermes.Lib.Utf8

/-- `str.encode("utf-8")`. -/
def encode (cs : List Char) : List UInt8 := cs.flatMap String.utf8EncodeChar

/-- `bytes.decode("utf-8")`, `none` where it raises. -/
def decode (octets : List UInt8) : Option (List Char) := octets.toByteArray.utf8Decode?.map Array.toList

theorem decode_encode (cs : List Char) : decode (encode cs) = some cs := by
  have h : (encode cs).toByteArray = cs.utf8Encode := rfl
  rw [decode, h, List.utf8Decode?_utf8Encode]
  rfl

theorem encode_injective : Function.Injective encode := by
  intro _ _ h
  have hdecoded := congrArg decode h
  rw [decode_encode, decode_encode] at hdecoded
  exact Option.some.inj hdecoded

@[simp] theorem encode_nil : encode [] = [] := rfl

@[simp] theorem encode_append (a b : List Char) : encode (a ++ b) = encode a ++ encode b := List.flatMap_append

theorem length_encode_le (cs : List Char) : (encode cs).length ≤ 4 * cs.length := by
  induction cs with
  | nil => exact Nat.le_refl _
  | cons c cs ih =>
    have hone := Char.utf8Size_le_four c
    rw [encode, List.flatMap_cons, List.length_append, String.length_utf8EncodeChar, List.length_cons]
    rw [encode] at ih
    omega

theorem encode_ascii {cs : List Char} (h : ∀ c ∈ cs, c.toNat < 128) : encode cs = cs.map fun c => UInt8.ofNat c.toNat := by
  induction cs with
  | nil => rfl
  | cons c cs ih =>
    have hc : c.val.toNat ≤ 0x7f := Nat.le_of_lt_succ (h c List.mem_cons_self)
    have hone : String.utf8EncodeChar c = [UInt8.ofNat c.toNat] := by
      rw [String.utf8EncodeChar, if_pos hc]
      rfl
    rw [encode, List.flatMap_cons, hone, List.map_cons, List.singleton_append]
    exact congrArg _ (ih fun d hd => h d (List.mem_cons_of_mem _ hd))

/-- The octets of a smaller character are smaller, whatever follows. -/
theorem utf8EncodeChar_lt {c d : Char} (h : c < d) (rest rest' : List UInt8) :
    String.utf8EncodeChar c ++ rest < String.utf8EncodeChar d ++ rest' := by
  have hlt : c.val.toNat < d.val.toNat := h
  have hbound : d.val.toNat < 0x110000 := by
    have := d.valid
    rcases this with h | h
    · have : d.val.toNat < 0xd800 := h
      omega
    · exact h.2
  unfold String.utf8EncodeChar
  generalize c.val.toNat = v at hlt
  generalize d.val.toNat = w at hlt hbound
  have htwice : ∀ n : Nat, n / 4096 = n / 64 / 64 := by omega
  have hthrice : ∀ n : Nat, n / 262144 = n / 64 / 64 / 64 := by omega
  have hhead : ∀ n : Nat, (n % 8 + 240) % 2 ^ 8 = n % 8 + 240 := by omega
  have htail : ∀ n : Nat, (n % 64 + 128) % 2 ^ 8 = n % 64 + 128 := by omega
  dsimp only
  split_ifs
  all_goals
    simp only [List.cons_append, List.nil_append, List.cons_lt_cons_iff, UInt8.lt_iff_toNat_lt, ← UInt8.toNat_inj,
      UInt8.toNat_ofNat', htwice, hthrice, hhead, htail]
    omega

theorem encode_lt {a b : List Char} (h : a < b) : encode a < encode b := by
  induction a generalizing b with
  | nil =>
    cases b with
    | nil => exact absurd h (List.not_lt_nil _)
    | cons d =>
      rw [encode_nil, encode, List.flatMap_cons]
      cases hchar : String.utf8EncodeChar d with
      | nil => exact absurd hchar String.utf8EncodeChar_ne_nil
      | cons => exact List.nil_lt_cons _ _
  | cons c a ih =>
    cases b with
    | nil => exact absurd h (List.not_lt_nil _)
    | cons =>
      rw [encode, List.flatMap_cons, encode, List.flatMap_cons]
      rcases List.cons_lt_cons_iff.mp h with hlt | ⟨rfl, hlt⟩
      · exact utf8EncodeChar_lt hlt _ _
      · exact List.append_left_lt (ih hlt)

end TinyHermes.Lib.Utf8
