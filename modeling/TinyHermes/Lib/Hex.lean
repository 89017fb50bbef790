import Mathlib

/-! Numbers as hexadecimal texts of a fixed width. -/
namespace TinyHermes.Lib.Hex

def alphabet : List Char := "0123456789abcdef".toList

/-- The last `width` digits of a number, with leading zeros. -/
def digits : Nat → Nat → List Char
  | 0, _ => []
  | width + 1, n => digits width (n / 16) ++ [(n % 16).digitChar]

theorem digitChar_mem : ∀ n < 16, n.digitChar ∈ alphabet := by decide

theorem digitChar_inj : ∀ n < 16, ∀ n' < 16, n.digitChar = n'.digitChar → n = n' := by decide

@[simp] theorem length_digits (width n : Nat) : (digits width n).length = width := by
  induction width generalizing n with
  | zero => rfl
  | succ width ih => rw [digits, List.length_append, ih, List.length_singleton]

theorem mem_alphabet {width n : Nat} {c : Char} (hc : c ∈ digits width n) : c ∈ alphabet := by
  induction width generalizing n with
  | zero => cases hc
  | succ width ih =>
    rcases List.mem_append.mp hc with hc | hc
    · exact ih hc
    · rw [List.mem_singleton.mp hc]
      exact digitChar_mem _ (Nat.mod_lt n (by decide))

theorem digits_inj {width n n' : Nat} (hn : n < 16 ^ width) (hn' : n' < 16 ^ width) (h : digits width n = digits width n') :
    n = n' := by
  induction width generalizing n n' with
  | zero => omega
  | succ width ih =>
    obtain ⟨hhigh, hlow⟩ := List.append_inj' h rfl
    have hquotient : n / 16 = n' / 16 := by
      apply ih _ _ hhigh
      · exact Nat.div_lt_of_lt_mul (by rwa [pow_succ'] at hn)
      · exact Nat.div_lt_of_lt_mul (by rwa [pow_succ'] at hn')
    have hremainder := digitChar_inj _ (Nat.mod_lt n (by decide)) _ (Nat.mod_lt n' (by decide)) (List.cons.inj hlow).1
    omega

/-- `str` of a UUID. -/
def uuidText (id : Nat) : String :=
  let hex := digits 32 id
  String.ofList (hex.take 8 ++ '-' :: (hex.drop 8).take 4 ++ '-' :: (hex.drop 12).take 4 ++ '-' :: (hex.drop 16).take 4 ++
    '-' :: hex.drop 20)

theorem length_uuidText (id : Nat) : (uuidText id).toList.length = 36 := by
  simp [uuidText]

theorem mem_uuidText {id : Nat} {c : Char} (hc : c ∈ (uuidText id).toList) : c = '-' ∨ c ∈ alphabet := by
  have hdigit : ∀ cs : List Char, (∀ d ∈ cs, d ∈ digits 32 id) → c ∈ cs → c = '-' ∨ c ∈ alphabet :=
    fun cs hcs hmem => .inr (mem_alphabet (hcs c hmem))
  rw [uuidText, String.toList_ofList] at hc
  simp only [List.mem_append, List.mem_cons, or_assoc] at hc
  rcases hc with hc | rfl | hc | rfl | hc | rfl | hc | rfl | hc
  · exact hdigit _ (fun _ => List.mem_of_mem_take) hc
  · exact .inl rfl
  · exact hdigit _ (fun _ hd => List.mem_of_mem_drop (List.mem_of_mem_take hd)) hc
  · exact .inl rfl
  · exact hdigit _ (fun _ hd => List.mem_of_mem_drop (List.mem_of_mem_take hd)) hc
  · exact .inl rfl
  · exact hdigit _ (fun _ hd => List.mem_of_mem_drop (List.mem_of_mem_take hd)) hc
  · exact .inl rfl
  · exact hdigit _ (fun _ hd => List.mem_of_mem_drop hd) hc

example : uuidText 0x6fa459eaee8a4ca4894edb77e160355e = "6fa459ea-ee8a-4ca4-894e-db77e160355e" := by decide

end TinyHermes.Lib.Hex
