import Mathlib.Data.Nat.Digits.Lemmas
import Mathlib.Tactic.NormNum

/-! Integers as bytes, the least significant one first: without a sign, and in two's complement. -/
namespace LittleEndian

/-- What the bytes encode without a sign. -/
def value (bytes : List UInt8) : ℕ := Nat.ofDigits 256 (bytes.map UInt8.toNat)

/-- What they encode in two's complement. -/
def signed (bytes : List UInt8) : ℤ :=
  if 2 * value bytes < 256 ^ bytes.length then value bytes
  else value bytes - 256 ^ bytes.length

/-- The first bytes of a number. -/
def encode (width n : ℕ) : List UInt8 :=
  (List.range width).map fun i => UInt8.ofNat (n / 256 ^ i)

variable {bytes : List UInt8}

theorem value_lt (bytes : List UInt8) : value bytes < 256 ^ bytes.length := by
  have h : ∀ d ∈ bytes.map UInt8.toNat, d < 256 := by
    intro d hd
    obtain ⟨b, -, rfl⟩ := List.mem_map.mp hd
    exact b.toNat_lt
  simpa only [value, List.length_map] using
    Nat.ofDigits_lt_base_pow_length (by norm_num : 1 < 256) h

/-- Zeros behind the bytes do not change the number. -/
theorem value_append_zeros (bytes : List UInt8) (n : ℕ) :
    value (bytes ++ List.replicate n 0) = value bytes := by
  simp [value, Nat.ofDigits_append]

theorem encode_zero (width : ℕ) : encode width 0 = List.replicate width 0 := by
  simp [encode, List.map_const']

theorem signed_neg_iff : signed bytes < 0 ↔ 256 ^ bytes.length ≤ 2 * value bytes := by
  have hv : (value bytes : ℤ) < 256 ^ bytes.length := by exact_mod_cast value_lt bytes
  unfold signed
  split
  · omega
  · omega

end LittleEndian
