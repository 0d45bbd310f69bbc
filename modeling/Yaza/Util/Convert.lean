import Yaza.Lib.LittleEndian
import Mathlib.Data.Int.Notation

/-! How the arrays of a request become integers (`util/convert.cpp`). -/
namespace Yaza
open LittleEndian

/-- `from_wl_array` of an `off_t`: the bytes are copied over the first ones that `dst` has. -/
def fromWlArray (array : List UInt8) (dst : Int64) : Option Int64 :=
  if array.length = 4 ∨ array.length = 8 then
    let rest := (encode 8 dst.toUInt64.toNat).drop array.length
    some (Int64.ofInt (value (array ++ rest)))
  else none

/-- The integer that an array of four or eight bytes encodes. -/
def encoded (array : List UInt8) : Option ℤ :=
  if array.length = 4 ∨ array.length = 8 then some (signed array) else none

/-- Over zero the shorter arrays are extended by zeros, whatever their sign. -/
theorem fromWlArray_zero {array : List UInt8} (h : array.length = 4 ∨ array.length = 8) :
    fromWlArray array 0 = some (Int64.ofInt (value array)) := by
  have h0 : (0 : Int64).toUInt64.toNat = 0 := rfl
  simp only [fromWlArray, if_pos h, h0, encode_zero, List.drop_replicate, value_append_zeros]

theorem fromWlArray_eq_none {array : List UInt8} (h : ¬ (array.length = 4 ∨ array.length = 8))
    (dst : Int64) : fromWlArray array dst = none := if_neg h

theorem encoded_of_length {array : List UInt8} (h : array.length = 4 ∨ array.length = 8) :
    encoded array = some (signed array) := if_pos h

theorem encoded_eq_none {array : List UInt8} (h : ¬ (array.length = 4 ∨ array.length = 8)) :
    encoded array = none := if_neg h

/-- A short array of a negative integer. -/
def IsShortNegative (array : List UInt8) : Prop := array.length = 4 ∧ signed array < 0

instance (array : List UInt8) : Decidable (IsShortNegative array) :=
  inferInstanceAs (Decidable (_ ∧ _))

/-- The sign is lost, and nothing else. -/
theorem toInt_ofInt_value {array : List UInt8} (h : array.length = 4 ∨ array.length = 8) :
    (Int64.ofInt (value array)).toInt = signed array ↔ ¬ IsShortNegative array := by
  have hv := value_lt array
  unfold IsShortNegative
  rw [signed_neg_iff, Int64.toInt_ofInt, Int.bmod_def, signed]
  rcases h with h | h
  · rw [h] at hv ⊢
    norm_num at hv ⊢
    omega
  · rw [h] at hv ⊢
    norm_num at hv ⊢
    omega

/-- The decoder is right about every array over zero but those. -/
theorem fromWlArray_encoded_iff (array : List UInt8) :
    (fromWlArray array 0).map Int64.toInt = encoded array ↔ ¬ IsShortNegative array := by
  by_cases h : array.length = 4 ∨ array.length = 8
  · rw [fromWlArray_zero h, encoded_of_length h, Option.map_some, Option.some.injEq,
      toInt_ofInt_value h]
  · rw [fromWlArray_eq_none h, encoded_eq_none h]
    have hn : ¬ IsShortNegative array := fun hs => h (.inl hs.1)
    simp [hn]

end Yaza
