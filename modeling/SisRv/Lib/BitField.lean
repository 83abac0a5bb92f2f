import Mathlib.Data.BitVec

/-!
# Bit fields

A word written as the concatenation of its fields: a field of a field, a field
of a concatenation, and a word put together from all its fields.
-/

namespace SisRv.BitField

variable {w : ℕ}

/-- A field of a field. -/
theorem extract_extract
    {start len start' len' : ℕ} (x : BitVec w) (inside : start' + len' ≤ len) :
    (x.extractLsb' start len).extractLsb' start' len' =
      x.extractLsb' (start + start') len' := by
  ext k within
  simp only [BitVec.getElem_extractLsb', BitVec.getLsbD_extractLsb']
  rw [decide_eq_true (by omega : start' + k < len), Bool.true_and,
    Nat.add_assoc]

/-- The low bits of an extension. -/
theorem extract_signExtend
    {wide len : ℕ} (x : BitVec w) (short : len ≤ w) (fits : len ≤ wide) :
    (x.signExtend wide).extractLsb' 0 len = x.extractLsb' 0 len := by
  ext k within
  simp only [BitVec.getElem_extractLsb', BitVec.getLsbD_signExtend,
    Nat.zero_add]
  rw [decide_eq_true (by omega : k < wide), Bool.true_and,
    if_pos (by omega : k < w)]

theorem extract_one (x : BitVec w) (k : ℕ) :
    x.extractLsb' k 1 = BitVec.ofBool (x.getLsbD k) := by
  ext j within
  have zero : j = 0 := by omega
  subst zero
  simp

/-- A word with two fields that fill it. -/
theorem eq_append
    {m n : ℕ} {x : BitVec (m + n)} {high : BitVec m} {low : BitVec n}
    (upper : x.extractLsb' n m = high) (lower : x.extractLsb' 0 n = low) :
    x = high ++ low := by
  rw [← upper, ← lower,
    BitVec.extractLsb'_append_extractLsb'_eq_extractLsb' (by omega)]
  exact BitVec.extractLsb'_eq_self.symm

/-- Zeros below do not change the sign. -/
theorem signExtend_append_zeros
    {k : ℕ} (x : BitVec w) (wide : ℕ) (fits : w ≤ wide) :
    (x ++ 0#k).signExtend (wide + k) = x.signExtend wide ++ 0#k := by
  apply BitVec.eq_of_toInt_eq
  rw [BitVec.toInt_signExtend_of_le (by omega), BitVec.toInt_append,
    BitVec.toInt_append, BitVec.toInt_signExtend_of_le fits]
  rcases Nat.eq_zero_or_pos w with none | some
  · subst none
    simp [BitVec.eq_nil x]
  · have wider : wide ≠ 0 := by omega
    simp [some.ne', wider]

end SisRv.BitField
