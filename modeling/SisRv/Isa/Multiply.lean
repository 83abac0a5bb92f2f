import SisRv.Lib.BitField
import SisRv.Rtl.Alu

/-!
# RV32M over the integers

The products, quotients and remainders of `rv32m_result`, and the operands
that its division operators see.
-/

namespace SisRv

/-! ## Products -/

section Products

variable (a b : BitVec 32)

/-- A 64-bit product of a signed word and an integer of 33 bits is exact. -/
theorem toInt_mul_of_small
    {x y : BitVec 64} (left : x.toInt.natAbs ≤ 2 ^ 31)
    (right : y.toInt.natAbs ≤ 2 ^ 32 - 1) :
    (x * y).toInt = x.toInt * y.toInt := by
  have bound : (x.toInt * y.toInt).natAbs ≤ 2 ^ 31 * (2 ^ 32 - 1) := by
    rw [Int.natAbs_mul]
    exact Nat.mul_le_mul left right
  rw [BitVec.toInt_mul, Int.bmod_eq_of_le (by omega) (by omega)]

theorem natAbs_toInt_le : a.toInt.natAbs ≤ 2 ^ 31 := by
  have above := a.toInt_lt
  have below := a.le_toInt
  omega

theorem toInt_signExtend : (a.signExtend 64).toInt = a.toInt :=
  BitVec.toInt_signExtend_of_le (by decide)

theorem toInt_zeroExtend : (a.zeroExtend 64).toInt = a.toNat := by
  have bound := a.isLt
  rw [BitVec.toInt_setWidth, Int.bmod_eq_of_le (by omega) (by omega)]

theorem toInt_ssProduct :
    (a.signExtend 64 * b.signExtend 64).toInt = a.toInt * b.toInt := by
  have left := natAbs_toInt_le a
  have right := natAbs_toInt_le b
  rw [toInt_mul_of_small, toInt_signExtend, toInt_signExtend]
  · rw [toInt_signExtend]
    exact left
  · rw [toInt_signExtend]
    omega

theorem toInt_suProduct :
    (a.signExtend 64 * b.zeroExtend 64).toInt = a.toInt * b.toNat := by
  have left := natAbs_toInt_le a
  have right := b.isLt
  rw [toInt_mul_of_small, toInt_signExtend, toInt_zeroExtend]
  · rw [toInt_signExtend]
    exact left
  · rw [toInt_zeroExtend]
    omega

theorem toNat_uuProduct :
    (a.zeroExtend 64 * b.zeroExtend 64).toNat = a.toNat * b.toNat := by
  have bound : a.toNat * b.toNat ≤ (2 ^ 32 - 1) * (2 ^ 32 - 1) :=
    Nat.mul_le_mul (by omega) (by omega)
  have left : (a.zeroExtend 64).toNat = a.toNat := by
    rw [BitVec.toNat_setWidth, Nat.mod_eq_of_lt (by omega)]
  have right : (b.zeroExtend 64).toNat = b.toNat := by
    rw [BitVec.toNat_setWidth, Nat.mod_eq_of_lt (by omega)]
  rw [BitVec.toNat_mul, left, right, Nat.mod_eq_of_lt (by omega)]

/-! ### High and low words -/

variable (x : BitVec 64)

theorem toInt_words :
    x.toInt = (x.extractLsb' 32 32).toInt * 2 ^ 32 +
      (x.extractLsb' 0 32).toNat := by
  have whole : x = x.extractLsb' 32 32 ++ x.extractLsb' 0 32 := by
    simp (disch := decide) only
      [BitVec.extractLsb'_append_extractLsb'_eq_extractLsb']
    simp
  conv_lhs => rw [whole]
  rw [BitVec.toInt_append, if_neg (by decide), mul_comm]

theorem toNat_words :
    x.toNat = (x.extractLsb' 32 32).toNat * 2 ^ 32 +
      (x.extractLsb' 0 32).toNat := by
  have bound := x.isLt
  rw [BitVec.extractLsb'_toNat, BitVec.extractLsb'_toNat,
    Nat.shiftRight_eq_div_pow, Nat.shiftRight_eq_div_pow]
  omega

/-- The low word does not depend on the extension. -/
theorem low_product (y : BitVec 64) :
    (x * y).extractLsb' 0 32 =
      x.extractLsb' 0 32 * y.extractLsb' 0 32 := by
  rw [← BitVec.setWidth_eq_extractLsb' (by decide),
    ← BitVec.setWidth_eq_extractLsb' (by decide),
    ← BitVec.setWidth_eq_extractLsb' (by decide),
    BitVec.setWidth_mul _ _ (by decide)]

theorem low_signExtend : (a.signExtend 64).extractLsb' 0 32 = a := by
  rw [BitField.extract_signExtend a (by decide) (by decide)]
  simp

theorem low_zeroExtend : (a.zeroExtend 64).extractLsb' 0 32 = a := by
  rw [← BitVec.setWidth_eq_extractLsb' (by decide),
    BitVec.setWidth_setWidth_of_le _ (by decide), BitVec.setWidth_eq]

end Products

/-! ## Quotients and remainders -/

/-- The quotient and remainder of RV32M, read as signed numbers. -/
structure SignedDivision (a b q r : ℤ) : Prop where
  exact_of_divisible : b ≠ 0 → ¬ (a = -2 ^ 31 ∧ b = -1) →
    a = b * q + r ∧ r.natAbs < b.natAbs ∧ (r = 0 ∨ r.sign = a.sign)
  of_overflow : a = -2 ^ 31 → b = -1 → q = -2 ^ 31 ∧ r = 0
  of_zero : b = 0 → q = -1 ∧ r = a

/-- The quotient and remainder of RV32M, read as unsigned numbers. -/
structure UnsignedDivision (a b q r : ℕ) : Prop where
  exact_of_pos : 0 < b → a = b * q + r ∧ r < b
  of_zero : b = 0 → q = 2 ^ 32 - 1 ∧ r = a

section Division

variable (a b : BitVec 32)

theorem toInt_eq_zero : b.toInt = 0 ↔ b = 0#32 := by
  rw [← BitVec.toInt_zero (w := 32), BitVec.toInt_inj]

theorem toInt_eq_min : a.toInt = -2 ^ 31 ↔ a = 0x80000000#32 := by
  rw [show (-2 ^ 31 : ℤ) = (0x80000000#32).toInt by decide,
    BitVec.toInt_inj]

theorem toInt_eq_neg_one : b.toInt = -1 ↔ b = 0xFFFFFFFF#32 := by
  rw [show (-1 : ℤ) = (0xFFFFFFFF#32).toInt by decide, BitVec.toInt_inj]

theorem tmod_small {x y : ℤ} (nonzero : y ≠ 0) :
    (x.tmod y).natAbs < y.natAbs := by
  rw [Int.natAbs_tmod]
  exact Nat.mod_lt _ (Int.natAbs_pos.mpr nonzero)

theorem tmod_sign (x y : ℤ) :
    x.tmod y = 0 ∨ (x.tmod y).sign = x.sign := by
  by_cases divides : y ∣ x
  · exact Or.inl (Int.tmod_eq_zero_of_dvd divides)
  · right
    rw [Int.sign_tmod, if_neg divides]

theorem toInt_sdiv
    (fits : ¬ (a = 0x80000000#32 ∧ b = 0xFFFFFFFF#32)) :
    (a.sdiv b).toInt = a.toInt.tdiv b.toInt := by
  apply BitVec.toInt_sdiv_of_ne_or_ne
  by_contra both
  push Not at both
  exact fits both

theorem signedDivision_of_word :
    SignedDivision a.toInt b.toInt (rv32mResult a b 0b100).toInt
      (rv32mResult a b 0b110).toInt where
  exact_of_divisible := by
    rw [Ne, toInt_eq_zero, toInt_eq_min, toInt_eq_neg_one]
    intro nonzero fits
    have quotient : rv32mResult a b 0b100 = a.sdiv b := by
      simp [rv32mResult, nonzero, fits]
    have remainder : rv32mResult a b 0b110 = a.srem b := by
      simp [rv32mResult, nonzero, fits]
    rw [quotient, remainder, toInt_sdiv a b fits, BitVec.toInt_srem]
    refine ⟨(Int.mul_tdiv_add_tmod _ _).symm, tmod_small ?_, tmod_sign _ _⟩
    rwa [Ne, toInt_eq_zero]
  of_overflow := by
    rw [toInt_eq_min, toInt_eq_neg_one]
    rintro rfl rfl
    decide
  of_zero := by
    rw [toInt_eq_zero]
    rintro rfl
    simp [rv32mResult]

theorem unsignedDivision_of_word :
    UnsignedDivision a.toNat b.toNat (rv32mResult a b 0b101).toNat
      (rv32mResult a b 0b111).toNat where
  exact_of_pos := by
    intro positive
    have nonzero : b ≠ 0#32 := by
      rintro rfl
      simp at positive
    have quotient : rv32mResult a b 0b101 = a / b := by
      simp [rv32mResult, nonzero]
    have remainder : rv32mResult a b 0b111 = a % b := by
      simp [rv32mResult, nonzero]
    rw [quotient, remainder, BitVec.toNat_udiv, BitVec.toNat_umod]
    exact ⟨(Nat.div_add_mod _ _).symm, Nat.mod_lt _ positive⟩
  of_zero := by
    intro zero
    obtain rfl : b = 0#32 := BitVec.eq_of_toNat_eq zero
    simp [rv32mResult]

/-! ### The operators' operands -/

/-- `/` on signed words: no value at a zero divisor, nor where the
quotient does not fit. -/
def signedQuotient : Option (BitVec 32) :=
  if b.toInt ≠ 0 ∧ a.toInt.tdiv b.toInt < 2 ^ 31 then some (a.sdiv b)
  else none

/-- `%` on signed words, defined where `/` is. -/
def signedRemainder : Option (BitVec 32) :=
  if b.toInt ≠ 0 ∧ a.toInt.tdiv b.toInt < 2 ^ 31 then some (a.srem b)
  else none

def unsignedQuotient : Option (BitVec 32) :=
  if b.toNat ≠ 0 then some (a / b) else none

def unsignedRemainder : Option (BitVec 32) :=
  if b.toNat ≠ 0 then some (a % b) else none

/-- `rv32m_result` with the partial operators in place of `/` and `%`. -/
def rv32mPartial (lhs rhs : BitVec 32) (op : BitVec 3) :
    Option (BitVec 32) :=
  let ssProduct : BitVec 64 := lhs.signExtend 64 * rhs.signExtend 64
  let suProduct : BitVec 64 := lhs.signExtend 64 * rhs.zeroExtend 64
  let uuProduct : BitVec 64 := lhs.zeroExtend 64 * rhs.zeroExtend 64
  if op = 0b000 then some (ssProduct.extractLsb' 0 32)
  else if op = 0b001 then some (ssProduct.extractLsb' 32 32)
  else if op = 0b010 then some (suProduct.extractLsb' 32 32)
  else if op = 0b011 then some (uuProduct.extractLsb' 32 32)
  else if op = 0b100 then
    if rhs = 0 then some 0xFFFFFFFF
    else if lhs = 0x80000000 ∧ rhs = 0xFFFFFFFF then some 0x80000000
    else signedQuotient lhs rhs
  else if op = 0b101 then
    if rhs = 0 then some 0xFFFFFFFF else unsignedQuotient lhs rhs
  else if op = 0b110 then
    if rhs = 0 then some lhs
    else if lhs = 0x80000000 ∧ rhs = 0xFFFFFFFF then some 0
    else signedRemainder lhs rhs
  else if rhs = 0 then some lhs else unsignedRemainder lhs rhs

theorem signed_defined (nonzero : b ≠ 0#32)
    (fits : ¬ (a = 0x80000000#32 ∧ b = 0xFFFFFFFF#32)) :
    b.toInt ≠ 0 ∧ a.toInt.tdiv b.toInt < 2 ^ 31 := by
  rw [Ne, toInt_eq_zero, ← toInt_sdiv a b fits]
  exact ⟨nonzero, BitVec.toInt_lt⟩

theorem unsigned_defined (nonzero : b ≠ 0#32) : b.toNat ≠ 0 :=
  fun zero => nonzero (BitVec.eq_of_toNat_eq zero)

/-- `rv32m_result` divides only where the operator has a value. -/
theorem rv32mPartial_eq (op : BitVec 3) :
    rv32mPartial a b op = some (rv32mResult a b op) := by
  unfold rv32mPartial rv32mResult
  dsimp only
  by_cases mul : op = 0b000
  · rw [if_pos mul, if_pos mul]
  rw [if_neg mul, if_neg mul]
  by_cases mulh : op = 0b001
  · rw [if_pos mulh, if_pos mulh]
  rw [if_neg mulh, if_neg mulh]
  by_cases mulhsu : op = 0b010
  · rw [if_pos mulhsu, if_pos mulhsu]
  rw [if_neg mulhsu, if_neg mulhsu]
  by_cases mulhu : op = 0b011
  · rw [if_pos mulhu, if_pos mulhu]
  rw [if_neg mulhu, if_neg mulhu]
  -- each division looks at its arguments first
  have signed {quotient : Option (BitVec 32)} {zero overflow value : BitVec 32}
      (defined : b ≠ 0 → ¬ (a = 0x80000000 ∧ b = 0xFFFFFFFF) →
        quotient = some value) :
      (if b = 0 then some zero
        else if a = 0x80000000 ∧ b = 0xFFFFFFFF then some overflow
        else quotient) =
        some (if b = 0 then zero
          else if a = 0x80000000 ∧ b = 0xFFFFFFFF then overflow
          else value) := by
    split_ifs with none fits
    · rfl
    · rfl
    · exact defined none fits
  have unsigned {quotient : Option (BitVec 32)} {zero value : BitVec 32}
      (defined : b ≠ 0 → quotient = some value) :
      (if b = 0 then some zero else quotient) =
        some (if b = 0 then zero else value) := by
    split_ifs with none
    · rfl
    · exact defined none
  by_cases div : op = 0b100
  · rw [if_pos div, if_pos div]
    exact signed fun nonzero fits =>
      if_pos (signed_defined a b nonzero fits)
  rw [if_neg div, if_neg div]
  by_cases divu : op = 0b101
  · rw [if_pos divu, if_pos divu]
    exact unsigned fun nonzero => if_pos (unsigned_defined b nonzero)
  rw [if_neg divu, if_neg divu]
  by_cases rem : op = 0b110
  · rw [if_pos rem, if_pos rem]
    exact signed fun nonzero fits =>
      if_pos (signed_defined a b nonzero fits)
  rw [if_neg rem, if_neg rem]
  exact unsigned fun nonzero => if_pos (unsigned_defined b nonzero)

end Division

/-! ## RV32M is exact -/

/-- The four products as words of the exact product, the two divisions by
their defining equations, and no operator without a value. -/
theorem rv32m_exact (a b : BitVec 32) :
    (a.toInt * b.toInt = (rv32mResult a b 0b001).toInt * 2 ^ 32 +
        (rv32mResult a b 0b000).toNat ∧
      a.toInt * b.toNat = (rv32mResult a b 0b010).toInt * 2 ^ 32 +
        (rv32mResult a b 0b000).toNat ∧
      a.toNat * b.toNat = (rv32mResult a b 0b011).toNat * 2 ^ 32 +
        (rv32mResult a b 0b000).toNat) ∧
    SignedDivision a.toInt b.toInt (rv32mResult a b 0b100).toInt
      (rv32mResult a b 0b110).toInt ∧
    UnsignedDivision a.toNat b.toNat (rv32mResult a b 0b101).toNat
      (rv32mResult a b 0b111).toNat ∧
    ∀ op, rv32mPartial a b op = some (rv32mResult a b op) := by
  have low : rv32mResult a b 0b000 = a * b := by
    simp [rv32mResult, low_product, low_signExtend]
  refine ⟨⟨?_, ?_, ?_⟩, signedDivision_of_word a b,
    unsignedDivision_of_word a b, rv32mPartial_eq a b⟩
  · rw [← toInt_ssProduct, toInt_words, low_product, low_signExtend,
      low_signExtend, low]
    rfl
  · rw [← toInt_suProduct, toInt_words, low_product, low_signExtend,
      low_zeroExtend, low]
    rfl
  · rw [← toNat_uuProduct, toNat_words, low_product, low_zeroExtend,
      low_zeroExtend, low]
    rfl

end SisRv
