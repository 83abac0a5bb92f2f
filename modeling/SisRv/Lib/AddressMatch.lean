import Mathlib.Data.BitVec
import Mathlib.Data.List.FinRange
import Mathlib.Data.Nat.Find
import Mathlib.Tactic.Ring

/-!
# Address blocks and first matches

Aligned power-of-two blocks of natural numbers, the masks that compute them in
fixed width, the trailing ones that encode their size, and the first index
that satisfies a predicate.
-/

namespace Sync

/-! ## Aligned blocks -/

/-- The start of the block of the given size that a number lies in. -/
def alignDown (x size : ℕ) : ℕ := x / size * size

/-- Lying between the start and the end of a block is lying in it. -/
theorem mem_block_iff {x size : ℕ} (positive : 0 < size) (a : ℕ) :
    (alignDown x size ≤ a ∧ a < alignDown x size + size) ↔
      a / size = x / size := by
  unfold alignDown
  rw [← Nat.succ_mul, ← Nat.le_div_iff_mul_le positive,
    ← Nat.div_lt_iff_lt_mul positive]
  omega

theorem alignDown_add_le
    {x size bound : ℕ} (divides : size ∣ bound) (below : x < bound) :
    alignDown x size + size ≤ bound := by
  obtain ⟨blocks, rfl⟩ := divides
  have inside : x / size < blocks := Nat.div_lt_of_lt_mul below
  calc
    alignDown x size + size = (x / size + 1) * size := by
      rw [alignDown, Nat.succ_mul]
    _ ≤ blocks * size := Nat.mul_le_mul_right size inside
    _ = size * blocks := Nat.mul_comm _ _

/-- Two numbers of one block of size 4 are in one block of any larger power of
two. -/
theorem div_pow_eq_of_div_four
    {a b k : ℕ} (same : a / 4 = b / 4) (large : 2 ≤ k) :
    a / 2 ^ k = b / 2 ^ k := by
  obtain ⟨extra, rfl⟩ : ∃ extra, k = 2 + extra := ⟨k - 2, by omega⟩
  rw [pow_add, ← Nat.div_div_eq_div_mul, ← Nat.div_div_eq_div_mul]
  exact congrArg (· / 2 ^ extra) same

/-! ## Masks and slices -/

theorem slice_of_slice {w a m b k : ℕ} {x : BitVec w} (within : b + k ≤ m) :
    (x.extractLsb' a m).extractLsb' b k = x.extractLsb' (a + b) k := by
  apply BitVec.eq_of_getLsbD_eq
  intro j below
  have inside : b + j < m := by omega
  simp [below, inside, Nat.add_assoc]

theorem getLsbD_twoPow_sub_one {w k i : ℕ} (within : k < w) :
    (BitVec.twoPow w k - 1).getLsbD i = decide (i < k) := by
  have value : (BitVec.twoPow w k - 1).toNat = 2 ^ k - 1 := by
    have small : 2 ^ k < 2 ^ w := Nat.pow_lt_pow_right (by decide) within
    have positive : 0 < 2 ^ k := Nat.two_pow_pos k
    have one : (1 : BitVec w).toNat = 1 := by
      simp [BitVec.toNat_ofNat, Nat.mod_eq_of_lt, show 1 < 2 ^ w by omega]
    rw [BitVec.toNat_sub, BitVec.toNat_twoPow, one,
      Nat.mod_eq_of_lt small]
    have shifted : 2 ^ w - 1 + 2 ^ k = 2 ^ k - 1 + 2 ^ w := by omega
    rw [shifted, Nat.add_mod_right, Nat.mod_eq_of_lt (by omega)]
  rw [BitVec.getLsbD, value, Nat.testBit_two_pow_sub_one]

theorem toNat_and_not_mask {w k : ℕ} (within : k < w) (x : BitVec w) :
    (x &&& ~~~(BitVec.twoPow w k - 1)).toNat = alignDown x.toNat (2 ^ k) := by
  apply Nat.eq_of_testBit_eq
  intro i
  have shifted : alignDown x.toNat (2 ^ k) = x.toNat >>> k <<< k := by
    rw [alignDown, Nat.shiftRight_eq_div_pow, Nat.shiftLeft_eq]
  rw [shifted, Nat.testBit_shiftLeft, Nat.testBit_shiftRight,
    BitVec.testBit_toNat, BitVec.getLsbD_and, BitVec.getLsbD_not,
    getLsbD_twoPow_sub_one within]
  by_cases low : i < k
  · simp [low]
  · have high : k ≤ i := Nat.le_of_not_lt low
    by_cases inside : i < w
    · simp [low, high, inside, Nat.add_sub_cancel' high, BitVec.getLsbD]
    · have zero : x.toNat.testBit i = false :=
        Nat.testBit_lt_two_pow
          (lt_of_lt_of_le x.isLt (Nat.pow_le_pow_right (by decide) (by omega)))
      simp [low, high, inside, Nat.add_sub_cancel' high, zero]

/-! ## Trailing ones -/

theorem exists_clear_bit (n : ℕ) : ∃ t, n.testBit t = false :=
  ⟨n, Nat.testBit_lt_two_pow Nat.lt_two_pow_self⟩

/-- The position of the lowest clear bit. -/
def trailingOnes (n : ℕ) : ℕ := Nat.find (exists_clear_bit n)

theorem trailingOnes_eq
    {n t : ℕ} (ones : ∀ i, i < t → n.testBit i = true)
    (clear : n.testBit t = false) : trailingOnes n = t := by
  refine (Nat.find_eq_iff _).mpr ⟨clear, fun i below => ?_⟩
  simp [ones i below]

theorem testBit_of_lt_trailingOnes
    {n i : ℕ} (below : i < trailingOnes n) : n.testBit i = true := by
  simpa using Nat.find_min (exists_clear_bit n) below

theorem trailingOnes_le {n w : ℕ} (small : n < 2 ^ w) :
    trailingOnes n ≤ w :=
  Nat.find_min' _ (Nat.testBit_lt_two_pow small)

/-- Only the all-ones number has as many trailing ones as bits. -/
theorem trailingOnes_eq_width_iff {n w : ℕ} (small : n < 2 ^ w) :
    trailingOnes n = w ↔ n = 2 ^ w - 1 := by
  constructor
  · intro all
    apply Nat.eq_of_testBit_eq
    intro i
    rw [Nat.testBit_two_pow_sub_one]
    by_cases below : i < w
    · rw [testBit_of_lt_trailingOnes (by omega)]
      simp [below]
    · rw [Nat.testBit_lt_two_pow (lt_of_lt_of_le small
        (Nat.pow_le_pow_right (by decide) (Nat.le_of_not_lt below)))]
      simp [below]
  · rintro rfl
    exact trailingOnes_eq
      (fun i below => by simp [Nat.testBit_two_pow_sub_one, below])
      (by simp [Nat.testBit_two_pow_sub_one])

/-! ## First matches -/

section FirstMatch

variable {n : ℕ} {M R : Fin n → Bool}

theorem find?_finRange_eq_some_iff {i : Fin n} :
    (List.finRange n).find? M = some i ↔
      M i = true ∧ ∀ j, j < i → M j = false := by
  rw [List.find?_eq_some_iff_getElem]
  constructor
  · rintro ⟨holds, k, within, here, before⟩
    simp only [List.getElem_finRange] at here before
    subst here
    exact ⟨holds, fun j below => by simpa using before j below⟩
  · rintro ⟨holds, before⟩
    exact ⟨holds, i.val, by simp, by simp, fun j below => by
      simpa using before ⟨j, by omega⟩ below⟩

theorem find?_finRange_eq_none_iff :
    (List.finRange n).find? M = none ↔ ∀ i, M i = false := by
  simp

/-- Two predicates that agree up to the first match of the second have the
same first match. -/
theorem find?_finRange_congr
    (agree : ∀ i, (∀ j, j < i → R j = false) → M i = R i) :
    (List.finRange n).find? M = (List.finRange n).find? R := by
  cases found : (List.finRange n).find? R with
  | none =>
      rw [find?_finRange_eq_none_iff] at found ⊢
      exact fun i => (agree i fun j _ => found j).trans (found i)
  | some i =>
      rw [find?_finRange_eq_some_iff] at found ⊢
      refine ⟨(agree i found.2).trans found.1, fun j below => ?_⟩
      rw [agree j fun k lower => found.2 k (lower.trans below)]
      exact found.2 j below

/-- A disagreement of that kind has a lowest index, before which neither
matches. -/
theorem exists_first_disagreement
    (differ : ∃ i, (∀ j, j < i → R j = false) ∧ M i ≠ R i) :
    ∃ i, (∀ j, j < i → R j = false) ∧ (∀ j, j < i → M j = false) ∧
      M i ≠ R i := by
  obtain ⟨i, clear, differs⟩ := differ
  induction i using WellFoundedLT.induction with
  | ind i inductionHypothesis =>
      by_cases lower : ∃ j, j < i ∧ M j ≠ R j
      · obtain ⟨j, below, differsThere⟩ := lower
        exact inductionHypothesis j below
          (fun k before => clear k (before.trans below)) differsThere
      · push Not at lower
        exact ⟨i, clear, fun j below => (lower j below).trans (clear j below),
          differs⟩

end FirstMatch

end Sync
