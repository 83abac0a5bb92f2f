import Mathlib.Data.BitVec
import Mathlib.Tactic.IntervalCases

/-!
# Little-endian byte memories

A memory of bytes that is read in half words and words and written in runs of
consecutive bytes, the byte of lowest weight at the lowest address.
-/

namespace SisRv.ByteMemory

universe u

variable {w : ℕ} (m : BitVec w → BitVec 8) (a : BitVec w)

def half : BitVec 16 := m (a + 1) ++ m a

def word : BitVec 32 := m (a + 3) ++ m (a + 2) ++ m (a + 1) ++ m a

/-- The bytes of a word, the lowest first. -/
def bytes (v : BitVec 32) : List (BitVec 8) :=
  [v.extractLsb' 0 8, v.extractLsb' 8 8, v.extractLsb' 16 8,
    v.extractLsb' 24 8]

/-- Consecutive bytes from an address on are replaced. -/
def write (data : List (BitVec 8)) : BitVec w → BitVec 8 := fun x =>
  (data[(x - a).toNat]?).getD (m x)

/-- A word depends on its four bytes only. -/
theorem word_congr {m m' : BitVec w → BitVec 8} {a : BitVec w}
    (same : ∀ k < 4, m (a + BitVec.ofNat w k) = m' (a + BitVec.ofNat w k)) :
    word m a = word m' a := by
  have zero : m a = m' a := by simpa using same 0 (by decide)
  have one : m (a + 1) = m' (a + 1) := same 1 (by decide)
  have two : m (a + 2) = m' (a + 2) := same 2 (by decide)
  have three : m (a + 3) = m' (a + 3) := same 3 (by decide)
  rw [word, word, zero, one, two, three]

/-- The bytes of a word. -/
theorem extract_word {k : ℕ} (below : k < 4) :
    (word m a).extractLsb' (8 * k) 8 = m (a + BitVec.ofNat w k) := by
  rw [word]
  interval_cases k
  · rw [show a + BitVec.ofNat w 0 = a from BitVec.add_zero a]
    exact BitVec.extractLsb'_append_eq_right
  · rw [BitVec.extractLsb'_append_eq_of_le (by decide)]
    exact BitVec.extractLsb'_append_eq_right
  · rw [BitVec.extractLsb'_append_eq_of_le (by decide),
      BitVec.extractLsb'_append_eq_of_le (by decide)]
    exact BitVec.extractLsb'_append_eq_right
  · rw [BitVec.extractLsb'_append_eq_of_le (by decide),
      BitVec.extractLsb'_append_eq_of_le (by decide),
      BitVec.extractLsb'_append_eq_of_le (by decide)]
    exact BitVec.extractLsb'_eq_self

/-- A byte of a word that is written in part or as a whole. -/
theorem getElem?_take_bytes {v : BitVec 32} {size k : ℕ} (short : size ≤ 4) :
    ((bytes v).take size)[k]? =
      if k < size then some (v.extractLsb' (8 * k) 8) else none := by
  split_ifs with inside
  · have bound : k < 4 := by omega
    rw [List.getElem?_take_of_lt inside]
    interval_cases k <;> rfl
  · rw [List.getElem?_take_eq_none (by omega)]

/-! ## A history of stores -/

section History

variable {Event : Type u} (stored : Event → BitVec w → Option (BitVec 8))

/-- Every address has the byte last stored there, or its first one. -/
def after (log : List Event) : BitVec w → BitVec 8 := fun x =>
  (log.reverse.findSome? fun event => stored event x).getD (m x)

@[simp]
theorem after_nil : after m stored [] = m := rfl

theorem after_concat (log : List Event) (event : Event) (x : BitVec w) :
    after m stored (log ++ [event]) x =
      (stored event x).getD (after m stored log x) := by
  simp only [after, List.reverse_append, List.reverse_singleton,
    List.singleton_append, List.findSome?_cons]
  cases stored event x <;> rfl

end History

/-! ## Offsets from an address -/

section Offsets

variable {x y : BitVec 32} {size : ℕ}

/-- Within one aligned group of four bytes an offset is a difference of
lanes. -/
theorem offset_lt_iff (fits : y.toNat % 4 + size ≤ 4) :
    (x - y).toNat < size ↔
      x.toNat / 4 = y.toNat / 4 ∧ y.toNat % 4 ≤ x.toNat % 4 ∧
        x.toNat % 4 < y.toNat % 4 + size := by
  have left := x.isLt
  have right := y.isLt
  rw [BitVec.toNat_sub]
  omega

theorem offset_eq (same : x.toNat / 4 = y.toNat / 4)
    (above : y.toNat % 4 ≤ x.toNat % 4) :
    (x - y).toNat = x.toNat % 4 - y.toNat % 4 := by
  have left := x.isLt
  have right := y.isLt
  rw [BitVec.toNat_sub]
  omega

end Offsets

end SisRv.ByteMemory
