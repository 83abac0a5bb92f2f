import Mathlib.Data.Nat.Digits.Defs
import Mathlib.Tactic.IntervalCases

/-!
# Hexadecimal text

Numbers written in lower-case hexadecimal digits, one in each line, and the
reader of such a text.
-/

namespace SisRv.HexText

/-! ## Digits -/

/-- The value of a hexadecimal digit. -/
def digitValue (c : Char) : Option ℕ :=
  if '0' ≤ c ∧ c ≤ '9' then some (c.toNat - '0'.toNat)
  else if 'a' ≤ c ∧ c ≤ 'f' then some (c.toNat - 'a'.toNat + 10)
  else if 'A' ≤ c ∧ c ≤ 'F' then some (c.toNat - 'A'.toNat + 10)
  else none

/-- The number that a run of digits continues. -/
def readDigit (value : ℕ) (c : Char) : Option ℕ :=
  (digitValue c).map (16 * value + ·)

def readHex (digits : List Char) : Option ℕ :=
  digits.foldlM readDigit 0

/-- A number in at least `width` digits. -/
def hexDigits (width n : ℕ) : List Char :=
  List.leftpad width '0' (Nat.toDigits 16 n)

theorem digitValue_digitChar {d : ℕ} (digit : d < 16) :
    digitValue d.digitChar = some d := by
  interval_cases d <;> decide

theorem readHex_toDigits (n : ℕ) :
    readHex (Nat.toDigits 16 n) = some n := by
  induction n using Nat.strong_induction_on with
  | _ n inductionHypothesis =>
      by_cases single : n < 16
      · rw [Nat.toDigits_of_lt_base single, readHex, List.foldlM_cons,
          readDigit, digitValue_digitChar single]
        simp
      · have before := inductionHypothesis (n / 16) (by omega)
        have digit : n % 16 < 16 := Nat.mod_lt n (by decide)
        rw [readHex] at before
        rw [Nat.toDigits_of_base_le (by decide) (by omega), readHex,
          List.foldlM_append, before, Option.bind_eq_bind, Option.bind_some,
          List.foldlM_cons, readDigit, digitValue_digitChar digit]
        simp only [Option.map_some, Option.bind_eq_bind, Option.bind_some,
          List.foldlM_nil, Option.pure_def]
        rw [Nat.div_add_mod]

theorem readHex_zeros (k : ℕ) (digits : List Char) :
    readHex (List.replicate k '0' ++ digits) = readHex digits := by
  induction k with
  | zero => rfl
  | succ k inductionHypothesis =>
      rw [← inductionHypothesis]
      rfl

/-- A number is read back as it was written. -/
theorem readHex_hexDigits (width n : ℕ) :
    readHex (hexDigits width n) = some n := by
  rw [hexDigits, List.leftpad, readHex_zeros, readHex_toDigits]

theorem digitValue_of_mem {digits : List Char} {value n : ℕ}
    (reads : digits.foldlM readDigit value = some n) {c : Char}
    (member : c ∈ digits) : digitValue c ≠ none := by
  induction digits generalizing value with
  | nil => exact absurd member List.not_mem_nil
  | cons head tail inductionHypothesis =>
      rw [List.foldlM_cons, Option.bind_eq_bind,
        Option.bind_eq_some_iff] at reads
      obtain ⟨next, first, rest⟩ := reads
      rcases List.mem_cons.mp member with rfl | later
      · intro invalid
        rw [readDigit, invalid] at first
        exact Option.some_ne_none next first.symm
      · exact inductionHypothesis rest later

/-! ## Lines -/

/-- A text with one number in each line. -/
def lines (width : ℕ) (numbers : List ℕ) : List (List Char) :=
  numbers.map (hexDigits width)

/-- The numbers of a text with one in each line. -/
def readLines (text : List Char) : Option (List ℕ) :=
  ((text.splitOn '\n').filter (· ≠ [])).mapM readHex

variable (width : ℕ) (numbers : List ℕ)

theorem newline_not_mem_hexDigits (n : ℕ) :
    '\n' ∉ hexDigits width n := by
  intro member
  exact digitValue_of_mem (readHex_hexDigits width n) member (by decide)

theorem hexDigits_ne_nil (n : ℕ) : hexDigits width n ≠ [] := by
  intro empty
  have reads := (List.append_eq_nil_iff.mp empty).2
  exact Nat.toDigits_ne_nil reads

theorem mapM_readHex :
    (lines width numbers).mapM readHex = some numbers := by
  induction numbers with
  | nil => rfl
  | cons n rest inductionHypothesis =>
      rw [lines] at inductionHypothesis
      rw [lines, List.map_cons, List.mapM_cons, readHex_hexDigits,
        inductionHypothesis]
      rfl

/-- Lines that end in newlines are read back as they were written. -/
theorem readLines_lines :
    readLines (['\n'].intercalate (lines width numbers) ++
      if (lines width numbers).isEmpty then [] else ['\n']) =
        some numbers := by
  rcases numbers with _ | ⟨first, rest⟩
  · rfl
  have some_lines : lines width (first :: rest) ≠ [] := nofun
  have nonempty : (lines width (first :: rest)).filter (· ≠ []) =
      lines width (first :: rest) := by
    refine List.filter_eq_self.mpr fun line member => ?_
    obtain ⟨n, -, rfl⟩ := List.mem_map.mp member
    simpa using hexDigits_ne_nil width n
  have split : (['\n'].intercalate (lines width (first :: rest)) ++
      ['\n']).splitOn '\n' = lines width (first :: rest) ++ [[]] := by
    rw [List.splitOn_append_cons_self, List.splitOn_intercalate _ _
      some_lines, List.splitOn_nil]
    intro line member
    obtain ⟨n, -, rfl⟩ := List.mem_map.mp member
    exact newline_not_mem_hexDigits width n
  rw [if_neg (by simp [lines]), readLines, split, List.filter_append,
    nonempty]
  simp only [ne_eq, not_true_eq_false, decide_false, Bool.false_eq_true,
    not_false_eq_true, List.filter_cons_of_neg, List.filter_nil,
    List.append_nil]
  exact mapM_readHex width (first :: rest)

end SisRv.HexText
