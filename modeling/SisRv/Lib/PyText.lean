import Mathlib.Data.List.DropRight

/-!
# Text as Python scripts read it

Lines of a text, the white space around a line, and the runs of characters that
a regular expression takes.
-/

namespace SisRv.PyText

/-- `str.isspace` of one character, which is also `\s`. -/
def isSpace (c : Char) : Bool :=
  (9 ≤ c.toNat && c.toNat ≤ 13) || (28 ≤ c.toNat && c.toNat ≤ 32) ||
    [0x85, 0xA0, 0x1680, 0x2028, 0x2029, 0x202F, 0x205F, 0x3000].contains
      c.toNat ||
    (0x2000 ≤ c.toNat && c.toNat ≤ 0x200A)

/-- A character that ends a line. -/
def isLineBreak (c : Char) : Bool :=
  (10 ≤ c.toNat && c.toNat ≤ 13) || (28 ≤ c.toNat && c.toNat ≤ 30) ||
    [0x85, 0x2028, 0x2029].contains c.toNat

/-- The lines of a text behind the first characters of a line. -/
def splitLinesFrom (line : List Char) : List Char → List (List Char)
  | [] => if line = [] then [] else [line]
  | '\r' :: '\n' :: rest => line :: splitLinesFrom [] rest
  | c :: rest =>
      if isLineBreak c then line :: splitLinesFrom [] rest
      else splitLinesFrom (line ++ [c]) rest

/-- `str.splitlines`. -/
def splitlines : List Char → List (List Char) := splitLinesFrom []

/-- `str.strip`. -/
def strip (text : List Char) : List Char :=
  (text.dropWhile isSpace).rdropWhile isSpace

/-- `p+` in front of a pattern that starts with no `p`, and what follows. -/
def oneOrMore (p : Char → Bool) (text : List Char) :
    Option (List Char × List Char) :=
  if text.takeWhile p = [] then none
  else some (text.takeWhile p, text.dropWhile p)

/-! ## Lines -/

section Lines

variable {line : List Char} (rest : List Char)

theorem splitLinesFrom_append (before : List Char)
    (whole : ∀ c ∈ line, isLineBreak c = false) :
    splitLinesFrom before (line ++ '\n' :: rest) =
      (before ++ line) :: splitlines rest := by
  induction line generalizing before with
  | nil => simp [splitLinesFrom, splitlines, isLineBreak]
  | cons c line inductionHypothesis =>
      have goesOn := whole c List.mem_cons_self
      have other : c ≠ '\r' := by
        rintro rfl
        exact absurd goesOn (by decide)
      rw [List.cons_append, splitLinesFrom, goesOn,
        if_neg Bool.false_ne_true, inductionHypothesis _ fun c member =>
          whole c (List.mem_cons_of_mem _ member), List.append_assoc,
        List.singleton_append]
      exact fun _ return_ => absurd return_ other

/-- Lines that each end in a newline. -/
theorem splitlines_flatMap {Item : Type} (text : Item → List Char)
    (whole : ∀ item, ∀ c ∈ text item, isLineBreak c = false)
    (items : List Item) :
    splitlines (items.flatMap fun item => text item ++ ['\n']) =
      items.map text := by
  induction items with
  | nil => rfl
  | cons item items inductionHypothesis =>
      rw [List.flatMap_cons, List.append_assoc, List.singleton_append,
        splitlines, splitLinesFrom_append _ _ (whole item),
        inductionHypothesis]
      rfl

end Lines

/-! ## Runs -/

/-- Nothing is stripped between two characters that are no space. -/
theorem strip_of_ends {text : List Char}
    (first : ∀ c ∈ text.head?, isSpace c = false)
    (last : ∀ c ∈ text.getLast?, isSpace c = false) : strip text = text := by
  have front : text.dropWhile isSpace = text := by
    cases text with
    | nil => rfl
    | cons c rest =>
        exact List.dropWhile_cons_of_neg (by simp [first c rfl])
  rw [strip, front, List.rdropWhile_eq_self_iff]
  intro nonempty
  simp [last _ (List.getLast?_eq_some_getLast nonempty)]

theorem oneOrMore_append {p : Char → Bool} {run rest : List Char}
    (nonempty : run ≠ []) (all : ∀ c ∈ run, p c = true)
    (stop : ∀ c ∈ rest.head?, p c = false) :
    oneOrMore p (run ++ rest) = some (run, rest) := by
  have front : rest.takeWhile p = [] ∧ rest.dropWhile p = rest := by
    cases rest with
    | nil => exact ⟨rfl, rfl⟩
    | cons c rest =>
        have other : ¬ p c = true := by simp [stop c rfl]
        exact ⟨List.takeWhile_cons_of_neg other,
          List.dropWhile_cons_of_neg other⟩
  have taken : (run ++ rest).takeWhile p = run := by
    rw [List.takeWhile_append_of_pos all, front.1, List.append_nil]
  rw [oneOrMore, taken, if_neg nonempty, List.dropWhile_append_of_pos all,
    front.2]

end SisRv.PyText
