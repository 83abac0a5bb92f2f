import SisRv.Lib.Trajectory
import Mathlib.Data.List.Infix
import Mathlib.Logic.Function.Iterate
import Mathlib.Order.Basic
import Mathlib.Order.Nat

/-!
# Machines that run at different speeds

A machine that makes a step in some cycles and stutters in the others has made
as many steps as cycles were marked.  Two such machines pass through the same
states, so that logs that only grow are comparable at any two cycles.
-/

namespace Sync

universe u v w

variable {State : Type u} {Event : Type v} {Value : Type w}

/-- The number of marked cycles before cycle `n`. -/
def occurrences (marked : ℕ → Bool) : ℕ → ℕ
  | 0 => 0
  | n + 1 => occurrences marked n + if marked n then 1 else 0

section Marks

variable {marked : ℕ → Bool}

theorem occurrences_succ_of_mark {n : ℕ} (mark : marked n = true) :
    occurrences marked (n + 1) = occurrences marked n + 1 := by
  simp [occurrences, mark]

theorem occurrences_succ_of_not_mark {n : ℕ} (unmarked : marked n = false) :
    occurrences marked (n + 1) = occurrences marked n := by
  simp [occurrences, unmarked]

theorem occurrences_le {m n : ℕ} (le : m ≤ n) :
    occurrences marked m ≤ occurrences marked n := by
  induction n, le using Nat.le_induction with
  | base => exact le_rfl
  | succ n above inductionHypothesis =>
      exact inductionHypothesis.trans (Nat.le_add_right _ _)

/-- There are at most as many marks as cycles. -/
theorem occurrences_le_self (n : ℕ) : occurrences marked n ≤ n := by
  induction n with
  | zero => exact le_rfl
  | succ n inductionHypothesis =>
      rw [occurrences]
      split_ifs <;> omega

/-- A number of marks that has been passed was once the number of marks. -/
theorem exists_occurrences_of_le {n k : ℕ}
    (le : k ≤ occurrences marked n) : ∃ m ≤ n, occurrences marked m = k := by
  induction n with
  | zero => exact ⟨0, le_rfl, (Nat.le_zero.mp le).symm⟩
  | succ n inductionHypothesis =>
      by_cases before : k ≤ occurrences marked n
      · obtain ⟨m, within, reached⟩ := inductionHypothesis before
        exact ⟨m, Nat.le_succ_of_le within, reached⟩
      · refine ⟨n + 1, le_rfl, le_antisymm ?_ le⟩
        rw [occurrences]
        split_ifs <;> omega

/-- Every number but 0 is first reached right behind a mark. -/
theorem exists_mark_of_occurrences {n k : ℕ}
    (reached : occurrences marked n = k + 1) :
    ∃ m, marked m = true ∧ occurrences marked (m + 1) = k + 1 := by
  induction n with
  | zero => cases reached
  | succ n inductionHypothesis =>
      cases mark : marked n with
      | true => exact ⟨n, mark, reached⟩
      | false =>
          rw [occurrences_succ_of_not_mark mark] at reached
          exact inductionHypothesis reached

/-- With an event at each mark there are as many events as marks. -/
theorem length_emitted (event : ℕ → Event) (n : ℕ) :
    (emitted (fun m => if marked m then some (event m) else none) n).length =
      occurrences marked n := by
  induction n with
  | zero => rfl
  | succ n inductionHypothesis =>
      rw [emitted, List.length_append, inductionHypothesis, occurrences]
      split_ifs <;> rfl

/-- If marks come again and again, every number of them is reached. -/
theorem exists_occurrences
    (often : ∀ n, ∃ m, n ≤ m ∧ marked m = true) (k : ℕ) :
    ∃ n, occurrences marked n = k := by
  induction k with
  | zero => exact ⟨0, rfl⟩
  | succ k inductionHypothesis =>
      obtain ⟨n, reached⟩ := inductionHypothesis
      obtain ⟨m, above, mark⟩ := often n
      have more : k + 1 ≤ occurrences marked (m + 1) := by
        rw [occurrences_succ_of_mark mark, ← reached]
        exact Nat.succ_le_succ (occurrences_le above)
      -- the count grows by one at a time
      have between : ∀ l, k + 1 ≤ occurrences marked l →
          ∃ n, occurrences marked n = k + 1 := by
        intro l
        induction l with
        | zero => exact fun le => absurd le (Nat.not_succ_le_zero k)
        | succ l inductionHypothesis =>
            intro le
            by_cases before : k + 1 ≤ occurrences marked l
            · exact inductionHypothesis before
            · refine ⟨l + 1, le_antisymm ?_ le⟩
              rw [occurrences]
              have small := Nat.lt_of_not_le before
              split_ifs <;> omega
      exact between (m + 1) more

end Marks

section Machine

variable {next : State → State} {start : State}

/-- A machine that steps at the marks is as far as it has met marks. -/
theorem iterate_of_stutter
    {marked : ℕ → Bool} (state : ℕ → State)
    (step : ∀ n, state (n + 1) =
      if marked n then next (state n) else state n) (n : ℕ) :
    state n = next^[occurrences marked n] (state 0) := by
  induction n with
  | zero => rfl
  | succ n inductionHypothesis =>
      rw [step]
      by_cases mark : marked n = true
      · rw [if_pos mark, occurrences_succ_of_mark mark,
          Function.iterate_succ_apply', ← inductionHypothesis]
      · rw [if_neg mark, occurrences_succ_of_not_mark (by simpa using mark),
          inductionHypothesis]

/-- A machine that moves with the events it meets is as far as they lead. -/
theorem foldl_of_stutter
    (event : ℕ → Option Event) (move : State → Event → State)
    (state : ℕ → State)
    (step : ∀ n, state (n + 1) = (event n).elim (state n) (move (state n)))
    (n : ℕ) :
    state n = (emitted event n).foldl move (state 0) := by
  induction n with
  | zero => rfl
  | succ n inductionHypothesis =>
      rw [step, emitted, List.foldl_append, ← inductionHypothesis]
      cases event n <;> rfl

section Logs

variable {log : State → List Event} (grows : ∀ s, log s <+: log (next s))
include grows

theorem log_iterate_grows {k l : ℕ} (le : k ≤ l) :
    log (next^[k] start) <+: log (next^[l] start) := by
  induction l, le using Nat.le_induction with
  | base => exact List.prefix_refl _
  | succ l above inductionHypothesis =>
      rw [Function.iterate_succ_apply']
      exact inductionHypothesis.trans (grows _)

theorem log_comparable (k l : ℕ) :
    log (next^[k] start) <+: log (next^[l] start) ∨
      log (next^[l] start) <+: log (next^[k] start) :=
  (le_total k l).imp (log_iterate_grows grows) (log_iterate_grows grows)

/-- What changes together with the log is determined by its length. -/
theorem observe_of_log_length
    {observe : State → Value}
    (silent : ∀ s, log (next s) = log s → observe (next s) = observe s)
    {k l : ℕ}
    (same : (log (next^[k] start)).length = (log (next^[l] start)).length) :
    observe (next^[k] start) = observe (next^[l] start) := by
  have ordered : ∀ k l, k ≤ l →
      (log (next^[k] start)).length = (log (next^[l] start)).length →
        observe (next^[l] start) = observe (next^[k] start) := by
    intro k l le
    induction l, le using Nat.le_induction with
    | base => exact fun _ => rfl
    | succ l above inductionHypothesis =>
        intro same
        have before : (log (next^[k] start)).length ≤
            (log (next^[l] start)).length :=
          (log_iterate_grows grows above).length_le
        have step := grows (next^[l] start)
        rw [Function.iterate_succ_apply'] at same ⊢
        have after := step.length_le
        rw [← inductionHypothesis (by omega)]
        exact silent _ (step.eq_of_length (by omega)).symm
  rcases le_total k l with le | le
  · exact (ordered k l le same).symm
  · exact ordered l k le same.symm

end Logs

end Machine

end Sync
