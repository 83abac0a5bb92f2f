import SisRv.Lib.Stutter
import Mathlib.Data.List.Forall2

/-!
# Logs of marked cycles

A machine that reports every marked cycle in the cycle after it keeps a log
with one entry for each mark, in the order of the marks.
-/

namespace Sync

universe u v

variable {Event : Type u} {State : Type v}

section Marks

variable {marked : ℕ → Bool} {emit : ℕ → Option Event}
  {Fits : ℕ → Event → Prop} {count : ℕ}

/-- The entries of the log fit the marks one after the other. -/
theorem forall₂_emitted
    (first : emit 0 = none)
    (silent : ∀ n, marked n = false → emit (n + 1) = none)
    (reports : ∀ n, marked n = true → occurrences marked n < count →
      ∃ event, emit (n + 1) = some event ∧ Fits (occurrences marked n) event)
    (n : ℕ) (within : occurrences marked n ≤ count) :
    List.Forall₂ Fits (List.range (occurrences marked n))
      (emitted emit (n + 1)) := by
  induction n with
  | zero =>
      rw [emitted_succ_of_none first]
      exact List.Forall₂.nil
  | succ n inductionHypothesis =>
      cases mark : marked n with
      | false =>
          rw [occurrences_succ_of_not_mark mark] at within ⊢
          rw [emitted_succ_of_none (silent n mark)]
          exact inductionHypothesis within
      | true =>
          rw [occurrences_succ_of_mark mark] at within ⊢
          obtain ⟨event, emits, fits⟩ := reports n mark within
          rw [emitted_succ_of_some emits, List.range_succ]
          exact List.rel_append
            (inductionHypothesis (Nat.le_of_succ_le within))
            (List.Forall₂.cons fits List.Forall₂.nil)

end Marks

section Entries

variable {log : List Event} {k : ℕ}

/-- What each entry shows of its mark, the log shows of all of them. -/
theorem map_eq_of_forall₂ {Shown : Type v} {view : Event → Shown}
    {shown : ℕ → Shown}
    (entries : List.Forall₂ (fun j event => view event = shown j)
      (List.range k) log) :
    log.map view = (List.range k).map shown := by
  rw [← List.forall₂_eq_eq_eq, List.forall₂_map_left_iff,
    List.forall₂_map_right_iff]
  exact entries.flip

/-- Replaying entries that each make one step makes all of them. -/
theorem foldl_of_forall₂ (move : State → Event → State) (state : ℕ → State)
    (entries : List.Forall₂
      (fun j event => move (state j) event = state (j + 1))
      (List.range k) log) :
    log.foldl move (state 0) = state k := by
  have further (k start : ℕ) (log : List Event)
      (entries : List.Forall₂
        (fun j event => move (state j) event = state (j + 1))
        (List.range' start k) log) :
      log.foldl move (state start) = state (start + k) := by
    induction k generalizing start log with
    | zero =>
        rw [List.forall₂_nil_left_iff.mp entries]
        rfl
    | succ k inductionHypothesis =>
        rw [List.range'_succ] at entries
        obtain ⟨event, rest, now, later, rfl⟩ :=
          List.forall₂_cons_left_iff.mp entries
        rw [List.foldl_cons, now, inductionHypothesis (start + 1) rest later,
          Nat.add_right_comm, Nat.add_assoc]
  rw [List.range_eq_range'] at entries
  have all := further k 0 log entries
  rwa [Nat.zero_add] at all

end Entries

end Sync
