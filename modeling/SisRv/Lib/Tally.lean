import SisRv.Lib.Trajectory
import Mathlib.Data.Nat.Count

/-!
# Counters of events

A counter of fixed width ticks in some of the cycles of a machine.  It counts
the events of another kind, modulo its width, exactly when the two kinds
occur in the same cycles.
-/

namespace Sync

variable {width : ℕ}
variable {watched ticks event : ℕ → Prop}
variable [DecidablePred ticks] [DecidablePred event]

theorem ofNat_count_succ (k : ℕ) :
    BitVec.ofNat width (Nat.count event (k + 1)) =
      BitVec.ofNat width (Nat.count event k) + if event k then 1 else 0 := by
  rw [Nat.count_succ, BitVec.ofNat_add]
  split_ifs <;> rfl

/-- What a watched counter shows is exact in all cycles up to the end of the
watch exactly when it has ticked at every event and at no other time. -/
theorem counts_iff (counter : ℕ → BitVec width) (positive : 0 < width)
    (counts : ∀ k, watched k →
      counter (k + 1) = counter k + if ticks k then 1 else 0) :
    (∀ d, (∀ k < d, watched k) →
      counter d = counter 0 + BitVec.ofNat width (Nat.count event d)) ↔
    ∀ k, (∀ j ≤ k, watched j) → (ticks k ↔ event k) := by
  constructor
  · intro exactly k watch
    have now := exactly k fun j before => watch j (Nat.le_of_lt before)
    have next := exactly (k + 1) fun j before =>
      watch j (Nat.lt_succ_iff.mp before)
    rw [counts k (watch k le_rfl), ofNat_count_succ, now,
      BitVec.add_assoc] at next
    have same := (BitVec.add_right_inj _).mp ((BitVec.add_right_inj _).mp next)
    have different : (1 : BitVec width) ≠ 0 := by
      intro equal
      have values := congrArg BitVec.toNat equal
      simp [Nat.mod_eq_of_lt (Nat.one_lt_two_pow positive.ne')] at values
    split_ifs at same with ticked happened happened
    · exact iff_of_true ticked happened
    · exact absurd same different
    · exact absurd same.symm different
    · exact iff_of_false ticked happened
  · intro agree d
    induction d with
    | zero => simp
    | succ d inductionHypothesis =>
        intro watch
        have now := inductionHypothesis fun j before =>
          watch j (Nat.lt_succ_of_lt before)
        have here := agree d fun j within => watch j (Nat.lt_succ_of_le within)
        rw [counts d (watch d (Nat.lt_succ_self d)), ofNat_count_succ, now,
          BitVec.add_assoc]
        simp only [here]

/-- Two kinds of events have the same numbers in all cycles exactly when they
occur together. -/
theorem count_eq_iff :
    (∀ d, (∀ k < d, watched k) → Nat.count ticks d = Nat.count event d) ↔
    ∀ k, (∀ j ≤ k, watched j) → (ticks k ↔ event k) := by
  constructor
  · intro exactly k watch
    have now := exactly k fun j before => watch j (Nat.le_of_lt before)
    have next := exactly (k + 1) fun j before =>
      watch j (Nat.lt_succ_iff.mp before)
    rw [Nat.count_succ, Nat.count_succ, now] at next
    split_ifs at next with ticked happened happened
    · exact iff_of_true ticked happened
    · omega
    · omega
    · exact iff_of_false ticked happened
  · intro agree d
    induction d with
    | zero => simp
    | succ d inductionHypothesis =>
        intro watch
        have now := inductionHypothesis fun j before =>
          watch j (Nat.lt_succ_of_lt before)
        have here := agree d fun j within => watch j (Nat.lt_succ_of_le within)
        rw [Nat.count_succ, Nat.count_succ, now]
        simp only [here]

/-- A list of emitted events grows by one in every cycle with an event. -/
theorem length_emitted_add {Event : Type} (emit : ℕ → Option Event)
    (m d : ℕ) :
    (emitted emit (m + d)).length = (emitted emit m).length +
      Nat.count (fun k => (emit (m + k)).isSome = true) d := by
  induction d with
  | zero => rfl
  | succ d inductionHypothesis =>
      rw [Nat.count_succ, ← Nat.add_assoc m,
        ← Nat.add_assoc (emitted emit m).length, ← inductionHypothesis]
      cases event : emit (m + d) with
      | none => simp [emitted_succ_of_none event]
      | some _ => simp [emitted_succ_of_some event]

end Sync
