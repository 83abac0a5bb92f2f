import Mathlib.Data.Nat.Find
import Mathlib.Data.List.Chain
import Mathlib.Dynamics.PeriodicPts.Lemmas

/-!
# Trajectories of synchronous machines

A synchronous machine is a step function from a state and an input to the next
state.  Its trajectory under an input stream is the sequence of its states,
one for each clock cycle.  The module collects the induction rules used to
reason about such sequences: invariants under assumptions on the inputs, the
events a machine emits, the first cycle in which one occurs, and the return of
a machine without input.
-/

namespace Sync

universe u v w x

variable {State : Type u} {Input : Type v} {Event : Type w}

/-- The state in cycle `n`. -/
def trajectory
    (step : State → Input → State) (start : State) (inputs : ℕ → Input) :
    ℕ → State
  | 0 => start
  | n + 1 => step (trajectory step start inputs n) (inputs n)

/-- The events of the cycles before `n`, in order. -/
def emitted (emit : ℕ → Option Event) : ℕ → List Event
  | 0 => []
  | n + 1 => emitted emit n ++ (emit n).toList

/-! ## Invariants -/

section Invariants

variable {step : State → Input → State} {start : State} {inputs : ℕ → Input}

/-- A property of states that holds initially and is preserved by every step
whose input is admitted holds in every cycle of an admitted trajectory. -/
theorem trajectory_invariant
    (Holds : State → Prop) (Admits : State → Input → Prop)
    (initially : Holds start)
    (preserved : ∀ s i, Holds s → Admits s i → Holds (step s i))
    (admitted : ∀ n, Admits (trajectory step start inputs n) (inputs n)) :
    ∀ n, Holds (trajectory step start inputs n) := by
  intro n
  induction n with
  | zero =>
      exact initially
  | succ n inductionHypothesis =>
      exact preserved _ _ inductionHypothesis (admitted n)

/-- A state depends on the inputs before it only. -/
theorem trajectory_congr
    {inputs' : ℕ → Input} {n : ℕ} (same : ∀ m < n, inputs m = inputs' m) :
    trajectory step start inputs n = trajectory step start inputs' n := by
  induction n with
  | zero => rfl
  | succ n inductionHypothesis =>
      rw [trajectory, trajectory, same n (Nat.lt_succ_self n),
        inductionHypothesis fun m before => same m (Nat.lt_succ_of_lt before)]

end Invariants

/-! ## Emitted events -/

section Events

variable {emit : ℕ → Option Event}

theorem emitted_succ_of_none {n : ℕ} (silent : emit n = none) :
    emitted emit (n + 1) = emitted emit n := by
  simp [emitted, silent]

theorem emitted_succ_of_some {n : ℕ} {event : Event}
    (emits : emit n = some event) :
    emitted emit (n + 1) = emitted emit n ++ [event] := by
  simp [emitted, emits]

theorem emitted_congr
    {emit' : ℕ → Option Event} {n : ℕ} (same : ∀ m < n, emit m = emit' m) :
    emitted emit n = emitted emit' n := by
  induction n with
  | zero => rfl
  | succ n inductionHypothesis =>
      rw [emitted, emitted, same n (Nat.lt_succ_self n),
        inductionHypothesis fun m before => same m (Nat.lt_succ_of_lt before)]

variable {Place : Type x}

/-- Each event starts where the one before it ended, the first at `place`. -/
def Linked (source target : Event → Place) : Place → List Event → Prop
  | _, [] => True
  | place, event :: rest =>
      source event = place ∧ Linked source target (target event) rest

/-- Where a list of events that starts at `place` ends. -/
def endPlace (target : Event → Place) : Place → List Event → Place
  | place, [] => place
  | _, event :: rest => endPlace target (target event) rest

variable {source target : Event → Place}

@[simp]
theorem endPlace_concat
    (place : Place) (events : List Event) (event : Event) :
    endPlace target place (events ++ [event]) = target event := by
  induction events generalizing place with
  | nil =>
      rfl
  | cons head tail inductionHypothesis =>
      exact inductionHypothesis (target head)

/-- A linked list is extended by an event that starts where it ends. -/
theorem linked_concat_iff
    (place : Place) (events : List Event) (event : Event) :
    Linked source target place (events ++ [event]) ↔
      Linked source target place events ∧
        source event = endPlace target place events := by
  induction events generalizing place with
  | nil =>
      simp [Linked, endPlace]
  | cons head tail inductionHypothesis =>
      simp [Linked, endPlace, inductionHypothesis, and_assoc]

end Events

/-! ## First cycle with an event -/

section Searching

variable {P Q : ℕ → Prop}

/-- A condition that persists until an event, and that the environment
eventually answers with the event, ends in a first such event. -/
theorem exists_first_event
    {start : ℕ} (holds : P start)
    (persists : ∀ n, start ≤ n → P n → ¬ Q n → P (n + 1))
    (answered : (∀ n, start ≤ n → P n) → ∃ n, start ≤ n ∧ Q n) :
    ∃ n, start ≤ n ∧ P n ∧ Q n ∧ ∀ m, start ≤ m → m < n → P m ∧ ¬ Q m := by
  classical
  have some : ∃ n, start ≤ n ∧ Q n := by
    by_contra never
    push Not at never
    have always : ∀ n, start ≤ n → P n := by
      intro n above
      induction n, above using Nat.le_induction with
      | base => exact holds
      | succ n above inductionHypothesis =>
          exact persists n above inductionHypothesis (never n above)
    obtain ⟨n, above, event⟩ := answered always
    exact never n above event
  have before : ∀ m, start ≤ m → m < Nat.find some → ¬ Q m :=
    fun m above below event =>
      Nat.find_min some below ⟨above, event⟩
  have holdsUntil : ∀ m, start ≤ m → m ≤ Nat.find some → P m := by
    intro m above
    induction m, above using Nat.le_induction with
    | base => exact fun _ => holds
    | succ m above inductionHypothesis =>
        intro within
        exact persists m above (inductionHypothesis (by omega))
          (before m above (by omega))
  have found := Nat.find_spec some
  exact ⟨Nat.find some, found.1, holdsUntil _ found.1 le_rfl, found.2,
    fun m above below =>
      ⟨holdsUntil m above (Nat.le_of_lt below), before m above below⟩⟩

end Searching

/-! ## Recurrence -/

section Recurrence

variable [Finite State] {next : State → State}

/-- A finite machine without input whose step loses nothing comes back to
each of its states for ever. -/
theorem exists_later_iterate (injective : Function.Injective next)
    (start : State) (n k : ℕ) :
    ∃ m, k ≤ m ∧ next^[m] start = next^[n] start := by
  obtain ⟨period, positive, returns⟩ :=
    Function.mem_periodicPts.mp (injective.mem_periodicPts (next^[n] start))
  refine ⟨k * period + n, ?_, ?_⟩
  · have enough : k * 1 ≤ k * period := Nat.mul_le_mul_left k positive
    omega
  · rw [Function.iterate_add_apply]
    exact (returns.const_mul k).eq

end Recurrence

/-! ## Counting down -/

/-- A counter that goes down in every cycle reaches zero. -/
theorem not_always_counting {width : ℕ} (count : ℕ → BitVec width) (k : ℕ)
    (counts : ∀ j, k ≤ j → count j ≠ 0 ∧ count (j + 1) = count j - 1) :
    False := by
  have drops (n : ℕ) : (count (k + n)).toNat + n ≤ (count k).toNat := by
    induction n with
    | zero => exact le_rfl
    | succ n inductionHypothesis =>
        obtain ⟨positive, next⟩ := counts (k + n) (Nat.le_add_right k n)
        have least : 1 ≤ (count (k + n)).toNat :=
          Nat.one_le_iff_ne_zero.mpr fun zero =>
            positive (BitVec.eq_of_toNat_eq (by simpa using zero))
        have width_pos : 1 < 2 ^ width := by
          have below := (count (k + n)).isLt
          omega
        have smaller : (count (k + (n + 1))).toNat =
            (count (k + n)).toNat - 1 := by
          rw [← Nat.add_assoc, next, BitVec.toNat_sub_of_le] <;>
            simp [BitVec.le_def, Nat.mod_eq_of_lt width_pos, least]
        omega
  have last := drops ((count k).toNat + 1)
  omega

end Sync
