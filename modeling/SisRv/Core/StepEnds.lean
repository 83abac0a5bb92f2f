import SisRv.Core.Halting

/-!
# The end of a single step

A clean step comes to an end when both buses answer and the debugger leaves it
alone.
-/

namespace SisRv

open Sync

namespace Run

variable {p : Params} (r : Run p)

/-- Behind the resume request of cycle `h` the debugger requests nothing more,
and both buses answer. -/
structure Undisturbed (h : ℕ) : Prop where
  noHalt : ∀ k, h ≤ k → (r.inputs k).dbgHaltReq = false
  noResume : ∀ k, h < k → (r.inputs k).dbgResumeReq = false
  instr : r.InstrBus
  instrAnswers : r.InstrBusAnswers
  dataAnswers : r.DataBusAnswers

variable {r} {h : ℕ}

/-- A core that is never halted again is in the same step forever. -/
theorem singleStep_of_never (begins : r.StepBegins h)
    (noHalt : ∀ k, h ≤ k → (r.inputs k).dbgHaltReq = false)
    (never : ∀ t, r.SingleStep h t → ¬ (r.state (t + 1)).halted = true)
    (t : ℕ) (later : h < t) : r.SingleStep h t := by
  induction t, later using Nat.le_induction with
  | base =>
      have runs : (r.state (h + 1)).halted = false := by
        rw [r.state_succ, Core.step_halted]
        simp [Core.haltedNext, noHalt h le_rfl, begins.resume]
      exact {
        toStepBegins := begins
        noHalt := fun k low _ => noHalt k low
        later := Nat.lt_succ_self h
        running := fun k above within => by
          obtain rfl : k = h + 1 := by omega
          exact runs }
  | succ t later inductionHypothesis =>
      have runs : (r.state (t + 1)).halted = false := by
        simpa using never t inductionHypothesis
      exact {
        toStepBegins := begins
        noHalt := fun k low _ => noHalt k low
        later := by omega
        running := fun k above within => by
          rcases Nat.lt_or_eq_of_le within with earlier | rfl
          · exact inductionHypothesis.running k above (by omega)
          · exact runs }

/-- It cannot be: an instruction reaches WB and stops it. -/
theorem exists_halts (begins : r.StepBegins h) (alone : r.Undisturbed h)
    (clean : ∀ t, r.SingleStep h t → r.StepsClean h t) :
    ∃ t, r.SingleStep h t ∧ (r.state (t + 1)).halted = true := by
  by_contra never
  push Not at never
  have step := singleStep_of_never begins alone.noHalt never
  have empty (k : ℕ) (late : h < k) : (r.state k).wb.valid = false := by
    by_contra valid
    have valid : (r.state k).wb.valid = true := by simpa using valid
    exact never k (step k late) ((halts_iff_of_step (step k late) late
      le_rfl).mpr ⟨valid, (clean k (step k late)).retires k late le_rfl valid⟩)
  have goes (k : ℕ) (late : h < k) :
      (r.state k).wbSingleStepStop = false := by
    simp [Core.wbSingleStepStop, empty k late]
  have active (k : ℕ) (late : h < k) : (r.state k).stepActive = true :=
    (stepActive_of_step (step k late) late le_rfl).mpr
      fun j low _ => alone.noResume j low
  have idle (k : ℕ) (late : h < k) : r.completes k = false := by
    have stays : (r.state k).exToWbFire (r.inputs k) = false := by
      by_contra leaves
      have latched := wb_of_leave (by simpa using leaves) (goes k late)
      have none := empty (k + 1) (by omega)
      rw [latched] at none
      cases none
    have noDrop := (clean (k + 1) (step (k + 1) (by omega))).noDrop k late.le
      (Nat.lt_succ_self k)
    rw [completes, stays, noDrop]
    rfl
  have starving : r.Starving (h + 1) :=
    starving_of_idle
      (fun k late => by rw [active k late, Bool.or_true])
      goes alone.dataAnswers
      (fun k late => ⟨(step k late).running k late le_rfl,
        alone.noHalt k (by omega)⟩)
      idle
  exact not_starving starving alone.instr alone.instrAnswers

end Run

/-- In every cycle that the core has run since the resume request the step
executes one instruction so far if and only if it is clean.  A clean step ends
when both buses answer. -/
theorem stepsOnce_iff {p : Params} (r : Run p) (h : ℕ) :
    (∀ t, r.SingleStep h t → (r.StepsOnce h t ↔ r.StepsClean h t)) ∧
      (r.StepBegins h → r.Undisturbed h →
        (∀ t, r.SingleStep h t → r.StepsClean h t) →
          ∃ t, r.SingleStep h t ∧ r.StepsOnce h t ∧
            (r.state (t + 1)).halted = true) := by
  constructor
  · exact fun t step =>
      ⟨Run.clean_of_stepsOnce step, Run.stepsOnce_of_clean step⟩
  · intro begins alone clean
    obtain ⟨t, step, halts⟩ := Run.exists_halts begins alone clean
    exact ⟨t, step, Run.stepsOnce_of_clean step (clean t step), halts⟩

/-! ## Prescribed steps -/

namespace Run

variable {p : Params} {inputs : List CoreIn} {b : ℕ}

/-- Behind the prescribed cycles the core is halted and empty, and no response
is outstanding. -/
structure SettlesAt (r : Run p) (b : ℕ) : Prop where
  halted : (r.state b).halted = true
  drained : (r.state b).Drained
  wbEmpty : (r.state b).wb.valid = false
  answered : r.iOutstanding b = none

/-- It stays so. -/
theorem settlesAt_script (beyond : inputs.length ≤ b)
    (settles : (script p inputs).SettlesAt b) (n : ℕ) (late : b ≤ n) :
    (script p inputs).SettlesAt n := by
  induction n, late using Nat.le_induction with
  | base => exact settles
  | succ n late inductionHypothesis =>
      obtain ⟨halted, drained, wbEmpty, answered⟩ := inductionHypothesis
      have idle : (script p inputs).inputs n = {} :=
        List.getD_eq_default _ _ (beyond.trans late)
      obtain ⟨still, empty⟩ :=
        Core.drained_step (i := (script p inputs).inputs n) drained wbEmpty
          (by rw [idle]) (by rw [idle])
      refine ⟨?_, still, empty, ?_⟩
      · rw [state_succ, Core.step_halted, idle]
        simp [Core.haltedNext, halted]
      · rw [iOutstanding, outstanding_of_idle (by simp [iAccepts, idle])
          (by simp [iHandsOver, idle])]
        exact answered

theorem undisturbed_script {h : ℕ} (beyond : inputs.length ≤ b)
    (settles : (script p inputs).SettlesAt b)
    (noHalt : ∀ k, h ≤ k → k < b →
      ((script p inputs).inputs k).dbgHaltReq = false)
    (noResume : ∀ k, h < k → k < b →
      ((script p inputs).inputs k).dbgResumeReq = false)
    (bus : (script p inputs).InstrBus)
    (answers : ∀ n < b, ((script p inputs).iOutstanding n).isSome = true →
      ∃ m < b, n ≤ m ∧ ((script p inputs).inputs m).iRspValid = true) :
    (script p inputs).Undisturbed h := by
  have idle (k : ℕ) (late : b ≤ k) : (script p inputs).inputs k = {} :=
    List.getD_eq_default _ _ (beyond.trans late)
  have settled := settlesAt_script beyond settles
  refine ⟨fun k low => ?_, fun k low => ?_, bus, ⟨fun n requests => ?_,
    fun n asked => ?_⟩, ⟨fun n requests => ?_, fun n waits => ?_⟩⟩
  · rcases Nat.lt_or_ge k b with early | late
    · exact noHalt k low early
    · rw [idle k late]
  · rcases Nat.lt_or_ge k b with early | late
    · exact noResume k low early
    · rw [idle k late]
  · have request := requests (max n b) (le_max_left n b)
    simp [Core.iReqValid, Core.ifReqActive, Core.pfIssue, Core.pfWant,
      Core.ifCanAcceptFetch, (settled _ (le_max_right n b)).halted] at request
  · rcases Nat.lt_or_ge n b with early | late
    · obtain ⟨m, -, above, response⟩ := answers n early asked
      exact ⟨m, above, response⟩
    · rw [(settled n late).answered] at asked
      cases asked
  · have request := requests (max n b) (le_max_left n b)
    simp [Core.dReqValid, Core.exMemRequesting,
      (settled _ (le_max_right n b)).drained.ex] at request
  · have ready := waits (max n b) (le_max_left n b)
    simp [Core.dRspReady, (settled _ (le_max_right n b)).drained.ex] at ready

end Run

/-- A NOP is stepped, and the ECALL behind it fetched in the same step. -/
def steppedNop : Run {} :=
  Run.script {}
    [{ dbgHaltReq := true },
      { dbgResumeReq := true, dbgSingleStep := true },
      .accept, { CoreIn.answer 0x00000013 with iReqReady := true },
      .answer 0x00000073]

theorem steppedNop_begins : steppedNop.StepBegins 1 :=
  ⟨by decide, by decide, by decide⟩

theorem steppedNop_undisturbed : steppedNop.Undisturbed 1 :=
  Run.undisturbed_script (b := 7) (by decide)
    ⟨by decide, by constructor <;> decide, by decide, by decide⟩
    (fun k above below => by interval_cases k <;> decide)
    (fun k above below => by interval_cases k <;> decide)
    (Run.instrBus_script (by decide) (by decide)) (by decide)

theorem steppedNop_clean (t : ℕ) (step : steppedNop.SingleStep 1 t) :
    steppedNop.StepsClean 1 t := by
  have later := step.later
  have within : t ≤ 6 := by
    by_contra beyond
    have running := step.running 7 (by omega) (by omega)
    exact absurd running (by decide)
  refine ⟨fun k above below => ?_, fun k above low valid => ⟨?_, fun j up down =>
    ?_⟩, fun valid occupied => ?_, fun valid => ?_⟩
  · have short : k < 6 := by omega
    interval_cases k <;> decide
  · have short : k < 7 := by omega
    interval_cases k <;> revert valid <;> decide
  · have short : j < 7 := by omega
    interval_cases j <;> decide
  · interval_cases t <;> revert valid occupied <;> decide
  · rw [Run.NoLeftover]
    decide

theorem stepsOnce_iff_steppedNop :
    ∃ t, steppedNop.SingleStep 1 t ∧ steppedNop.StepsOnce 1 t ∧
      (steppedNop.state (t + 1)).halted = true :=
  (stepsOnce_iff steppedNop 1).2 steppedNop_begins steppedNop_undisturbed
    steppedNop_clean

/-- `c.nop` and `c.lw x8, 0(x8)` in one word, stepped from the halted core.
The bus accepts the read in the last cycle of the step. -/
def steppedPair : Run {} :=
  Run.script {}
    [{ dbgHaltReq := true },
      { dbgResumeReq := true, dbgSingleStep := true },
      .accept, .answer 0x40000001, .idle, .idle, { dReqReady := true }]

theorem steppedPair_step : steppedPair.SingleStep 1 6 where
  halted := by decide
  resume := by decide
  single := by decide
  noHalt := fun k above within => by
    interval_cases k <;> decide
  later := by decide
  running := fun k above within => by
    interval_cases k <;> decide

/-- The step of `c.nop` leaves the read of the load behind it unanswered. -/
theorem not_stepsOnce :
    ¬ ∀ (p : Params) (r : Run p) (h t : ℕ),
      r.SingleStep h t → r.StepsOnce h t := by
  intro once
  have answered :=
    ((once {} steppedPair 1 6 steppedPair_step).ended (by decide)).2.2
  exact absurd answered (by decide)

end SisRv
