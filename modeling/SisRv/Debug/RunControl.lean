import SisRv.Core.Counting
import SisRv.Core.Progress
import SisRv.Core.SingleStep
import SisRv.Debug.Platform

/-!
# Run control

DMCONTROL sets the request flags of the debug module; they stay up until the
DMI response is taken without a new request.  Halting and resuming do not
depend on how long that takes, but a step request that is still up in its
second cycle becomes a plain resume request.
-/

namespace SisRv

/-! ## The word written to DMCONTROL -/

namespace Dmcontrol

variable (w : BitVec 32)

def dmactive : Bool := w.getLsbD 0
def step : Bool := w.getLsbD 2
def resumereq : Bool := w.getLsbD 30
def haltreq : Bool := w.getLsbD 31

/-- A request to run until the next halt request. -/
def runs : Bool := dmactive w && resumereq w && !step w && !haltreq w

/-- A request to execute one instruction. -/
def steps : Bool := dmactive w && resumereq w && step w && !haltreq w

end Dmcontrol

open Sync Dmcontrol

/-! ## What a debugger may expect -/

namespace DebugRun

variable {p : Params} (r : DebugRun p)

/-- A DMCONTROL write that is accepted in cycle `k`. -/
def Controls (k : ℕ) (w : BitVec 32) : Prop :=
  r.written k = some (dmiDmcontrol, w)

def Retires (k : ℕ) : Prop := (r.core.state k).instrRetire = true

/-- No write after cycle `t` with a halt request takes effect by cycle `m`. -/
def NoHalt (t m : ℕ) : Prop :=
  ∀ k w, t < k → k + 1 < m → r.Controls k w → haltreq w = false

/-- No write after cycle `t` with a resume request takes effect by
cycle `m`. -/
def NoResume (t m : ℕ) : Prop :=
  ∀ k w, t < k → k + 1 < m → r.Controls k w → resumereq w = false

/-- After the write of cycle `t` the debugger makes a new request only when an
instruction has retired. -/
def Patient (t : ℕ) : Prop :=
  ∀ k w, t < k → r.Controls k w → (haltreq w || resumereq w) = true →
    ∃ s, t + 1 < s ∧ s < k ∧ r.Retires s

/-- The program does not trap, and the buses follow their protocols and
answer. -/
structure Cooperative : Prop where
  instr : r.core.InstrBus
  instrAnswers : r.core.InstrBusAnswers
  dataAnswers : r.core.DataBusAnswers
  noDrop : r.core.NoAmoReadError
  retires : ∀ k, (r.core.state k).wb.valid = true → r.Retires k

/-- After the write of cycle `t` the instruction that retires in cycle `s`
runs, no other one, and the core is halted until it is resumed. -/
structure StepsOnce (t s : ℕ) : Prop where
  later : t + 1 < s
  running : ∀ k, t + 1 < k → k ≤ s →
    (r.core.state k).halted = false ∧ (r.Retires k ↔ k = s)
  stopped : ∀ m, s < m → r.NoResume t m →
    (r.core.state m).halted = true ∧ ¬ r.Retires m

/-- What a DMCONTROL write in cycle `t` does to a halted core. -/
structure RunControl (t : ℕ) (w : BitVec 32) : Prop where
  stays : haltreq w = true → ∀ m, t < m → r.NoResume t m →
    (r.core.state m).halted = true
  goes : runs w = true → ∀ m, t + 1 < m → r.NoHalt t m →
    (r.core.state m).halted = false
  halts : runs w = true → ∀ k v, t < k → r.Controls k v →
    dmactive v = true → haltreq v = true →
    (r.core.state (k + 2)).halted = true
  steps : steps w = true → r.Patient t → ∃ s, r.StepsOnce t s

/-- In cycle `k` the response is taken and no request comes in besides
another DMCONTROL write. -/
def HandedOver (k : ℕ) : Prop :=
  (r.inputs k).dmi.dmiRspReady = true ∧
    ((r.inputs k).dmi.dmiReqValid = true →
      (r.inputs k).dmi.dmiReqWrite = true ∧
        (r.inputs k).dmi.dmiReqAddr = dmiDmcontrol)

end DebugRun

/-! ## The request flags -/

namespace Dm

variable {s : Dm} {i : DmiIn} {c : DmCoreIn}

/-- A response is handed over without a new request. -/
def clears (s : Dm) (i : DmiIn) : Bool :=
  !s.dmiReqFire i && s.dmiRspValid && i.dmiRspReady

structure SameFlags (a b : Dm) : Prop where
  dmActive : a.dmActive = b.dmActive
  haltreqR : a.haltreqR = b.haltreqR
  resumereqR : a.resumereqR = b.resumereqR
  stepR : a.stepR = b.stepR

theorem SameFlags.trans {a b d : Dm} (first : SameFlags a b)
    (second : SameFlags b d) : SameFlags a d :=
  ⟨first.dmActive.trans second.dmActive,
    first.haltreqR.trans second.haltreqR,
    first.resumereqR.trans second.resumereqR,
    first.stepR.trans second.stepR⟩

theorem absStep_sameFlags (n : Dm) : SameFlags (s.absStep c n) n := by
  unfold absStep
  split_ifs <;> constructor <;> rfl

theorem dmiWrite_sameFlags {n : Dm} (other : i.dmiReqAddr ≠ dmiDmcontrol) :
    SameFlags (dmiWrite i n) n := by
  simp only [dmiWrite, other, if_false]
  split_ifs <;> constructor <;> rfl

/-- Only DMCONTROL sets the flags, and only a response clears them. -/
theorem step_sameFlags
    (other : s.dmiReqFire i = true → i.dmiReqWrite = true →
      i.dmiReqAddr ≠ dmiDmcontrol) :
    SameFlags (s.step i c)
      (if s.clears i then { s with haltreqR := false, resumereqR := false }
      else s) := by
  have kept := absStep_sameFlags (s := s) (c := c) s
  cases s.dmiCycle i c with
  | writes fire write next =>
      have stays : s.clears i = false := by simp [clears, fire]
      have same := dmiWrite_sameFlags (other fire write)
        (n := { s.absStep c s with dmiPending := true, dmiRdataReg := 0 })
      rw [next, stays, if_neg Bool.false_ne_true]
      exact same.trans
        ⟨kept.dmActive, kept.haltreqR, kept.resumereqR, kept.stepR⟩
  | reads fire _ next =>
      have stays : s.clears i = false := by simp [clears, fire]
      rw [next, stays, if_neg Bool.false_ne_true]
      exact ⟨kept.dmActive, kept.haltreqR, kept.resumereqR, kept.stepR⟩
  | handsOver quiet taken next =>
      have clear : s.clears i = true := by
        simp only [clears, quiet, Bool.not_false, Bool.true_and]
        exact taken
      rw [next, clear, if_pos rfl]
      exact ⟨kept.dmActive, rfl, rfl, kept.stepR⟩
  | idles quiet held next =>
      have stays : s.clears i = false := by
        simp only [clears, quiet, Bool.not_false, Bool.true_and]
        exact held
      rw [next, stays, if_neg Bool.false_ne_true]
      exact kept

end Dm

namespace DebugRun

variable {p : Params} {r : DebugRun p} {k : ℕ}

theorem control_succ {w : BitVec 32} (controls : r.Controls k w) :
    (r.dm (k + 1)).dmActive = dmactive w ∧
      (r.dm (k + 1)).stepR = step w ∧
      (r.dm (k + 1)).haltreqR = haltreq w ∧
      (r.dm (k + 1)).resumereqR = resumereq w ∧
      (r.dm (k + 1)).dmiPending = true := by
  obtain ⟨fire, write, addr, word⟩ := written_eq_some controls
  rw [dm_succ, Dm.step_of_write fire write, Dm.dmiWrite, if_pos addr, word]
  exact ⟨rfl, rfl, rfl, rfl, rfl⟩

theorem flags_succ (silent : ∀ w, ¬ r.Controls k w) :
    Dm.SameFlags (r.dm (k + 1))
      (if (r.dm k).clears (r.inputs k).dmi then
        { r.dm k with haltreqR := false, resumereqR := false }
      else r.dm k) := by
  rw [dm_succ]
  refine Dm.step_sameFlags fun fire write addr => ?_
  refine silent (r.inputs k).dmi.dmiReqWdata ?_
  simp [Controls, written, fire, write, addr]

/-- What holds of the two flags when they are written and when they are
cleared holds all the time. -/
theorem flags_invariant {P : Bool → Bool → Prop} {b m : ℕ} (late : b ≤ m)
    (cleared : P false false)
    (written : ∀ k w, b ≤ k → k < m → r.Controls k w →
      P (haltreq w) (resumereq w))
    (start : P (r.dm b).haltreqR (r.dm b).resumereqR) :
    P (r.dm m).haltreqR (r.dm m).resumereqR := by
  induction m, late using Nat.le_induction with
  | base => exact start
  | succ m late inductionHypothesis =>
      have before := inductionHypothesis fun k w low high =>
        written k w low (by omega)
      by_cases control : ∃ w, r.Controls m w
      · obtain ⟨w, controls⟩ := control
        obtain ⟨-, -, halt, resume, -⟩ := control_succ controls
        rw [halt, resume]
        exact written m w late (by omega) controls
      · have same := flags_succ (not_exists.mp control)
        split_ifs at same with clears
        · rw [same.haltreqR, same.resumereqR]
          exact cleared
        · rw [same.haltreqR, same.resumereqR]
          exact before

/-- A response that is not handed over keeps the flags up. -/
theorem flags_of_not_handedOver {w : BitVec 32} (controls : r.Controls k w)
    (held : ¬ r.HandedOver (k + 1)) :
    (r.dm (k + 2)).dmActive = dmactive w ∧
      (r.dm (k + 2)).haltreqR = haltreq w ∧
      (r.dm (k + 2)).resumereqR = resumereq w := by
  obtain ⟨active, -, halt, resume, pending⟩ := control_succ controls
  have silent : ∀ v, ¬ r.Controls (k + 1) v := by
    intro v next
    obtain ⟨fire, write, addr, -⟩ := written_eq_some next
    simp only [Dm.dmiReqFire, Dm.dmiReqReady, pending, Bool.not_true,
      Bool.false_or, Bool.and_eq_true] at fire
    exact held ⟨fire.2, fun _ => ⟨write, addr⟩⟩
  have keeps : (r.dm (k + 1)).clears (r.inputs (k + 1)).dmi = false := by
    by_cases ready : (r.inputs (k + 1)).dmi.dmiRspReady = true
    · have request : (r.inputs (k + 1)).dmi.dmiReqValid = true := by
        by_contra idle
        exact held ⟨ready, fun valid => absurd valid idle⟩
      simp [Dm.clears, Dm.dmiReqFire, Dm.dmiReqReady, request, ready]
    · simp [Dm.clears, ready]
  have same := flags_succ silent
  rw [keeps, if_neg Bool.false_ne_true] at same
  exact ⟨same.dmActive.trans active, same.haltreqR.trans halt,
    same.resumereqR.trans resume⟩

/-- A response that is handed over clears the resume flag, or a DMCONTROL write
replaces it. -/
theorem resumereqR_of_handedOver {w : BitVec 32}
    (controls : r.Controls k w) (handed : r.HandedOver (k + 1))
    (noResume : ∀ v, r.Controls (k + 1) v → resumereq v = false) :
    (r.dm (k + 2)).resumereqR = false := by
  obtain ⟨-, -, -, -, pending⟩ := control_succ controls
  by_cases control : ∃ v, r.Controls (k + 1) v
  · obtain ⟨v, next⟩ := control
    exact (control_succ next).2.2.2.1.trans (noResume v next)
  have silent := not_exists.mp control
  have idle : (r.inputs (k + 1)).dmi.dmiReqValid = false := by
    by_contra valid
    have valid : (r.inputs (k + 1)).dmi.dmiReqValid = true := by
      simpa using valid
    obtain ⟨write, addr⟩ := handed.2 valid
    refine silent (r.inputs (k + 1)).dmi.dmiReqWdata ?_
    simp [Controls, written, Dm.dmiReqFire, Dm.dmiReqReady, valid, write,
      addr, handed.1]
  have clears : (r.dm (k + 1)).clears (r.inputs (k + 1)).dmi = true := by
    simp [Dm.clears, Dm.dmiReqFire, Dm.dmiRspValid, idle, pending, handed.1]
  have same := flags_succ silent
  rw [clears, if_pos rfl] at same
  exact same.resumereqR

/-! ## The core under the flags -/

theorem dbgHaltReq_eq (k : ℕ) :
    (r.core.inputs k).dbgHaltReq = ((r.dm k).haltreqR && (r.dm k).dmActive) :=
  rfl

theorem dbgResumeReq_eq (k : ℕ) :
    (r.core.inputs k).dbgResumeReq =
      ((r.dm k).resumereqR && (r.dm k).dmActive) := rfl

theorem dbgSingleStep_eq (k : ℕ) :
    (r.core.inputs k).dbgSingleStep =
      ((r.dm k).stepR && (r.dm k).dmActive && (r.core.state k).halted) := by
  rw [core_state]
  rfl

theorem noHaltReq_of_flag (down : (r.dm k).haltreqR = false) :
    (r.core.inputs k).dbgHaltReq = false := by
  rw [dbgHaltReq_eq, down, Bool.false_and]

theorem noResumeReq_of_flag (down : (r.dm k).resumereqR = false) :
    (r.core.inputs k).dbgResumeReq = false := by
  rw [dbgResumeReq_eq, down, Bool.false_and]

theorem halted_of_held {b m : ℕ} (late : b ≤ m)
    (halted : (r.core.state b).halted = true)
    (held : ∀ k, b ≤ k → k < m →
      (r.dm k).resumereqR = true → (r.dm k).haltreqR = true) :
    (r.core.state m).halted = true := by
  induction m, late using Nat.le_induction with
  | base => exact halted
  | succ m late inductionHypothesis =>
      have before := inductionHypothesis fun k low high =>
        held k low (by omega)
      rw [r.core.state_succ, Core.step_halted, Core.haltedNext]
      by_cases halt : (r.core.inputs m).dbgHaltReq = true
      · rw [if_pos halt]
      by_cases resume : (r.core.inputs m).dbgResumeReq = true
      · rw [dbgResumeReq_eq, Bool.and_eq_true] at resume
        rw [dbgHaltReq_eq, held m late (by omega) resume.1, resume.2] at halt
        exact absurd rfl halt
      · rw [if_neg halt, if_neg resume, before]
        split_ifs <;> rfl

theorem halted_of_haltreq {w : BitVec 32} (controls : r.Controls k w)
    (active : dmactive w = true) (halt : haltreq w = true) :
    (r.core.state (k + 2)).halted = true := by
  obtain ⟨dmActive, -, haltreqR, -, -⟩ := control_succ controls
  have request : (r.core.inputs (k + 1)).dbgHaltReq = true := by
    rw [dbgHaltReq_eq, haltreqR, dmActive, halt, active]
    rfl
  rw [r.core.state_succ, Core.step_halted, Core.haltedNext, if_pos request]

section Control

variable {t : ℕ} {w : BitVec 32} (controls : r.Controls t w)
  (halted : (r.core.state (t + 1)).halted = true)
include controls

/-- Without a new halt request the halt flag stays as it was written. -/
theorem haltreqR_of_noHalt {m : ℕ} (later : t < m)
    (halt : haltreq w = false)
    (noHalt : ∀ k v, t < k → k < m → r.Controls k v → haltreq v = false) :
    (r.dm m).haltreqR = false :=
  flags_invariant (P := fun halt _ => halt = false) (b := t + 1) later rfl
    (fun k v low high next => noHalt k v (by omega) high next)
    ((control_succ controls).2.2.1.trans halt)

include halted

theorem stays_of_haltreq (halt : haltreq w = true) {m : ℕ} (later : t < m)
    (noResume : r.NoResume t m) : (r.core.state m).halted = true := by
  refine halted_of_held later halted fun k low high => ?_
  refine flags_invariant
    (P := fun halt resume => resume = true → halt = true) low (by decide)
    (fun j v above below next resume => ?_)
    (fun _ => (control_succ controls).2.2.1.trans halt)
  rw [noResume j v (by omega) (by omega) next] at resume
  exact absurd resume (by decide)

/-- A resume request starts the core, and makes it step when the step flag
comes with it. -/
theorem resumes (active : dmactive w = true) (resume : resumereq w = true)
    (noHalt : haltreq w = false) :
    (r.core.state (t + 2)).halted = false ∧
      (r.core.state (t + 2)).stepActive = step w := by
  obtain ⟨dmActive, stepR, haltreqR, resumereqR, -⟩ := control_succ controls
  have quiet := noHaltReq_of_flag (haltreqR.trans noHalt)
  have request : (r.core.inputs (t + 1)).dbgResumeReq = true := by
    rw [dbgResumeReq_eq, resumereqR, dmActive, resume, active]
    rfl
  have single : (r.core.inputs (t + 1)).dbgSingleStep = step w := by
    rw [dbgSingleStep_eq, stepR, dmActive, active, halted, Bool.and_true,
      Bool.and_true]
  rw [r.core.state_succ, Core.step_halted, Core.step_stepActive]
  simp [Core.haltedNext, Core.stepActiveNext, quiet, request, single, halted]

theorem goes_of_runs (running : runs w = true) {m : ℕ} (later : t + 1 < m)
    (noHalt : r.NoHalt t m) : (r.core.state m).halted = false := by
  simp only [runs, Bool.and_eq_true, Bool.not_eq_true'] at running
  obtain ⟨⟨⟨active, resume⟩, noStep⟩, noHaltreq⟩ := running
  obtain ⟨free, inactive⟩ :=
    resumes controls halted active resume noHaltreq
  rw [noStep] at inactive
  by_cases first : m = t + 2
  · rw [first]
    exact free
  obtain ⟨n, rfl⟩ : ∃ n, m = n + 1 := ⟨m - 1, by omega⟩
  refine Run.running_of_inactive (k := t + 2) (by omega) ?_ free inactive
  intro j low high
  exact noHaltReq_of_flag (haltreqR_of_noHalt controls (by omega) noHaltreq
    fun k v above below next => noHalt k v above (by omega) next)

end Control

/-- Up to the first instruction that retires nothing is requested. -/
theorem silent_of_patient {t s : ℕ} (patient : r.Patient t)
    (first : ∀ k, t + 1 < k → k < s → ¬ r.Retires k) {v : BitVec 32}
    (above : t < k) (within : k ≤ s) (next : r.Controls k v) :
    haltreq v = false ∧ resumereq v = false := by
  by_contra request
  obtain ⟨j, later, before, retires⟩ := patient k v above next (by
    by_contra none
    simp only [Bool.not_eq_true, Bool.or_eq_false_iff] at none
    exact request none)
  exact first j later (by omega) retires

/-- A step request of a patient debugger on a halted core. -/
structure StepRequest (r : DebugRun p) (t : ℕ) (w : BitVec 32) : Prop where
  controls : r.Controls t w
  halted : (r.core.state (t + 1)).halted = true
  active : dmactive w = true
  resume : resumereq w = true
  step : step w = true
  noHalt : haltreq w = false
  patient : r.Patient t

section Step

variable {t : ℕ} {w : BitVec 32} (request : r.StepRequest t w)
include request

/-- The core runs until an instruction has retired. -/
theorem haltreqR_of_step {s m : ℕ}
    (first : ∀ k, t + 1 < k → k < s → ¬ r.Retires k) (later : t < m)
    (within : m ≤ s + 1) : (r.dm m).haltreqR = false :=
  haltreqR_of_noHalt request.controls later request.noHalt
    fun k v above below next =>
      (silent_of_patient request.patient first above (by omega) next).1

theorem noResume_of_step {s m : ℕ}
    (first : ∀ k, t + 1 < k → k < s → ¬ r.Retires k) (within : m ≤ s + 1) :
    r.NoResume t m := fun _ _ above below next =>
  (silent_of_patient request.patient first above (by omega) next).2

variable (handed : r.HandedOver (t + 1))
include handed

theorem resumereqR_of_step {m : ℕ} (later : t + 1 < m)
    (noResume : r.NoResume t (m + 1)) : (r.dm m).resumereqR = false := by
  have start : (r.dm (t + 2)).resumereqR = false :=
    resumereqR_of_handedOver request.controls handed fun v next =>
      noResume (t + 1) v (by omega) (by omega) next
  exact flags_invariant (P := fun _ resume => resume = false) later rfl
    (fun k v low high next => noResume k v (by omega) (by omega) next) start

/-- The step is active until an instruction retires. -/
theorem stepping_until {s : ℕ}
    (first : ∀ k, t + 1 < k → k < s → ¬ r.Retires k) {m : ℕ}
    (later : t + 1 < m) (within : m ≤ s) :
    (r.core.state m).halted = false ∧
      (r.core.state m).stepActive = true := by
  induction m, later using Nat.le_induction with
  | base =>
      obtain ⟨free, active⟩ := resumes request.controls request.halted
        request.active request.resume request.noHalt
      exact ⟨free, active.trans request.step⟩
  | succ m later inductionHypothesis =>
      obtain ⟨free, active⟩ := inductionHypothesis (by omega)
      have noHalt := noHaltReq_of_flag
        (haltreqR_of_step request first (m := m) (by omega) (by omega))
      have noResume := noResumeReq_of_flag
        (resumereqR_of_step request handed later
          (noResume_of_step request first (by omega)))
      have goes : (r.core.state m).wbSingleStepStop = false := by
        have quiet : (r.core.state m).instrRetire = false :=
          Bool.eq_false_of_not_eq_true (first m later (by omega))
        simp [Core.wbSingleStepStop, quiet]
      rw [r.core.state_succ, Core.step_halted, Core.step_stepActive]
      simp [Core.haltedNext, Core.stepActiveNext, noHalt, noResume, goes,
        free, active]

section First

variable {s : ℕ} (later : t + 1 < s) (retires : r.Retires s)
  (first : ∀ k, t + 1 < k → k < s → ¬ r.Retires k)
include later retires first

/-- The instruction that retires stops the core and empties the pipeline. -/
theorem stop_of_retires :
    (r.core.state (s + 1)).halted = true ∧ r.AtRest (s + 1) := by
  obtain ⟨free, active⟩ :=
    stepping_until request handed first later le_rfl
  have valid := Core.wb_valid_of_retires retires
  have stop : (r.core.state s).wbSingleStepStop = true := by
    simp only [Core.wbSingleStepStop, active, valid, Bool.true_and]
    exact retires
  have noHalt := noHaltReq_of_flag
    (haltreqR_of_step request first (m := s) (by omega) (by omega))
  have noResume := noResumeReq_of_flag
    (resumereqR_of_step request handed later
      (noResume_of_step request first le_rfl))
  have flushed : (r.core.state s).flush (r.core.inputs s) = true := by
    simp [Core.flush, stop]
  refine ⟨?_, ?_, ?_⟩
  · rw [r.core.state_succ, Core.step_halted]
    simp [Core.haltedNext, noHalt, noResume, stop]
  · rw [r.core.state_succ]
    exact (Core.drained_of_flush flushed).ex
  · rw [r.core.state_succ, Core.step_wb]
    simp [Core.wbNext, stop]

/-- From then on the core stays halted until it is resumed. -/
theorem stopped_of_retires {m : ℕ} (after : s < m)
    (noResume : r.NoResume t m) :
    (r.core.state m).halted = true ∧ ¬ r.Retires m := by
  obtain ⟨stopped, rest⟩ := stop_of_retires request handed later retires first
  have halts (k) (low : s + 1 ≤ k) (high : k ≤ m) :
      (r.core.state k).halted = true := by
    refine halted_of_held low stopped fun j above below up => ?_
    rw [resumereqR_of_step request handed (by omega) fun i v low high =>
      noResume i v low (by omega)] at up
    exact absurd up (by decide)
  have empty : r.AtRest m :=
    atRest_of_halted after rest fun k low high => halts k low high.le
  refine ⟨halts m after le_rfl, fun retires => ?_⟩
  have valid := Core.wb_valid_of_retires retires
  rw [empty.2] at valid
  exact absurd valid (by decide)

theorem stepsOnce_of_retires : r.StepsOnce t s where
  later := later
  running := fun k above within =>
    ⟨(stepping_until request handed first above within).1, by
      constructor
      · intro now
        by_contra other
        exact first k above (by omega) now
      · rintro rfl
        exact retires⟩
  stopped := fun m after noResume =>
    stopped_of_retires request handed later retires first after noResume

end First

/-- On a cooperative core the step comes to an end. -/
theorem exists_retires (coop : r.Cooperative) :
    ∃ s, t + 1 < s ∧ r.Retires s := by
  by_contra never
  push Not at never
  have through (m) (late : t + 2 ≤ m) := stepping_until request handed
    (s := m) (fun k above _ => never k above) late le_rfl
  have goes (m) (late : t + 2 ≤ m) :
      (r.core.state m).wbSingleStepStop = false := by
    have quiet : (r.core.state m).instrRetire = false :=
      Bool.eq_false_of_not_eq_true (never m late)
    simp [Core.wbSingleStepStop, quiet]
  have idle (m) (late : t + 2 ≤ m) : r.core.completes m = false := by
    have stays : (r.core.state m).exToWbFire (r.core.inputs m) = false := by
      by_contra leaves
      refine never (m + 1) (by omega) (coop.retires (m + 1) ?_)
      rw [Run.wb_of_leave (by simpa using leaves) (goes m late)]
      rfl
    rw [Run.completes, stays, coop.noDrop m, Bool.or_false]
  have starving : r.core.Starving (t + 2) :=
    Run.starving_of_idle
      (fun m late => by
        rw [dbgSingleStep_eq, (through m late).1, Bool.and_false]
        rfl)
      goes coop.dataAnswers
      (fun m late => ⟨(through m late).1, noHaltReq_of_flag
        (haltreqR_of_step request (s := m) (fun k above _ => never k above)
          (by omega) (by omega))⟩)
      idle
  exact Run.not_starving starving coop.instr coop.instrAnswers

theorem steps_of_handedOver (coop : r.Cooperative) : ∃ s, r.StepsOnce t s := by
  classical
  have some := exists_retires request handed coop
  obtain ⟨later, retires⟩ := Nat.find_spec some
  exact ⟨Nat.find some, stepsOnce_of_retires request handed later retires
    fun k above below now => Nat.find_min some below ⟨above, now⟩⟩

end Step

/-- A step request that is still up after its first cycle lets the core run
on. -/
theorem handedOver_of_steps {t s : ℕ} {w : BitVec 32}
    (request : r.StepRequest t w) (steps : r.StepsOnce t s) :
    r.HandedOver (t + 1) := by
  by_contra held
  have first (k) (above : t + 1 < k) (below : k < s) : ¬ r.Retires k :=
    fun now => absurd ((steps.running k above below.le).2.mp now) (by omega)
  have later := steps.later
  obtain ⟨active, halt, resume⟩ :=
    flags_of_not_handedOver request.controls held
  have noHalt := noHaltReq_of_flag (halt.trans request.noHalt)
  have up : (r.core.inputs (t + 2)).dbgResumeReq = true := by
    rw [dbgResumeReq_eq, resume, active, request.resume, request.active]
    rfl
  have free := (steps.running (t + 2) (by omega) (by omega)).1
  have lost : (r.core.state (t + 3)).halted = false ∧
      (r.core.state (t + 3)).stepActive = false := by
    rw [r.core.state_succ, Core.step_halted, Core.step_stepActive]
    simp [Core.haltedNext, Core.stepActiveNext, noHalt, up, free]
  have goes : (r.core.state (s + 1)).halted = false := by
    by_cases short : s = t + 2
    · rw [short]
      exact lost.1
    refine Run.running_of_inactive (k := t + 3) (by omega) ?_ lost.1 lost.2
    intro j low high
    exact noHaltReq_of_flag
      (haltreqR_of_step request first (by omega) (by omega))
  have stopped := (steps.stopped (s + 1) (by omega)
    (noResume_of_step request first le_rfl)).1
  rw [goes] at stopped
  exact absurd stopped (by decide)

end DebugRun

/-- On a cooperative core, a DMCONTROL write controls a halted core as it
should exactly when it requests no step, or its response is handed over in
the next cycle. -/
theorem runControl_iff {p : Params} (r : DebugRun p) (coop : r.Cooperative)
    (t : ℕ) (w : BitVec 32) (controls : r.Controls t w)
    (halted : (r.core.state (t + 1)).halted = true) :
    r.RunControl t w ↔
      (steps w = true → r.Patient t → r.HandedOver (t + 1)) := by
  have request (stepping : steps w = true) (patient : r.Patient t) :
      r.StepRequest t w := by
    simp only [steps, Bool.and_eq_true, Bool.not_eq_true'] at stepping
    obtain ⟨⟨⟨active, resume⟩, step⟩, noHalt⟩ := stepping
    exact {
      controls := controls, halted := halted, active := active
      resume := resume, step := step, noHalt := noHalt, patient := patient }
  constructor
  · intro control stepping patient
    obtain ⟨s, once⟩ := control.steps stepping patient
    exact DebugRun.handedOver_of_steps (request stepping patient) once
  · intro handed
    exact {
      stays := fun halt m later noResume =>
        DebugRun.stays_of_haltreq controls halted halt later noResume
      goes := fun running m later noHalt =>
        DebugRun.goes_of_runs controls halted running later noHalt
      halts := fun _ k v _ next active halt =>
        DebugRun.halted_of_haltreq next active halt
      steps := fun stepping patient => DebugRun.steps_of_handedOver
        (request stepping patient) (handed stepping patient) coop }

namespace DebugRun

/-- From cycle `b` on nothing happens any more. -/
structure ComesToRest {p : Params} (r : DebugRun p) (b : ℕ) : Prop where
  idle : ∀ n, b ≤ n → r.inputs n = {}
  halted : (r.core.state b).halted = true
  rest : r.AtRest b
  noResume : (r.dm b).resumereqR = false
  answered : r.core.iOutstanding b = none

section Rest

variable {p : Params} {r : DebugRun p} {b : ℕ} (rests : r.ComesToRest b)
  {n : ℕ} (late : b ≤ n)
include rests late

theorem not_controls_of_rest (w : BitVec 32) : ¬ r.Controls n w := by
  intro controls
  simp [Controls, written, Dm.dmiReqFire, rests.idle n late] at controls

theorem halted_of_rest : (r.core.state n).halted = true := by
  refine halted_of_held late rests.halted fun k low _ up => ?_
  have down : (r.dm k).resumereqR = false :=
    flags_invariant (P := fun _ resume => resume = false) low rfl
      (fun j v above _ next =>
        absurd next (not_controls_of_rest rests above v))
      rests.noResume
  rw [down] at up
  exact absurd up (by decide)

theorem atRest_of_rest : r.AtRest n :=
  atRest_of_halted late rests.rest fun _ low _ => halted_of_rest rests low

/-- Nothing is requested any more, and nothing is answered. -/
theorem silent_of_rest :
    (r.core.inputs n).iRspValid = false ∧
      (r.core.state n).iReqValid (r.core.inputs n) = false ∧
      (r.core.state n).dReqValid = false ∧
      (r.core.state n).dRspReady = false := by
  have halted := halted_of_rest rests late
  have empty := (atRest_of_rest rests late).1
  have silent : (r.core.inputs n).iRspValid = false := by
    show (r.inputs n).ports.iRspValid = false
    rw [rests.idle n late]
  refine ⟨silent, ?_, ?_, ?_⟩
  · simp [Core.iReqValid, Core.ifReqActive, Core.pfIssue, Core.pfWant,
      Core.ifCanAcceptFetch, halted]
  · simp [Core.dReqValid, Core.exMemRequesting, empty]
  · simp [Core.dRspReady, empty]

theorem answered_of_rest : r.core.iOutstanding n = none := by
  induction n, late using Nat.le_induction with
  | base => exact rests.answered
  | succ n late inductionHypothesis =>
      obtain ⟨silent, noReq, -⟩ := silent_of_rest rests late
      rw [Run.iOutstanding, outstanding_of_idle (by
        simp [Run.iAccepts, noReq]) (by simp [Run.iHandsOver, silent])]
      exact inductionHypothesis

end Rest

/-- A run that comes to rest is cooperative when it is until then. -/
theorem cooperative_of_rest
    {p : Params} {r : DebugRun p} {b : ℕ} (rests : r.ComesToRest b)
    (answers : ∀ n < b, (r.core.inputs n).iRspValid = true →
      (r.core.iOutstanding n).isSome = true)
    (accepts : ∀ n < b, (r.core.iAccepts n).isSome = true →
      r.core.iOutstanding n = none ∨ r.core.iHandsOver n = true)
    (answered : ∀ n < b, (r.core.iOutstanding n).isSome = true →
      ∃ m < b, n ≤ m ∧ (r.core.inputs m).iRspValid = true)
    (noDrop : ∀ n < b,
      (r.core.state n).exDropsAmo (r.core.inputs n) = false)
    (retires : ∀ n < b, (r.core.state n).wb.valid = true →
      (r.core.state n).instrRetire = true) :
    r.Cooperative where
  instr := {
    answers := fun n response => by
      rcases Nat.lt_or_ge n b with early | late
      · exact answers n early response
      · rw [(silent_of_rest rests late).1] at response
        exact absurd response (by decide)
    accepts := fun n request => by
      rcases Nat.lt_or_ge n b with early | late
      · exact accepts n early request
      · exact Or.inl (answered_of_rest rests late) }
  instrAnswers := {
    accepts := fun n requests => by
      have silent := (silent_of_rest rests (le_max_right n b)).2.1
      rw [requests (max n b) (le_max_left n b)] at silent
      exact absurd silent (by decide)
    answers := fun n asked => by
      rcases Nat.lt_or_ge n b with early | late
      · obtain ⟨m, -, above, response⟩ := answered n early asked
        exact ⟨m, above, response⟩
      · rw [answered_of_rest rests late] at asked
        exact absurd asked (by decide) }
  dataAnswers := {
    accepts := fun n requests => by
      have silent := (silent_of_rest rests (le_max_right n b)).2.2.1
      rw [requests (max n b) (le_max_left n b)] at silent
      exact absurd silent (by decide)
    answers := fun n waits => by
      have silent := (silent_of_rest rests (le_max_right n b)).2.2.2
      rw [waits (max n b) (le_max_left n b)] at silent
      exact absurd silent (by decide) }
  noDrop := fun n => by
    rcases Nat.lt_or_ge n b with early | late
    · exact noDrop n early
    · simp [Core.exDropsAmo, (atRest_of_rest rests late).1]
  retires := fun n valid => by
    rcases Nat.lt_or_ge n b with early | late
    · exact retires n early valid
    · rw [(atRest_of_rest rests late).2] at valid
      exact absurd valid (by decide)

end DebugRun

/-- The core is halted, requested to execute one instruction and halted again;
the response to the step request is taken in its first or in its second
cycle. -/
def oneStep (ready : Bool) : DebugRun {} :=
  DebugRun.script {}
    [{ dmi := .put dmiDmcontrol 0x80000001 },
      { dmi := { dmiRspReady := true } },
      { dmi := .put dmiDmcontrol 0x40000005 },
      { dmi := { dmiRspReady := ready } },
      { dmi := { dmiRspReady := true }, ports := .accept },
      { ports := .answer 0x00000013 }, {}, {}, {},
      { dmi := .put dmiDmcontrol 0x80000001 }]

theorem oneStep_rests (ready : Bool) : (oneStep ready).ComesToRest 11 where
  idle := fun n late =>
    List.getD_eq_default _ _ ((by decide : 10 ≤ 11).trans late)
  halted := by cases ready <;> decide
  rest := by cases ready <;> exact ⟨by decide, by decide⟩
  noResume := by cases ready <;> decide
  answered := by cases ready <;> decide

theorem oneStep_cooperative (ready : Bool) : (oneStep ready).Cooperative := by
  apply DebugRun.cooperative_of_rest (oneStep_rests ready) <;>
    cases ready <;> decide

theorem oneStep_controls (ready : Bool) :
    (oneStep ready).Controls 2 0x40000005 := by
  show (oneStep ready).written 2 = some (dmiDmcontrol, 0x40000005)
  cases ready <;> decide

theorem oneStep_halted (ready : Bool) :
    ((oneStep ready).core.state 3).halted = true := by
  cases ready <;> decide

/-- The second halt request comes after the instruction. -/
theorem oneStep_patient (ready : Bool) : (oneStep ready).Patient 2 := by
  intro k v later controls _
  have only : ∀ j < 11, 2 < j → (oneStep ready).written j ≠ none → j = 9 := by
    cases ready <;> decide
  have early : k < 11 := by
    by_contra late
    exact DebugRun.not_controls_of_rest (oneStep_rests ready)
      (Nat.not_lt.mp late) v controls
  have retires : ((oneStep ready).core.state 8).instrRetire = true := by
    cases ready <;> decide
  obtain rfl := only k early later (by
    rw [show (oneStep ready).written k = _ from controls]
    exact Option.some_ne_none _)
  exact ⟨8, by decide, by decide, retires⟩

/-- The response is taken at once. -/
theorem runControl_iff_oneStep :
    (oneStep true).RunControl 2 0x40000005 :=
  (runControl_iff (oneStep true) (oneStep_cooperative true) 2 0x40000005
    (oneStep_controls true) (oneStep_halted true)).mpr
    fun _ _ => ⟨rfl, fun request => absurd request (by decide)⟩

/-- A step request whose response is taken one cycle later lets the core run
until it is halted by the debugger. -/
theorem not_runControl :
    ¬ ∀ (p : Params) (r : DebugRun p), r.Cooperative → ∀ t w,
      r.Controls t w → (r.core.state (t + 1)).halted = true →
      r.RunControl t w := by
  intro all
  have control := all {} (oneStep false) (oneStep_cooperative false) 2
    0x40000005 (oneStep_controls false) (oneStep_halted false)
  obtain ⟨s, once⟩ := control.steps (by decide) (oneStep_patient false)
  have request : (oneStep false).StepRequest 2 0x40000005 :=
    { controls := oneStep_controls false, halted := oneStep_halted false
      active := by decide, resume := by decide, step := by decide
      noHalt := by decide, patient := oneStep_patient false }
  have handed := DebugRun.handedOver_of_steps request once
  exact absurd handed.1 (by decide)

end SisRv
