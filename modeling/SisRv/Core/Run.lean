import SisRv.Lib.Trajectory
import SisRv.Rtl.Core.Step
import Mathlib.Data.List.GetD

/-!
# Runs of the core

A run fixes the unreset registers and the inputs of every cycle; its states
are the trajectory of `Core.step` from reset.  The lemmas give every register
of the front end after an edge as a chain of conditions, the last assignment
of the source first.
-/

namespace SisRv

open Sync

/-- A run of the core after reset. -/
structure Run (p : Params) where
  power : PowerOn
  inputs : ℕ → CoreIn

namespace Run

variable {p : Params} (r : Run p)

/-- The registers in cycle `n`. -/
def state : ℕ → Core p :=
  trajectory Core.step (Core.reset p r.power) r.inputs

theorem state_zero : r.state 0 = Core.reset p r.power := rfl

theorem state_succ (n : ℕ) :
    r.state (n + 1) = (r.state n).step (r.inputs n) := rfl

/-- The debugger never asks for single steps. -/
def NoSingleStep : Prop := ∀ n, (r.inputs n).dbgSingleStep = false

end Run

namespace CoreIn

/-! Cycles of a prescribed run. -/

/-- Nothing happens at the ports. -/
def idle : CoreIn := {}

/-- The instruction port accepts a request. -/
def accept : CoreIn := { iReqReady := true }

/-- The instruction port answers with a word. -/
def answer (data : BitVec 32) : CoreIn :=
  { iRspValid := true, iRspRdata := data }

/-- Every word is accepted and answered in the next cycle. -/
def fetch (words : List (BitVec 32)) : List CoreIn :=
  words.flatMap fun data => [accept, answer data]

end CoreIn

namespace Run

variable {p : Params} (r : Run p)

/-- A run of finitely many prescribed cycles, followed by idle ones. -/
def script (p : Params) (inputs : List CoreIn) : Run p :=
  { power := {}, inputs := fun n => inputs.getD n {} }

theorem script_inputs_of_forall
    {p : Params} {inputs : List CoreIn} {P : CoreIn → Prop}
    (idle : P {}) (prescribed : ∀ i ∈ inputs, P i) (n : ℕ) :
    P ((script p inputs).inputs n) := by
  simp only [script]
  by_cases within : n < inputs.length
  · rw [List.getD_eq_getElem _ _ within]
    exact prescribed _ (List.getElem_mem within)
  · rw [List.getD_eq_default _ _ (Nat.not_lt.mp within)]
    exact idle

theorem noSingleStep_script
    {p : Params} {inputs : List CoreIn}
    (prescribed : ∀ i ∈ inputs, i.dbgSingleStep = false) :
    (script p inputs).NoSingleStep :=
  script_inputs_of_forall (P := fun i => i.dbgSingleStep = false) rfl
    prescribed

theorem stepActive_of_noSingleStep (single : r.NoSingleStep) (n : ℕ) :
    (r.state n).stepActive = false := by
  induction n with
  | zero =>
      rfl
  | succ n inductionHypothesis =>
      rw [state_succ]
      show (r.state n).stepActiveNext (r.inputs n) = false
      unfold Core.stepActiveNext
      rw [single n, inductionHypothesis]
      split_ifs <;> simp

theorem not_stop_of_noSingleStep (single : r.NoSingleStep) (n : ℕ) :
    (r.state n).wbSingleStepStop = false := by
  simp [Core.wbSingleStepStop, r.stepActive_of_noSingleStep single n]

end Run

namespace Core

variable {p : Params} (s : Core p) (i : CoreIn)

@[simp] theorem step_fe : (s.step i).fe = s.feNext i := rfl
@[simp] theorem step_ex : (s.step i).ex = s.exNext i := rfl
@[simp] theorem step_wb : (s.step i).wb = s.wbNext i := rfl
@[simp] theorem step_halted : (s.step i).halted = s.haltedNext i := rfl
@[simp] theorem step_regs : (s.step i).regs = s.regsNext i := rfl

@[simp]
theorem step_stepActive :
    (s.step i).stepActive = s.stepActiveNext i := rfl

@[simp]
theorem step_csr : (s.step i).csr = s.csr.next i.irq s.csrIn := rfl

/-- The cycles in which the pipeline behind EX is flushed. -/
def flush : Bool := s.exRedirect i || s.wbSingleStepStop

/-- Where a flush sends the front end. -/
def flushTarget : BitVec 32 :=
  if s.wbSingleStepStop then s.wb.pcNext else s.exPcNext i

/-! ## What excludes what in a cycle -/

section Exclusion

variable {s i}

theorem not_stop_of_redirect (redirect : s.exRedirect i = true) :
    s.wbSingleStepStop = false := by
  simp only [exRedirect, Bool.and_eq_true, Bool.not_eq_true'] at redirect
  exact redirect.1.2

theorem toWb_of_redirect (redirect : s.exRedirect i = true) :
    s.exToWbFire i = true := by
  simp only [exRedirect, Bool.and_eq_true] at redirect
  exact redirect.1.1

theorem not_accept_of_flush (flushed : s.flush i = true) :
    s.ifCanAcceptFetch i = false := by
  simp only [flush, Bool.or_eq_true] at flushed
  rcases flushed with redirect | stop
  · simp [ifCanAcceptFetch, redirect]
  · simp [ifCanAcceptFetch, stop]

theorem not_issue_of_flush (flushed : s.flush i = true) :
    s.idToExFire i = false := by
  simp only [flush, Bool.or_eq_true] at flushed
  rcases flushed with redirect | stop
  · simp [idToExFire, redirect]
  · simp [idToExFire, stop]

theorem ifIdValid_of_issue (issue : s.idToExFire i = true) :
    s.fe.ifId.valid = true := by
  simp only [idToExFire, Bool.and_eq_true] at issue
  exact issue.1.1.1.1.1.1.1

theorem not_flush_of_issue (issue : s.idToExFire i = true) :
    s.flush i = false := by
  by_contra flushed
  rw [not_issue_of_flush (by simpa using flushed)] at issue
  exact Bool.false_ne_true issue

end Exclusion

end Core

end SisRv
