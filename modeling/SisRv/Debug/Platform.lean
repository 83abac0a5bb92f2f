import SisRv.Core.AbstractAccess
import SisRv.Rtl.Dm

/-!
# The core under its debug module

`sisDm` and `sisRvCore` move together, connected as in `sisPlatformTop`.
-/

namespace SisRv

open Sync

/-- The registers of both. -/
structure DebugPlatform (p : Params) where
  dm : Dm
  core : Core p

/-- What the DMI master drives, and the ports of the core that lead
elsewhere. -/
structure DebugIn where
  dmi : DmiIn := {}
  ports : CoreIn := {}
  deriving DecidableEq, Repr

/-- A DMI write by a master that takes its response at once. -/
def DmiIn.put (addr : BitVec 7) (word : BitVec 32) : DmiIn :=
  { dmiReqValid := true, dmiReqWrite := true, dmiReqAddr := addr
    dmiReqWdata := word, dmiRspReady := true }

namespace Dm

variable {s : Dm} {i : DmiIn} {c : DmCoreIn}

/-- A write is executed on top of the command FSM. -/
theorem step_of_write
    (fire : s.dmiReqFire i = true) (write : i.dmiReqWrite = true) :
    s.step i c =
      dmiWrite i
        { s.absStep c s with dmiPending := true, dmiRdataReg := 0 } := by
  rw [step, dmiStep, if_pos fire, if_pos write]

variable (s) (i) (c)

/-- What a clock edge can do at the DMI port. -/
inductive DmiCycle : Prop
  | writes
      (fire : s.dmiReqFire i = true) (write : i.dmiReqWrite = true)
      (next : s.step i c =
        dmiWrite i
          { s.absStep c s with dmiPending := true, dmiRdataReg := 0 })
  | reads
      (fire : s.dmiReqFire i = true) (read : i.dmiReqWrite = false)
      (next : s.step i c =
        { s.absStep c s with
          dmiPending := true, dmiRdataReg := s.dmiRead i c })
  | handsOver
      (quiet : s.dmiReqFire i = false)
      (taken : (s.dmiRspValid && i.dmiRspReady) = true)
      (next : s.step i c =
        { s.absStep c s with
          dmiPending := false, haltreqR := false, resumereqR := false })
  | idles
      (quiet : s.dmiReqFire i = false)
      (kept : (s.dmiRspValid && i.dmiRspReady) = false)
      (next : s.step i c = s.absStep c s)

theorem dmiCycle : s.DmiCycle i c := by
  by_cases fire : s.dmiReqFire i = true
  · by_cases write : i.dmiReqWrite = true
    · exact .writes fire write (step_of_write fire write)
    · refine .reads fire (by simpa using write) ?_
      rw [step, dmiStep, if_pos fire, if_neg write]
  · by_cases taken : (s.dmiRspValid && i.dmiRspReady) = true
    · refine .handsOver (by simpa using fire) taken ?_
      rw [step, dmiStep, if_neg fire, if_pos taken]
    · refine .idles (by simpa using fire) (by simpa using taken) ?_
      rw [step, dmiStep, if_neg fire, if_neg taken]

end Dm

namespace DebugPlatform

variable {p : Params} (s : DebugPlatform p) (i : DebugIn)

def coreIn : CoreIn :=
  { i.ports with
    dbgHaltReq := s.dm.haltReq
    dbgResumeReq := s.dm.resumeReq
    dbgSingleStep := s.dm.singleStep s.core.halted
    dbgAbsValid := s.dm.absValid
    dbgAbsWrite := s.dm.absWrite
    dbgAbsRegaddr := s.dm.absRegaddr
    dbgAbsWdata := s.dm.absWdata }

def dmCoreIn : DmCoreIn :=
  { coreHalted := s.core.halted
    coreRunning := !s.core.halted
    absReady := s.core.dbgAbsReady (s.coreIn i)
    absRdata := s.core.dbgAbsRdata (s.coreIn i) }

/-- One clock edge. -/
def next : DebugPlatform p :=
  { dm := s.dm.step i.dmi (s.dmCoreIn i)
    core := s.core.step (s.coreIn i) }

end DebugPlatform

/-- A run of both after reset. -/
structure DebugRun (p : Params) where
  power : PowerOn
  inputs : ℕ → DebugIn

namespace DebugRun

variable {p : Params} (r : DebugRun p)

/-- The registers in cycle `k`. -/
def state : ℕ → DebugPlatform p :=
  trajectory (fun s i => s.next i) ⟨Dm.reset, Core.reset p r.power⟩ r.inputs

def dm (k : ℕ) : Dm := (r.state k).dm

/-- The run of the core. -/
def core : Run p :=
  ⟨r.power, fun k => (r.state k).coreIn (r.inputs k)⟩

/-- The DMI write that is accepted in a cycle. -/
def written (k : ℕ) : Option (BitVec 7 × BitVec 32) :=
  if (r.dm k).dmiReqFire (r.inputs k).dmi && (r.inputs k).dmi.dmiReqWrite then
    some ((r.inputs k).dmi.dmiReqAddr, (r.inputs k).dmi.dmiReqWdata)
  else none

/-- No instruction is left in EX and WB. -/
def AtRest (k : ℕ) : Prop :=
  (r.core.state k).ex.valid = false ∧ (r.core.state k).wb.valid = false

/-- A run of finitely many prescribed cycles, followed by idle ones. -/
def script (p : Params) (inputs : List DebugIn) : DebugRun p :=
  { power := {}, inputs := fun n => inputs.getD n {} }

variable {r}

theorem core_state (k : ℕ) : r.core.state k = (r.state k).core := by
  induction k with
  | zero => rfl
  | succ k inductionHypothesis =>
      rw [Run.state_succ, inductionHypothesis]
      rfl

theorem dm_succ (k : ℕ) :
    r.dm (k + 1) =
      (r.dm k).step (r.inputs k).dmi ((r.state k).dmCoreIn (r.inputs k)) := rfl

theorem written_eq_some {addr : BitVec 7} {word : BitVec 32}
    (written : r.written k = some (addr, word)) :
    (r.dm k).dmiReqFire (r.inputs k).dmi = true ∧
      (r.inputs k).dmi.dmiReqWrite = true ∧
      (r.inputs k).dmi.dmiReqAddr = addr ∧
      (r.inputs k).dmi.dmiReqWdata = word := by
  unfold DebugRun.written at written
  split_ifs at written with accepted
  simp only [Bool.and_eq_true] at accepted
  simp only [Option.some.injEq, Prod.mk.injEq] at written
  exact ⟨accepted.1, accepted.2, written.1, written.2⟩

theorem atRest_succ
    (halted : (r.core.state k).halted = true) (rest : r.AtRest k) :
    r.AtRest (k + 1) := by
  have quiet : (r.core.state k).idToExFire (r.core.inputs k) = false := by
    simp [Core.idToExFire, halted]
  constructor
  · by_contra valid
    rw [r.core.state_succ] at valid
    have before := Core.valid_of_exNext quiet (by simpa using valid)
    exact absurd (rest.1.symm.trans before) (by decide)
  · by_contra valid
    rw [r.core.state_succ] at valid
    have leaves := (Core.leave_of_wb_valid (by simpa using valid)).1
    exact absurd (rest.1.symm.trans (Core.valid_of_leave leaves)) (by decide)

/-- The pipeline stays empty as long as the core is halted. -/
theorem atRest_of_halted {b m : ℕ} (late : b ≤ m) (rest : r.AtRest b)
    (halted : ∀ k, b ≤ k → k < m → (r.core.state k).halted = true) :
    r.AtRest m := by
  induction m, late using Nat.le_induction with
  | base => exact rest
  | succ m late inductionHypothesis =>
      exact atRest_succ (halted m late (Nat.lt_succ_self m))
        (inductionHypothesis fun k low high => halted k low (by omega))

end DebugRun

end SisRv
