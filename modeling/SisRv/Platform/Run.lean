import SisRv.Core.DataPort
import SisRv.Debug.Jtag
import SisRv.Rtl.PlatformTop

/-!
# Runs of the platform

Core, debug transport, debug module and memory side move together.  Since the
transport raises no request, the debug module keeps its reset state, and the
core is free of the debugger whatever the JTAG pins do.
-/

namespace SisRv

open Sync

/-- A run of the platform after reset. -/
structure PlatformRun (p : Params) (σ : Type) where
  side : MemSide σ
  power : PowerOn
  mem : σ
  inputs : ℕ → PlatformIn

namespace PlatformRun

variable {p : Params} {σ : Type} (r : PlatformRun p σ)

/-- The registers in cycle `n`. -/
def state : ℕ → PlatformTop p σ :=
  trajectory (fun s i => s.next r.side i) (PlatformTop.reset r.power r.mem)
    r.inputs

/-- The run of the core. -/
def core : Run p :=
  ⟨r.power, fun n => (r.state n).coreIn r.side (r.inputs n)⟩

/-- What the core drives. -/
def ports (n : ℕ) : CorePorts := (r.state n).ports r.side

variable {r} {n : ℕ}

theorem core_state (n : ℕ) : r.core.state n = (r.state n).core := by
  induction n with
  | zero => rfl
  | succ n inductionHypothesis =>
      rw [Run.state_succ, inductionHypothesis]
      rfl

/-- The core drives the ports. -/
theorem ports_eq (n : ℕ) :
    r.ports n =
      { iReqValid := (r.core.state n).iReqValid (r.core.inputs n)
        iReqAddr := (r.core.state n).iReqAddr (r.core.inputs n)
        iRspReady := (r.core.state n).iRspReady
        d :=
          { reqValid := (r.core.state n).dReqValid
            req := (r.core.state n).dReq
            rspReady := (r.core.state n).dRspReady } } := by
  rw [core_state]
  rfl

theorem mem_succ (n : ℕ) :
    (r.state (n + 1)).mem =
      r.side.next (r.state n).mem (r.inputs n) (r.ports n) := rfl

/-! ## The debugger -/

/-- Without a request the debug module keeps its reset state. -/
theorem dm_step_reset {i : DmiIn} {c : DmCoreIn}
    (silent : i.dmiReqValid = false) : Dm.reset.step i c = Dm.reset := by
  have quiet : Dm.reset.dmiReqFire i = false := by
    simp [Dm.dmiReqFire, silent]
  rw [Dm.step, Dm.dmiStep, quiet]
  rfl

/-- The transport never gets beyond a data scan, and nothing reaches the debug
module. -/
theorem undebugged (r : PlatformRun p σ) (n : ℕ) :
    (r.state n).jtag.Scanning ∧ (r.state n).dm = Dm.reset := by
  induction n with
  | zero => exact ⟨JtagDtm.scanning_reset, rfl⟩
  | succ n inductionHypothesis =>
      obtain ⟨scanning, unreached⟩ := inductionHypothesis
      refine ⟨scanning.step, ?_⟩
      show (r.state n).dm.step (r.state n).dmiIn _ = Dm.reset
      rw [unreached]
      exact dm_step_reset scanning.silent

/-- What the debug module drives. -/
theorem debug_inputs (n : ℕ) :
    (r.core.inputs n).dbgHaltReq = false ∧
      (r.core.inputs n).dbgResumeReq = false ∧
      (r.core.inputs n).dbgSingleStep = false ∧
      (r.core.inputs n).dbgAbsValid = false := by
  have driven : (r.core.inputs n).dbgHaltReq = (r.state n).dm.haltReq ∧
      (r.core.inputs n).dbgResumeReq = (r.state n).dm.resumeReq ∧
      (r.core.inputs n).dbgSingleStep =
        (r.state n).dm.singleStep (r.state n).core.halted ∧
      (r.core.inputs n).dbgAbsValid = (r.state n).dm.absValid :=
    ⟨rfl, rfl, rfl, rfl⟩
  rw [(r.undebugged n).2] at driven
  exact driven

theorem noSingleStep : r.core.NoSingleStep := fun n =>
  (debug_inputs n).2.2.1

theorem noAbstractWrite : r.core.NoAbstractWrite := by
  intro n
  rw [(debug_inputs n).2.2.2, Bool.false_and]

theorem not_halted (n : ℕ) : (r.core.state n).halted = false := by
  induction n with
  | zero => rfl
  | succ n inductionHypothesis =>
      rw [Run.state_succ, Core.step_halted, Core.haltedNext]
      simp [inductionHypothesis, (debug_inputs n).1,
        Core.wbSingleStepStop, r.core.stepActive_of_noSingleStep noSingleStep n]

/-- Whatever the JTAG pins do, nothing of the debugger gets through. -/
theorem debugger_inert (r : PlatformRun p σ) (n : ℕ) :
    (r.state n).dmiIn.dmiReqValid = false ∧ (r.state n).dm = Dm.reset ∧
      (r.core.state n).halted = false ∧
      (r.core.inputs n).dbgHaltReq = false ∧
      (r.core.inputs n).dbgResumeReq = false ∧
      (r.core.inputs n).dbgSingleStep = false ∧
      (r.core.inputs n).dbgAbsValid = false :=
  ⟨(r.undebugged n).1.silent, (r.undebugged n).2, not_halted n,
    debug_inputs n⟩

end PlatformRun

/-! ## The two memory sides -/

/-- What a run starts from and what its pins do. -/
structure Setup where
  power : PowerOn
  rom : BitVec 19 → BitVec 32
  ram : BitVec 16 → BitVec 32
  mtime : BitVec 64
  pins : ℕ → PlatformIn

namespace Setup

variable (t : Setup) (p : Params)

/-- `USE_AXIL` is 0. -/
def corebus : PlatformRun p Corebus where
  side := corebusSide
  power := t.power
  mem := Corebus.reset t.rom t.ram
  inputs := t.pins

/-- `USE_AXIL` is 1, with a value of `AXIL_STALL_RATE`. -/
def axil (stallRate : ℤ) : PlatformRun p AxiPlatform where
  side := axilSide stallRate
  power := t.power
  mem := AxiPlatform.reset t.rom t.ram t.mtime
  inputs := t.pins

end Setup

end SisRv
