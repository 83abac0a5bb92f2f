import SisRv.Core.Forwarding
import SisRv.Core.SingleStep
import SisRv.Core.Transparency

/-!
# One instruction at a time

A machine that executes each instruction from its fetch to its commit before
the next one begins.  It uses the combinational logic of the core, on an
otherwise empty pipeline, and keeps the data requests it made and the
instructions that reached WB.
-/

namespace SisRv

/-! ## CSR state without the counters -/

/-- The counters, which tick with the cycles. -/
structure Counters where
  mcycle : BitVec 64
  minstret : BitVec 64
  mhpmcounter : HpmIndex → BitVec 64

def Counters.zero : Counters := ⟨0, 0, fun _ => 0⟩

namespace CsrState

variable {p : Params} (c n : CsrState p) (k : Counters)

def counters : Counters := ⟨c.mcycle, c.minstret, c.mhpmcounter⟩

def withCounters : CsrState p :=
  { c with
    mcycle := k.mcycle
    minstret := k.minstret
    mhpmcounter := k.mhpmcounter }

/-- The CSR state with all counters at zero. -/
def uncounted : CsrState p := c.withCounters .zero

theorem uncounted_tickCounters (x : CsrIn p) :
    (c.tickCounters x).uncounted = c.uncounted := rfl

/-- Writes do not depend on the counters, except for those of a counter. -/
theorem uncounted_writeCsr (addr : BitVec 12) (val : BitVec 32) :
    (c.writeCsr n addr val).uncounted =
      (c.writeCsr n.uncounted addr val).uncounted := by
  have indexed : (c.writeIndexed n addr val).uncounted =
      (c.writeIndexed n.uncounted addr val).uncounted := by
    unfold writeIndexed
    split
    · rfl
    split
    · rfl
    split
    · rfl
    split <;> rfl
  simp only [writeCsr, apply_ite uncounted]
  repeat' refine ite_congr rfl (fun _ => ?_) fun _ => ?_
  all_goals first
    | with_reducible exact indexed
    | simp only [uncounted, withCounters]

theorem uncounted_commit (irq : IrqLines) (x : CsrIn p) :
    (c.commit irq x n).uncounted =
      (c.commit irq x n.uncounted).uncounted := by
  simp only [commit, apply_ite uncounted, c.uncounted_writeCsr n]
  rfl

end CsrState

/-! ## The architectural state -/

/-- The state between two instructions; the counters of the CSR state are at
zero. -/
structure Arch (p : Params) where
  pc : BitVec 32
  regs : BitVec 5 → BitVec 32
  csr : CsrState p
  lrReservationAddr : BitVec 32
  lrReservationValid : Bool
  amoOldVal : BitVec 32
  asked : List BusReq
  entered : List WbRegs

/-- Instruction memory, and what the data bus answers to the last of the
requests made so far: the word read and whether there is an error. -/
structure Surroundings where
  mem : InstrMemory
  answer : List BusReq → BitVec 32 × Bool

/-- What else an instruction reads: the interrupt lines when it leaves EX, and
the lines and the counters when it is in WB. -/
structure Moment where
  lines : IrqLines
  wbLines : IrqLines
  counters : Counters

/-- The inputs of a cycle with nothing but interrupt lines. -/
def CoreIn.ofLines (lines : IrqLines) : CoreIn :=
  { extMsip := lines.extMsip
    extMtip := lines.extMtip
    extMeip := lines.extMeip }

/-- The inputs of a cycle with an answer of the data bus. -/
def CoreIn.ofAnswer (lines : IrqLines) (answer : BitVec 32 × Bool) : CoreIn :=
  { CoreIn.ofLines lines with
    dRspValid := true
    dRspRdata := answer.1
    dRspErr := answer.2 }

namespace Core

variable {p : Params} (s : Core p)

/-- The request of the first cycle has been accepted. -/
def launched : Core p :=
  { s with
    ex :=
      { s.ex with
        state := .exMemWait
        aluResultReg := s.exExecResult
        memAddrReg := s.aluResult
        memMisaligned :=
          (s.ex.isLoad || s.ex.isStore) &&
            isMemMisaligned s.aluResult s.ex.funct3
        memErr := false } }

/-- The read phase of an AMO has been answered. -/
def amoRead (rdata : BitVec 32) : Core p :=
  { s with
    ex :=
      { s.ex with
        state := .exAmoStoreReq
        memRdataReg := rdata
        memErr := false }
    amoOldVal := rdata }

/-- The request of the write phase has been accepted. -/
def amoLaunched : Core p :=
  { s with ex := { s.ex with state := .exAmoStoreWait } }

end Core

namespace Arch

variable {p : Params} (m : Arch p)

/-- The state at reset. -/
def reset (p : Params) (regs : BitVec 5 → BitVec 32) : Arch p :=
  { pc := p.resetVector
    regs := regs
    csr := CsrState.reset p
    lrReservationAddr := 0
    lrReservationValid := false
    amoOldVal := 0
    asked := []
    entered := [] }

/-- A core with the given instruction in EX and nothing else. -/
def core (ex : ExRegs) : Core p :=
  { fe := FrontEnd.reset m.pc
    ex := ex
    wb := WbRegs.reset 0
    lrReservationAddr := m.lrReservationAddr
    lrReservationValid := m.lrReservationValid
    amoOldVal := m.amoOldVal
    halted := false
    stepActive := false
    regs := m.regs
    csr := m.csr }

/-- The words that the PMP does not let the core execute. -/
def denied (addr : BitVec 30) : Bool :=
  !sisPmp m.csr.pmpcfg m.csr.pmpaddr (addr ++ 0#2 : BitVec 32) m.csr.priv
    false false true

/-- A core with the next instruction in IF/ID. -/
def fetching (mem : InstrMemory) : Core p :=
  { m.core (ExRegs.reset 0) with
    fe :=
      { FrontEnd.reset m.pc with
        ifId := mem.parcelAt p.enableC m.denied m.pc } }

/-- The next instruction as it is latched into EX. -/
def issue (mem : InstrMemory) : ExRegs := (m.fetching mem).issuedEx {}

/-- The core in its first cycle in EX. -/
def begun (mem : InstrMemory) : Core p := m.core (m.issue mem)

/-- The instruction in EX of `s` leaves for WB and commits. -/
def finish
    (s : Core p) (i : CoreIn) (o : Moment) (asked : List BusReq) : Arch p :=
  let w := s.completedWb i
  let t : Core p :=
    { s with
      ex := ExRegs.reset 0
      wb := w
      csr := (CsrState.latchHits s.csrIn s.csr).withCounters o.counters }
  { pc := s.exPcNext i
    regs := t.wbWrite (.ofLines o.wbLines) t.regs
    csr := (t.csr.next o.wbLines t.csrIn).uncounted
    lrReservationAddr := s.lrAddrNext i
    lrReservationValid := s.lrValidNext i
    amoOldVal := s.amoOldValNext i
    asked := asked
    entered := m.entered ++ [w] }

section Accesses

variable (env : Surroundings)

/-- The requests up to the first one of the next instruction. -/
def readAsked : List BusReq := m.asked ++ [(m.begun env.mem).dReq]

/-- The core with the next instruction, an AMO, before its write phase. -/
def amoBegun : Core p :=
  (m.begun env.mem).launched.amoRead (env.answer (m.readAsked env)).1

def amoAsked : List BusReq := m.readAsked env ++ [(m.amoBegun env).dReq]

/-- The next instruction, with its data accesses. -/
def exec (o : Moment) : Arch p :=
  let s := m.begun env.mem
  let read := env.answer (m.readAsked env)
  if s.exMemAccess then
    if s.exIsAmoOp then
      -- an AMO whose read fails is dropped
      if read.2 then
        { m with pc := s.exPcSequential, asked := m.readAsked env }
      else
        m.finish (m.amoBegun env).amoLaunched
          (.ofAnswer o.lines (env.answer (m.amoAsked env))) o (m.amoAsked env)
    else m.finish s.launched (.ofAnswer o.lines read) o (m.readAsked env)
  else m.finish s (.ofLines o.lines) o m.asked

variable {m env}

/-! ### The four courses of an instruction -/

theorem exec_of_plain
    (plain : (m.begun env.mem).exMemAccess = false) (o : Moment) :
    m.exec env o =
      m.finish (m.begun env.mem) (.ofLines o.lines) o m.asked := by
  simp [exec, plain]

section Access

variable (access : (m.begun env.mem).exMemAccess = true)
include access

theorem exec_of_access
    (notAmo : (m.begun env.mem).exIsAmoOp = false) (o : Moment) :
    m.exec env o =
      m.finish (m.begun env.mem).launched
        (.ofAnswer o.lines (env.answer (m.readAsked env))) o
        (m.readAsked env) := by
  simp [exec, access, notAmo]

variable (amo : (m.begun env.mem).exIsAmoOp = true)
include amo

theorem exec_of_amo
    (ok : (env.answer (m.readAsked env)).2 = false) (o : Moment) :
    m.exec env o =
      m.finish (m.amoBegun env).amoLaunched
        (.ofAnswer o.lines (env.answer (m.amoAsked env))) o
        (m.amoAsked env) := by
  simp [exec, access, amo, ok]

theorem exec_of_drop
    (fails : (env.answer (m.readAsked env)).2 = true) (o : Moment) :
    m.exec env o =
      { m with
        pc := (m.begun env.mem).exPcSequential
        asked := m.readAsked env } := by
  simp [exec, access, amo, fails]

end Access

variable (m env)

/-- An instruction finishes, or it is an AMO that is dropped. -/
theorem exec_cases (lines : IrqLines) :
    (∃ s i asked, m.asked <+: asked ∧
      ∀ o : Moment, o.lines = lines →
        m.exec env o = m.finish s i o asked) ∨
      ∀ o : Moment, m.exec env o =
        { m with
          pc := (m.begun env.mem).exPcSequential
          asked := m.readAsked env } := by
  by_cases access : (m.begun env.mem).exMemAccess = true
  · by_cases amo : (m.begun env.mem).exIsAmoOp = true
    · by_cases fails : (env.answer (m.readAsked env)).2 = true
      · exact Or.inr (exec_of_drop access amo fails)
      · refine Or.inl ⟨(m.amoBegun env).amoLaunched,
          .ofAnswer lines (env.answer (m.amoAsked env)), m.amoAsked env, ?_,
          ?_⟩
        · exact (List.prefix_append _ _).trans (List.prefix_append _ _)
        · rintro o rfl
          exact exec_of_amo access amo (by simpa using fails) o
    · refine Or.inl ⟨(m.begun env.mem).launched,
        .ofAnswer lines (env.answer (m.readAsked env)), m.readAsked env,
        List.prefix_append _ _, ?_⟩
      rintro o rfl
      exact exec_of_access access (by simpa using amo) o
  · refine Or.inl ⟨m.begun env.mem, .ofLines lines, m.asked,
      List.prefix_refl _, ?_⟩
    rintro o rfl
    exact exec_of_plain (by simpa using access) o

end Accesses

end Arch

end SisRv
