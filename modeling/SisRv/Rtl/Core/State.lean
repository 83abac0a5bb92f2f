import SisRv.Rtl.Csr
import SisRv.Rtl.Decode

/-!
# Registers and ports of `sisRvCore`

The registers of `rtl/core/sisRvCore.sv`, grouped by pipeline stage.  A field
of a stage record is the source register without the stage prefix: `ex.pc` is
`ex_pc`, `fe.fbufValid` is `fbuf_valid`, `wb.memErr` is `wb_mem_err`.
-/

namespace SisRv

/-- `if_state_t`. -/
inductive IfState where
  | ifReq
  | ifWait
  | ifSecondReq
  | ifSecondWait
  deriving DecidableEq, Repr

/-- `ex_state_t`. -/
inductive ExState where
  | exExec
  | exMemReq
  | exMemWait
  | exAmoStoreReq
  | exAmoStoreWait
  | exWb
  deriving DecidableEq, Repr

/-- The IF/ID registers. -/
structure IfId where
  valid : Bool
  pc : BitVec 32
  raw : BitVec 32
  len : BitVec 2
  isCompressed : Bool
  fetchErr : Bool
  deriving DecidableEq, Repr

/-- The IF stage: demand FSM, fetch buffer, prefetch slot and IF/ID. -/
structure FrontEnd where
  ifState : IfState
  fetchPc : BitVec 32
  fetchReqPc : BitVec 32
  fetchUpperHold : BitVec 16
  fetchErrHold : Bool
  ifDiscardRsp : Bool
  fbufValid : Bool
  fbufWordAddr : BitVec 30
  fbufData : BitVec 32
  fbufErr : Bool
  pfValid : Bool
  pfAddr : BitVec 30
  pfData : BitVec 32
  pfErr : Bool
  pfInflight : Bool
  pfInflightAddr : BitVec 30
  pfDiscard : Bool
  ifId : IfId
  deriving DecidableEq, Repr

/-- The EX/MEM registers; the decoder outputs are latched with their names. -/
structure ExRegs extends Decoded where
  state : ExState
  valid : Bool
  pc : BitVec 32
  instr : BitVec 32
  raw : BitVec 32
  len : BitVec 2
  isCompressed : Bool
  fetchErr : Bool
  illegalCompressed : Bool
  priv : BitVec 2
  rs1Val : BitVec 32
  rs2Val : BitVec 32
  aluResultReg : BitVec 32
  memAddrReg : BitVec 32
  memRdataReg : BitVec 32
  memErr : Bool
  memMisaligned : Bool
  deriving DecidableEq, Repr

/-- The WB/retire registers. -/
structure WbRegs where
  valid : Bool
  pc : BitVec 32
  instr : BitVec 32
  raw : BitVec 32
  len : BitVec 2
  isCompressed : Bool
  fetchErr : Bool
  illegalCompressed : Bool
  rd : BitVec 5
  funct3 : BitVec 3
  isLui : Bool
  isAuipc : Bool
  isJal : Bool
  isJalr : Bool
  isBranch : Bool
  isLoad : Bool
  isStore : Bool
  isAluImm : Bool
  isAluReg : Bool
  isLegal : Bool
  isAtomic : Bool
  isLr : Bool
  isSc : Bool
  isAmoOp : Bool
  amoOldVal : BitVec 32
  scResult : BitVec 32
  aluResult : BitVec 32
  memAddr : BitVec 32
  memRdata : BitVec 32
  memErr : Bool
  memMisaligned : Bool
  instrAddrMisaligned : Bool
  decIsLegalEff : Bool
  isEcall : Bool
  isEbreak : Bool
  triggerHit : Bool
  isMret : Bool
  isCsrOp : Bool
  csrOpType : BitVec 2
  csrSrcVal : BitVec 32
  pcSequential : BitVec 32
  nextPcTarget : BitVec 32
  pcNext : BitVec 32
  irqPending : Bool
  irqCause : BitVec 32
  priv : BitVec 2
  deriving DecidableEq, Repr

/-- All registers below `sisRvCore`: the pipeline, `sisRegFile`, `sisCsr`. -/
structure Core (p : Params) where
  fe : FrontEnd
  ex : ExRegs
  wb : WbRegs
  lrReservationAddr : BitVec 32
  lrReservationValid : Bool
  amoOldVal : BitVec 32
  halted : Bool
  stepActive : Bool
  regs : BitVec 5 → BitVec 32
  csr : CsrState p

/-- The input ports, sampled once in every clock cycle. -/
structure CoreIn where
  dbgHaltReq : Bool := false
  dbgResumeReq : Bool := false
  dbgSingleStep : Bool := false
  dbgAbsValid : Bool := false
  dbgAbsWrite : Bool := false
  dbgAbsRegaddr : BitVec 5 := 0
  dbgAbsWdata : BitVec 32 := 0
  extMsip : Bool := false
  extMtip : Bool := false
  extMeip : Bool := false
  iReqReady : Bool := false
  iRspValid : Bool := false
  iRspRdata : BitVec 32 := 0
  iRspErr : Bool := false
  dReqReady : Bool := false
  dRspValid : Bool := false
  dRspRdata : BitVec 32 := 0
  dRspErr : Bool := false
  deriving DecidableEq, Repr

/-- The registers that `rst_n` does not reset. -/
structure PowerOn where
  regs : BitVec 5 → BitVec 32 := fun _ => 0
  exPriv : BitVec 2 := 0
  wbPriv : BitVec 2 := 0

/-- The external interrupt lines of a cycle. -/
def CoreIn.irq (i : CoreIn) : IrqLines :=
  ⟨i.extMsip, i.extMtip, i.extMeip⟩

/-! ## Reset values -/

def resetInstr : BitVec 32 := 0x00000013

def Decoded.reset : Decoded :=
  { rs1 := 0, rs2 := 0, rd := 0
    immI := 0, immS := 0, immB := 0, immU := 0, immJ := 0
    opcode := 0, funct3 := 0, funct7 := 0
    isLui := false, isAuipc := false, isJal := false, isJalr := false
    isBranch := false, isLoad := false, isStore := false
    isAluImm := false, isAluReg := false, isSystem := false
    isFence := false, isAtomic := false
    atomicFunct5 := 0, aq := false, rl := false, isLegal := false }

def FrontEnd.reset (resetVector : BitVec 32) : FrontEnd :=
  { ifState := .ifReq
    fetchPc := resetVector
    fetchReqPc := resetVector
    fetchUpperHold := 0
    fetchErrHold := false
    ifDiscardRsp := false
    fbufValid := false
    fbufWordAddr := 0
    fbufData := 0
    fbufErr := false
    pfValid := false
    pfAddr := 0
    pfData := 0
    pfErr := false
    pfInflight := false
    pfInflightAddr := 0
    pfDiscard := false
    ifId :=
      { valid := false, pc := 0, raw := resetInstr, len := 0
        isCompressed := false, fetchErr := false } }

def ExRegs.reset (exPriv : BitVec 2) : ExRegs :=
  { toDecoded := Decoded.reset
    state := .exExec
    valid := false
    pc := 0
    instr := resetInstr
    raw := resetInstr
    len := 0
    isCompressed := false
    fetchErr := false
    illegalCompressed := false
    priv := exPriv
    rs1Val := 0
    rs2Val := 0
    aluResultReg := 0
    memAddrReg := 0
    memRdataReg := 0
    memErr := false
    memMisaligned := false }

def WbRegs.reset (wbPriv : BitVec 2) : WbRegs :=
  { valid := false, pc := 0, instr := resetInstr, raw := resetInstr, len := 0
    isCompressed := false, fetchErr := false, illegalCompressed := false
    rd := 0, funct3 := 0
    isLui := false, isAuipc := false, isJal := false, isJalr := false
    isBranch := false, isLoad := false, isStore := false
    isAluImm := false, isAluReg := false, isLegal := false
    isAtomic := false, isLr := false, isSc := false, isAmoOp := false
    amoOldVal := 0, scResult := 0, aluResult := 0, memAddr := 0
    memRdata := 0, memErr := false, memMisaligned := false
    instrAddrMisaligned := false, decIsLegalEff := false
    isEcall := false, isEbreak := false, triggerHit := false
    isMret := false, isCsrOp := false
    csrOpType := 0, csrSrcVal := 0
    pcSequential := 0, nextPcTarget := 0, pcNext := 0
    irqPending := false, irqCause := 0, priv := wbPriv }

/-- The state in the first cycle after `rst_n` is released. -/
def Core.reset (p : Params) (power : PowerOn) : Core p :=
  { fe := FrontEnd.reset p.resetVector
    ex := ExRegs.reset power.exPriv
    wb := WbRegs.reset power.wbPriv
    lrReservationAddr := 0
    lrReservationValid := false
    amoOldVal := 0
    halted := false
    stepActive := false
    regs := power.regs
    csr := CsrState.reset p }

end SisRv
