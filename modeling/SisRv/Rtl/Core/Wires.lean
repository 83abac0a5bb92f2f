import SisRv.Rtl.Alu
import SisRv.Rtl.Decompress
import SisRv.Rtl.Core.State

/-!
# Combinational logic of `sisRvCore`

One definition for each signal of `rtl/core/sisRvCore.sv`, as a function of
the registers and, where it reads a port, of the inputs of the cycle.
-/

namespace SisRv

/-- `is_mem_misaligned`: the two reserved sizes are never misaligned. -/
def isMemMisaligned (addr : BitVec 32) (funct3 : BitVec 3) : Bool :=
  if funct3.extractLsb' 0 2 = 0b01 then addr.getLsbD 0
  else if funct3.extractLsb' 0 2 = 0b10 then addr.extractLsb' 0 2 != 0
  else false

/-- Byte length of an instruction from the two-bit length code. -/
def lenBytes (len : BitVec 2) : BitVec 32 :=
  if len = 2 then 2 else 4

/-- The word a byte address lies in, as a byte address. -/
def wordBase (addr : BitVec 32) : BitVec 32 :=
  (addr.extractLsb' 2 30 ++ 0#2 : BitVec 32)

namespace Core

variable {p : Params} (s : Core p) (i : CoreIn)

/-! ## ID stage decode -/

def decomp : Decompressed :=
  sisDecompress (s.fe.ifId.raw.extractLsb' 0 16)

def decodedInstr : BitVec 32 :=
  if s.fe.ifId.isCompressed then s.decomp.instrO else s.fe.ifId.raw

def dec : Decoded :=
  sisDecode p.enableM p.enableA s.decodedInstr

/-! ## EX arithmetic -/

def exIsMOp : Bool :=
  p.enableM && s.ex.isAluReg && s.ex.funct7 == 0b0000001

def mResult : BitVec 32 :=
  rv32mResult s.ex.rs1Val s.ex.rs2Val s.ex.funct3

def aluA : BitVec 32 :=
  if s.ex.isAluReg then s.ex.rs1Val
  else if s.ex.isAluImm then s.ex.rs1Val
  else if s.ex.isLoad || s.ex.isStore then s.ex.rs1Val
  else if s.ex.isAtomic then s.ex.rs1Val
  else if s.ex.isBranch then s.ex.rs1Val
  else if s.ex.isLui then 0
  else if s.ex.isAuipc then s.ex.pc
  else if s.ex.isJal || s.ex.isJalr then s.ex.pc
  else s.ex.rs1Val

def aluB : BitVec 32 :=
  if s.ex.isAluReg then s.ex.rs2Val
  else if s.ex.isAluImm then s.ex.immI
  else if s.ex.isLoad || s.ex.isStore then
    if s.ex.isStore then s.ex.immS else s.ex.immI
  else if s.ex.isAtomic then 0
  else if s.ex.isBranch then s.ex.rs2Val
  else if s.ex.isLui then s.ex.immU
  else if s.ex.isAuipc then s.ex.immU
  else if s.ex.isJal || s.ex.isJalr then lenBytes s.ex.len
  else s.ex.rs2Val

def aluOp : BitVec 4 :=
  let funct7Bit := BitVec.ofBool (s.ex.funct7.getLsbD 5)
  if s.ex.isAluReg then (funct7Bit ++ s.ex.funct3 : BitVec 4)
  else if s.ex.isAluImm then
    if s.ex.funct3 = 0b101 then (funct7Bit ++ s.ex.funct3 : BitVec 4)
    else (0#1 ++ s.ex.funct3 : BitVec 4)
  else if s.ex.isLoad || s.ex.isStore then aluAdd
  else if s.ex.isAtomic then aluAdd
  else if s.ex.isBranch then aluSub
  else aluAdd

def aluResult : BitVec 32 :=
  sisAlu s.aluA s.aluB s.aluOp

/-- `amo_compute`: the new memory word of an AMO. -/
def amoNewVal : BitVec 32 :=
  let old := s.amoOldVal
  let rs2 := s.ex.rs2Val
  if s.ex.isAtomic then
    if s.ex.atomicFunct5 = 0b00001 then rs2
    else if s.ex.atomicFunct5 = 0b00000 then old + rs2
    else if s.ex.atomicFunct5 = 0b00100 then old ^^^ rs2
    else if s.ex.atomicFunct5 = 0b01100 then old &&& rs2
    else if s.ex.atomicFunct5 = 0b01000 then old ||| rs2
    else if s.ex.atomicFunct5 = 0b10000 then if old.slt rs2 then old else rs2
    else if s.ex.atomicFunct5 = 0b10100 then if rs2.slt old then old else rs2
    else if s.ex.atomicFunct5 = 0b11000 then if old.ult rs2 then old else rs2
    else if s.ex.atomicFunct5 = 0b11100 then if rs2.ult old then old else rs2
    else old
  else old

/-! ## CSR unit outputs and PMP checks -/

def privO : BitVec 2 := s.csr.priv
def mtvecOut : BitVec 32 := s.csr.mtvec
def mepcOut : BitVec 32 := s.csr.mepc
def irqPending : Bool := s.csr.irqPending i.irq
def irqCause : BitVec 32 := s.csr.irqCause i.irq
def mstatusTw : Bool := s.csr.mstatus.getLsbD 21
def mstatusMprv : Bool := s.csr.mstatus.getLsbD 17
def mstatusMpp : BitVec 2 := s.csr.mstatus.extractLsb' 11 2

def dPmpPriv : BitVec 2 :=
  if s.privO = privM then
    if s.mstatusMprv then s.mstatusMpp else privM
  else s.privO

/-- The word whose response is consumed this cycle. -/
def fetchPmpAddr : BitVec 32 :=
  match s.fe.ifState with
  | .ifSecondWait => wordBase s.fe.fetchReqPc + 4
  | .ifWait => wordBase s.fe.fetchReqPc
  | _ =>
    if s.fe.pfInflight then (s.fe.pfInflightAddr ++ 0#2 : BitVec 32)
    else wordBase s.fe.fetchReqPc

def pmpDAddr : BitVec 32 :=
  if s.ex.state = .exExec ∧ s.ex.valid then s.aluResult
  else s.ex.aluResultReg

/-! ## Atomic sub-types -/

def exIsLr : Bool := s.ex.isAtomic && s.ex.atomicFunct5 == 0b00010
def exIsSc : Bool := s.ex.isAtomic && s.ex.atomicFunct5 == 0b00011
def exIsAmoOp : Bool := s.ex.isAtomic && !s.exIsLr && !s.exIsSc

def exScSucceeds : Bool :=
  s.exIsSc && s.lrReservationValid &&
    s.lrReservationAddr == s.ex.rs1Val

/-- The R and W requests made to the data PMP. -/
def exReqR : Bool := s.ex.isLoad || s.exIsLr || s.exIsAmoOp
def exReqW : Bool := s.ex.isStore || s.exIsSc || s.exIsAmoOp

def pmpDAllow : Bool :=
  sisPmp s.csr.pmpcfg s.csr.pmpaddr s.pmpDAddr s.dPmpPriv
    s.exReqR s.exReqW false

def pmpFetchAllow : Bool :=
  sisPmp s.csr.pmpcfg s.csr.pmpaddr s.fetchPmpAddr s.privO false false true

/-! ## EX-stage helpers -/

def exPcSequential : BitVec 32 := s.ex.pc + lenBytes s.ex.len

/-- SYSTEM with `funct3 = 0` and the given 12-bit immediate. -/
def exIsSystemImm (imm12 : BitVec 12) : Bool :=
  s.ex.isSystem && s.ex.funct3 == 0b000 &&
    s.ex.instr.extractLsb' 20 12 == imm12

def exIsEcall : Bool := s.exIsSystemImm 0x000
def exIsEbreak : Bool := s.exIsSystemImm 0x001
def exIsMret : Bool := s.exIsSystemImm 0x302
def exIsWfi : Bool := s.exIsSystemImm 0x105
def exIsCsrOp : Bool := s.ex.isSystem && s.ex.funct3 != 0b000

def exDecIsLegalEff : Bool :=
  if p.enableC then s.ex.isLegal && !s.ex.illegalCompressed
  else s.ex.isLegal && !s.ex.isCompressed

def exCsrReqPriv : BitVec 2 := s.ex.instr.extractLsb' 28 2

def exCsrWrites : Bool :=
  s.exIsCsrOp &&
    (s.ex.instr.extractLsb' 30 2 == 0b01 ||
      (s.ex.rs1 != 0 && s.ex.instr.extractLsb' 30 2 != 0b01))

def exCsrRoViol : Bool :=
  s.exIsCsrOp && s.ex.instr.extractLsb' 30 2 == 0b11 && s.exCsrWrites

def exCsrPrivViol : Bool :=
  p.enableU && s.exIsCsrOp &&
    ((s.exCsrReqPriv == 0b11 && s.ex.priv != privM) ||
      s.exCsrReqPriv == 0b01 || s.exCsrReqPriv == 0b10)

def exCsrAddrF : BitVec 12 := s.ex.instr.extractLsb' 20 12

def exIsUHpmcounter : Bool :=
  (decide (0xC03 ≤ s.exCsrAddrF) && decide (s.exCsrAddrF ≤ 0xC1F)) ||
    (decide (0xC83 ≤ s.exCsrAddrF) && decide (s.exCsrAddrF ≤ 0xC9F))

def exUHpmcounterIdx : BitVec 5 := s.exCsrAddrF.extractLsb' 0 5

def exMcounterenBlock : Bool :=
  p.enableU && s.exIsCsrOp && s.ex.priv == privU &&
    (((s.exCsrAddrF == 0xC00 || s.exCsrAddrF == 0xC80) &&
        !s.csr.mcounteren.getLsbD 0) ||
      ((s.exCsrAddrF == 0xC02 || s.exCsrAddrF == 0xC82) &&
        !s.csr.mcounteren.getLsbD 2) ||
      (s.exIsUHpmcounter &&
        !s.csr.mcounteren.getLsbD s.exUHpmcounterIdx.toNat))

def exPrivIllegal : Bool :=
  p.enableU &&
    ((s.exIsMret && s.ex.priv != privM) ||
      (s.exIsWfi && s.ex.priv != privM && s.mstatusTw) ||
      s.exCsrPrivViol || s.exCsrRoViol || s.exMcounterenBlock)

def exLegalEff : Bool := s.exDecIsLegalEff && !s.exPrivIllegal

def exBranchTaken : Bool :=
  s.ex.isBranch &&
    (if s.ex.funct3 = 0b000 then s.ex.rs1Val == s.ex.rs2Val
    else if s.ex.funct3 = 0b001 then s.ex.rs1Val != s.ex.rs2Val
    else if s.ex.funct3 = 0b100 then s.ex.rs1Val.slt s.ex.rs2Val
    else if s.ex.funct3 = 0b101 then !s.ex.rs1Val.slt s.ex.rs2Val
    else if s.ex.funct3 = 0b110 then s.ex.rs1Val.ult s.ex.rs2Val
    else if s.ex.funct3 = 0b111 then !s.ex.rs1Val.ult s.ex.rs2Val
    else false)

def exBranchTarget : BitVec 32 := s.ex.pc + s.ex.immB
def exJalTarget : BitVec 32 := s.ex.pc + s.ex.immJ
def exJalrTarget : BitVec 32 := (s.ex.rs1Val + s.ex.immI) &&& 0xFFFFFFFE

def exNextPcTarget : BitVec 32 :=
  if s.ex.isJal then s.exJalTarget
  else if s.ex.isJalr then s.exJalrTarget
  else if s.ex.isBranch && s.exBranchTaken then s.exBranchTarget
  else s.exPcSequential

def exInstrAddrMisaligned : Bool :=
  s.exLegalEff &&
    (s.ex.isJal || s.ex.isJalr || (s.ex.isBranch && s.exBranchTaken)) &&
    (if p.enableC || s.ex.isCompressed then s.exNextPcTarget.getLsbD 0
    else s.exNextPcTarget.extractLsb' 0 2 != 0)

/-! ## Data access, triggers and the exits of EX -/

def exDAccessRaw : Bool :=
  s.ex.isLoad || s.ex.isStore || s.exIsLr ||
    (s.exIsSc && s.exScSucceeds) || s.exIsAmoOp

def exMemAligned : Bool := !isMemMisaligned s.aluResult s.ex.funct3

def exPmpDFault : Bool :=
  s.exDAccessRaw && s.exMemAligned && !s.pmpDAllow

/-- The match of one trigger slot, without the gate on the EX state. -/
def triggerMatches (t : Fin p.nTrigger) : Bool :=
  let tdata1 := s.csr.tdata1 t
  let tdata2 := s.csr.tdata2 t
  let privOk :=
    (tdata1.getLsbD 6 && s.ex.priv == privM) ||
      (tdata1.getLsbD 3 && s.ex.priv == privU)
  let isStoreAcc := s.ex.isStore || s.exIsSc || s.exIsAmoOp
  privOk &&
    ((tdata1.getLsbD 2 && s.ex.pc == tdata2) ||
      (tdata1.getLsbD 0 && s.ex.isLoad && s.aluResult == tdata2) ||
      (tdata1.getLsbD 1 && isStoreAcc && s.aluResult == tdata2))

def trigHitSet (t : Fin p.nTrigger) : Bool :=
  s.ex.valid && s.ex.state == .exExec && s.exDecIsLegalEff &&
    s.triggerMatches t

def exTriggerHit : Bool :=
  (List.finRange p.nTrigger).any s.trigHitSet

def exMemAccess : Bool :=
  s.exDAccessRaw && !s.exTriggerHit && s.exMemAligned && s.pmpDAllow

def exMemRequesting : Bool :=
  s.ex.valid &&
    ((s.ex.state == .exExec && s.exMemAccess) ||
      s.ex.state == .exMemReq || s.ex.state == .exAmoStoreReq)

def dRspReady : Bool :=
  s.ex.valid && (s.ex.state == .exMemWait || s.ex.state == .exAmoStoreWait)

def dataReqFire : Bool := s.exMemRequesting && i.dReqReady
def dataRspFire : Bool := i.dRspValid && s.dRspReady

def exExecToWb : Bool :=
  s.ex.valid && s.ex.state == .exExec && !s.exMemAccess

def exMemToWb : Bool :=
  s.ex.valid && s.ex.state == .exMemWait && s.dataRspFire i && !s.exIsAmoOp

def exAmoStoreToWb : Bool :=
  s.ex.valid && s.ex.state == .exAmoStoreWait && s.dataRspFire i

def exToWbFire : Bool :=
  s.exExecToWb || s.exMemToWb i || s.exAmoStoreToWb i

def exMemReqAddr : BitVec 32 :=
  if s.ex.state = .exExec ∧ s.exMemAccess then s.aluResult
  else s.ex.aluResultReg

/-- What EX computes in its first cycle. -/
def exExecResult : BitVec 32 :=
  if s.exIsMOp then s.mResult else s.aluResult

def exCompleteAluResult : BitVec 32 :=
  if s.exExecToWb then s.exExecResult else s.ex.aluResultReg

def exCompleteMemAddr : BitVec 32 :=
  if s.exExecToWb then s.aluResult else s.ex.memAddrReg

def exCompleteMemRdata : BitVec 32 :=
  if s.exMemToWb i then i.dRspRdata else s.ex.memRdataReg

def exCompleteMemErr : Bool :=
  if s.exExecToWb && s.exPmpDFault then true
  else if s.exMemToWb i then i.dRspErr
  else if s.exAmoStoreToWb i then i.dRspErr
  else s.ex.memErr

def exCompleteMemMisaligned : Bool :=
  if s.exExecToWb then
    (s.ex.isLoad || s.ex.isStore || s.ex.isAtomic) &&
      isMemMisaligned s.aluResult s.ex.funct3
  else s.ex.memMisaligned

/-! ## Next PC and redirect -/

def mtvecBase : BitVec 32 :=
  (s.mtvecOut.extractLsb' 2 30 ++ 0#2 : BitVec 32)

def mtvecVectored : Bool := s.mtvecOut.getLsbD 0

def mtvecIrqVector : BitVec 32 :=
  s.mtvecBase +
    (0#25 ++ (s.irqCause i).extractLsb' 0 5 ++ 0#2 : BitVec 32)

/-- The conditions the EX chain sends to the trap base before it looks at
interrupts. -/
def exException : Bool :=
  s.exTriggerHit || s.ex.fetchErr || s.exCompleteMemErr i ||
    s.exCompleteMemMisaligned || s.exInstrAddrMisaligned || !s.exLegalEff

def exPcNext : BitVec 32 :=
  if s.exException i then s.mtvecBase
  else if s.irqPending i && !s.exIsCsrOp then
    if s.mtvecVectored then s.mtvecIrqVector i else s.mtvecBase
  else if s.ex.isJal then s.exJalTarget
  else if s.ex.isJalr then s.exJalrTarget
  else if s.ex.isBranch && s.exBranchTaken then s.exBranchTarget
  else if s.exIsEcall || s.exIsEbreak then s.mtvecBase
  else if s.exIsMret then s.mepcOut
  else s.exPcSequential

/-! ## Store lanes and the data port -/

def storeData : BitVec 32 :=
  let size := s.ex.funct3.extractLsb' 0 2
  let lane := s.exMemReqAddr.extractLsb' 0 2
  if size = 0b00 then
    (s.ex.rs2Val.extractLsb' 0 8).setWidth 32 <<< (8 * lane.toNat)
  else if size = 0b01 then
    if s.exMemReqAddr.getLsbD 1 then
      (s.ex.rs2Val.extractLsb' 0 16).setWidth 32 <<< 16
    else (s.ex.rs2Val.extractLsb' 0 16).setWidth 32
  else if size = 0b10 then s.ex.rs2Val
  else 0

def storeStrb : BitVec 4 :=
  let size := s.ex.funct3.extractLsb' 0 2
  let lane := s.exMemReqAddr.extractLsb' 0 2
  if size = 0b00 then 0b0001 <<< lane.toNat
  else if size = 0b01 then
    if s.exMemReqAddr.getLsbD 1 then 0b1100 else 0b0011
  else if size = 0b10 then 0b1111
  else 0

/-- An AMO drives its second phase in these two states. -/
def amoStorePhase : Bool :=
  s.ex.state == .exAmoStoreReq || s.ex.state == .exAmoStoreWait

def dReqValid : Bool := s.exMemRequesting
def dReqAddr : BitVec 32 := s.exMemReqAddr

def dReqWe : Bool :=
  if s.ex.isAtomic then s.amoStorePhase || s.exIsSc else s.ex.isStore

def dReqWdata : BitVec 32 :=
  if s.ex.isAtomic then
    if s.amoStorePhase then s.amoNewVal else s.ex.rs2Val
  else s.storeData

def dReqWstrb : BitVec 4 :=
  if s.ex.isAtomic then
    if s.amoStorePhase || s.exIsSc then 0b1111 else 0
  else if s.ex.isStore then s.storeStrb
  else 0

/-! ## WB stage -/

/-- The 8-bit or 16-bit lane of the word read, extended as `funct3` says. -/
def wbLoadResult : BitVec 32 :=
  let byte :=
    s.wb.memRdata.extractLsb' (8 * (s.wb.memAddr.extractLsb' 0 2).toNat) 8
  let half :=
    s.wb.memRdata.extractLsb' (if s.wb.memAddr.getLsbD 1 then 16 else 0) 16
  if s.wb.funct3 = 0b000 then byte.signExtend 32
  else if s.wb.funct3 = 0b001 then half.signExtend 32
  else if s.wb.funct3 = 0b010 then s.wb.memRdata
  else if s.wb.funct3 = 0b100 then byte.setWidth 32
  else if s.wb.funct3 = 0b101 then half.setWidth 32
  else s.wb.memRdata

def exCsrOpType : BitVec 2 := s.ex.funct3.extractLsb' 0 2

def exCsrSrcVal : BitVec 32 :=
  if s.ex.funct3.getLsbD 2 then s.ex.rs1.setWidth 32 else s.ex.rs1Val

def csrAddrW : BitVec 12 := s.wb.instr.extractLsb' 20 12

def csrRdataW : BitVec 32 := s.csr.csrRdata i.irq s.csrAddrW

def wbResult : BitVec 32 :=
  if s.wb.isLoad || s.wb.isLr then s.wbLoadResult
  else if s.wb.isCsrOp then s.csrRdataW i
  else if s.wb.isSc then s.wb.scResult
  else if s.wb.isAmoOp then s.wb.amoOldVal
  else s.wb.aluResult

def wbWritesRd : Bool :=
  s.wb.valid && !s.wb.triggerHit && !s.wb.fetchErr && !s.wb.memErr &&
    !s.wb.memMisaligned && !s.wb.instrAddrMisaligned && s.wb.decIsLegalEff &&
    (s.wb.isAluReg || s.wb.isAluImm || s.wb.isLui || s.wb.isAuipc ||
      s.wb.isJal || s.wb.isJalr || s.wb.isLoad || s.wb.isCsrOp ||
      s.wb.isLr || s.wb.isSc || s.wb.isAmoOp)

/-- The outputs of the CSR control block for the instruction in WB. -/
structure WbControl where
  csrWen : Bool := false
  trapEnter : Bool := false
  trapCause : BitVec 32 := 0
  trapVal : BitVec 32 := 0
  trapEpc : BitVec 32
  mretExec : Bool := false
  instrRetire : Bool := false
  deriving DecidableEq, Repr

/-- The value `instr_retire` has before the chain clears it. -/
def wbRetires : Bool :=
  !(s.wb.fetchErr || s.wb.triggerHit || s.wb.memErr || s.wb.memMisaligned ||
    s.wb.instrAddrMisaligned || !s.wb.decIsLegalEff || s.wb.isEcall ||
    s.wb.isEbreak || (s.wb.irqPending && !s.wb.isCsrOp))

/-- A trap taken by the instruction in WB. -/
def wbTrap (cause val epc : BitVec 32) : WbControl :=
  { trapEnter := true, trapCause := cause, trapVal := val, trapEpc := epc }

/-- The CSR control block. -/
def wbControl : WbControl :=
  if !s.wb.valid then { trapEpc := s.wb.pc }
  else if s.wb.fetchErr then wbTrap 1 s.wb.pc s.wb.pc
  else if s.wb.triggerHit then wbTrap 3 0 s.wb.pc
  else if s.wb.memMisaligned then
    wbTrap (if s.wb.isStore then 6 else 4) s.wb.memAddr s.wb.pc
  else if s.wb.memErr then
    wbTrap (if s.wb.isStore || s.wb.isAmoOp || s.wb.isSc then 7 else 5)
      s.wb.memAddr s.wb.pc
  else if s.wb.instrAddrMisaligned then wbTrap 0 s.wb.nextPcTarget s.wb.pc
  else if !s.wb.decIsLegalEff then
    wbTrap 2
      (if s.wb.isCompressed then (s.wb.raw.extractLsb' 0 16).setWidth 32
      else s.wb.raw)
      s.wb.pc
  else if s.wb.isCsrOp then
    { csrWen := true, trapEpc := s.wb.pc, instrRetire := s.wbRetires }
  else if s.wb.isEcall then
    wbTrap (if s.wb.priv = privM then 11 else 8) 0 s.wb.pc
  else if s.wb.isEbreak then wbTrap 3 0 s.wb.pc
  else if s.wb.isMret then
    { mretExec := true, trapEpc := s.wb.pc, instrRetire := s.wbRetires }
  else if s.wb.irqPending then wbTrap s.wb.irqCause 0 s.wb.nextPcTarget
  else { trapEpc := s.wb.pc, instrRetire := s.wbRetires }

def csrWenW : Bool := s.wbControl.csrWen
def trapEnter : Bool := s.wbControl.trapEnter
def trapCause : BitVec 32 := s.wbControl.trapCause
def mretExec : Bool := s.wbControl.mretExec
def instrRetire : Bool := s.wbControl.instrRetire

def wbSingleStepStop : Bool := s.stepActive && s.wb.valid && s.instrRetire

/-! ## Redirect, forwarding and issue -/

def exRedirect : Bool :=
  s.exToWbFire i && !s.wbSingleStepStop &&
    (s.exException i || s.ex.isJal || s.ex.isJalr ||
      (s.ex.isBranch && s.exBranchTaken) || s.exIsEcall || s.exIsEbreak ||
      s.exIsMret || (s.irqPending i && !s.exIsCsrOp))

def exForwardValid : Bool :=
  s.ex.valid && s.ex.state == .exExec && !s.exTriggerHit &&
    !s.ex.fetchErr && !s.exInstrAddrMisaligned && s.exDecIsLegalEff &&
    !s.ex.isLoad && !s.ex.isStore && !s.ex.isAtomic && !s.exIsCsrOp &&
    (s.ex.isAluReg || s.ex.isAluImm || s.ex.isLui || s.ex.isAuipc ||
      s.ex.isJal || s.ex.isJalr)

def exForwardResult : BitVec 32 := s.exExecResult

def idDependsExRd : Bool :=
  s.fe.ifId.valid && s.ex.valid && s.ex.rd != 0 &&
    (s.ex.rd == s.dec.rs1 || s.ex.rd == s.dec.rs2)

def idExHazard : Bool := s.idDependsExRd && !s.exForwardValid

def exCanAccept : Bool := !s.ex.valid || s.exToWbFire i

def idToExFire : Bool :=
  s.fe.ifId.valid && s.exCanAccept i && !s.exRedirect i &&
    !s.idExHazard && !s.wbSingleStepStop && !s.halted && !i.dbgHaltReq &&
    (!i.dbgSingleStep || s.stepActive)

/-- One read port of `sisRegFile`. -/
def rfData (addr : BitVec 5) : BitVec 32 :=
  if addr = 0 then 0 else s.regs addr

/-- One operand read in ID, through the WB and EX bypasses. -/
def idOperand (rs : BitVec 5) : BitVec 32 :=
  if s.exForwardValid && s.ex.rd != 0 && s.ex.rd == rs then s.exForwardResult
  else if s.wbWritesRd && s.wb.rd != 0 && s.wb.rd == rs then s.wbResult i
  else s.rfData rs

def idRs1Val : BitVec 32 := s.idOperand i s.dec.rs1
def idRs2Val : BitVec 32 := s.idOperand i s.dec.rs2

/-! ## Performance events -/

def wbBranchTaken : Bool :=
  s.wb.valid && s.instrRetire && s.wb.isBranch &&
    s.wb.pcNext != s.wb.pcSequential

def wbControlRedirect : Bool :=
  s.wb.valid && s.instrRetire &&
    (s.wb.isJal || s.wb.isJalr || s.wbBranchTaken || s.wb.isMret)

def hpmLoadUseStall : Bool :=
  s.idExHazard && s.fe.ifId.valid && s.ex.valid && s.ex.isLoad

def hpmEvents : BitVec 32 :=
  (0#24 ++ BitVec.ofBool s.hpmLoadUseStall ++
    BitVec.ofBool (s.trapEnter && s.trapCause.getLsbD 31) ++
    BitVec.ofBool (s.trapEnter && !s.trapCause.getLsbD 31) ++
    BitVec.ofBool s.wbControlRedirect ++ BitVec.ofBool s.wbBranchTaken ++
    BitVec.ofBool (s.wb.valid && s.instrRetire &&
      (s.wb.isStore || s.wb.isSc || s.wb.isAmoOp)) ++
    BitVec.ofBool (s.wb.valid && s.instrRetire &&
      (s.wb.isLoad || s.wb.isLr)) ++
    BitVec.ofBool (s.wb.valid && s.instrRetire) : BitVec 32)

/-! ## Instruction port -/

def fbufHit : Bool :=
  s.fe.fbufValid && s.fe.fbufWordAddr == s.fe.fetchPc.extractLsb' 2 30

def pfbufHit : Bool :=
  s.fe.pfValid && s.fe.pfAddr == s.fe.fetchPc.extractLsb' 2 30

def bufHit : Bool := s.fbufHit || s.pfbufHit

def ifCanAcceptFetch : Bool :=
  !s.halted && !i.dbgHaltReq && (!i.dbgSingleStep || s.stepActive) &&
    !s.wbSingleStepStop && !s.exRedirect i &&
    (!s.fe.ifId.valid || s.idToExFire i)

def ifServeBuf : Bool :=
  s.ifCanAcceptFetch i && s.fe.ifState == .ifReq && s.bufHit

def ifReqActive : Bool :=
  s.ifCanAcceptFetch i &&
    ((s.fe.ifState == .ifReq && !s.bufHit) || s.fe.ifState == .ifSecondReq)

def pfTarget : BitVec 30 := s.fe.fetchPc.extractLsb' 2 30 + 1

def pfWant : Bool :=
  s.ifCanAcceptFetch i && !s.fe.pfInflight &&
    !(s.fe.pfValid && s.fe.pfAddr == s.pfTarget) &&
    !(s.fe.fbufValid && s.fe.fbufWordAddr == s.pfTarget)

def pfIssue : Bool :=
  s.pfWant i && !s.ifReqActive i &&
    (s.fe.ifState == .ifReq || s.fe.ifState == .ifWait)

/-- The demand FSM is waiting for a response. -/
def ifWaiting : Bool :=
  s.fe.ifState == .ifWait || s.fe.ifState == .ifSecondWait

def pfRspFire : Bool :=
  s.fe.pfInflight && i.iRspValid && !s.ifWaiting

def iReqValid : Bool := s.ifReqActive i || s.pfIssue i

def iReqAddr : BitVec 32 :=
  if s.ifReqActive i then
    if s.fe.ifState = .ifSecondReq then wordBase s.fe.fetchReqPc + 4
    else wordBase s.fe.fetchPc
  else (s.pfTarget ++ 0#2 : BitVec 32)

def iRspReady : Bool := s.ifWaiting || s.fe.pfInflight

def ifReqFire : Bool := s.ifReqActive i && i.iReqReady
def pfReqFire : Bool := s.pfIssue i && i.iReqReady
def ifRspFire : Bool := i.iRspValid && s.ifWaiting

/-! ## Word select -/

/-- A word the demand FSM consumes: a response that is not discarded. -/
def ifRspTaken : Bool := s.ifRspFire i && !s.fe.ifDiscardRsp

def ifWordReady : Bool :=
  (s.ifRspTaken i && s.fe.ifState == .ifWait) || s.ifServeBuf i

def ifServeData : BitVec 32 :=
  if s.fbufHit then s.fe.fbufData else s.fe.pfData

def ifServeErr : Bool :=
  if s.fbufHit then s.fe.fbufErr else s.fe.pfErr

/-- A bus error or a PMP denial of the response word. -/
def iRspFault : Bool := i.iRspErr || !s.pmpFetchAllow

def ifWordData : BitVec 32 :=
  if s.ifServeBuf i then s.ifServeData else i.iRspRdata

def ifWordErr : Bool :=
  if s.ifServeBuf i then s.ifServeErr else s.iRspFault i

def ifWordPc : BitVec 32 :=
  if s.ifServeBuf i then s.fe.fetchPc else s.fe.fetchReqPc

def ifServePf : Bool := s.ifServeBuf i && !s.fbufHit && s.pfbufHit

/-- The second half of a straddling instruction arrives. -/
def ifSecondReady : Bool := s.ifRspTaken i && s.fe.ifState == .ifSecondWait

def ifWordEmits : Bool :=
  s.ifWordReady i &&
    (s.ifWordErr i || !(s.ifWordPc i).getLsbD 1 ||
      (p.enableC && (s.ifWordData i).extractLsb' 16 2 != 0b11))

def ifProduces : Bool := s.ifWordEmits i || s.ifSecondReady i

end Core

end SisRv
