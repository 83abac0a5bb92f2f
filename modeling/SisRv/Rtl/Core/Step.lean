import SisRv.Rtl.Core.Wires

/-!
# The clock edge of `sisRvCore`

The clocked block of `rtl/core/sisRvCore.sv`.  Its `if` statements are the
definitions below, applied in source order to the registers they assign, so
that a later assignment wins; every right-hand side reads the state `s` before
the edge.
-/

namespace SisRv

namespace Core

variable {p : Params} (s : Core p) (i : CoreIn)

/-! ## IF stage -/

/-- A demand request is accepted. -/
def acceptDemand (f : FrontEnd) : FrontEnd :=
  if s.ifReqFire i then
    if s.fe.ifState = .ifReq then
      { f with fetchReqPc := s.fe.fetchPc, ifState := .ifWait }
    else { f with ifState := .ifSecondWait }
  else f

/-- A prefetch request is accepted. -/
def acceptPrefetch (f : FrontEnd) : FrontEnd :=
  if s.pfReqFire i then
    { f with pfInflight := true, pfInflightAddr := s.pfTarget }
  else f

/-- The response of a prefetch fills the slot, or is dropped. -/
def takePrefetch (f : FrontEnd) : FrontEnd :=
  if s.pfRspFire i then
    if s.fe.pfDiscard then { f with pfInflight := false, pfDiscard := false }
    else
      { f with
        pfInflight := false
        pfValid := true
        pfAddr := s.fe.pfInflightAddr
        pfData := i.iRspRdata
        pfErr := s.iRspFault i }
  else f

/-- A served prefetch word moves to the fetch buffer. -/
def promotePrefetch (f : FrontEnd) : FrontEnd :=
  if s.ifServePf i then
    { f with
      fbufValid := true
      fbufWordAddr := s.fe.pfAddr
      fbufData := s.fe.pfData
      fbufErr := s.fe.pfErr
      pfValid := false }
  else f

/-- A response that a redirect invalidated is dropped. -/
def dropResponse (f : FrontEnd) : FrontEnd :=
  if s.ifRspFire i && s.fe.ifDiscardRsp then
    { f with ifDiscardRsp := false, ifState := .ifReq }
  else f

/-- Every consumed response fills the fetch buffer. -/
def fillBuffer (f : FrontEnd) : FrontEnd :=
  if s.ifRspTaken i then
    { f with
      fbufValid := true
      fbufData := i.iRspRdata
      fbufErr := s.iRspFault i
      fbufWordAddr :=
        if s.fe.ifState = .ifSecondWait then
          s.fe.fetchReqPc.extractLsb' 2 30 + 1
        else s.fe.fetchReqPc.extractLsb' 2 30 }
  else f

/-- The faulting NOP delivered for a word with a fetch error. -/
def faultedParcel (pc : BitVec 32) : IfId :=
  { valid := true, pc := pc, raw := nopInstr, len := 0
    isCompressed := false, fetchErr := true }

def compressedParcel (pc : BitVec 32) (half : BitVec 16) : IfId :=
  { valid := true, pc := pc, raw := (0#16 ++ half : BitVec 32), len := 2
    isCompressed := true, fetchErr := false }

def fullParcel (pc raw : BitVec 32) (fetchErr : Bool) : IfId :=
  { valid := true, pc := pc, raw := raw, len := 0
    isCompressed := false, fetchErr := fetchErr }

/-- Assemble an instruction from the current word. -/
def assembleWord (f : FrontEnd) : FrontEnd :=
  let pc := s.ifWordPc i
  let data := s.ifWordData i
  if s.ifWordReady i then
    let f := { f with fetchErrHold := s.ifWordErr i }
    if s.ifWordErr i then
      { f with
        ifId := faultedParcel pc, fetchPc := pc + 4, ifState := .ifReq }
    else if pc.getLsbD 1 = false then
      if p.enableC && data.extractLsb' 0 2 != 0b11 then
        { f with
          ifId := compressedParcel pc (data.extractLsb' 0 16)
          fetchPc := pc + 2
          ifState := .ifReq }
      else
        { f with
          ifId := fullParcel pc data false
          fetchPc := pc + 4
          ifState := .ifReq }
    else if p.enableC && data.extractLsb' 16 2 != 0b11 then
      { f with
        ifId := compressedParcel pc (data.extractLsb' 16 16)
        fetchPc := pc + 2
        ifState := .ifReq }
    else
      -- a straddling instruction: its low half is held
      { f with
        fetchUpperHold := data.extractLsb' 16 16
        fetchReqPc := pc
        ifState := .ifSecondReq }
  else f

/-- The second half of a straddling instruction completes it. -/
def assembleSecond (f : FrontEnd) : FrontEnd :=
  if s.ifSecondReady i then
    { f with
      ifId :=
        fullParcel s.fe.fetchReqPc
          (i.iRspRdata.extractLsb' 0 16 ++ s.fe.fetchUpperHold : BitVec 32)
          (s.fe.fetchErrHold || s.iRspFault i)
      fetchPc := s.fe.fetchReqPc + 4
      fetchUpperHold := 0
      fetchErrHold := false
      ifState := .ifReq }
  else f

/-- The flush that a redirect and a single-step stop have in common. -/
def flushFetch (target : BitVec 32) (f : FrontEnd) : FrontEnd :=
  let f :=
    { f with
      fetchPc := target
      ifId := { f.ifId with valid := false }
      fetchUpperHold := 0
      fetchErrHold := false
      fbufValid := false
      pfValid := false
      pfDiscard :=
        if s.fe.pfInflight && !s.pfRspFire i then true else f.pfDiscard }
  if s.ifWaiting && !s.ifRspFire i then { f with ifDiscardRsp := true }
  else { f with ifDiscardRsp := false, ifState := .ifReq }

def redirectFetch (f : FrontEnd) : FrontEnd :=
  if s.exRedirect i then s.flushFetch i (s.exPcNext i) f else f

def stopFetch (f : FrontEnd) : FrontEnd :=
  if s.wbSingleStepStop then s.flushFetch i s.wb.pcNext f else f

/-- ID takes the instruction, unless IF replaces it in the same cycle. -/
def issueFetch (f : FrontEnd) : FrontEnd :=
  if s.idToExFire i && !s.ifProduces i then
    { f with ifId := { f.ifId with valid := false } }
  else f

def feNext : FrontEnd :=
  s.issueFetch i <| s.stopFetch i <| s.redirectFetch i <|
    s.assembleSecond i <| s.assembleWord i <| s.fillBuffer i <|
    s.dropResponse i <| s.promotePrefetch i <| s.takePrefetch i <|
    s.acceptPrefetch i <| s.acceptDemand i s.fe

/-! ## EX stage -/

/-- The first cycle in EX. -/
def exExecStep (e : ExRegs) : ExRegs :=
  let e :=
    { e with
      aluResultReg := s.exExecResult
      memAddrReg := s.aluResult
      memMisaligned :=
        (s.ex.isLoad || s.ex.isStore) &&
          isMemMisaligned s.aluResult s.ex.funct3
      memErr := false }
  if s.exMemAccess then
    { e with
      state := if s.dataReqFire i then .exMemWait else .exMemReq }
  else if s.exToWbFire i then { e with valid := false }
  else e

/-- The response of a read or of the only phase of a write. -/
def exMemWaitStep (e : ExRegs) : ExRegs :=
  if s.dataRspFire i then
    let e := { e with memRdataReg := i.dRspRdata, memErr := i.dRspErr }
    if s.ex.isAtomic && !i.dRspErr && !s.exIsLr && s.exIsAmoOp then
      { e with state := .exAmoStoreReq }
    -- LR, SC, loads and stores, but also an AMO whose read fails
    else { e with valid := false }
  else e

/-- The EX state machine. -/
def exStateStep (e : ExRegs) : ExRegs :=
  if s.ex.valid then
    match s.ex.state with
    | .exExec => s.exExecStep i e
    | .exMemReq =>
        if s.dataReqFire i then { e with state := .exMemWait } else e
    | .exMemWait => s.exMemWaitStep i e
    | .exAmoStoreReq =>
        if s.dataReqFire i then { e with state := .exAmoStoreWait } else e
    | .exAmoStoreWait =>
        if s.dataRspFire i then
          { e with memErr := i.dRspErr, valid := false }
        else e
    | .exWb => { e with valid := false }
  else e

/-- A redirect or a single-step stop empties EX. -/
def flushEx (e : ExRegs) : ExRegs :=
  if s.exRedirect i || s.wbSingleStepStop then
    { e with valid := false, state := .exExec }
  else e

/-- The ID to EX latch. -/
def issuedEx : ExRegs :=
  { toDecoded := s.dec
    state := .exExec
    valid := true
    pc := s.fe.ifId.pc
    instr := s.decodedInstr
    raw := s.fe.ifId.raw
    len := s.fe.ifId.len
    isCompressed := s.fe.ifId.isCompressed
    fetchErr := s.fe.ifId.fetchErr
    illegalCompressed := s.fe.ifId.isCompressed && s.decomp.illegalO
    priv := s.privO
    rs1Val := s.idRs1Val i
    rs2Val := s.idRs2Val i
    aluResultReg := 0
    memAddrReg := 0
    memRdataReg := 0
    memErr := false
    memMisaligned := false }

def exNext : ExRegs :=
  if s.idToExFire i then s.issuedEx i
  else s.flushEx i (s.exStateStep i s.ex)

/-! ## Reservation and AMO read value -/

/-- The reservation leaves `EX_MEM_WAIT` set by LR and cleared by SC; a
redirect clears it last. -/
def lrValidNext : Bool :=
  if s.exRedirect i then false
  else if s.ex.valid && s.ex.state == .exMemWait && s.dataRspFire i then
    if s.ex.isAtomic && !i.dRspErr then
      if s.exIsLr then true
      else if s.exIsAmoOp then s.lrReservationValid
      else false
    else if s.exIsSc then false
    else s.lrReservationValid
  else s.lrReservationValid

/-- The cycle in which an atomic gets a response without error. -/
def atomicRspOk : Bool :=
  s.ex.valid && s.ex.state == .exMemWait && s.dataRspFire i &&
    s.ex.isAtomic && !i.dRspErr

def lrAddrNext : BitVec 32 :=
  if s.atomicRspOk i && s.exIsLr then s.ex.aluResultReg
  else s.lrReservationAddr

def amoOldValNext : BitVec 32 :=
  if s.atomicRspOk i && !s.exIsLr && s.exIsAmoOp then i.dRspRdata
  else s.amoOldVal

/-! ## WB stage -/

/-- The EX to WB latch. -/
def completedWb : WbRegs :=
  { valid := true
    pc := s.ex.pc
    instr := s.ex.instr
    raw := s.ex.raw
    len := s.ex.len
    isCompressed := s.ex.isCompressed
    fetchErr := s.ex.fetchErr
    illegalCompressed := s.ex.illegalCompressed
    rd := s.ex.rd
    funct3 := s.ex.funct3
    isLui := s.ex.isLui
    isAuipc := s.ex.isAuipc
    isJal := s.ex.isJal
    isJalr := s.ex.isJalr
    isBranch := s.ex.isBranch
    isLoad := s.ex.isLoad
    isStore := s.ex.isStore
    isAluImm := s.ex.isAluImm
    isAluReg := s.ex.isAluReg
    isLegal := s.ex.isLegal
    isAtomic := s.ex.isAtomic
    isLr := s.exIsLr
    isSc := s.exIsSc
    isAmoOp := s.exIsAmoOp
    amoOldVal := s.amoOldVal
    scResult := if s.exScSucceeds then 0 else 1
    aluResult := s.exCompleteAluResult
    memAddr := s.exCompleteMemAddr
    memRdata := s.exCompleteMemRdata i
    memErr := s.exCompleteMemErr i
    memMisaligned := s.exCompleteMemMisaligned
    instrAddrMisaligned := s.exInstrAddrMisaligned
    decIsLegalEff := s.exLegalEff
    isEcall := s.exIsEcall
    isEbreak := s.exIsEbreak
    triggerHit := s.exTriggerHit
    isMret := s.exIsMret
    isCsrOp := s.exIsCsrOp
    csrOpType := s.exCsrOpType
    csrSrcVal := s.exCsrSrcVal
    pcSequential := s.exPcSequential
    nextPcTarget := s.exNextPcTarget
    pcNext := s.exPcNext i
    irqPending := s.irqPending i
    irqCause := s.irqCause i
    priv := s.ex.priv }

def wbNext : WbRegs :=
  let w :=
    if s.exToWbFire i then s.completedWb i else { s.wb with valid := false }
  if s.wbSingleStepStop then { w with valid := false } else w

/-! ## Debug, register file and CSR unit -/

def haltedNext : Bool :=
  if i.dbgHaltReq then true
  else if i.dbgResumeReq then false
  else if s.wbSingleStepStop then true
  else s.halted

def stepActiveNext : Bool :=
  if i.dbgHaltReq then false
  else if i.dbgResumeReq then s.halted && i.dbgSingleStep
  else if s.wbSingleStepStop then false
  else s.stepActive

/-- `sisRegFile`: the debug port wins over the pipeline write. -/
def regsNext : BitVec 5 → BitVec 32 :=
  if i.dbgAbsValid && s.halted && i.dbgAbsWrite && i.dbgAbsRegaddr != 0 then
    Function.update s.regs i.dbgAbsRegaddr i.dbgAbsWdata
  else if s.wbWritesRd && s.wb.rd != 0 then
    Function.update s.regs s.wb.rd (s.wbResult i)
  else s.regs

/-- The inputs of the CSR unit. -/
def csrIn : CsrIn p :=
  { csrAddr := s.csrAddrW
    csrWdata := s.wb.csrSrcVal
    csrOp := s.wb.csrOpType
    csrWen := s.csrWenW
    trapEnter := s.trapEnter
    trapCause := s.trapCause
    trapVal := s.wbControl.trapVal
    trapEpc := s.wbControl.trapEpc
    mretExec := s.mretExec
    instrRetire := s.instrRetire
    hpmEvents := s.hpmEvents
    trigHitSet := s.trigHitSet }

/-- One clock edge. -/
def step : Core p :=
  { fe := s.feNext i
    ex := s.exNext i
    wb := s.wbNext i
    lrReservationAddr := s.lrAddrNext i
    lrReservationValid := s.lrValidNext i
    amoOldVal := s.amoOldValNext i
    halted := s.haltedNext i
    stepActive := s.stepActiveNext i
    regs := s.regsNext i
    csr := s.csr.next i.irq s.csrIn }

end Core

end SisRv
