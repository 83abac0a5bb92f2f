import SisRv.Rtl.AxiLite
import SisRv.Rtl.Plic

/-!
# The AXI4-Lite slave

The combined memory and peripheral slave of `tb/models/sisAxiLiteSlave.sv`
with the depths that `rtl/sisPlatformTop.sv` gives it, and the path from the
core ports through the bridge to it.
-/

namespace SisRv

/-- `wr_state_t`. -/
inductive WrState
  | idle
  | gotAw
  | gotW
  | exec
  | wait
  | resp
  deriving DecidableEq, Repr

/-- `rd_state_t`. -/
inductive RdState
  | idle
  | wait
  | resp
  deriving DecidableEq, Repr

/-- The registers of `sisAxiLiteSlave`.  Index `e` of a PLIC array stands for
source `e + 1`. -/
structure AxiLiteSlave where
  rom : BitVec 19 → BitVec 32
  ram : BitVec 16 → BitVec 32
  lfsrAr : BitVec 16
  lfsrR : BitVec 16
  lfsrAw : BitVec 16
  lfsrW : BitVec 16
  lfsrB : BitVec 16
  rdState : RdState
  rdAddrReg : BitVec 32
  rdDataReg : BitVec 32
  rdRespReg : BitVec 2
  rdStallCnt : BitVec 4
  wrState : WrState
  wrAddrReg : BitVec 32
  wrDataReg : BitVec 32
  wrStrbReg : BitVec 4
  wrRespReg : BitVec 2
  wrStallCnt : BitVec 4
  pass : Bool
  fail : Bool
  lastCode : BitVec 32
  msipReg : Bool
  mtime : BitVec 64
  mtimecmp : BitVec 64
  gpioOut : BitVec 32
  gpioOe : BitVec 32
  uartCtrl : BitVec 32
  uartBauddiv : BitVec 32
  uartLastTx : BitVec 8
  uartRxData : BitVec 8
  uartRxValid : Bool
  uartTxValid : Bool
  uartTxData : BitVec 8
  plicPrio : Fin 8 → BitVec 8
  plicPending : Fin 8 → Bool
  plicEnabled : Fin 8 → Bool
  plicThreshold : BitVec 8
  plicClaimId : BitVec 4
  plicClaimActive : Bool

/-- What the master drives on the five channels, and the pins. -/
structure AxiSlaveIn where
  awvalid : Bool
  awaddr : BitVec 32
  wvalid : Bool
  wdata : BitVec 32
  wstrb : BitVec 4
  bready : Bool
  arvalid : Bool
  araddr : BitVec 32
  rready : Bool
  plicIrq : BitVec 8
  gpioIn : BitVec 32
  deriving DecidableEq, Repr

/-! ## Stalls -/

/-- The next value of a 16-bit LFSR. -/
def lfsrNext (lfsr : BitVec 16) : BitVec 16 :=
  (lfsr.extractLsb' 0 15 ++
    BitVec.ofBool (lfsr.getLsbD 15 ^^ lfsr.getLsbD 13 ^^ lfsr.getLsbD 12 ^^
      lfsr.getLsbD 10) : BitVec 16)

/-- `STALL_RATE_CLAMPED`. -/
def stallRateClamped (stallRate : ℤ) : ℤ :=
  let stallRateMin := if stallRate < 0 then 0 else stallRate
  if stallRateMin > 100 then 100 else stallRateMin

/-- `should_stall`. -/
def shouldStall (stallRate : ℤ) (lfsrVal : BitVec 16) : Bool :=
  let sample := (0#1 ++ lfsrVal.extractLsb' 0 7 : BitVec 8)
  decide (sample < BitVec.ofInt 8 (stallRateClamped stallRate))

namespace AxiLiteSlave

/-! ## Address decode -/

section Decode

variable (addr : BitVec 32)

def isRom : Bool := addr.extractLsb' 16 16 == 0x0000

def isRam : Bool := addr.extractLsb' 18 14 == 0b10000000000000

def isMmio : Bool := addr.extractLsb' 16 16 == 0x1000

def isClint : Bool := addr.extractLsb' 16 16 == 0x0200

def isPlic : Bool := addr.extractLsb' 22 10 == 0x030

def isGpio : Bool := addr.extractLsb' 5 27 == 0x0800180

def isUart : Bool := addr.extractLsb' 5 27 == 0x0800200

/-- The response of a read or a write: OKAY in a region, DECERR outside. -/
def respOf : BitVec 2 :=
  if isRom addr || isRam addr || isClint addr || isPlic addr ||
      isGpio addr || isUart addr || isMmio addr then 0b00
  else 0b11

def romWord : BitVec 19 := addr.extractLsb' 2 19

def ramWord : BitVec 16 := addr.extractLsb' 2 16

def plicRel : BitVec 32 := addr - Plic.baseAddr

end Decode

variable (s : AxiLiteSlave) (stallRate : ℤ) (i : AxiSlaveIn)

/-- The state after `rst_n`; `mtime` is not reset. -/
def reset (rom : BitVec 19 → BitVec 32) (ram : BitVec 16 → BitVec 32)
    (mtime : BitVec 64) : AxiLiteSlave where
  rom := rom
  ram := ram
  lfsrAr := 0xACE1
  lfsrR := 0xBEEF
  lfsrAw := 0xCAFE
  lfsrW := 0xDEAD
  lfsrB := 0xF00D
  rdState := .idle
  rdAddrReg := 0
  rdDataReg := 0
  rdRespReg := 0
  rdStallCnt := 0
  wrState := .idle
  wrAddrReg := 0
  wrDataReg := 0
  wrStrbReg := 0
  wrRespReg := 0
  wrStallCnt := 0
  pass := false
  fail := false
  lastCode := 0
  msipReg := false
  mtime := mtime
  mtimecmp := 0xFFFFFFFFFFFFFFFF
  gpioOut := 0
  gpioOe := 0
  uartCtrl := 1
  uartBauddiv := 0
  uartLastTx := 0
  uartRxData := 0
  uartRxValid := false
  uartTxValid := false
  uartTxData := 0
  plicPrio := fun _ => 1
  plicPending := fun _ => false
  plicEnabled := fun _ => false
  plicThreshold := 0
  plicClaimId := 0
  plicClaimActive := false

/-! ## Interrupt arbitration -/

/-- `plic_winner_id` and `plic_winner_pri`, from the highest source down. -/
def plicWinner : BitVec 4 × BitVec 8 :=
  (List.finRange 8).reverse.foldl
    (fun best e =>
      if s.plicEnabled e && s.plicPending e &&
          decide (best.2 < s.plicPrio e) &&
          decide (s.plicThreshold < s.plicPrio e) then
        (PlicState.sourceId e, s.plicPrio e)
      else best)
    (0, 0)

def plicWinnerId : BitVec 4 := s.plicWinner.1

def plicIrqActive : Bool := s.plicWinnerId != 0

/-! ## Read data -/

/-- `plic_read`. -/
def plicRead (addr : BitVec 32) : BitVec 32 :=
  let rel := plicRel addr
  if rel = Plic.offPending then PlicState.packSources s.plicPending
  else if rel = Plic.offEnable then PlicState.packSources s.plicEnabled
  else if rel = Plic.offThreshold then s.plicThreshold.setWidth 32
  else if rel = Plic.offClaim then
    if !s.plicClaimActive && s.plicIrqActive then s.plicWinnerId.setWidth 32
    else s.plicClaimId.setWidth 32
  else
    match PlicState.prioIndex 8 rel with
    | some idx => (s.plicPrio idx).setWidth 32
    | none => 0

def clintRead (addr : BitVec 32) : BitVec 32 :=
  let offset := addr.extractLsb' 0 16
  if offset = 0x0000 then (BitVec.ofBool s.msipReg).setWidth 32
  else if offset = 0x4000 then s.mtimecmp.extractLsb' 0 32
  else if offset = 0x4004 then s.mtimecmp.extractLsb' 32 32
  else if offset = 0xBFF8 then s.mtime.extractLsb' 0 32
  else if offset = 0xBFFC then s.mtime.extractLsb' 32 32
  else 0

def gpioRead (addr : BitVec 32) : BitVec 32 :=
  let offset := addr.extractLsb' 0 5
  if offset = 0x00 then s.gpioOut
  else if offset = 0x04 then s.gpioOe
  else if offset = 0x08 then i.gpioIn
  else 0

def uartRead (addr : BitVec 32) : BitVec 32 :=
  let offset := addr.extractLsb' 0 5
  if offset = 0x00 then s.uartLastTx.setWidth 32
  else if offset = 0x04 then s.uartRxData.setWidth 32
  else if offset = 0x08 then
    (BitVec.ofBool s.uartRxValid ++ 1#1 : BitVec 2).setWidth 32
  else if offset = 0x0C then s.uartCtrl
  else if offset = 0x10 then s.uartBauddiv
  else 0

/-- `mem_read`. -/
def memRead (addr : BitVec 32) : BitVec 32 :=
  if isRom addr then s.rom (romWord addr)
  else if isRam addr then s.ram (ramWord addr)
  else if isClint addr then s.clintRead addr
  else if isGpio addr then s.gpioRead i addr
  else if isUart addr then s.uartRead addr
  else if isMmio addr then s.lastCode
  else if isPlic addr then s.plicRead addr
  else 0xDEADBEEF

/-! ## Handshakes -/

def arready : Bool :=
  s.rdState == .idle && !shouldStall stallRate s.lfsrAr

def rvalid : Bool := s.rdState == .resp

def awready : Bool :=
  (s.wrState == .idle || s.wrState == .gotW) &&
    !shouldStall stallRate s.lfsrAw

def wready : Bool :=
  (s.wrState == .idle || s.wrState == .gotAw) &&
    !shouldStall stallRate s.lfsrW

def bvalid : Bool := s.wrState == .resp

/-- What the slave drives. -/
def out : AxiIn where
  awready := s.awready stallRate
  wready := s.wready stallRate
  bvalid := s.bvalid
  bresp := s.wrRespReg
  arready := s.arready stallRate
  rvalid := s.rvalid
  rdata := s.rdDataReg
  rresp := s.rdRespReg

def arFire : Bool := i.arvalid && s.arready stallRate

def awFire : Bool := i.awvalid && s.awready stallRate

def wFire : Bool := i.wvalid && s.wready stallRate

/-! ## Read FSM -/

/-- The address that is read this cycle. -/
def reads : Option (BitVec 32) :=
  match s.rdState with
  | .idle =>
      if s.arFire stallRate i && !shouldStall stallRate s.lfsrR then
        some i.araddr
      else none
  | .wait => if s.rdStallCnt = 0 then some s.rdAddrReg else none
  | .resp => none

/-- The registers of the read FSM after the clock edge, over `t`. -/
def readStep (t : AxiLiteSlave) : AxiLiteSlave :=
  match s.rdState with
  | .idle =>
      if s.arFire stallRate i then
        let t := { t with rdAddrReg := i.araddr }
        if shouldStall stallRate s.lfsrR then
          { t with
            rdState := .wait
            rdStallCnt := s.lfsrR.extractLsb' 0 4 &&& 0xF }
        else
          { t with
            rdDataReg := s.memRead i i.araddr
            rdRespReg := respOf i.araddr
            rdState := .resp }
      else t
  | .wait =>
      if s.rdStallCnt = 0 then
        { t with
          rdDataReg := s.memRead i s.rdAddrReg
          rdRespReg := respOf s.rdAddrReg
          rdState := .resp }
      else { t with rdStallCnt := s.rdStallCnt - 1 }
  | .resp => if s.rvalid && i.rready then { t with rdState := .idle } else t

/-! ## Write FSM -/

def writeRam (t : AxiLiteSlave) : AxiLiteSlave :=
  if isRam s.wrAddrReg then
    { t with
      ram := fun word =>
        if word = ramWord s.wrAddrReg then
          applyWstrb (s.ram word) s.wrDataReg s.wrStrbReg
        else s.ram word }
  else t

def writeTohost (t : AxiLiteSlave) : AxiLiteSlave :=
  if isMmio s.wrAddrReg && s.wrAddrReg == 0x10000000 then
    { t with
      lastCode := s.wrDataReg
      pass := s.pass || s.wrDataReg == 1
      fail := s.fail || s.wrDataReg == 0 }
  else t

def writeClint (t : AxiLiteSlave) : AxiLiteSlave :=
  let offset := s.wrAddrReg.extractLsb' 0 16
  let low := s.mtimecmp.extractLsb' 0 32
  let high := s.mtimecmp.extractLsb' 32 32
  if isClint s.wrAddrReg then
    if offset = 0x0000 then
      if s.wrStrbReg.getLsbD 0 then { t with msipReg := s.wrDataReg.getLsbD 0 }
      else t
    else if offset = 0x4000 then
      { t with
        mtimecmp :=
          (high ++ applyWstrb low s.wrDataReg s.wrStrbReg : BitVec 64) }
    else if offset = 0x4004 then
      { t with
        mtimecmp :=
          (applyWstrb high s.wrDataReg s.wrStrbReg ++ low : BitVec 64) }
    else t
  else t

def writeGpio (t : AxiLiteSlave) : AxiLiteSlave :=
  let offset := s.wrAddrReg.extractLsb' 0 5
  if isGpio s.wrAddrReg then
    if offset = 0x00 then
      { t with gpioOut := applyWstrb s.gpioOut s.wrDataReg s.wrStrbReg }
    else if offset = 0x04 then
      { t with gpioOe := applyWstrb s.gpioOe s.wrDataReg s.wrStrbReg }
    else if offset = 0x0C then { t with gpioOut := s.gpioOut ||| s.wrDataReg }
    else if offset = 0x10 then
      { t with gpioOut := s.gpioOut &&& ~~~s.wrDataReg }
    else t
  else t

def writeUart (t : AxiLiteSlave) : AxiLiteSlave :=
  let offset := s.wrAddrReg.extractLsb' 0 5
  let byte := s.wrDataReg.extractLsb' 0 8
  if isUart s.wrAddrReg then
    if offset = 0x00 then
      if s.wrStrbReg.getLsbD 0 && s.uartCtrl.getLsbD 0 then
        let t :=
          { t with
            uartLastTx := byte, uartTxData := byte, uartTxValid := true }
        if s.uartCtrl.getLsbD 1 then
          { t with uartRxData := byte, uartRxValid := true }
        else t
      else t
    else if offset = 0x0C then
      { t with uartCtrl := applyWstrb s.uartCtrl s.wrDataReg s.wrStrbReg }
    else if offset = 0x10 then
      { t with
        uartBauddiv := applyWstrb s.uartBauddiv s.wrDataReg s.wrStrbReg }
    else t
  else t

/-- A write to the claim register takes effect in `plicClaimComplete`. -/
def writePlic (t : AxiLiteSlave) : AxiLiteSlave :=
  let rel := plicRel s.wrAddrReg
  if isPlic s.wrAddrReg then
    if rel = Plic.offEnable then
      { t with plicEnabled := fun e => s.wrDataReg.getLsbD (e.val + 1) }
    else if rel = Plic.offThreshold then
      if s.wrStrbReg.getLsbD 0 then
        { t with plicThreshold := s.wrDataReg.extractLsb' 0 8 }
      else t
    else if rel = Plic.offClaim then t
    else
      match PlicState.prioIndex 8 rel with
      | some idx =>
          if s.wrStrbReg.getLsbD 0 then
            { t with
              plicPrio := fun e =>
                if e = idx then s.wrDataReg.extractLsb' 0 8
                else s.plicPrio e }
          else t
      | none => t
  else t

/-- The memories and devices after the cycle that executes a write. -/
def execWrite (t : AxiLiteSlave) : AxiLiteSlave :=
  s.writePlic <| s.writeUart <| s.writeGpio <| s.writeClint <|
    s.writeTohost <| s.writeRam t

/-- `mtime_next`. -/
def mtimeNext : BitVec 64 :=
  let ticked := s.mtime + 1
  let low := ticked.extractLsb' 0 32
  let high := ticked.extractLsb' 32 32
  let offset := s.wrAddrReg.extractLsb' 0 16
  if s.wrState == .exec && isClint s.wrAddrReg then
    if offset = 0xBFF8 then
      (high ++ applyWstrb low s.wrDataReg s.wrStrbReg : BitVec 64)
    else if offset = 0xBFFC then
      (applyWstrb high s.wrDataReg s.wrStrbReg ++ low : BitVec 64)
    else ticked
  else ticked

/-- The received byte is read. -/
def readsRxdata : Bool :=
  match s.reads stallRate i with
  | some addr => isUart addr && addr.extractLsb' 0 5 == 0x04
  | none => false

/-- The assignments in front of the write case. -/
def tick : AxiLiteSlave :=
  { s with
    mtime := s.mtimeNext
    uartTxValid := false
    uartRxValid := s.uartRxValid && !s.readsRxdata stallRate i }

/-- The write case, over `t`. -/
def writeStep (t : AxiLiteSlave) : AxiLiteSlave :=
  match s.wrState with
  | .idle =>
      if s.awFire stallRate i && s.wFire stallRate i then
        { t with
          wrAddrReg := i.awaddr, wrDataReg := i.wdata, wrStrbReg := i.wstrb
          wrState := .exec }
      else if s.awFire stallRate i then
        { t with wrAddrReg := i.awaddr, wrState := .gotAw }
      else if s.wFire stallRate i then
        { t with
          wrDataReg := i.wdata, wrStrbReg := i.wstrb, wrState := .gotW }
      else t
  | .gotAw =>
      if s.wFire stallRate i then
        { t with
          wrDataReg := i.wdata, wrStrbReg := i.wstrb, wrState := .exec }
      else t
  | .gotW =>
      if s.awFire stallRate i then
        { t with wrAddrReg := i.awaddr, wrState := .exec }
      else t
  | .exec =>
      let t := { s.execWrite t with wrRespReg := respOf s.wrAddrReg }
      if shouldStall stallRate s.lfsrB then
        { t with
          wrState := .wait
          wrStallCnt := s.lfsrB.extractLsb' 0 4 &&& 0x7 }
      else { t with wrState := .resp }
  | .wait =>
      if s.wrStallCnt = 0 then { t with wrState := .resp }
      else { t with wrStallCnt := s.wrStallCnt - 1 }
  | .resp => if s.bvalid && i.bready then { t with wrState := .idle } else t

/-! ## Interrupt claims -/

/-- `plic_claim_take`. -/
def plicClaimTake : Bool :=
  match s.reads stallRate i with
  | some addr =>
      isPlic addr && plicRel addr == Plic.offClaim && !s.plicClaimActive &&
        s.plicIrqActive
  | none => false

/-- A write to the claim register with the claimed id. -/
def plicCompletes : Bool :=
  s.plicClaimActive && s.wrState == .exec && isPlic s.wrAddrReg &&
    plicRel s.wrAddrReg == Plic.offClaim &&
    s.wrDataReg.extractLsb' 0 4 == s.plicClaimId

def plicStep (t : AxiLiteSlave) : AxiLiteSlave :=
  let t :=
    { t with
      plicPending := fun e =>
        if i.plicIrq.getLsbD (e.val + 1) || s.gpioOut.getLsbD (e.val + 1) then
          true
        else if s.plicCompletes && s.plicClaimId == PlicState.sourceId e then
          false
        else s.plicPending e }
  if s.plicClaimTake stallRate i then
    { t with plicClaimId := s.plicWinnerId, plicClaimActive := true }
  else if s.plicCompletes then { t with plicClaimActive := false }
  else t

def lfsrStep (t : AxiLiteSlave) : AxiLiteSlave :=
  { t with
    lfsrAr := lfsrNext s.lfsrAr
    lfsrR := lfsrNext s.lfsrR
    lfsrAw := lfsrNext s.lfsrAw
    lfsrW := lfsrNext s.lfsrW
    lfsrB := lfsrNext s.lfsrB }

/-- One clock edge; the blocks assign different registers. -/
def next : AxiLiteSlave :=
  s.lfsrStep <| s.plicStep stallRate i <| s.readStep stallRate i <|
    s.writeStep stallRate i <| s.tick stallRate i

end AxiLiteSlave

/-! ## The path to the slave -/

/-- The AXI option of the platform: arbiter, bridge and slave. -/
structure AxiPlatform where
  path : AxiPath
  slave : AxiLiteSlave

/-- The ports of the core and the pins. -/
structure AxiPlatformIn where
  iReqValid : Bool
  iReqAddr : BitVec 32
  iRspReady : Bool
  d : SlaveIn
  plicIrq : BitVec 8
  gpioIn : BitVec 32

namespace AxiPlatform

variable (s : AxiPlatform) (stallRate : ℤ) (i : AxiPlatformIn)

/-- What the arbiter and the bridge see. -/
def pathIn : AxiPathIn where
  iReqValid := i.iReqValid
  iReqAddr := i.iReqAddr
  iRspReady := i.iRspReady
  d := i.d
  axi := s.slave.out stallRate

/-- What the slave sees. -/
def slaveIn : AxiSlaveIn where
  awvalid := s.path.bridge.awvalid
  awaddr := s.path.bridge.awaddr
  wvalid := s.path.bridge.wvalid
  wdata := s.path.bridge.wdata
  wstrb := s.path.bridge.wstrb
  bready := s.path.bridge.bready
  arvalid := s.path.bridge.arvalid
  araddr := s.path.bridge.araddr
  rready := s.path.bridge.rready
  plicIrq := i.plicIrq
  gpioIn := i.gpioIn

/-- One clock edge. -/
def next : AxiPlatform where
  path := s.path.next (s.pathIn stallRate i)
  slave := s.slave.next stallRate (s.slaveIn i)

end AxiPlatform

end SisRv
