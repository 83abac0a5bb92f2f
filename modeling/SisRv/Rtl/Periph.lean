import SisRv.Rtl.Corebus

/-!
# Memories and peripherals

The corebus slaves of `rtl/periph` other than the interrupt controller.
-/

namespace SisRv

/-! ## `sisRom` -/

/-- `sisRom` with 524288 words. -/
structure RomState where
  mem : BitVec 19 → BitVec 32
  pending : Bool
  rdataReg : BitVec 32

namespace RomState

variable (s : RomState) (i : SlaveIn)

def reset (mem : BitVec 19 → BitVec 32) : RomState := ⟨mem, false, 0⟩

def reqReady : Bool := slaveReqReady s.pending i.rspReady

def reqFire : Bool := i.reqValid && s.reqReady i

def rsp : SlaveRsp := ⟨s.pending, s.rdataReg, false⟩

/-- The addressed word. -/
def answer (req : BusReq) : BitVec 32 := s.mem (req.addr.extractLsb' 2 19)

/-- Only an accepted read loads a response. -/
def next : RomState :=
  if s.reqFire i && !i.req.we then
    { s with rdataReg := s.answer i.req, pending := true }
  else if s.pending && i.rspReady then { s with pending := false }
  else s

end RomState

/-! ## `sisRam` -/

/-- `sisRam` with 65536 words. -/
structure RamState where
  mem : BitVec 16 → BitVec 32
  pending : Bool
  rdataReg : BitVec 32

namespace RamState

variable (s : RamState) (i : SlaveIn)

def reset (mem : BitVec 16 → BitVec 32) : RamState := ⟨mem, false, 0⟩

def reqReady : Bool := slaveReqReady s.pending i.rspReady

def reqFire : Bool := i.reqValid && s.reqReady i

def rsp : SlaveRsp := ⟨s.pending, s.rdataReg, false⟩

def wordIndex (req : BusReq) : BitVec 16 := req.addr.extractLsb' 2 16

/-- The addressed word as it is before a write. -/
def answer (req : BusReq) : BitVec 32 := s.mem (wordIndex req)

def write (req : BusReq) : BitVec 16 → BitVec 32 := fun word =>
  if word = wordIndex req then applyWstrb (s.mem word) req.wdata req.wstrb
  else s.mem word

def next : RamState :=
  if s.reqFire i then
    { mem := if i.req.we then s.write i.req else s.mem
      pending := true
      rdataReg := s.answer i.req }
  else if s.pending && i.rspReady then { s with pending := false }
  else s

end RamState

/-! ## `sisClint` -/

namespace Clint

def offMsip : BitVec 32 := 0x0000
def offMtimecmp : BitVec 32 := 0x4000
def offMtime : BitVec 32 := 0xBFF8

/-- `BASE_ADDR`. -/
def baseAddr : BitVec 32 := 0x02000000

end Clint

/-- The registers of `sisClint`. -/
structure ClintState where
  mtime : BitVec 64
  mtimecmp : BitVec 64
  msipReg : Bool
  pending : Bool
  rdataReg : BitVec 32

namespace ClintState

open Clint

variable (s : ClintState) (i : SlaveIn)

def reset : ClintState where
  mtime := 0
  mtimecmp := 0xFFFFFFFFFFFFFFFF
  msipReg := false
  pending := false
  rdataReg := 0

def addrMatch (req : BusReq) : Bool :=
  req.addr.extractLsb' 16 16 == baseAddr.extractLsb' 16 16

def rel (req : BusReq) : BitVec 32 := req.addr - baseAddr

def reqReady : Bool := slaveReqReady s.pending i.rspReady

def reqFire : Bool := i.reqValid && s.reqReady i

def rsp : SlaveRsp := ⟨s.pending, s.rdataReg, false⟩

def mtip : Bool := decide (s.mtimecmp ≤ s.mtime)

def msip : Bool := s.msipReg

def lowWord (word : BitVec 64) : BitVec 32 := word.extractLsb' 0 32

def highWord (word : BitVec 64) : BitVec 32 := word.extractLsb' 32 32

/-- The strobed bytes of the lower word replaced. -/
def writeLow (word : BitVec 64) (req : BusReq) : BitVec 64 :=
  (highWord word ++ applyWstrb (lowWord word) req.wdata req.wstrb : BitVec 64)

/-- The strobed bytes of the upper word replaced. -/
def writeHigh (word : BitVec 64) (req : BusReq) : BitVec 64 :=
  (applyWstrb (highWord word) req.wdata req.wstrb ++ lowWord word : BitVec 64)

/-- An accepted write to a matching address. -/
def writes : Bool := s.reqFire i && addrMatch i.req && i.req.we

/-- `mtime_next`: it ticks in every cycle, a write replaces bytes. -/
def mtimeNext : BitVec 64 :=
  let ticked := s.mtime + 1
  if s.writes i then
    if rel i.req = offMtime then writeLow ticked i.req
    else if rel i.req = offMtime + 4 then writeHigh ticked i.req
    else ticked
  else ticked

def msipNext : Bool :=
  if s.writes i && rel i.req == offMsip && i.req.wstrb.getLsbD 0 then
    i.req.wdata.getLsbD 0
  else s.msipReg

def mtimecmpNext : BitVec 64 :=
  if s.writes i then
    if rel i.req = offMsip ∧ i.req.wstrb.getLsbD 0 then s.mtimecmp
    else if rel i.req = offMtimecmp then writeLow s.mtimecmp i.req
    else if rel i.req = offMtimecmp + 4 then writeHigh s.mtimecmp i.req
    else s.mtimecmp
  else s.mtimecmp

/-- What an accepted request loads into `rdata_reg`. -/
def answer (req : BusReq) : BitVec 32 :=
  if addrMatch req && !req.we then
    if rel req = offMsip then (BitVec.ofBool s.msipReg).setWidth 32
    else if rel req = offMtimecmp then lowWord s.mtimecmp
    else if rel req = offMtimecmp + 4 then highWord s.mtimecmp
    else if rel req = offMtime then lowWord s.mtime
    else if rel req = offMtime + 4 then highWord s.mtime
    else 0
  else 0

def next : ClintState where
  mtime := s.mtimeNext i
  mtimecmp := s.mtimecmpNext i
  msipReg := s.msipNext i
  pending :=
    if s.reqFire i then true
    else if s.pending && i.rspReady then false
    else s.pending
  rdataReg := if s.reqFire i then s.answer i.req else s.rdataReg

end ClintState

/-! ## `sisTohost` -/

/-- `BASE_ADDR` of `sisTohost`. -/
def Tohost.baseAddr : BitVec 32 := 0x10000000

/-- The registers of `sisTohost`. -/
structure TohostState where
  pass : Bool
  fail : Bool
  lastCode : BitVec 32
  pending : Bool

namespace TohostState

open Tohost

variable (s : TohostState) (i : SlaveIn)

def reset : TohostState := ⟨false, false, 0, false⟩

def reqReady : Bool := slaveReqReady s.pending i.rspReady

def reqFire : Bool := i.reqValid && s.reqReady i

def rsp : SlaveRsp := ⟨s.pending, s.lastCode, false⟩

def hit (req : BusReq) : Bool := req.we && req.addr == baseAddr

/-- `last_code` after an accepted request, which is also the answer. -/
def answer (req : BusReq) : BitVec 32 :=
  if hit req then req.wdata else s.lastCode

def next : TohostState :=
  if s.reqFire i then
    { pass := s.pass || hit i.req && i.req.wdata == 1
      fail := s.fail || hit i.req && i.req.wdata == 0
      lastCode := s.answer i.req
      pending := true }
  else if s.pending && i.rspReady then { s with pending := false }
  else s

end TohostState

/-! ## `sisGpio` -/

namespace Gpio

def offData : BitVec 5 := 0x00
def offDir : BitVec 5 := 0x04
def offIn : BitVec 5 := 0x08
def offSet : BitVec 5 := 0x0C
def offClr : BitVec 5 := 0x10

/-- `BASE_ADDR` of `sisGpio`. -/
def baseAddr : BitVec 32 := 0x10003000

end Gpio

/-- The registers of `sisGpio`. -/
structure GpioState where
  pending : Bool
  rdataReg : BitVec 32
  gpioOut : BitVec 32
  gpioOe : BitVec 32

/-- The inputs of `sisGpio`. -/
structure GpioIn extends SlaveIn where
  gpioIn : BitVec 32

namespace GpioState

open Gpio

variable (s : GpioState) (i : GpioIn)

def reset : GpioState := ⟨false, 0, 0, 0⟩

def addrMatch (req : BusReq) : Bool :=
  req.addr.extractLsb' 8 24 == baseAddr.extractLsb' 8 24

def regOffset (req : BusReq) : BitVec 5 := req.addr.extractLsb' 0 5

def reqReady : Bool := slaveReqReady s.pending i.rspReady

def reqFire : Bool := i.reqValid && s.reqReady i

def rsp : SlaveRsp := ⟨s.pending, s.rdataReg, false⟩

def outNext (req : BusReq) : BitVec 32 :=
  if addrMatch req && req.we then
    if regOffset req = offData then applyWstrb s.gpioOut req.wdata req.wstrb
    else if regOffset req = offSet then s.gpioOut ||| req.wdata
    else if regOffset req = offClr then s.gpioOut &&& ~~~req.wdata
    else s.gpioOut
  else s.gpioOut

def oeNext (req : BusReq) : BitVec 32 :=
  if addrMatch req && req.we && regOffset req == offDir then
    applyWstrb s.gpioOe req.wdata req.wstrb
  else s.gpioOe

/-- What an accepted request loads into `rdata_reg`. -/
def answer (pins : BitVec 32) (req : BusReq) : BitVec 32 :=
  if addrMatch req && !req.we then
    if regOffset req = offData then s.gpioOut
    else if regOffset req = offDir then s.gpioOe
    else if regOffset req = offIn then pins
    else 0
  else 0

def next : GpioState :=
  if s.reqFire i then
    { pending := true
      rdataReg := s.answer i.gpioIn i.req
      gpioOut := s.outNext i.req
      gpioOe := s.oeNext i.req }
  else if s.pending && i.rspReady then { s with pending := false }
  else s

end GpioState

/-! ## `sisUart` -/

namespace Uart

def offTxdata : BitVec 5 := 0x00
def offRxdata : BitVec 5 := 0x04
def offStatus : BitVec 5 := 0x08
def offCtrl : BitVec 5 := 0x0C
def offBauddiv : BitVec 5 := 0x10

/-- `BASE_ADDR` of `sisUart`. -/
def baseAddr : BitVec 32 := 0x10004000

end Uart

/-- The registers of `sisUart`. -/
structure UartState where
  pending : Bool
  rdataReg : BitVec 32
  ctrlReg : BitVec 32
  bauddivReg : BitVec 32
  lastTxData : BitVec 8
  rxData : BitVec 8
  rxValid : Bool
  uartTxValid : Bool
  uartTxData : BitVec 8

namespace UartState

open Uart

variable (s : UartState) (i : SlaveIn)

def reset : UartState where
  pending := false
  rdataReg := 0
  ctrlReg := 1
  bauddivReg := 0
  lastTxData := 0
  rxData := 0
  rxValid := false
  uartTxValid := false
  uartTxData := 0

def addrMatch (req : BusReq) : Bool :=
  req.addr.extractLsb' 8 24 == baseAddr.extractLsb' 8 24

def regOffset (req : BusReq) : BitVec 5 := req.addr.extractLsb' 0 5

def txEnable : Bool := s.ctrlReg.getLsbD 0

def loopback : Bool := s.ctrlReg.getLsbD 1

def reqReady : Bool := slaveReqReady s.pending i.rspReady

def reqFire : Bool := i.reqValid && s.reqReady i

def rsp : SlaveRsp := ⟨s.pending, s.rdataReg, false⟩

/-- A byte goes out. -/
def transmits (req : BusReq) : Bool :=
  addrMatch req && req.we && regOffset req == offTxdata &&
    (req.wstrb.getLsbD 0 && s.txEnable)

/-- The received byte is read. -/
def receives (req : BusReq) : Bool :=
  addrMatch req && !req.we && regOffset req == offRxdata

/-- A register that takes strobed bytes at its offset. -/
def regNext (offset : BitVec 5) (reg : BitVec 32) (req : BusReq) :
    BitVec 32 :=
  if addrMatch req && req.we && regOffset req == offset then
    applyWstrb reg req.wdata req.wstrb
  else reg

/-- What an accepted request loads into `rdata_reg`. -/
def answer (req : BusReq) : BitVec 32 :=
  if addrMatch req && !req.we then
    if regOffset req = offTxdata then s.lastTxData.setWidth 32
    else if regOffset req = offRxdata then s.rxData.setWidth 32
    else if regOffset req = offStatus then
      (BitVec.ofBool s.rxValid ++ 1#1 : BitVec 2).setWidth 32
    else if regOffset req = offCtrl then s.ctrlReg
    else if regOffset req = offBauddiv then s.bauddivReg
    else 0
  else 0

def next : UartState :=
  if s.reqFire i then
    let byte := i.req.wdata.extractLsb' 0 8
    let sent := s.transmits i.req
    { pending := true
      rdataReg := s.answer i.req
      ctrlReg := regNext offCtrl s.ctrlReg i.req
      bauddivReg := regNext offBauddiv s.bauddivReg i.req
      lastTxData := if sent then byte else s.lastTxData
      rxData := if sent && s.loopback then byte else s.rxData
      rxValid :=
        if sent && s.loopback then true
        else if receives i.req then false
        else s.rxValid
      uartTxValid := sent
      uartTxData := if sent then byte else s.uartTxData }
  else if s.pending && i.rspReady then
    { s with pending := false, uartTxValid := false }
  else { s with uartTxValid := false }

end UartState

end SisRv
