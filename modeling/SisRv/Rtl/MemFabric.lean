import SisRv.Rtl.Periph
import SisRv.Rtl.Plic

/-!
# The corebus paths

The two sides of `rtl/sisPlatformTop.sv` without the AXI option.  The data side
is the router `sisMemFabric`, the sub-router for the platform peripherals and
the slaves behind them; the instruction side is a ROM of its own.
-/

namespace SisRv

/-- The registers of the data path. -/
structure DataPath where
  activeSlave : BitVec 3
  hasPending : Bool
  mmioSelR : BitVec 2
  rom : RomState
  ram : RamState
  tohost : TohostState
  gpio : GpioState
  uart : UartState
  clint : ClintState
  plic : PlicState 8

/-- The master side, the pins and the interrupt lines. -/
structure DataPathIn extends SlaveIn where
  gpioIn : BitVec 32
  irqSrc : Fin 8 → Bool

/-! ## Decoding -/

namespace Fabric

variable (req : BusReq)

def selRom : Bool := req.addr.extractLsb' 21 11 == 0

def selClint : Bool := req.addr.extractLsb' 16 16 == 0x0200

def selMmio : Bool := req.addr.extractLsb' 16 16 == 0x1000

def selPlic : Bool := req.addr.extractLsb' 22 10 == 0x030

def selRam : Bool := req.addr.extractLsb' 18 14 == 0b10000000000000

/-- The number that `active_slave` takes for a request. -/
def slaveSelect : BitVec 3 :=
  if selRom req then 0
  else if selRam req then 1
  else if selMmio req then 2
  else if selClint req then 3
  else if selPlic req then 4
  else 5

def selGpio : Bool := req.addr.extractLsb' 12 4 == 3

def selUart : Bool := req.addr.extractLsb' 12 4 == 4

/-- The number that `mmio_sel_r` takes for a request. -/
def mmioSelect : BitVec 2 :=
  if selGpio req then 2 else if selUart req then 3 else 0

end Fabric

namespace DataPath

open Fabric

variable (s : DataPath) (i : DataPathIn)

/-- The state after `rst_n`. -/
def reset (rom : BitVec 19 → BitVec 32) (ram : BitVec 16 → BitVec 32) :
    DataPath where
  activeSlave := 0
  hasPending := false
  mmioSelR := 0
  rom := RomState.reset rom
  ram := RamState.reset ram
  tohost := TohostState.reset
  gpio := GpioState.reset
  uart := UartState.reset
  clint := ClintState.reset
  plic := PlicState.reset 8

/-! ## Requests to the slaves -/

/-- The port of a slave of the router. -/
def slaveIn (sel : Bool) (slave : BitVec 3) : SlaveIn where
  reqValid := i.reqValid && sel
  req := i.req
  rspReady := i.rspReady && s.activeSlave == slave

def romIn : SlaveIn := s.slaveIn i (selRom i.req) 0

def ramIn : SlaveIn := s.slaveIn i (selRam i.req) 1

def mmioIn : SlaveIn := s.slaveIn i (selMmio i.req) 2

def clintIn : SlaveIn := s.slaveIn i (selClint i.req) 3

def plicIn : PlicIn 8 where
  toSlaveIn := s.slaveIn i (selPlic i.req) 4
  irqSrc := i.irqSrc

/-- The port of a slave of the sub-router. -/
def subIn (sel : Bool) (sub : BitVec 2) : SlaveIn where
  reqValid := (s.mmioIn i).reqValid && sel
  req := i.req
  rspReady := (s.mmioIn i).rspReady && s.mmioSelR == sub

def tohostIn : SlaveIn :=
  s.subIn i (!selGpio i.req && !selUart i.req) 0

def gpioPort : GpioIn where
  toSlaveIn := s.subIn i (selGpio i.req) 2
  gpioIn := i.gpioIn

def uartIn : SlaveIn := s.subIn i (selUart i.req) 3

/-! ## Ready and responses -/

def mmioReqReady : Bool :=
  if selGpio i.req then s.gpio.reqReady (s.gpioPort i)
  else if selUart i.req then s.uart.reqReady (s.uartIn i)
  else s.tohost.reqReady (s.tohostIn i)

def mReqReady : Bool :=
  if selRom i.req then s.rom.reqReady (s.romIn i)
  else if selRam i.req then s.ram.reqReady (s.ramIn i)
  else if selMmio i.req then s.mmioReqReady i
  else if selClint i.req then s.clint.reqReady (s.clintIn i)
  else if selPlic i.req then s.plic.reqReady (s.plicIn i)
  else true

def mmioRsp : SlaveRsp :=
  if s.mmioSelR = 2 then s.gpio.rsp
  else if s.mmioSelR = 3 then s.uart.rsp
  else s.tohost.rsp

def mRsp : SlaveRsp :=
  if s.activeSlave = 0 then s.rom.rsp
  else if s.activeSlave = 1 then s.ram.rsp
  else if s.activeSlave = 2 then s.mmioRsp
  else if s.activeSlave = 3 then s.clint.rsp
  else if s.activeSlave = 4 then s.plic.rsp
  else ⟨s.hasPending, 0xDEADBEEF, true⟩

/-! ## Clocked update -/

/-- A request is accepted. -/
def accepts : Bool := i.reqValid && s.mReqReady i

/-- The response is handed over. -/
def handsOver : Bool := s.mRsp.valid && i.rspReady

def activeSlaveNext : BitVec 3 :=
  if s.accepts i && !s.hasPending then slaveSelect i.req
  else s.activeSlave

def hasPendingNext : Bool :=
  if s.accepts i && !s.hasPending then true
  else if s.handsOver i then false
  else s.hasPending

def mmioSelRNext : BitVec 2 :=
  if (s.mmioIn i).reqValid && s.mmioReqReady i then mmioSelect i.req
  else s.mmioSelR

/-- One clock edge. -/
def next : DataPath where
  activeSlave := s.activeSlaveNext i
  hasPending := s.hasPendingNext i
  mmioSelR := s.mmioSelRNext i
  rom := s.rom.next (s.romIn i)
  ram := s.ram.next (s.ramIn i)
  tohost := s.tohost.next (s.tohostIn i)
  gpio := s.gpio.next (s.gpioPort i)
  uart := s.uart.next (s.uartIn i)
  clint := s.clint.next (s.clintIn i)
  plic := s.plic.next Plic.baseAddr (s.plicIn i)

end DataPath

/-! ## The router on its own -/

/-- The slave ports of `sisMemFabric`: ROM, RAM, MMIO, CLINT and PLIC. -/
inductive FabricPort
  | s0
  | s1
  | s2
  | s3
  | s4
  deriving DecidableEq

/-- What a slave drives. -/
structure SlaveOut where
  reqReady : Bool
  rsp : SlaveRsp

/-- The registers of `sisMemFabric`. -/
structure MemFabric where
  activeSlave : BitVec 3
  hasPending : Bool

/-- The master side and what the slaves drive. -/
structure MemFabricIn extends SlaveIn where
  slave : FabricPort → SlaveOut

namespace Fabric

/-- The decode hit of a slave port. -/
def sel (req : BusReq) : FabricPort → Bool
  | .s0 => selRom req
  | .s1 => selRam req
  | .s2 => selMmio req
  | .s3 => selClint req
  | .s4 => selPlic req

end Fabric

/-- The number of a slave port in `active_slave`. -/
def FabricPort.number : FabricPort → BitVec 3
  | .s0 => 0
  | .s1 => 1
  | .s2 => 2
  | .s3 => 3
  | .s4 => 4

namespace MemFabric

open Fabric

variable (s : MemFabric) (i : MemFabricIn)

/-- The state after `rst_n`. -/
def reset : MemFabric := ⟨0, false⟩

def reqValid (j : FabricPort) : Bool := i.reqValid && sel i.req j

def rspReady (j : FabricPort) : Bool :=
  i.rspReady && s.activeSlave == j.number

def mReqReady : Bool :=
  if selRom i.req then (i.slave .s0).reqReady
  else if selRam i.req then (i.slave .s1).reqReady
  else if selMmio i.req then (i.slave .s2).reqReady
  else if selClint i.req then (i.slave .s3).reqReady
  else if selPlic i.req then (i.slave .s4).reqReady
  else true

def mRsp : SlaveRsp :=
  if s.activeSlave = 0 then (i.slave .s0).rsp
  else if s.activeSlave = 1 then (i.slave .s1).rsp
  else if s.activeSlave = 2 then (i.slave .s2).rsp
  else if s.activeSlave = 3 then (i.slave .s3).rsp
  else if s.activeSlave = 4 then (i.slave .s4).rsp
  else ⟨s.hasPending, 0xDEADBEEF, true⟩

/-- A request is accepted. -/
def accepts : Bool := i.reqValid && mReqReady i

/-- The response is handed over. -/
def handsOver : Bool := (s.mRsp i).valid && i.rspReady

/-- One clock edge. -/
def next : MemFabric :=
  if accepts i && !s.hasPending then ⟨slaveSelect i.req, true⟩
  else if s.handsOver i then { s with hasPending := false }
  else s

end MemFabric

/-! ## The instruction side -/

/-- The registers of the instruction side. -/
structure InstrPath where
  iromBadPending : Bool
  irom : RomState

/-- The instruction port of the core. -/
structure InstrPathIn where
  reqValid : Bool
  addr : BitVec 32
  rspReady : Bool
  deriving DecidableEq, Repr

/-- The address lies in the instruction ROM. -/
def iromSel (addr : BitVec 32) : Bool := addr.extractLsb' 21 11 == 0

namespace InstrPath

variable (s : InstrPath) (i : InstrPathIn)

/-- The state after `rst_n`. -/
def reset (rom : BitVec 19 → BitVec 32) : InstrPath :=
  ⟨false, RomState.reset rom⟩

def iromIn : SlaveIn where
  reqValid := i.reqValid && iromSel i.addr
  req := ⟨i.addr, false, 0, 0⟩
  rspReady := i.rspReady && !s.iromBadPending

def reqReady : Bool :=
  if iromSel i.addr then s.irom.reqReady (s.iromIn i) else !s.iromBadPending

def rsp : SlaveRsp where
  valid := s.iromBadPending || s.irom.rsp.valid
  rdata := if s.iromBadPending then 0xDEADBEEF else s.irom.rsp.rdata
  err := if s.iromBadPending then true else s.irom.rsp.err

def iromBadPendingNext : Bool :=
  if i.reqValid && s.reqReady i && !iromSel i.addr then true
  else if s.rsp.valid && i.rspReady && s.iromBadPending then false
  else s.iromBadPending

/-- One clock edge. -/
def next : InstrPath where
  iromBadPending := s.iromBadPendingNext i
  irom := s.irom.next (s.iromIn i)

end InstrPath

end SisRv
