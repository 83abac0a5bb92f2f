import SisRv.Core.AbstractAccess
import SisRv.Rtl.AxiLiteSlave
import SisRv.Rtl.Dm
import SisRv.Rtl.JtagDtm
import SisRv.Rtl.MemFabric

/-!
# `sisPlatformTop`

The integration of `rtl/sisPlatformTop.sv`: the core, its debug transport and
its debug module, and behind the two ports of the core the corebus path or the
AXI path, as `USE_AXIL` selects.  With the AXI path the CLINT and the PLIC of
the corebus path are tied off and reach no output; they are left out there.
-/

namespace SisRv

/-- The pins that lead into the platform. -/
structure PlatformIn where
  gpioIn : BitVec 32 := 0
  plicIrq : BitVec 8 := 0
  jtagTck : Bool := false
  jtagTms : Bool := false
  jtagTdi : Bool := false
  deriving DecidableEq, Repr

/-- The pins that the memory side drives. -/
structure PlatformOut where
  tohostPass : Bool
  tohostFail : Bool
  tohostCode : BitVec 32
  gpioOut : BitVec 32
  gpioOe : BitVec 32
  uartTxValid : Bool
  uartTxData : BitVec 8
  deriving DecidableEq, Repr

/-- What the core drives on its instruction and its data port. -/
structure CorePorts where
  iReqValid : Bool
  iReqAddr : BitVec 32
  iRspReady : Bool
  d : SlaveIn

/-- One arm of the `generate` blocks, as the core and the pins see it. -/
structure MemSide (σ : Type) where
  irq : σ → IrqLines
  iRsp : σ → SlaveRsp
  dRsp : σ → SlaveRsp
  iReqReady : σ → PlatformIn → CorePorts → Bool
  dReqReady : σ → PlatformIn → CorePorts → Bool
  out : σ → PlatformOut
  next : σ → PlatformIn → CorePorts → σ

/-! ## `gen_corebus` -/

/-- The registers of the two corebus paths. -/
structure Corebus where
  data : DataPath
  instr : InstrPath

namespace Corebus

variable (s : Corebus) (i : PlatformIn) (c : CorePorts)

/-- The state after `rst_n`; both ROMs have the same image. -/
def reset (rom : BitVec 19 → BitVec 32) (ram : BitVec 16 → BitVec 32) :
    Corebus :=
  ⟨DataPath.reset rom ram, InstrPath.reset rom⟩

/-- `plic_irq_mux`, where index `e` stands for source `e + 1`. -/
def plicIrqMux (e : Fin 8) : Bool :=
  i.plicIrq.getLsbD e || s.data.gpio.gpioOut.getLsbD (e + 1)

def dataIn : DataPathIn where
  toSlaveIn := c.d
  gpioIn := i.gpioIn
  irqSrc := s.plicIrqMux i

end Corebus

def CorePorts.instrIn (c : CorePorts) : InstrPathIn where
  reqValid := c.iReqValid
  addr := c.iReqAddr
  rspReady := c.iRspReady

def corebusSide : MemSide Corebus where
  irq s := ⟨s.data.clint.msip, s.data.clint.mtip, s.data.plic.meip⟩
  iRsp s := s.instr.rsp
  dRsp s := s.data.mRsp
  iReqReady s _ c := s.instr.reqReady c.instrIn
  dReqReady s i c := s.data.mReqReady (s.dataIn i c)
  out s :=
    { tohostPass := s.data.tohost.pass
      tohostFail := s.data.tohost.fail
      tohostCode := s.data.tohost.lastCode
      gpioOut := s.data.gpio.gpioOut
      gpioOe := s.data.gpio.gpioOe
      uartTxValid := s.data.uart.uartTxValid
      uartTxData := s.data.uart.uartTxData }
  next s i c := ⟨s.data.next (s.dataIn i c), s.instr.next c.instrIn⟩

/-! ## `gen_axilite` -/

namespace AxiPlatform

variable (s : AxiPlatform) (i : PlatformIn) (c : CorePorts)

/-- The state after `rst_n`; the registers of the timer are reset with the
given time. -/
def reset (rom : BitVec 19 → BitVec 32) (ram : BitVec 16 → BitVec 32)
    (mtime : BitVec 64) : AxiPlatform :=
  ⟨AxiPath.reset, AxiLiteSlave.reset rom ram mtime⟩

def portsIn : AxiPlatformIn where
  iReqValid := c.iReqValid
  iReqAddr := c.iReqAddr
  iRspReady := c.iRspReady
  d := c.d
  plicIrq := i.plicIrq
  gpioIn := i.gpioIn

/-- `mtip_axil`, `msip_axil` and `meip_axil`. -/
def irq : IrqLines where
  extMsip := s.slave.msipReg
  extMtip := decide (s.slave.mtimecmp ≤ s.slave.mtime)
  extMeip := s.slave.plicIrqActive && !s.slave.plicClaimActive

end AxiPlatform

def axilSide (stallRate : ℤ) : MemSide AxiPlatform where
  irq s := s.irq
  iRsp s := s.path.iRsp
  dRsp s := s.path.dRsp
  iReqReady s i c :=
    s.path.iReqReady (s.pathIn stallRate (AxiPlatform.portsIn i c))
  dReqReady s i c :=
    s.path.dReqReady (s.pathIn stallRate (AxiPlatform.portsIn i c))
  out s :=
    { tohostPass := s.slave.pass
      tohostFail := s.slave.fail
      tohostCode := s.slave.lastCode
      gpioOut := s.slave.gpioOut
      gpioOe := s.slave.gpioOe
      uartTxValid := s.slave.uartTxValid
      uartTxData := s.slave.uartTxData }
  next s i c := s.next stallRate (AxiPlatform.portsIn i c)

/-! ## The platform -/

/-- The parameters of `u_core`. -/
def topParams (resetVector : BitVec 32) : Params where
  resetVector := resetVector
  enableA := true
  enableC := true
  enableU := true
  pmpEntries := 8

/-- All registers of the platform. -/
structure PlatformTop (p : Params) (σ : Type) where
  core : Core p
  jtag : JtagDtm
  dm : Dm
  mem : σ

namespace PlatformTop

variable {p : Params} {σ : Type} (side : MemSide σ) (s : PlatformTop p σ)
  (i : PlatformIn)

def reset (power : PowerOn) (mem : σ) : PlatformTop p σ where
  core := Core.reset p power
  jtag := JtagDtm.reset
  dm := Dm.reset
  mem := mem

/-- The inputs of the core that come from registers. -/
def offered : CoreIn where
  dbgHaltReq := s.dm.haltReq
  dbgResumeReq := s.dm.resumeReq
  dbgSingleStep := s.dm.singleStep s.core.halted
  dbgAbsValid := s.dm.absValid
  dbgAbsWrite := s.dm.absWrite
  dbgAbsRegaddr := s.dm.absRegaddr
  dbgAbsWdata := s.dm.absWdata
  extMsip := (side.irq s.mem).extMsip
  extMtip := (side.irq s.mem).extMtip
  extMeip := (side.irq s.mem).extMeip
  iRspValid := (side.iRsp s.mem).valid
  iRspRdata := (side.iRsp s.mem).rdata
  iRspErr := (side.iRsp s.mem).err
  dRspValid := (side.dRsp s.mem).valid
  dRspRdata := (side.dRsp s.mem).rdata
  dRspErr := (side.dRsp s.mem).err

/-- What the core drives.  No output of it looks at a `req_ready`. -/
def ports : CorePorts where
  iReqValid := s.core.iReqValid (s.offered side)
  iReqAddr := s.core.iReqAddr (s.offered side)
  iRspReady := s.core.iRspReady
  d :=
    { reqValid := s.core.dReqValid
      req :=
        { addr := s.core.dReqAddr
          we := s.core.dReqWe
          wdata := s.core.dReqWdata
          wstrb := s.core.dReqWstrb }
      rspReady := s.core.dRspReady }

def coreIn : CoreIn :=
  { s.offered side with
    iReqReady := side.iReqReady s.mem i (s.ports side)
    dReqReady := side.dReqReady s.mem i (s.ports side) }

def dmiIn : DmiIn where
  dmiReqValid := s.jtag.dmiReqValid
  dmiReqWrite := s.jtag.dmiReqWrite
  dmiReqAddr := s.jtag.dmiReqAddr
  dmiReqWdata := s.jtag.dmiReqWdata
  dmiRspReady := s.jtag.dmiRspReady

def jtagIn : JtagIn where
  tck := i.jtagTck
  tms := i.jtagTms
  tdi := i.jtagTdi
  dmiReqReady := s.dm.dmiReqReady s.dmiIn
  dmiRspValid := s.dm.dmiRspValid
  dmiRspRdata := s.dm.dmiRspRdata

def dmCoreIn : DmCoreIn where
  coreHalted := s.core.halted
  coreRunning := !s.core.halted
  absReady := s.core.dbgAbsReady (s.coreIn side i)
  absRdata := s.core.dbgAbsRdata (s.coreIn side i)

/-- One clock edge. -/
def next : PlatformTop p σ where
  core := s.core.step (s.coreIn side i)
  jtag := s.jtag.step (s.jtagIn i)
  dm := s.dm.step s.dmiIn (s.dmCoreIn side i)
  mem := side.next s.mem i (s.ports side)

end PlatformTop

end SisRv
