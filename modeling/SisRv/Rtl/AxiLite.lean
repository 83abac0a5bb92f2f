import SisRv.Rtl.Corebus

/-!
# The AXI4-Lite path

The bridge `sisAxiLiteM` and the arbiter in `rtl/sisPlatformTop.sv` that
shares it between the instruction and the data port.
-/

namespace SisRv

/-! ## The bridge -/

/-- `state_t`. -/
inductive AxiState
  | idle
  | rdAddr
  | rdData
  | wrAddr
  | wrResp
  | rsp
  deriving DecidableEq, Repr

/-- The registers of `sisAxiLiteM`. -/
structure AxiLiteM where
  state : AxiState
  addrReg : BitVec 32
  wdataReg : BitVec 32
  wstrbReg : BitVec 4
  weReg : Bool
  rdataReg : BitVec 32
  errReg : Bool
  awDone : Bool
  wDone : Bool
  deriving DecidableEq, Repr

/-- What the slave drives. -/
structure AxiIn where
  awready : Bool
  wready : Bool
  bvalid : Bool
  bresp : BitVec 2
  arready : Bool
  rvalid : Bool
  rdata : BitVec 32
  rresp : BitVec 2
  deriving DecidableEq, Repr

namespace AxiLiteM

variable (s : AxiLiteM) (bus : SlaveIn) (axi : AxiIn)

/-- The state after `rst_n`. -/
def reset : AxiLiteM where
  state := .idle
  addrReg := 0
  wdataReg := 0
  wstrbReg := 0
  weReg := false
  rdataReg := 0
  errReg := false
  awDone := false
  wDone := false

def reqReady : Bool := s.state == .idle

def arvalid : Bool := s.state == .rdAddr

def araddr : BitVec 32 := s.addrReg

def rready : Bool := s.state == .rdData

def awvalid : Bool := s.state == .wrAddr && !s.awDone

def awaddr : BitVec 32 := s.addrReg

def wvalid : Bool := s.state == .wrAddr && !s.wDone

def wdata : BitVec 32 := s.wdataReg

def wstrb : BitVec 4 := s.wstrbReg

def bready : Bool := s.state == .wrResp

def rsp : SlaveRsp := ⟨s.state == .rsp, s.rdataReg, s.errReg⟩

/-! ### Handshakes -/

def arFire : Bool := s.arvalid && axi.arready

def rFire : Bool := axi.rvalid && s.rready

def awFire : Bool := s.awvalid && axi.awready

def wFire : Bool := s.wvalid && axi.wready

def bFire : Bool := axi.bvalid && s.bready

/-- Both halves of a write have been accepted. -/
def writeSent : Bool :=
  (s.awDone || s.awFire axi) && (s.wDone || s.wFire axi)

/-- One clock edge. -/
def next : AxiLiteM :=
  match s.state with
  | .idle =>
      if bus.reqValid && s.reqReady then
        let t : AxiLiteM :=
          { s with
            addrReg := bus.req.addr
            wdataReg := bus.req.wdata
            wstrbReg := bus.req.wstrb
            weReg := bus.req.we }
        if bus.req.we then
          { t with state := .wrAddr, awDone := false, wDone := false }
        else { t with state := .rdAddr }
      else s
  | .rdAddr => if s.arFire axi then { s with state := .rdData } else s
  | .rdData =>
      if s.rFire axi then
        { s with
          rdataReg := axi.rdata
          errReg := axi.rresp != 0
          state := .rsp }
      else s
  | .wrAddr =>
      { s with
        awDone := s.awDone || s.awFire axi
        wDone := s.wDone || s.wFire axi
        state := if s.writeSent axi then .wrResp else s.state }
  | .wrResp =>
      if s.bFire axi then
        { s with errReg := axi.bresp != 0, rdataReg := 0, state := .rsp }
      else s
  | .rsp =>
      if s.rsp.valid && bus.rspReady then { s with state := .idle } else s

end AxiLiteM

/-! ## The arbiter -/

/-- `axi_arb_owner_t`. -/
inductive AxiArbOwner
  | none
  | i
  | d
  deriving DecidableEq, Repr

/-- The registers of the arbiter and of the bridge. -/
structure AxiPath where
  arbOwner : AxiArbOwner
  arbPending : Bool
  bridge : AxiLiteM

/-- The ports of the core and the slave. -/
structure AxiPathIn where
  iReqValid : Bool
  iReqAddr : BitVec 32
  iRspReady : Bool
  d : SlaveIn
  axi : AxiIn

namespace AxiPath

variable (s : AxiPath) (i : AxiPathIn)

/-- The state after `rst_n`. -/
def reset : AxiPath := ⟨.none, false, AxiLiteM.reset⟩

def coreReqValid : Bool := !s.arbPending && (i.d.reqValid || i.iReqValid)

/-- The request for the bridge, of the data port first. -/
def coreReq : BusReq where
  addr := if i.d.reqValid then i.d.req.addr else i.iReqAddr
  we := if i.d.reqValid then i.d.req.we else false
  wdata := if i.d.reqValid then i.d.req.wdata else 0
  wstrb := if i.d.reqValid then i.d.req.wstrb else 0

def coreReqReady : Bool := s.bridge.reqReady

def dReqReady : Bool := !s.arbPending && i.d.reqValid && s.coreReqReady

def iReqReady : Bool :=
  !s.arbPending && !i.d.reqValid && i.iReqValid && s.coreReqReady

def coreRspReady : Bool :=
  match s.arbOwner with
  | .d => i.d.rspReady
  | .i => i.iRspReady
  | .none => false

def coreRsp : SlaveRsp := s.bridge.rsp

def dRsp : SlaveRsp where
  valid := s.arbOwner == .d && s.coreRsp.valid
  rdata := s.coreRsp.rdata
  err := s.arbOwner == .d && s.coreRsp.err

def iRsp : SlaveRsp where
  valid := s.arbOwner == .i && s.coreRsp.valid
  rdata := s.coreRsp.rdata
  err := s.arbOwner == .i && s.coreRsp.err

/-- What the bridge receives. -/
def bridgeIn : SlaveIn where
  reqValid := s.coreReqValid i
  req := coreReq i
  rspReady := s.coreRspReady i

/-- One clock edge. -/
def next : AxiPath :=
  let bridge := s.bridge.next (s.bridgeIn i) i.axi
  if s.coreReqValid i && s.coreReqReady then
    ⟨if i.d.reqValid then .d else .i, true, bridge⟩
  else if s.coreRsp.valid && s.coreRspReady i then ⟨.none, false, bridge⟩
  else ⟨s.arbOwner, s.arbPending, bridge⟩

end AxiPath

end SisRv
