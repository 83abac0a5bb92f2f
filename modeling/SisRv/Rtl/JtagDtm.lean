import Mathlib.Data.Nat.Notation

/-!
# `sisJtagDtm`

The JTAG transport of `rtl/debug/sisJtagDtm.sv`: the sampler of the JTAG pins,
the TAP process and the DMI process, with the registers each of them assigns.
-/

namespace SisRv

def irBypass : BitVec 5 := 0x1F
def irDmi : BitVec 5 := 0x11

def stIdle : BitVec 4 := 0
def stDrShift : BitVec 4 := 1
def stDrExit : BitVec 4 := 2
def stIrShift : BitVec 4 := 3

/-- The registers of `sisJtagDtm`. -/
structure JtagDtm where
  tckSync : Bool
  tckPrev : Bool
  tmsSync : Bool
  tdiSync : Bool
  tapState : BitVec 4
  ir : BitVec 5
  dr : BitVec 41
  bitCnt : BitVec 6
  shiftDr : Bool
  updateDr : Bool
  captureDr : Bool
  dmiPending : Bool
  dmiOp : BitVec 41
  dmiReqValid : Bool
  dmiReqWrite : Bool
  dmiReqAddr : BitVec 7
  dmiReqWdata : BitVec 32
  deriving DecidableEq, Repr

/-- The input ports, sampled once in every cycle of `clk`. -/
structure JtagIn where
  tck : Bool
  tms : Bool
  tdi : Bool
  dmiReqReady : Bool
  dmiRspValid : Bool
  dmiRspRdata : BitVec 32
  deriving DecidableEq, Repr

namespace JtagDtm

/-- The state after `rst_n`. -/
def reset : JtagDtm :=
  { tckSync := false
    tckPrev := false
    tmsSync := false
    tdiSync := false
    tapState := stIdle
    ir := irBypass
    dr := 0
    bitCnt := 0
    shiftDr := false
    updateDr := false
    captureDr := false
    dmiPending := false
    dmiOp := 0
    dmiReqValid := false
    dmiReqWrite := false
    dmiReqAddr := 0
    dmiReqWdata := 0 }

variable (s : JtagDtm) (i : JtagIn)

def tckRise : Bool := s.tckSync && !s.tckPrev

def tdo : Bool := s.dr.getLsbD 0

def dmiRspReady : Bool := s.dmiPending

/-- The two-stage sampler of the pins. -/
def sample (n : JtagDtm) : JtagDtm :=
  { n with
    tckPrev := s.tckSync
    tckSync := i.tck
    tmsSync := i.tms
    tdiSync := i.tdi }

/-- The TAP process.  The shift concatenates TDI with the 31 bits `dr[31:1]`
only, and zero-extends the result. -/
def tap (n : JtagDtm) : JtagDtm :=
  if s.tckRise then
    let n := { n with updateDr := false, captureDr := false, shiftDr := false }
    if s.tapState = stIdle then
      { n with
        tapState := if s.tmsSync then stIdle else stDrShift
        bitCnt := 0 }
    else if s.tapState = stDrShift then
      { n with
        shiftDr := true
        dr := (BitVec.ofBool s.tdiSync ++ s.dr.extractLsb' 1 31).setWidth 41
        bitCnt := s.bitCnt + 1
        tapState := if s.tmsSync then stDrExit else s.tapState }
    else if s.tapState = stDrExit then
      { n with updateDr := true, tapState := stIdle }
    else if s.tapState = stIrShift then
      { n with
        ir := (BitVec.ofBool s.tdiSync ++ s.ir.extractLsb' 1 4 : BitVec 5)
        tapState := if s.tmsSync then stIdle else s.tapState }
    else { n with tapState := stIdle }
  else n

/-- The DMI process, which stands last in the source. -/
def dmi (n : JtagDtm) : JtagDtm :=
  if s.updateDr && s.ir == irDmi then
    { n with
      dmiOp := s.dr
      dmiReqValid := true
      dmiReqWrite := s.dr.extractLsb' 32 2 == 0b10
      dmiReqAddr := s.dr.extractLsb' 34 7
      dmiReqWdata := s.dr.extractLsb' 0 32 }
  else if s.dmiReqValid && i.dmiReqReady then
    { n with dmiReqValid := false, dmiPending := true }
  else if i.dmiRspValid && s.dmiRspReady then
    { n with dmiPending := false, dr := i.dmiRspRdata.setWidth 41 }
  else n

/-- One edge of `clk`. -/
def step : JtagDtm := s.dmi i (s.tap (s.sample i s))

end JtagDtm

end SisRv
