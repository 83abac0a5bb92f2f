import Mathlib.Data.Nat.Notation

/-!
# `sisDm`

The debug module of `rtl/debug/sisDm.sv`: DMCONTROL with its request flags,
the abstract command FSM and the DMI responses.
-/

namespace SisRv

def dmiDmcontrol : BitVec 7 := 0x10
def dmiDmstatus : BitVec 7 := 0x11
def dmiAbstractcs : BitVec 7 := 0x16
def dmiCommand : BitVec 7 := 0x17
def dmiData0 : BitVec 7 := 0x04

/-- The registers of `sisDm`. -/
structure Dm where
  dmActive : Bool
  haltreqR : Bool
  resumereqR : Bool
  stepR : Bool
  data0 : BitVec 32
  absState : BitVec 3
  absCmdWrite : Bool
  absCmdReg : BitVec 5
  dmiPending : Bool
  dmiRdataReg : BitVec 32
  deriving DecidableEq, Repr

/-- What the DMI master drives in a cycle. -/
structure DmiIn where
  dmiReqValid : Bool := false
  dmiReqWrite : Bool := false
  dmiReqAddr : BitVec 7 := 0
  dmiReqWdata : BitVec 32 := 0
  dmiRspReady : Bool := false
  deriving DecidableEq, Repr

/-- What the core drives. -/
structure DmCoreIn where
  coreHalted : Bool
  coreRunning : Bool
  absReady : Bool
  absRdata : BitVec 32
  deriving DecidableEq, Repr

namespace Dm

/-- The state after `rst_n`. -/
def reset : Dm :=
  { dmActive := false
    haltreqR := false
    resumereqR := false
    stepR := false
    data0 := 0
    absState := 0
    absCmdWrite := false
    absCmdReg := 0
    dmiPending := false
    dmiRdataReg := 0 }

variable (s : Dm) (i : DmiIn) (c : DmCoreIn)

def dmiReqReady : Bool := !s.dmiPending || i.dmiRspReady
def haltReq : Bool := s.haltreqR && s.dmActive
def resumeReq : Bool := s.resumereqR && s.dmActive
def singleStep (coreHalted : Bool) : Bool :=
  s.stepR && s.dmActive && coreHalted

def absValid : Bool := s.absState == 1
def absWrite : Bool := s.absCmdWrite
def absRegaddr : BitVec 5 := s.absCmdReg
def absWdata : BitVec 32 := s.data0

def dmiRspValid : Bool := s.dmiPending
def dmiRspRdata : BitVec 32 := s.dmiRdataReg

/-- A DMI request is accepted. -/
def dmiReqFire : Bool := i.dmiReqValid && s.dmiReqReady i

/-- The abstract command FSM: 0 is idle, 1 busy, 2 done. -/
def absStep (n : Dm) : Dm :=
  if s.absState = 1 ∧ c.absReady then
    if s.absCmdWrite then { n with absState := 2 }
    else { n with data0 := c.absRdata, absState := 2 }
  else if s.absState = 2 then { n with absState := 0 }
  else n

/-- A DMI write. -/
def dmiWrite (n : Dm) : Dm :=
  if i.dmiReqAddr = dmiDmcontrol then
    { n with
      dmActive := i.dmiReqWdata.getLsbD 0
      stepR := i.dmiReqWdata.getLsbD 2
      haltreqR := i.dmiReqWdata.getLsbD 31
      resumereqR := i.dmiReqWdata.getLsbD 30 }
  else if i.dmiReqAddr = dmiCommand then
    if i.dmiReqWdata.extractLsb' 24 8 = 0 then
      { n with
        absCmdWrite := i.dmiReqWdata.getLsbD 16
        absCmdReg := i.dmiReqWdata.extractLsb' 16 5
        absState := 1 }
    else n
  else if i.dmiReqAddr = dmiData0 then { n with data0 := i.dmiReqWdata }
  else n

/-- The value a DMI read latches.  The concatenation for DMCONTROL has 32 bits:
two flags, 27 zeros, `step_r`, a zero and `dm_active`. -/
def dmiRead : BitVec 32 :=
  if i.dmiReqAddr = dmiDmcontrol then
    (BitVec.ofBool s.haltreqR ++ BitVec.ofBool s.resumereqR ++ 0#27 ++
      BitVec.ofBool s.stepR ++ 0#1 ++ BitVec.ofBool s.dmActive : BitVec 32)
  else if i.dmiReqAddr = dmiDmstatus then
    (BitVec.ofBool c.coreHalted ++ BitVec.ofBool c.coreRunning ++ 0#30 :
      BitVec 32)
  else if i.dmiReqAddr = dmiAbstractcs then
    (0#30 ++ s.absState.extractLsb' 0 2 : BitVec 32)
  else if i.dmiReqAddr = dmiData0 then s.data0
  else 0

/-- The DMI port, assigned last: a response that is handed over without a new
request clears the request flags. -/
def dmiStep (n : Dm) : Dm :=
  if s.dmiReqFire i then
    let n := { n with dmiPending := true, dmiRdataReg := 0 }
    if i.dmiReqWrite then dmiWrite i n
    else { n with dmiRdataReg := s.dmiRead i c }
  else if s.dmiRspValid && i.dmiRspReady then
    { n with dmiPending := false, haltreqR := false, resumereqR := false }
  else n

/-- One clock edge. -/
def step : Dm := s.dmiStep i c (s.absStep c s)

end Dm

end SisRv
