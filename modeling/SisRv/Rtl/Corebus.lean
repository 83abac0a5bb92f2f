import Mathlib.Data.BitVec

/-!
# Corebus

The request and response channels of the internal bus, as the peripherals and
the routers see them.
-/

namespace SisRv

/-- The payload of a request. -/
structure BusReq where
  addr : BitVec 32
  we : Bool
  wdata : BitVec 32
  wstrb : BitVec 4
  deriving DecidableEq, Repr

/-- What a slave receives in a cycle. -/
structure SlaveIn where
  reqValid : Bool
  req : BusReq
  rspReady : Bool
  deriving DecidableEq, Repr

/-- What a slave returns on the response channel. -/
structure SlaveRsp where
  valid : Bool
  rdata : BitVec 32
  err : Bool
  deriving DecidableEq, Repr

/-- `apply_wstrb`: the bytes of a strobe replaced. -/
def applyWstrb (oldData newData : BitVec 32) (strb : BitVec 4) : BitVec 32 :=
  let byte (lane : ℕ) : BitVec 8 :=
    if strb.getLsbD lane then newData.extractLsb' (8 * lane) 8
    else oldData.extractLsb' (8 * lane) 8
  (byte 3 ++ byte 2 ++ byte 1 ++ byte 0 : BitVec 32)

/-- `req_ready` of every slave: it holds one response, which may leave in the
cycle of the next request. -/
def slaveReqReady (pending rspReady : Bool) : Bool := !pending || rspReady

end SisRv
