import SisRv.Rtl.Corebus

/-!
# `sisPlic`

The interrupt controller of `rtl/periph/sisPlic.sv`.  Index `e` of an array
stands for source `e + 1`.
-/

namespace SisRv

namespace Plic

def offPriority : BitVec 32 := 0x00000004
def offPending : BitVec 32 := 0x00001000
def offEnable : BitVec 32 := 0x00002000
def offThreshold : BitVec 32 := 0x00200000
def offClaim : BitVec 32 := 0x00200004

/-- `BASE_ADDR`. -/
def baseAddr : BitVec 32 := 0x0C000000

end Plic

/-- The registers of `sisPlic` with `NUM_SOURCES = n`. -/
structure PlicState (n : ℕ) where
  irqPrio : Fin n → BitVec 8
  gatewayPending : Fin n → Bool
  enabled : Fin n → Bool
  threshold : BitVec 8
  claimedId : BitVec 4
  claimActive : Bool
  pending : Bool
  rdataReg : BitVec 32

/-- The inputs of `sisPlic`. -/
structure PlicIn (n : ℕ) extends SlaveIn where
  irqSrc : Fin n → Bool

namespace PlicState

open Plic

variable {n : ℕ} (s : PlicState n) (base : BitVec 32) (i : PlicIn n)

/-- The state after `rst_n`. -/
def reset (n : ℕ) : PlicState n where
  irqPrio := fun _ => 1
  gatewayPending := fun _ => false
  enabled := fun _ => false
  threshold := 0
  claimedId := 0
  claimActive := false
  pending := false
  rdataReg := 0

/-! ## Decoding -/

/-- The number of the source at an index, in four bits. -/
def sourceId (e : Fin n) : BitVec 4 := BitVec.ofNat 4 (e.val + 1)

/-- A vector of sources, the first of them in bit 0. -/
def packSources (bits : Fin n → Bool) : BitVec 32 :=
  (List.finRange n).foldl
    (fun word e => if bits e then word ||| BitVec.twoPow 32 e.val else word) 0

def addrMatch (req : BusReq) : Bool :=
  req.addr.extractLsb' 16 16 == base.extractLsb' 16 16

def rel (req : BusReq) : BitVec 32 := req.addr - base

/-- The priority register at an offset. -/
def prioIndex (n : ℕ) (offset : BitVec 32) : Option (Fin n) :=
  if offset.extractLsb' 0 2 = 0 ∧ offPriority ≤ offset ∧
      offset < offPending then
    let idx := (offset.extractLsb' 2 30).toNat
    if h : 1 ≤ idx ∧ idx ≤ n then some ⟨idx - 1, by omega⟩ else none
  else none

/-! ## Handshakes -/

def reqReady : Bool := slaveReqReady s.pending i.rspReady

/-- A request is accepted. -/
def reqFire : Bool := i.reqValid && s.reqReady i

def rsp : SlaveRsp := ⟨s.pending, s.rdataReg, false⟩

/-! ## Arbitration -/

/-- `winner_id` and `winner_pri`: the sources from the highest number down, a
later one wins only with a higher priority. -/
def winner : BitVec 4 × BitVec 8 :=
  (List.finRange n).reverse.foldl
    (fun best e =>
      if s.enabled e && s.gatewayPending e &&
          decide (best.2 < s.irqPrio e) &&
          decide (s.threshold < s.irqPrio e) then
        (sourceId e, s.irqPrio e)
      else best)
    (0, 0)

def winnerId : BitVec 4 := s.winner.1

def irqActive : Bool := s.winnerId != 0

def meip : Bool := s.irqActive && !s.claimActive

/-! ## Clocked update -/

/-- A write of the claimed id to the claim register. -/
def completes : Bool :=
  s.claimActive && s.reqFire i && addrMatch base i.req && i.req.we &&
    rel base i.req == offClaim && i.req.wdata.extractLsb' 0 4 == s.claimedId

/-- The gateways: latched while the source is high, cleared by completion. -/
def gatewayNext (e : Fin n) : Bool :=
  if i.irqSrc e then true
  else if s.completes base i && s.claimedId == sourceId e then false
  else s.gatewayPending e

/-- An accepted write to a matching address. -/
def writeReg (offset : BitVec 32) (req : BusReq) (t : PlicState n) :
    PlicState n :=
  if offset = offEnable then
    { t with enabled := fun e => req.wdata.getLsbD (e.val + 1) }
  else if offset = offThreshold then
    if req.wstrb.getLsbD 0 then
      { t with threshold := req.wdata.extractLsb' 0 8 }
    else t
  else if offset = offClaim then
    if s.claimActive && req.wdata.extractLsb' 0 4 == s.claimedId then
      { t with claimActive := false }
    else t
  else
    match prioIndex n offset with
    | some idx =>
        if req.wstrb.getLsbD 0 then
          { t with
            irqPrio := fun e =>
              if e = idx then req.wdata.extractLsb' 0 8 else t.irqPrio e }
        else t
    | none => t

/-- An accepted read of a matching address. -/
def readReg (offset : BitVec 32) (t : PlicState n) : PlicState n :=
  if offset = offPending then
    { t with rdataReg := packSources s.gatewayPending }
  else if offset = offEnable then
    { t with rdataReg := packSources s.enabled }
  else if offset = offThreshold then
    { t with rdataReg := s.threshold.setWidth 32 }
  else if offset = offClaim then
    if !s.claimActive && s.irqActive then
      { t with
        rdataReg := s.winnerId.setWidth 32
        claimedId := s.winnerId
        claimActive := true }
    else { t with rdataReg := s.claimedId.setWidth 32 }
  else
    match prioIndex n offset with
    | some idx => { t with rdataReg := (s.irqPrio idx).setWidth 32 }
    | none => { t with rdataReg := 0 }

/-- The register block. -/
def access (t : PlicState n) : PlicState n :=
  if s.reqFire i then
    let t := { t with pending := true }
    if addrMatch base i.req && i.req.we then
      s.writeReg (rel base i.req) i.req t
    else if addrMatch base i.req && !i.req.we then
      s.readReg (rel base i.req) t
    else { t with rdataReg := 0 }
  else if s.pending && i.rspReady then { t with pending := false }
  else t

/-- One clock edge. -/
def next : PlicState n :=
  { s.access base i s with gatewayPending := s.gatewayNext base i }

end PlicState

end SisRv
