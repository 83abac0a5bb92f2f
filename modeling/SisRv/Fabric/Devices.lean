import SisRv.Lib.Channel
import SisRv.Rtl.MemFabric

/-!
# The devices of the data path

The address map, and what every device behind the routers does with its
response register: it is loaded by an accepted request and emptied when the
response is taken.
-/

namespace SisRv

open Sync Fabric

/-! ## The address map -/

/-- What an address can name. -/
inductive Device
  | rom
  | ram
  | tohost
  | gpio
  | uart
  | clint
  | plic
  deriving DecidableEq

/-- The map in the header of the router, with the windows of the
sub-router. -/
def addressMap (addr : BitVec 32) : Option Device :=
  let a := addr.toNat
  if a ≤ 0x001FFFFF then some .rom
  else if 0x02000000 ≤ a ∧ a ≤ 0x0200FFFF then some .clint
  else if 0x10000000 ≤ a ∧ a ≤ 0x1000FFFF then
    if 0x10003000 ≤ a ∧ a ≤ 0x10003FFF then some .gpio
    else if 0x10004000 ≤ a ∧ a ≤ 0x10004FFF then some .uart
    else some .tohost
  else if 0x0C000000 ≤ a ∧ a ≤ 0x0C3FFFFF then some .plic
  else if 0x80000000 ≤ a ∧ a ≤ 0x8003FFFF then some .ram
  else none

/-- The device that a slave number and a sub-router selection name. -/
def selectDevice (slave : BitVec 3) (sub : BitVec 2) : Option Device :=
  if slave = 0 then some .rom
  else if slave = 1 then some .ram
  else if slave = 2 then
    if sub = 2 then some .gpio
    else if sub = 3 then some .uart
    else some .tohost
  else if slave = 3 then some .clint
  else if slave = 4 then some .plic
  else none

/-- A field of an address as a digit of its value. -/
theorem field_beq_iff (addr : BitVec 32) (start width value : ℕ)
    (fits : value < 2 ^ width) :
    (addr.extractLsb' start width == BitVec.ofNat width value) = true ↔
      addr.toNat / 2 ^ start % 2 ^ width = value := by
  rw [beq_iff_eq, ← BitVec.toNat_inj, BitVec.extractLsb'_toNat,
    BitVec.toNat_ofNat, Nat.mod_eq_of_lt fits, Nat.shiftRight_eq_div_pow]

section Selects

variable (req : BusReq)

theorem selRom_iff : selRom req = true ↔ req.addr.toNat ≤ 0x001FFFFF := by
  have digit := field_beq_iff req.addr 21 11 0 (by decide)
  have bound := req.addr.isLt
  rw [selRom]
  refine digit.trans ?_
  omega

theorem selClint_iff :
    selClint req = true ↔
      0x02000000 ≤ req.addr.toNat ∧ req.addr.toNat ≤ 0x0200FFFF := by
  have digit := field_beq_iff req.addr 16 16 0x0200 (by decide)
  have bound := req.addr.isLt
  rw [selClint]
  refine digit.trans ?_
  omega

theorem selMmio_iff :
    selMmio req = true ↔
      0x10000000 ≤ req.addr.toNat ∧ req.addr.toNat ≤ 0x1000FFFF := by
  have digit := field_beq_iff req.addr 16 16 0x1000 (by decide)
  have bound := req.addr.isLt
  rw [selMmio]
  refine digit.trans ?_
  omega

theorem selPlic_iff :
    selPlic req = true ↔
      0x0C000000 ≤ req.addr.toNat ∧ req.addr.toNat ≤ 0x0C3FFFFF := by
  have digit := field_beq_iff req.addr 22 10 0x030 (by decide)
  have bound := req.addr.isLt
  rw [selPlic]
  refine digit.trans ?_
  omega

theorem selRam_iff :
    selRam req = true ↔
      0x80000000 ≤ req.addr.toNat ∧ req.addr.toNat ≤ 0x8003FFFF := by
  have digit := field_beq_iff req.addr 18 14 0x2000 (by decide)
  have bound := req.addr.isLt
  rw [selRam]
  refine digit.trans ?_
  omega

theorem selGpio_iff :
    selGpio req = true ↔ req.addr.toNat / 0x1000 % 0x10 = 3 :=
  field_beq_iff req.addr 12 4 3 (by decide)

theorem selUart_iff :
    selUart req = true ↔ req.addr.toNat / 0x1000 % 0x10 = 4 :=
  field_beq_iff req.addr 12 4 4 (by decide)

/-- The two levels of routers decode the address map. -/
theorem addressMap_eq :
    addressMap req.addr = selectDevice (slaveSelect req) (mmioSelect req) := by
  unfold addressMap slaveSelect mmioSelect
  simp only [selRom_iff, selRam_iff, selMmio_iff, selClint_iff, selPlic_iff,
    selGpio_iff, selUart_iff]
  generalize req.addr.toNat = a
  by_cases rom : a ≤ 0x001FFFFF
  · rw [if_pos rom, if_pos rom]
    rfl
  rw [if_neg rom, if_neg rom]
  by_cases clint : 0x02000000 ≤ a ∧ a ≤ 0x0200FFFF
  · rw [if_pos clint, if_neg (by omega), if_neg (by omega), if_pos clint]
    rfl
  rw [if_neg clint]
  by_cases mmio : 0x10000000 ≤ a ∧ a ≤ 0x1000FFFF
  · have notRam : ¬ (0x80000000 ≤ a ∧ a ≤ 0x8003FFFF) := by omega
    rw [if_pos mmio, if_neg notRam, if_pos mmio]
    by_cases gpio : a / 0x1000 % 0x10 = 3
    · rw [if_pos (show 0x10003000 ≤ a ∧ a ≤ 0x10003FFF by omega),
        if_pos gpio]
      rfl
    rw [if_neg (show ¬ (0x10003000 ≤ a ∧ a ≤ 0x10003FFF) by omega),
      if_neg gpio]
    by_cases uart : a / 0x1000 % 0x10 = 4
    · rw [if_pos (show 0x10004000 ≤ a ∧ a ≤ 0x10004FFF by omega),
        if_pos uart]
      rfl
    rw [if_neg (show ¬ (0x10004000 ≤ a ∧ a ≤ 0x10004FFF) by omega),
      if_neg uart]
    rfl
  rw [if_neg mmio]
  by_cases plic : 0x0C000000 ≤ a ∧ a ≤ 0x0C3FFFFF
  · rw [if_pos plic, if_neg (by omega), if_neg mmio, if_neg clint,
      if_pos plic]
    rfl
  rw [if_neg plic, if_neg mmio, if_neg clint, if_neg plic]
  by_cases ram : 0x80000000 ≤ a ∧ a ≤ 0x8003FFFF
  · rw [if_pos ram, if_pos ram]
    rfl
  rw [if_neg ram, if_neg ram]
  rfl

end Selects

/-! ## Response registers -/

/-- The data and the error flag that a response register holds. -/
def SlaveRsp.held (rsp : SlaveRsp) : Option (BitVec 32 × Bool) :=
  if rsp.valid then some (rsp.rdata, rsp.err) else none

/-- A response register without errors is a slot. -/
theorem SlaveRsp.held_next {before after : SlaveRsp} {load take : Bool}
    {answer : BitVec 32}
    (valid : after.valid =
      if load then true else if before.valid && take then false
      else before.valid)
    (rdata : after.rdata = if load then answer else before.rdata)
    (noError : before.err = false ∧ after.err = false) :
    after.held =
      slot (if load then some (answer, false) else none) take before.held := by
  obtain ⟨early, late⟩ := noError
  unfold held
  rw [valid, rdata, early, late]
  cases load with
  | true => rfl
  | false =>
      cases before.valid with
      | false => cases take <;> rfl
      | true => cases take <;> rfl

theorem RomState.held_next (s : RomState) (i : SlaveIn) :
    (s.next i).rsp.held =
      slot (if s.reqFire i && !i.req.we then some (s.answer i.req, false)
        else none) i.rspReady s.rsp.held := by
  apply SlaveRsp.held_next
  case valid =>
    unfold RomState.next rsp
    split_ifs <;> rfl
  case rdata =>
    unfold RomState.next rsp
    split_ifs <;> rfl
  case noError => exact ⟨rfl, rfl⟩

theorem RamState.held_next (s : RamState) (i : SlaveIn) :
    (s.next i).rsp.held =
      slot (if s.reqFire i then some (s.answer i.req, false) else none)
        i.rspReady s.rsp.held := by
  apply SlaveRsp.held_next
  case valid =>
    unfold RamState.next rsp
    split_ifs <;> rfl
  case rdata =>
    unfold RamState.next rsp
    split_ifs <;> rfl
  case noError => exact ⟨rfl, rfl⟩

theorem ClintState.held_next (s : ClintState) (i : SlaveIn) :
    (s.next i).rsp.held =
      slot (if s.reqFire i then some (s.answer i.req, false) else none)
        i.rspReady s.rsp.held :=
  SlaveRsp.held_next rfl rfl ⟨rfl, rfl⟩

theorem TohostState.held_next (s : TohostState) (i : SlaveIn) :
    (s.next i).rsp.held =
      slot (if s.reqFire i then some (s.answer i.req, false) else none)
        i.rspReady s.rsp.held := by
  apply SlaveRsp.held_next
  case valid =>
    unfold TohostState.next rsp
    split_ifs <;> rfl
  case rdata =>
    unfold TohostState.next rsp
    split_ifs <;> rfl
  case noError => exact ⟨rfl, rfl⟩

theorem GpioState.held_next (s : GpioState) (i : GpioIn) :
    (s.next i).rsp.held =
      slot
        (if s.reqFire i then some (s.answer i.gpioIn i.req, false) else none)
        i.rspReady s.rsp.held := by
  apply SlaveRsp.held_next
  case valid =>
    unfold GpioState.next rsp
    split_ifs <;> rfl
  case rdata =>
    unfold GpioState.next rsp
    split_ifs <;> rfl
  case noError => exact ⟨rfl, rfl⟩

theorem UartState.held_next (s : UartState) (i : SlaveIn) :
    (s.next i).rsp.held =
      slot (if s.reqFire i then some (s.answer i.req, false) else none)
        i.rspReady s.rsp.held := by
  apply SlaveRsp.held_next
  case valid =>
    unfold UartState.next rsp
    split_ifs <;> rfl
  case rdata =>
    unfold UartState.next rsp
    split_ifs <;> rfl
  case noError => exact ⟨rfl, rfl⟩

namespace PlicState

variable {n : ℕ} (s : PlicState n) (base : BitVec 32)

/-- What an accepted request leaves in `rdata_reg`: a write that matches
leaves the register as it is. -/
def answer (req : BusReq) : BitVec 32 :=
  if addrMatch base req then
    if req.we then s.rdataReg else (s.readReg (rel base req) s).rdataReg
  else 0

theorem writeReg_rsp (offset : BitVec 32) (req : BusReq) (t : PlicState n) :
    (s.writeReg offset req t).rsp = t.rsp := by
  unfold writeReg
  by_cases enable : offset = Plic.offEnable
  · rw [if_pos enable]
    rfl
  rw [if_neg enable]
  by_cases threshold : offset = Plic.offThreshold
  · rw [if_pos threshold]
    split_ifs <;> rfl
  rw [if_neg threshold]
  by_cases claim : offset = Plic.offClaim
  · rw [if_pos claim]
    split_ifs <;> rfl
  rw [if_neg claim]
  cases prioIndex n offset with
  | none => rfl
  | some idx =>
      dsimp only
      split_ifs <;> rfl

/-- The data that a read leaves in the response register does not depend on
what it held. -/
theorem readReg_rsp (offset : BitVec 32) (t : PlicState n) :
    (s.readReg offset t).rsp =
      ⟨t.pending, (s.readReg offset s).rdataReg, false⟩ := by
  unfold readReg
  split_ifs
  all_goals first
    | rfl
    | cases prioIndex n offset <;> rfl

theorem held_next (i : PlicIn n) :
    (s.next base i).rsp.held =
      slot (if s.reqFire i then some (s.answer base i.req, false) else none)
        i.rspReady s.rsp.held := by
  have unchanged : (s.next base i).rsp = (s.access base i s).rsp := rfl
  rw [unchanged]
  unfold access
  by_cases fires : s.reqFire i = true
  · rw [if_pos fires, if_pos fires, slot_some]
    unfold answer
    cases addrMatch base i.req with
    | false => rfl
    | true =>
        cases we : i.req.we with
        | true =>
            simp only [Bool.true_and, if_true]
            rw [writeReg_rsp]
            rfl
        | false =>
            simp only [Bool.true_and, Bool.false_eq_true, if_false,
              Bool.not_false, if_true]
            rw [readReg_rsp]
            rfl
  · rw [if_neg fires, if_neg fires]
    cases pending : s.pending with
    | false => simp [SlaveRsp.held, rsp, pending, slot_none_held]
    | true =>
        cases i.rspReady with
        | false => simp [SlaveRsp.held, rsp, pending]
        | true => simp [SlaveRsp.held, rsp]

end PlicState

/-! ## The devices behind their ports -/

namespace DataPath

variable (s : DataPath) (i : DataPathIn)

/-- The response channel of a device. -/
def device : Device → SlaveRsp
  | .rom => s.rom.rsp
  | .ram => s.ram.rsp
  | .tohost => s.tohost.rsp
  | .gpio => s.gpio.rsp
  | .uart => s.uart.rsp
  | .clint => s.clint.rsp
  | .plic => s.plic.rsp

/-- What a device receives in a cycle. -/
def port : Device → SlaveIn
  | .rom => s.romIn i
  | .ram => s.ramIn i
  | .tohost => s.tohostIn i
  | .gpio => (s.gpioPort i).toSlaveIn
  | .uart => s.uartIn i
  | .clint => s.clintIn i
  | .plic => (s.plicIn i).toSlaveIn

/-- What a device answers to the request of a cycle. -/
def deviceAnswer : Device → BitVec 32
  | .rom => s.rom.answer i.req
  | .ram => s.ram.answer i.req
  | .tohost => s.tohost.answer i.req
  | .gpio => s.gpio.answer i.gpioIn i.req
  | .uart => s.uart.answer i.req
  | .clint => s.clint.answer i.req
  | .plic => s.plic.answer Plic.baseAddr i.req

/-- A device is asked and ready. -/
def fires (d : Device) : Bool :=
  (s.port i d).reqValid &&
    slaveReqReady (s.device d).valid (s.port i d).rspReady

/-- A write to the instruction memory, which is accepted without a
response. -/
def romWrite : Device → Bool
  | .rom => i.req.we
  | _ => false

theorem romWrite_iff (d : Device) :
    romWrite i d = true ↔ d = .rom ∧ i.req.we = true := by
  cases d <;> simp [romWrite]

variable {i} in
theorem romWrite_of_ne {d : Device} (other : d ≠ .rom) :
    romWrite i d = false := by
  rw [← Bool.not_eq_true, romWrite_iff]
  exact fun both => other both.1

theorem device_next (d : Device) :
    ((s.next i).device d).held =
      slot
        (if s.fires i d && !romWrite i d then
          some (s.deviceAnswer i d, false)
        else none)
        (s.port i d).rspReady (s.device d).held := by
  cases d with
  | rom => exact s.rom.held_next (s.romIn i)
  | ram =>
      rw [romWrite_of_ne (by decide), Bool.not_false, Bool.and_true]
      exact s.ram.held_next (s.ramIn i)
  | tohost =>
      rw [romWrite_of_ne (by decide), Bool.not_false, Bool.and_true]
      exact s.tohost.held_next (s.tohostIn i)
  | gpio =>
      rw [romWrite_of_ne (by decide), Bool.not_false, Bool.and_true]
      exact s.gpio.held_next (s.gpioPort i)
  | uart =>
      rw [romWrite_of_ne (by decide), Bool.not_false, Bool.and_true]
      exact s.uart.held_next (s.uartIn i)
  | clint =>
      rw [romWrite_of_ne (by decide), Bool.not_false, Bool.and_true]
      exact s.clint.held_next (s.clintIn i)
  | plic =>
      rw [romWrite_of_ne (by decide), Bool.not_false, Bool.and_true]
      exact s.plic.held_next Plic.baseAddr (s.plicIn i)

end DataPath

end SisRv
