import SisRv.Axi.Slave
import SisRv.Fabric.DeviceModel
import SisRv.Fabric.Regions

/-!
# The devices of the slave

Every cycle of the AXI slave is an access to the devices as their user sees
them, or changes none of them.
-/

namespace SisRv

namespace AxiLiteSlave

variable (s : AxiLiteSlave) (stallRate : ℤ) (i : AxiSlaveIn)

/-- The byte that goes out in this cycle. -/
def sends : Option (BitVec 8) :=
  if s.uartTxValid then some s.uartTxData else none

/-- The devices, with the bytes sent before this cycle. -/
def devices (before : List (BitVec 8)) : DeviceState where
  pass := s.pass
  fail := s.fail
  lastCode := s.lastCode
  msip := s.msipReg
  mtimecmpLow := s.mtimecmp.extractLsb' 0 32
  mtimecmpHigh := s.mtimecmp.extractLsb' 32 32
  gpioOut := s.gpioOut
  gpioOe := s.gpioOe
  uartCtrl := s.uartCtrl
  uartBauddiv := s.uartBauddiv
  uartLastTx := s.uartLastTx
  uartRxData := s.uartRxData
  uartRxValid := s.uartRxValid
  sent := before ++ s.sends.toList

/-- The access that the slave performs in this cycle. -/
def performs : Option BusReq :=
  if s.wrState = .exec then
    some ⟨s.wrAddrReg, true, s.wrDataReg, s.wrStrbReg⟩
  else (s.reads stallRate i).map fun addr => ⟨addr, false, 0, 0⟩

variable {s stallRate i} {before : List (BitVec 8)}

theorem devices_reset (rom : BitVec 19 → BitVec 32)
    (ram : BitVec 16 → BitVec 32) (mtime : BitVec 64) :
    (reset rom ram mtime).devices [] = DeviceState.reset := by
  have low : (reset rom ram mtime).mtimecmp.extractLsb' 0 32 = 0xFFFFFFFF := by
    change BitVec.extractLsb' 0 32 0xFFFFFFFFFFFFFFFF#64 = _
    decide
  have high :
      (reset rom ram mtime).mtimecmp.extractLsb' 32 32 = 0xFFFFFFFF := by
    change BitVec.extractLsb' 32 32 0xFFFFFFFFFFFFFFFF#64 = _
    decide
  rw [devices, low, high]
  rfl

section Frame

variable (t : AxiLiteSlave)

theorem readStep_devices :
    (s.readStep stallRate i t).devices before = t.devices before := by
  unfold readStep
  cases s.rdState <;> dsimp only <;> split_ifs <;> rfl

theorem plicStep_devices :
    (s.plicStep stallRate i t).devices before = t.devices before := by
  unfold plicStep
  dsimp only
  split_ifs <;> rfl

theorem writeStep_devices :
    (s.writeStep stallRate i t).devices before =
      if s.wrState = .exec then (s.execWrite t).devices before
      else t.devices before := by
  unfold writeStep
  cases s.wrState <;> dsimp only <;> split_ifs <;> first | rfl | contradiction

theorem next_devices :
    (s.next stallRate i).devices before =
      if s.wrState = .exec then
        (s.execWrite (s.tick stallRate i)).devices before
      else (s.tick stallRate i).devices before := by
  calc (s.next stallRate i).devices before
      = (s.plicStep stallRate i (s.readStep stallRate i
          (s.writeStep stallRate i (s.tick stallRate i)))).devices before := rfl
    _ = (s.writeStep stallRate i (s.tick stallRate i)).devices before := by
        rw [plicStep_devices, readStep_devices]
    _ = _ := writeStep_devices _

end Frame

/-! ### Reads -/

theorem isUart_rxdata_iff (addr : BitVec 32) :
    (isUart addr && addr.extractLsb' 0 5 == 0x04) = true ↔
      addr = DeviceReg.addr .uartRxdata := by
  constructor
  · intro both
    rw [Bool.and_eq_true] at both
    exact eq_of_isUart both.1 (beq_iff_eq.mp both.2)
  · rintro rfl
    rfl

theorem tick_devices :
    (s.tick stallRate i).devices (before ++ s.sends.toList) =
      { s.devices before with
        uartRxValid := s.uartRxValid && !s.readsRxdata stallRate i } := by
  simp [devices, tick, sends]

theorem readsRxdata_of_none (none : s.reads stallRate i = none) :
    s.readsRxdata stallRate i = false := by
  rw [readsRxdata, none]

variable (before) in
theorem tick_of_none (none : s.reads stallRate i = none) :
    (s.tick stallRate i).devices (before ++ s.sends.toList) =
      s.devices before := by
  rw [tick_devices, readsRxdata_of_none none, Bool.not_false, Bool.and_true]
  rfl

theorem tick_of_read {addr : BitVec 32}
    (reads : s.reads stallRate i = some addr) :
    (s.tick stallRate i).devices (before ++ s.sends.toList) =
      (s.devices before).access ⟨addr, false, 0, 0⟩ := by
  have rxdata : s.readsRxdata stallRate i =
      (isUart addr && addr.extractLsb' 0 5 == 0x04) := by
    rw [readsRxdata, reads]
  rw [tick_devices, rxdata, DeviceState.access]
  cases found : DeviceReg.find addr with
  | none =>
      have other : (isUart addr && addr.extractLsb' 0 5 == 0x04) = false := by
        rw [← Bool.not_eq_true, isUart_rxdata_iff]
        exact DeviceReg.ne_of_find found _
      rw [other, Bool.not_false, Bool.and_true]
      rfl
  | some reg =>
      obtain rfl := DeviceReg.eq_of_find found
      cases reg
      case uartRxdata =>
        rw [(isUart_rxdata_iff _).mpr rfl, Bool.not_true, Bool.and_false]
        rfl
      all_goals
        rw [show (isUart _ && _ == _) = false from rfl, Bool.not_false,
          Bool.and_true]
        rfl

/-! ### Writes -/

/-- A write beside the registers of the CLINT. -/
theorem writeClint_of_ne (t : AxiLiteSlave)
    (other : ∀ reg, s.wrAddrReg ≠ DeviceReg.addr reg) :
    s.writeClint t = t := by
  unfold writeClint
  dsimp only
  split_ifs with clint msip _ low high
  · exact absurd (eq_of_isClint clint msip) (other .msip)
  · rfl
  · exact absurd (eq_of_isClint clint low) (other .mtimecmpLow)
  · exact absurd (eq_of_isClint clint high) (other .mtimecmpHigh)
  · rfl
  · rfl

theorem writeTohost_of_ne (t : AxiLiteSlave)
    (other : s.wrAddrReg ≠ 0x10000000) : s.writeTohost t = t := by
  unfold writeTohost
  rw [beq_eq_false_iff_ne.mpr other, Bool.and_false,
    if_neg Bool.false_ne_true]

theorem writeGpio_of_ne (t : AxiLiteSlave)
    (other : ∀ reg, s.wrAddrReg ≠ DeviceReg.addr reg) :
    s.writeGpio t = t := by
  unfold writeGpio
  dsimp only
  split_ifs with gpio data dir set clr
  · exact absurd (eq_of_isGpio gpio data) (other .gpioData)
  · exact absurd (eq_of_isGpio gpio dir) (other .gpioDir)
  · exact absurd (eq_of_isGpio gpio set) (other .gpioSet)
  · exact absurd (eq_of_isGpio gpio clr) (other .gpioClr)
  · rfl
  · rfl

theorem writeUart_of_ne (t : AxiLiteSlave)
    (other : ∀ reg, s.wrAddrReg ≠ DeviceReg.addr reg) :
    s.writeUart t = t := by
  by_cases uart : isUart s.wrAddrReg = true
  · have txdata : s.wrAddrReg.extractLsb' 0 5 ≠ 0x00 := fun named =>
      other .uartTxdata (eq_of_isUart uart named)
    have ctrl : s.wrAddrReg.extractLsb' 0 5 ≠ 0x0C := fun named =>
      other .uartCtrl (eq_of_isUart uart named)
    have bauddiv : s.wrAddrReg.extractLsb' 0 5 ≠ 0x10 := fun named =>
      other .uartBauddiv (eq_of_isUart uart named)
    unfold writeUart
    dsimp only
    rw [if_pos uart, if_neg txdata, if_neg ctrl, if_neg bauddiv]
  · exact writeUart_outside t (by simpa using uart)

theorem writeRam_devices (t : AxiLiteSlave) :
    (s.writeRam t).devices before = t.devices before := by
  unfold writeRam
  split_ifs <;> rfl

theorem writePlic_devices (t : AxiLiteSlave) :
    (s.writePlic t).devices before = t.devices before := by
  unfold writePlic
  dsimp only
  cases PlicState.prioIndex 8 (plicRel s.wrAddrReg) <;> dsimp only <;>
    split_ifs <;> rfl

/-- A write beside the registers changes no device. -/
theorem execWrite_of_find_none (t : AxiLiteSlave)
    (found : DeviceReg.find s.wrAddrReg = none) :
    (s.execWrite t).devices before = t.devices before := by
  have other := DeviceReg.ne_of_find found
  rw [execWrite, writePlic_devices, writeUart_of_ne _ other,
    writeGpio_of_ne _ other, writeClint_of_ne _ other,
    writeTohost_of_ne _ (other .tohost), writeRam_devices]

theorem devices_mtimecmp (t : AxiLiteSlave) (high low : BitVec 32) :
    devices { t with mtimecmp := (high ++ low : BitVec 64) } before =
      { t.devices before with mtimecmpLow := low, mtimecmpHigh := high } := by
  have lower : (high ++ low : BitVec 64).extractLsb' 0 32 = low :=
    BitVec.extractLsb'_append_eq_right
  have upper : (high ++ low : BitVec 64).extractLsb' 32 32 = high :=
    BitVec.extractLsb'_append_eq_left
  simp only [devices, lower, upper]
  rfl

section Registers

variable {reg : DeviceReg} (none : s.reads stallRate i = none)
  (place : s.wrAddrReg = reg.addr)
include none place

theorem writeTohost_tick (owner : reg.device = .tohost) :
    (s.writeTohost (s.tick stallRate i)).devices (before ++ s.sends.toList) =
      (s.devices before).write s.wrDataReg s.wrStrbReg reg := by
  rw [← tick_of_none before none]
  unfold writeTohost
  rw [place]
  cases reg <;> cases owner
  rfl

theorem writeClint_tick (owner : reg.device = .clint) :
    (s.writeClint (s.tick stallRate i)).devices (before ++ s.sends.toList) =
      (s.devices before).write s.wrDataReg s.wrStrbReg reg := by
  rw [← tick_of_none before none]
  unfold writeClint
  dsimp only
  rw [place]
  cases reg <;> cases owner
  case msip.refl =>
    rw [if_pos (by rfl), if_pos (by rfl), DeviceState.write]
    split_ifs <;> rfl
  case mtimecmpLow.refl =>
    rw [if_pos (by rfl), if_neg (by decide), if_pos (by rfl),
      devices_mtimecmp]
    rfl
  case mtimecmpHigh.refl =>
    rw [if_pos (by rfl), if_neg (by decide), if_neg (by decide),
      if_pos (by rfl), devices_mtimecmp]
    rfl

theorem writeGpio_tick (owner : reg.device = .gpio) :
    (s.writeGpio (s.tick stallRate i)).devices (before ++ s.sends.toList) =
      (s.devices before).write s.wrDataReg s.wrStrbReg reg := by
  rw [← tick_of_none before none]
  unfold writeGpio
  dsimp only
  rw [place]
  cases reg <;> cases owner <;> rfl

theorem writeUart_tick (owner : reg.device = .uart) :
    (s.writeUart (s.tick stallRate i)).devices (before ++ s.sends.toList) =
      (s.devices before).write s.wrDataReg s.wrStrbReg reg := by
  have ticked := tick_of_none before none
  have quiet := readsRxdata_of_none none
  unfold writeUart
  dsimp only
  rw [place]
  cases reg <;> cases owner
  case uartTxdata.refl =>
    -- The byte is sent in the next cycle, and with loopback also received.
    rw [if_pos (by rfl), if_pos (by rfl)]
    change _ = if s.wrStrbReg.getLsbD 0 && s.uartCtrl.getLsbD 0 then _ else _
    by_cases transmits : (s.wrStrbReg.getLsbD 0 && s.uartCtrl.getLsbD 0) = true
    · rw [if_pos transmits, if_pos transmits]
      cases loopback : s.uartCtrl.getLsbD 1 <;>
        simp only [devices, DeviceState.send, sends, tick, quiet, loopback,
          Bool.false_eq_true, if_false, if_true, Bool.not_false, Bool.and_true,
          Bool.false_or, Bool.true_or, Option.toList]
    · rw [if_neg transmits, if_neg transmits]
      exact ticked
  all_goals
    rw [← ticked]
    rfl

end Registers

/-- How the slave decodes a register. -/
theorem decode_addr (reg : DeviceReg) :
    regionOf reg.addr =
        some (if reg.device = .clint then .clint else .mmio) ∧
      (reg.addr == 0x10000000) = decide (reg.device = .tohost) ∧
      isGpio reg.addr = decide (reg.device = .gpio) ∧
      isUart reg.addr = decide (reg.device = .uart) := by
  cases reg <;> exact ⟨rfl, rfl, rfl, rfl⟩

theorem execWrite_of_find {reg : DeviceReg}
    (place : s.wrAddrReg = reg.addr) (none : s.reads stallRate i = none) :
    (s.execWrite (s.tick stallRate i)).devices (before ++ s.sends.toList) =
      (s.devices before).write s.wrDataReg s.wrStrbReg reg := by
  obtain ⟨region, tohost, gpio, uart⟩ := decode_addr reg
  rw [← place] at region tohost gpio uart
  rw [execWrite_of_region _ region]
  cases owner : reg.device with
  | clint => exact writeClint_tick none place owner
  | tohost =>
      rw [owner] at gpio uart
      rw [if_neg (by simp), regionWrite, writeUart_outside _ uart,
        writeGpio_outside _ gpio]
      exact writeTohost_tick none place owner
  | gpio =>
      rw [owner] at tohost uart
      rw [if_neg (by simp), regionWrite, writeUart_outside _ uart,
        writeTohost_of_ne _ (beq_eq_false_iff_ne.mp tohost)]
      exact writeGpio_tick none place owner
  | uart =>
      rw [owner] at tohost gpio
      rw [if_neg (by simp), regionWrite, writeGpio_outside _ gpio,
        writeTohost_of_ne _ (beq_eq_false_iff_ne.mp tohost)]
      exact writeUart_tick none place owner
  | rom | ram | plic => cases reg <;> cases owner

theorem devices_of_exec (none : s.reads stallRate i = none) :
    (s.execWrite (s.tick stallRate i)).devices (before ++ s.sends.toList) =
      (s.devices before).access
        ⟨s.wrAddrReg, true, s.wrDataReg, s.wrStrbReg⟩ := by
  rw [DeviceState.access]
  cases found : DeviceReg.find s.wrAddrReg with
  | none => rw [execWrite_of_find_none _ found, tick_of_none before none]
  | some reg => exact execWrite_of_find (DeviceReg.eq_of_find found) none

/-- A cycle of the slave is an access to its devices or changes none. -/
theorem devices_next
    (alone : s.wrState = .exec → s.reads stallRate i = none) :
    (s.next stallRate i).devices (before ++ s.sends.toList) =
      (s.performs stallRate i).elim (s.devices before)
        (s.devices before).access := by
  rw [next_devices, performs]
  by_cases exec : s.wrState = .exec
  · rw [if_pos exec, if_pos exec]
    exact devices_of_exec (alone exec)
  · rw [if_neg exec, if_neg exec]
    cases reads : s.reads stallRate i with
    | none => exact tick_of_none before reads
    | some addr => exact tick_of_read reads

/-! ### Answers -/

section Beside

variable {addr : BitVec 32} (other : ∀ reg, addr ≠ DeviceReg.addr reg)
include other

theorem gpioRead_beside (gpio : isGpio addr = true) :
    s.gpioRead i addr = 0 := by
  unfold gpioRead
  dsimp only
  rw [if_neg fun named => other .gpioData (eq_of_isGpio gpio named),
    if_neg fun named => other .gpioDir (eq_of_isGpio gpio named),
    if_neg fun named => other .gpioIn (eq_of_isGpio gpio named)]

theorem uartRead_beside (uart : isUart addr = true) :
    s.uartRead addr = 0 := by
  unfold uartRead
  dsimp only
  rw [if_neg fun named => other .uartTxdata (eq_of_isUart uart named),
    if_neg fun named => other .uartRxdata (eq_of_isUart uart named),
    if_neg fun named => other .uartStatus (eq_of_isUart uart named),
    if_neg fun named => other .uartCtrl (eq_of_isUart uart named),
    if_neg fun named => other .uartBauddiv (eq_of_isUart uart named)]

/-- Beside its registers, and away from `mtime`. -/
theorem clintRead_beside (clint : isClint addr = true)
    (low : addr.toNat ≤ 0x02004007) : s.clintRead addr = 0 := by
  have mtime : addr ≠ 0x0200BFF8 := by
    rintro rfl
    exact absurd low (by decide)
  have mtimeHigh : addr ≠ 0x0200BFFC := by
    rintro rfl
    exact absurd low (by decide)
  unfold clintRead
  dsimp only
  rw [if_neg fun named => other .msip (eq_of_isClint clint named),
    if_neg fun named => other .mtimecmpLow (eq_of_isClint clint named),
    if_neg fun named => other .mtimecmpHigh (eq_of_isClint clint named),
    if_neg fun named => mtime (eq_of_isClint clint named),
    if_neg fun named => mtimeHigh (eq_of_isClint clint named)]

end Beside

variable (before) in
/-- The slave answers a read as the user of its devices expects. -/
theorem memRead_of_common {addr : BitVec 32} (common : Common addr) :
    s.memRead i addr = (s.devices before).answer i.gpioIn addr := by
  unfold DeviceState.answer
  cases found : DeviceReg.find addr with
  | some reg =>
      obtain rfl := DeviceReg.eq_of_find found
      cases reg <;> rfl
  | none =>
      have other := DeviceReg.ne_of_find found
      have gpio := isGpio_iff addr
      have uart := isUart_iff addr
      obtain ⟨-, clintRegion, -, mmioRegion⟩ :=
        windows_of_region (rfl : regionOf addr = _)
      dsimp only
      rcases common with inGpio | inUart | inTohost | inClint | inClint
      · have decodes := gpio.mpr inGpio
        rw [memRead_of_region _ _ (mmioRegion.mp (.inl (.inl decodes))),
          regionRead, if_pos decodes, gpioRead_beside other decodes,
          if_neg (by omega)]
      · have decodes := uart.mpr inUart
        rw [memRead_of_region _ _ (mmioRegion.mp (.inl (.inr decodes))),
          regionRead, if_neg (by rw [gpio]; omega), if_pos decodes,
          uartRead_beside other decodes, if_neg (by omega)]
      · have decodes := (isMmio_iff addr).mpr (by omega)
        rw [memRead_of_region _ _ (mmioRegion.mp (.inr decodes)),
          regionRead, if_neg (by rw [gpio]; omega),
          if_neg (by rw [uart]; omega), if_pos inTohost]
        rfl
      all_goals
        have decodes := (isClint_iff addr).mpr (by omega)
        rw [memRead_of_region _ _ (clintRegion.mp decodes), regionRead,
          clintRead_beside other decodes (by omega), if_neg (by omega)]

end AxiLiteSlave

end SisRv
