import SisRv.Fabric.Devices
import SisRv.Lib.BitField
import SisRv.Rtl.AxiLiteSlave

/-!
# The regions of the slave

The slave of the AXI path decodes addresses by its own predicates.  Outside a
part of the ROM window its map is that of the router.
-/

namespace SisRv

open Sync

/-! ## Regions -/

/-- The regions of the memory map. -/
inductive Region
  | rom
  | ram
  | clint
  | plic
  | mmio
  deriving DecidableEq

/-- The region of a device behind the router. -/
def Device.region : Device → Region
  | .rom => .rom
  | .ram => .ram
  | .clint => .clint
  | .plic => .plic
  | .tohost => .mmio
  | .gpio => .mmio
  | .uart => .mmio

/-- The part of the router's ROM window that the slave does not decode. -/
def BeyondSlaveRom (addr : BitVec 32) : Prop :=
  0x10000 ≤ addr.toNat ∧ addr.toNat < 0x200000

namespace AxiLiteSlave

variable (s : AxiLiteSlave) (i : AxiSlaveIn)

/-- The region that the slave decodes. -/
def regionOf (addr : BitVec 32) : Option Region :=
  if isRom addr then some .rom
  else if isRam addr then some .ram
  else if isClint addr then some .clint
  else if isGpio addr || isUart addr || isMmio addr then some .mmio
  else if isPlic addr then some .plic
  else none

/-- What a region answers to a read. -/
def regionRead : Region → BitVec 32 → BitVec 32
  | .rom, addr => s.rom (romWord addr)
  | .ram, addr => s.ram (ramWord addr)
  | .clint, addr => s.clintRead addr
  | .plic, addr => s.plicRead addr
  | .mmio, addr =>
      if isGpio addr then s.gpioRead i addr
      else if isUart addr then s.uartRead addr
      else s.lastCode

/-- What a region does with the write that is executed. -/
def regionWrite : Region → AxiLiteSlave → AxiLiteSlave
  | .rom, t => t
  | .ram, t => s.writeRam t
  | .clint, t => s.writeClint t
  | .plic, t => s.writePlic t
  | .mmio, t => s.writeUart (s.writeGpio (s.writeTohost t))

section Decode

variable (addr : BitVec 32)

theorem isRom_iff : isRom addr = true ↔ addr.toNat < 0x10000 := by
  have digit := field_beq_iff addr 16 16 0 (by decide)
  have bound := addr.isLt
  rw [isRom]
  refine digit.trans ?_
  omega

theorem isRam_iff :
    isRam addr = true ↔
      0x80000000 ≤ addr.toNat ∧ addr.toNat ≤ 0x8003FFFF := by
  have digit := field_beq_iff addr 18 14 0x2000 (by decide)
  have bound := addr.isLt
  rw [isRam]
  refine digit.trans ?_
  omega

theorem isMmio_iff :
    isMmio addr = true ↔
      0x10000000 ≤ addr.toNat ∧ addr.toNat ≤ 0x1000FFFF := by
  have digit := field_beq_iff addr 16 16 0x1000 (by decide)
  have bound := addr.isLt
  rw [isMmio]
  refine digit.trans ?_
  omega

theorem isClint_iff :
    isClint addr = true ↔
      0x02000000 ≤ addr.toNat ∧ addr.toNat ≤ 0x0200FFFF := by
  have digit := field_beq_iff addr 16 16 0x200 (by decide)
  have bound := addr.isLt
  rw [isClint]
  refine digit.trans ?_
  omega

theorem isPlic_iff :
    isPlic addr = true ↔
      0x0C000000 ≤ addr.toNat ∧ addr.toNat ≤ 0x0C3FFFFF := by
  have digit := field_beq_iff addr 22 10 0x30 (by decide)
  have bound := addr.isLt
  rw [isPlic]
  refine digit.trans ?_
  omega

theorem isGpio_iff :
    isGpio addr = true ↔
      0x10003000 ≤ addr.toNat ∧ addr.toNat ≤ 0x1000301F := by
  have digit := field_beq_iff addr 5 27 0x0800180 (by decide)
  have bound := addr.isLt
  rw [isGpio]
  refine digit.trans ?_
  omega

theorem isUart_iff :
    isUart addr = true ↔
      0x10004000 ≤ addr.toNat ∧ addr.toNat ≤ 0x1000401F := by
  have digit := field_beq_iff addr 5 27 0x0800200 (by decide)
  have bound := addr.isLt
  rw [isUart]
  refine digit.trans ?_
  omega

theorem respOf_iff : (respOf addr != 0) = true ↔ regionOf addr = none := by
  unfold respOf regionOf
  cases isRom addr <;> cases isRam addr <;> cases isClint addr <;>
    cases isGpio addr <;> cases isUart addr <;> cases isMmio addr <;>
    cases isPlic addr <;> decide

theorem regionOf_of_beyond {addr : BitVec 32} (beyond : BeyondSlaveRom addr) :
    regionOf addr = none := by
  obtain ⟨above, below⟩ := beyond
  unfold regionOf
  simp only [Bool.or_eq_true, isRom_iff, isRam_iff, isMmio_iff, isClint_iff,
    isPlic_iff, isGpio_iff, isUart_iff]
  split_ifs <;> first | rfl | omega

variable {addr} in
/-- An address in the window of the CLINT is its offset there. -/
theorem eq_of_isClint {low : BitVec 16} (clint : isClint addr = true)
    (offset : addr.extractLsb' 0 16 = low) : addr = 0x0200#16 ++ low :=
  BitField.eq_append (beq_iff_eq.mp clint) offset

variable {addr} in
theorem eq_of_isGpio {low : BitVec 5} (gpio : isGpio addr = true)
    (offset : addr.extractLsb' 0 5 = low) : addr = 0x0800180#27 ++ low :=
  BitField.eq_append (beq_iff_eq.mp gpio) offset

variable {addr} in
theorem eq_of_isUart {low : BitVec 5} (uart : isUart addr = true)
    (offset : addr.extractLsb' 0 5 = low) : addr = 0x0800200#27 ++ low :=
  BitField.eq_append (beq_iff_eq.mp uart) offset

/-- Outside the rest of the ROM window the two maps agree. -/
theorem regionOf_eq {addr : BitVec 32} (within : ¬ BeyondSlaveRom addr) :
    regionOf addr = (addressMap addr).map Device.region := by
  unfold BeyondSlaveRom at within
  unfold regionOf addressMap
  simp only [Bool.or_eq_true, isRom_iff, isRam_iff, isMmio_iff, isClint_iff,
    isPlic_iff, isGpio_iff, isUart_iff]
  generalize addr.toNat = a at within
  split_ifs <;> first | rfl | omega

/-- The windows that the write arms test. -/
theorem windows_of_region {addr : BitVec 32} {region : Option Region}
    (decodes : regionOf addr = region) :
    (isRam addr = true ↔ region = some .ram) ∧
      (isClint addr = true ↔ region = some .clint) ∧
      (isPlic addr = true ↔ region = some .plic) ∧
      ((isGpio addr = true ∨ isUart addr = true) ∨ isMmio addr = true ↔
        region = some .mmio) := by
  subst decodes
  unfold regionOf
  simp only [Bool.or_eq_true, isRom_iff, isRam_iff, isMmio_iff, isClint_iff,
    isPlic_iff, isGpio_iff, isUart_iff]
  generalize addr.toNat = a
  refine ⟨?_, ?_, ?_, ?_⟩ <;> split_ifs <;>
    simp only [Option.some.injEq, reduceCtorEq, iff_false, iff_true] <;> omega

theorem memRead_of_region {addr : BitVec 32} {region : Region}
    (decodes : regionOf addr = some region) :
    s.memRead i addr = s.regionRead i region addr := by
  unfold regionOf at decodes
  split_ifs at decodes with rom ram clint mmio plic
  · obtain rfl := Option.some.inj decodes
    simp [memRead, regionRead, rom]
  · obtain rfl := Option.some.inj decodes
    simp [memRead, regionRead, rom, ram]
  · obtain rfl := Option.some.inj decodes
    simp [memRead, regionRead, rom, ram, clint]
  · obtain rfl := Option.some.inj decodes
    by_cases gpio : isGpio addr = true
    · simp [memRead, regionRead, rom, ram, clint, gpio]
    · by_cases uart : isUart addr = true
      · simp [memRead, regionRead, rom, ram, clint, gpio, uart]
      · have tohost : isMmio addr = true := by simpa [gpio, uart] using mmio
        simp [memRead, regionRead, rom, ram, clint, gpio, uart, tohost]
  · obtain rfl := Option.some.inj decodes
    simp only [Bool.or_eq_true, not_or] at mmio
    simp [memRead, regionRead, rom, ram, clint, mmio, plic]

variable {s} (t : AxiLiteSlave)

theorem writeRam_outside (out : isRam s.wrAddrReg = false) :
    s.writeRam t = t := by
  rw [writeRam, out, if_neg Bool.false_ne_true]

theorem writeClint_outside (out : isClint s.wrAddrReg = false) :
    s.writeClint t = t := by
  rw [writeClint, out]
  exact if_neg Bool.false_ne_true

theorem writePlic_outside (out : isPlic s.wrAddrReg = false) :
    s.writePlic t = t := by
  rw [writePlic, out]
  exact if_neg Bool.false_ne_true

theorem writeTohost_outside (out : isMmio s.wrAddrReg = false) :
    s.writeTohost t = t := by
  rw [writeTohost, out, Bool.false_and, if_neg Bool.false_ne_true]

theorem writeGpio_outside (out : isGpio s.wrAddrReg = false) :
    s.writeGpio t = t := by
  rw [writeGpio, out]
  exact if_neg Bool.false_ne_true

theorem writeUart_outside (out : isUart s.wrAddrReg = false) :
    s.writeUart t = t := by
  rw [writeUart, out]
  exact if_neg Bool.false_ne_true

/-- A write acts on the region that is decoded, and on no other. -/
theorem execWrite_of_region {region : Region}
    (decodes : regionOf s.wrAddrReg = some region) :
    s.execWrite t = s.regionWrite region t := by
  obtain ⟨ram, clint, plic, mmio⟩ := windows_of_region decodes
  unfold execWrite
  cases region with
  | mmio =>
      simp only [Option.some.injEq, reduceCtorEq, iff_false,
        Bool.not_eq_true] at ram clint plic
      rw [writeRam_outside _ ram, writeClint_outside _ clint,
        writePlic_outside _ plic]
      rfl
  | rom =>
      simp only [Option.some.injEq, reduceCtorEq, iff_false, not_or,
        Bool.not_eq_true] at ram clint plic mmio
      rw [writeRam_outside _ ram, writeTohost_outside _ mmio.2,
        writeClint_outside _ clint, writeGpio_outside _ mmio.1.1,
        writeUart_outside _ mmio.1.2, writePlic_outside _ plic]
      rfl
  | ram =>
      simp only [Option.some.injEq, reduceCtorEq, iff_false, not_or,
        Bool.not_eq_true] at clint plic mmio
      rw [writeTohost_outside _ mmio.2, writeClint_outside _ clint,
        writeGpio_outside _ mmio.1.1, writeUart_outside _ mmio.1.2,
        writePlic_outside _ plic]
      rfl
  | clint =>
      simp only [Option.some.injEq, reduceCtorEq, iff_false, not_or,
        Bool.not_eq_true] at ram plic mmio
      rw [writeRam_outside _ ram, writeTohost_outside _ mmio.2,
        writeGpio_outside _ mmio.1.1, writeUart_outside _ mmio.1.2,
        writePlic_outside _ plic]
      rfl
  | plic =>
      simp only [Option.some.injEq, reduceCtorEq, iff_false, not_or,
        Bool.not_eq_true] at ram clint mmio
      rw [writeRam_outside _ ram, writeTohost_outside _ mmio.2,
        writeClint_outside _ clint, writeGpio_outside _ mmio.1.1,
        writeUart_outside _ mmio.1.2]
      rfl

theorem execWrite_of_none (decodes : regionOf s.wrAddrReg = none) :
    s.execWrite t = t := by
  obtain ⟨ram, clint, plic, mmio⟩ := windows_of_region decodes
  simp only [reduceCtorEq, iff_false, not_or,
    Bool.not_eq_true] at ram clint plic mmio
  rw [execWrite, writeRam_outside _ ram, writeTohost_outside _ mmio.2,
    writeClint_outside _ clint, writeGpio_outside _ mmio.1.1,
    writeUart_outside _ mmio.1.2, writePlic_outside _ plic]

end Decode

end AxiLiteSlave

end SisRv
