import SisRv.Lib.Riscv.Assembly
import SisRv.Platform.HartMemory

/-!
# The startup code

`crt0.S` copies the initialized data from the ROM to the RAM, clears the BSS,
calls `main` and, when that returns, writes 1 to the test port.
-/

namespace SisRv

open Riscv

/-! ## The text -/

/-- The symbols that `link.ld` defines, and `main`. -/
structure Link where
  dataLma : BitVec 32
  dataStart : BitVec 32
  dataEnd : BitVec 32
  bssStart : BitVec 32
  bssEnd : BitVec 32
  main : BitVec 32
  /-- `.data` and `.bss` lie in the RAM, one after the other. -/
  ordered : 0x80000000 ≤ dataStart.toNat ∧ dataStart.toNat ≤ dataEnd.toNat ∧
    dataEnd.toNat ≤ bssStart.toNat ∧ bssStart.toNat ≤ bssEnd.toNat ∧
    bssEnd.toNat ≤ 0x80040000
  /-- The image of `.data` lies in the ROM. -/
  inRom : dataLma.toNat + (dataEnd.toNat - dataStart.toNat) ≤ 0x10000
  aligned : dataLma.toNat % 4 = 0 ∧ dataStart.toNat % 4 = 0 ∧
    dataEnd.toNat % 4 = 0 ∧ bssStart.toNat % 4 = 0 ∧ bssEnd.toNat % 4 = 0

namespace Link

variable (l : Link)

/-- `ORIGIN(RAM) + LENGTH(RAM)`. -/
def stackTop : BitVec 32 := 0x80040000

def crt0 : List Line :=
  [ .la 2 stackTop,
    .la 5 l.dataLma,
    .la 6 l.dataStart,
    .la 7 l.dataEnd,
    -- 1:
    .bgeu 6 7 10,
    .lw 28 0 5,
    .sw 28 0 6,
    .addi 5 5 4,
    .addi 6 6 4,
    .j 4,
    -- 2:
    .la 5 l.bssStart,
    .la 6 l.bssEnd,
    -- 3:
    .bgeu 5 6 16,
    .sw 0 0 5,
    .addi 5 5 4,
    .j 12,
    -- 4:
    .jal 1 l.main,
    .li 10 1,
    .li 11 0x10000000,
    .sw 10 0 11,
    -- 5:
    .j 20 ]

/-- The words of `.data` and of `.bss`. -/
def dataWords : ℕ := (l.dataEnd.toNat - l.dataStart.toNat) / 4

def bssWords : ℕ := (l.bssEnd.toNat - l.bssStart.toNat) / 4

end Link

/-! ## Blocks of the RAM -/

namespace Contents

/-- The bytes from an address on are replaced. -/
def fill (c : Contents) (start : BitVec 32) (size : ℕ) (byte : ℕ → BitVec 8) :
    Contents :=
  { c with
    ram := fun x =>
      if (x - start).toNat < size then byte (x - start).toNat else c.ram x }

variable (c : Contents) {b : Backing} {start a v : BitVec 32}
  {byte : ℕ → BitVec 8} {k : ℕ}

@[simp]
theorem fill_zero : c.fill start 0 byte = c := by
  simp only [fill, Nat.not_lt_zero, if_false]

variable {c} in
theorem load_rom (isAligned : IsAligned 4 a) (inRom : a.toNat < 0x10000) :
    c.load b .lw a = some (ByteMemory.word (byteOf b.rom) a, c) := by
  have named : addressMap a = some .rom := by
    rw [addressMap, if_pos (by omega)]
  rw [load, if_pos (show IsAligned LoadOp.lw.size a from isAligned), named]
  exact if_pos inRom

variable {c} in
theorem store_ram (isAligned : IsAligned 4 a)
    (inRam : addressMap a = some .ram) :
    c.store .sw a v =
      some { c with ram := ByteMemory.write c.ram a (ByteMemory.bytes v) } := by
  rw [store, if_pos (show IsAligned StoreOp.sw.size a from isAligned), inRam]
  rfl

/-- The next word of a block. -/
theorem fill_succ (fits : 4 * (k + 1) ≤ 2 ^ 32)
    (bytes : ∀ j < 4, v.extractLsb' (8 * j) 8 = byte (4 * k + j)) :
    ByteMemory.write (c.fill start (4 * k) byte).ram
        (start + BitVec.ofNat 32 (4 * k)) (ByteMemory.bytes v) =
      (c.fill start (4 * (k + 1)) byte).ram := by
  funext x
  have offset : (x - (start + BitVec.ofNat 32 (4 * k))).toNat =
      (2 ^ 32 + (x - start).toNat - 4 * k) % 2 ^ 32 := by
    have left := x.isLt
    have right := start.isLt
    rw [BitVec.toNat_sub, BitVec.toNat_sub, BitVec.toNat_add,
      BitVec.toNat_ofNat]
    omega
  have bound := (x - start).isLt
  have whole : ByteMemory.bytes v = (ByteMemory.bytes v).take 4 := rfl
  rw [ByteMemory.write, whole, ByteMemory.getElem?_take_bytes (by decide),
    offset]
  show _ = if (x - start).toNat < 4 * (k + 1) then _ else _
  rcases Nat.lt_or_ge (x - start).toNat (4 * k) with before | after
  · rw [if_neg (by omega), if_pos (by omega)]
    exact if_pos before
  · by_cases inside : (x - start).toNat < 4 * (k + 1)
    · have place : (2 ^ 32 + (x - start).toNat - 4 * k) % 2 ^ 32 =
          (x - start).toNat - 4 * k := by omega
      rw [place, if_pos (by omega), if_pos inside, bytes _ (by omega)]
      show byte _ = byte _
      congr 1
      omega
    · rw [if_neg (by omega), if_neg inside]
      exact if_neg (by omega)

end Contents

end SisRv
