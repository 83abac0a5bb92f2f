import Mathlib.Data.BitVec
import SisRv.Lib.HexText

/-!
# The image converter

`verification/riscof/scripts/elf2sisrv.py` writes the loadable segments of an
ELF file as hex files for the ROM and the RAM.
-/

namespace SisRv.Elf2sisrv

open HexText

def romBase : ℕ := 0x00000000

def ramBase : ℕ := 0x80000000

def ptLoad : ℕ := 1

def emRiscv : ℕ := 243

def elfClass32 : BitVec 8 := 1

def elfClass64 : BitVec 8 := 2

/-- What the script and the library functions under it raise. -/
inductive PyError
  | valueError (text : String)
  | indexError
  | structError

abbrev Bytes := List (BitVec 8)

/-- Bytes by address. -/
abbrev Dict := Std.TreeMap ℕ (BitVec 8)

/-- The two images under construction. -/
structure Dicts where
  rom : Dict
  ram : Dict

/-! ## Reading -/

/-- The little-endian number of a number of bytes. -/
def number (data : Bytes) (off size : ℕ) : ℕ :=
  Nat.ofDigits 256 (((data.drop off).take size).map BitVec.toNat)

/-- `struct.unpack_from` of one unsigned little-endian number. -/
def unpackFrom (size : ℕ) (data : Bytes) (off : ℕ) : Except PyError ℕ :=
  if off + size ≤ data.length then .ok (number data off size)
  else .error .structError

def readU16 : Bytes → ℕ → Except PyError ℕ := unpackFrom 2

def readU32 : Bytes → ℕ → Except PyError ℕ := unpackFrom 4

def readU64 : Bytes → ℕ → Except PyError ℕ := unpackFrom 8

/-- `data[off]`. -/
def byteAt (data : Bytes) (off : ℕ) : Except PyError (BitVec 8) :=
  match data[off]? with
  | some byte => .ok byte
  | none => .error .indexError

/-! ## Segments -/

namespace Dicts

variable (d : Dicts)

/-- One byte goes to the image of its region. -/
def store (addr : ℕ) (byteVal : BitVec 8) : Dicts :=
  if addr ≥ ramBase then { d with ram := d.ram.insert addr byteVal }
  else if addr ≥ romBase then { d with rom := d.rom.insert addr byteVal }
  else d

def loadBytes (data : Bytes) (pOffset pVaddr pFilesz : ℕ) : Dicts :=
  ((data.drop pOffset).take pFilesz).zipIdx.foldl
    (fun d byte => d.store (pVaddr + byte.2) byte.1) d

end Dicts

/-- One round of the loop over the program headers of a 32-bit file. -/
def loadHeader32 (data : Bytes) (ePhoff ePhentsize : ℕ) (d : Dicts)
    (idx : ℕ) : Except PyError Dicts := do
  let off := ePhoff + idx * ePhentsize
  let pType ← readU32 data off
  if pType ≠ ptLoad then
    return d
  let pOffset ← readU32 data (off + 4)
  let pVaddr ← readU32 data (off + 8)
  let pFilesz ← readU32 data (off + 16)
  return d.loadBytes data pOffset pVaddr pFilesz

/-- One round of the loop over the program headers of a 64-bit file. -/
def loadHeader64 (elfPath : String) (data : Bytes) (ePhoff ePhentsize : ℕ)
    (d : Dicts) (idx : ℕ) : Except PyError Dicts := do
  let off := ePhoff + idx * ePhentsize
  let pType ← readU32 data off
  if pType ≠ ptLoad then
    return d
  let pOffset ← readU64 data (off + 8)
  let pVaddr ← readU64 data (off + 16)
  let pFilesz ← readU64 data (off + 32)
  if pVaddr > 0xFFFFFFFF ∨ pFilesz > 0xFFFFFFFF then
    throw (.valueError
      (elfPath ++ ": segment address/size exceeds RV32 map"))
  return d.loadBytes data pOffset pVaddr pFilesz

def loadSegments (elfPath : String) (data : Bytes) :
    Except PyError Dicts := do
  if data.take 4 ≠ [0x7F, 0x45, 0x4C, 0x46] then
    throw (.valueError (elfPath ++ ": not an ELF file"))
  let elfClass ← byteAt data 4
  if elfClass ≠ elfClass32 ∧ elfClass ≠ elfClass64 then
    throw (.valueError
      (elfPath ++ ": unsupported ELF class " ++ toString elfClass.toNat))
  let machine ← readU16 data 0x12
  if machine ≠ emRiscv then
    throw (.valueError (elfPath ++ ": expected EM_RISCV machine type"))
  if elfClass = elfClass32 then
    let ePhoff ← readU32 data 0x1C
    let ePhentsize ← readU16 data 0x2A
    let ePhnum ← readU16 data 0x2C
    (List.range ePhnum).foldlM (loadHeader32 data ePhoff ePhentsize) ⟨∅, ∅⟩
  else
    let ePhoff ← readU64 data 0x20
    let ePhentsize ← readU16 data 0x36
    let ePhnum ← readU16 data 0x38
    (List.range ePhnum).foldlM
      (loadHeader64 elfPath data ePhoff ePhentsize) ⟨∅, ∅⟩

/-! ## Hex files -/

/-- `addr & ~0x3`. -/
def wordAlign (addr : ℕ) : ℕ := addr >>> 2 <<< 2

/-- The word of four consecutive bytes, absent ones as zero. -/
def wordAt (words : Dict) (addr : ℕ) : ℕ :=
  (List.range 4).foldl
    (fun word shift =>
      word ||| (words.getD (addr + shift) 0).toNat <<< (8 * shift)) 0

/-- `range(start, stop, 4)`. -/
def wordRange (start stop : ℕ) : List ℕ :=
  List.range' start ((stop - start + 3) / 4) 4

def writeHex (words : Dict) (regionBase : ℕ) : String :=
  match words.maxKey? with
  | none => ""
  | some maxAddr =>
      let startWord := wordAlign regionBase
      let endWord := wordAlign (maxAddr + 4)
      let lines := HexText.lines 8
        ((wordRange startWord endWord).map (wordAt words))
      String.ofList
        (['\n'].intercalate lines ++ if lines.isEmpty then [] else ['\n'])

/-- The two hex files. -/
def main (elfPath : String) (elf : Bytes) :
    Except PyError (String × String) := do
  let dicts ← loadSegments elfPath elf
  return (writeHex dicts.rom romBase, writeHex dicts.ram ramBase)

/-- The words that `$readmemh` loads from a hex file of the script. -/
def readmemh (text : String) : Option (List ℕ) := readLines text.toList

end SisRv.Elf2sisrv
