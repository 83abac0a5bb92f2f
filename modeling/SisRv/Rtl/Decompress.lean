import Mathlib.Data.BitVec

/-!
# `sisDecompress`

The RV32C expander of `rtl/core/sisDecompress.sv`.  Every case of the source
either assigns the expansion or clears `legal`; a cleared `legal` leaves the
default expansion, the NOP `0x00000013`.
-/

namespace SisRv

/-- The NOP that `expanded` is initialised to. -/
def nopInstr : BitVec 32 := 0x00000013

/-! ## Scrambled immediates -/

/-- Byte offset of C.LW and C.SW. -/
def c0LsUimm (c : BitVec 16) : BitVec 8 :=
  (((c >>> 7) &&& 0x38) ||| ((c >>> 4) &&& 0x04) |||
    ((c <<< 1) &&& 0x40)).setWidth 8

def addi4spnUimm (c : BitVec 16) : BitVec 10 :=
  (c.extractLsb' 7 4 ++ c.extractLsb' 11 2 ++ c.extractLsb' 5 1 ++
    c.extractLsb' 6 1 ++ 0#2 : BitVec 10)

/-- The signed six-bit immediate of quadrant 1. -/
def cImm6 (c : BitVec 16) : BitVec 6 :=
  (c.extractLsb' 12 1 ++ c.extractLsb' 2 5 : BitVec 6)

def addi16spUimm (c : BitVec 16) : BitVec 10 :=
  (c.extractLsb' 12 1 ++ c.extractLsb' 3 2 ++ c.extractLsb' 5 1 ++
    c.extractLsb' 2 1 ++ c.extractLsb' 6 1 ++ 0#4 : BitVec 10)

def cjImm12 (c : BitVec 16) : BitVec 12 :=
  (c.extractLsb' 12 1 ++ c.extractLsb' 8 1 ++ c.extractLsb' 9 2 ++
    c.extractLsb' 6 1 ++ c.extractLsb' 7 1 ++ c.extractLsb' 2 1 ++
    c.extractLsb' 11 1 ++ c.extractLsb' 3 3 ++ 0#1 : BitVec 12)

def cjOff (c : BitVec 16) : BitVec 21 :=
  (cjImm12 c).signExtend 21

/-- The branch offset before its sign (bit 8) is propagated; the shifts are
made at the 16 bits of the parcel. -/
def cbImmPre (c : BitVec 16) : BitVec 12 :=
  (((c >>> 4) &&& 0x100) ||| ((c <<< 1) &&& 0x0C0) |||
    ((c <<< 3) &&& 0x020) ||| ((c >>> 7) &&& 0x018) |||
    ((c >>> 2) &&& 0x006)).setWidth 12

def cbImmS (c : BitVec 16) : BitVec 12 :=
  if (cbImmPre c).getLsbD 8 then cbImmPre c - 0x200 else cbImmPre c

def cbImmExt (c : BitVec 16) : BitVec 13 :=
  (cbImmS c).signExtend 13

/-- The immediate bits of the expanded branch; a shift by an unsigned mask
makes the operands unsigned, so they are zero-extended to 32 bits. -/
def cbInsnBase (c : BitVec 16) : BitVec 32 :=
  (((cbImmExt c).setWidth 32 &&& 0x1000) <<< 19) |||
    (((cbImmS c).setWidth 32 &&& 0x7E0) <<< 20) |||
    (((cbImmS c).setWidth 32 &&& 0x01E) <<< 7) |||
    (((cbImmS c).setWidth 32 &&& 0x800) >>> 4)

def lwspUimm (c : BitVec 16) : BitVec 8 :=
  (c.extractLsb' 2 2 ++ c.extractLsb' 12 1 ++ c.extractLsb' 4 3 ++
    0#2 : BitVec 8)

def swspUimm (c : BitVec 16) : BitVec 8 :=
  (c.extractLsb' 7 2 ++ c.extractLsb' 9 4 ++ 0#2 : BitVec 8)

/-! ## Register fields -/

def cRdRs1 (c : BitVec 16) : BitVec 5 := c.extractLsb' 7 5
def cRdp (c : BitVec 16) : BitVec 5 := (0b01#2 ++ c.extractLsb' 2 3 : BitVec 5)
def cRs1p (c : BitVec 16) : BitVec 5 := (0b01#2 ++ c.extractLsb' 7 3 : BitVec 5)
def cRs2p (c : BitVec 16) : BitVec 5 := (0b01#2 ++ c.extractLsb' 2 3 : BitVec 5)
def cRs2 (c : BitVec 16) : BitVec 5 := c.extractLsb' 2 5

/-! ## The 32-bit formats the expansions are assembled in -/

def packI
    (imm : BitVec 12) (rs1 : BitVec 5) (funct3 : BitVec 3) (rd : BitVec 5)
    (opcode : BitVec 7) : BitVec 32 :=
  (imm ++ rs1 ++ funct3 ++ rd ++ opcode : BitVec 32)

def packR
    (funct7 : BitVec 7) (rs2 rs1 : BitVec 5) (funct3 : BitVec 3)
    (rd : BitVec 5) (opcode : BitVec 7) : BitVec 32 :=
  (funct7 ++ rs2 ++ rs1 ++ funct3 ++ rd ++ opcode : BitVec 32)

/-- JAL with the jump offset of C.J and C.JAL. -/
def packJ (off : BitVec 21) (rd : BitVec 5) : BitVec 32 :=
  (off.extractLsb' 20 1 ++ off.extractLsb' 1 10 ++ off.extractLsb' 11 1 ++
    off.extractLsb' 12 8 ++ rd ++ 0b1101111#7 : BitVec 32)

/-! ## The three quadrants; `none` is `legal = 0` -/

/-- Quadrant 0: C.ADDI4SPN, C.LW, C.SW. -/
def expandQuad0 (c : BitVec 16) : Option (BitVec 32) :=
  let funct3 := c.extractLsb' 13 3
  if funct3 = 0b000 then
    if addi4spnUimm c = 0 then none
    else some (packI (0b00#2 ++ addi4spnUimm c) 2 0b000 (cRdp c) 0b0010011)
  else if funct3 = 0b010 then
    some (packI ((c0LsUimm c).setWidth 12) (cRs1p c) 0b010 (cRdp c) 0b0000011)
  else if funct3 = 0b110 then
    some
      (packR (0b00000#5 ++ (c0LsUimm c).extractLsb' 5 2) (cRs2p c) (cRs1p c)
        0b010 ((c0LsUimm c).extractLsb' 0 5) 0b0100011)
  else none

/-- Quadrant 1, `funct3 = 100`: shifts, C.ANDI and the register operations. -/
def expandQuad1Alu (c : BitVec 16) : Option (BitVec 32) :=
  if c.extractLsb' 10 2 = 0b00 then
    if c.getLsbD 12 ∨ cRs2 c = 0 then none
    else some (packR 0b0000000 (cRs2 c) (cRs1p c) 0b101 (cRs1p c) 0b0010011)
  else if c.extractLsb' 10 2 = 0b01 then
    if c.getLsbD 12 ∨ cRs2 c = 0 then none
    else some (packR 0b0100000 (cRs2 c) (cRs1p c) 0b101 (cRs1p c) 0b0010011)
  else if c.extractLsb' 10 2 = 0b10 then
    some
      (packI ((cImm6 c).signExtend 12) (cRs1p c) 0b111 (cRs1p c) 0b0010011)
  else if c.getLsbD 12 then none
  else if c.extractLsb' 5 2 = 0b00 then
    some (packR 0b0100000 (cRs2p c) (cRs1p c) 0b000 (cRs1p c) 0b0110011)
  else if c.extractLsb' 5 2 = 0b01 then
    some (packR 0b0000000 (cRs2p c) (cRs1p c) 0b100 (cRs1p c) 0b0110011)
  else if c.extractLsb' 5 2 = 0b10 then
    some (packR 0b0000000 (cRs2p c) (cRs1p c) 0b110 (cRs1p c) 0b0110011)
  else some (packR 0b0000000 (cRs2p c) (cRs1p c) 0b111 (cRs1p c) 0b0110011)

/-- Quadrant 1. -/
def expandQuad1 (c : BitVec 16) : Option (BitVec 32) :=
  let funct3 := c.extractLsb' 13 3
  if funct3 = 0b000 then
    some
      (packI ((cImm6 c).signExtend 12) (cRdRs1 c) 0b000 (cRdRs1 c) 0b0010011)
  else if funct3 = 0b001 then some (packJ (cjOff c) 1)
  else if funct3 = 0b010 then
    if cRdRs1 c = 0 then
      some (packI ((cImm6 c).signExtend 12) 0 0b000 0 0b0010011)
    else some (packI ((cImm6 c).signExtend 12) 0 0b000 (cRdRs1 c) 0b0010011)
  else if funct3 = 0b011 then
    if cRdRs1 c = 2 then
      if addi16spUimm c = 0 then none
      else some (packI ((addi16spUimm c).signExtend 12) 2 0b000 2 0b0010011)
    else if cImm6 c = 0 then none
    else if cRdRs1 c = 0 then
      some ((cImm6 c).signExtend 20 ++ 0#5 ++ 0b0110111#7 : BitVec 32)
    else some ((cImm6 c).signExtend 20 ++ cRdRs1 c ++ 0b0110111#7 : BitVec 32)
  else if funct3 = 0b100 then expandQuad1Alu c
  else if funct3 = 0b101 then some (packJ (cjOff c) 0)
  else if funct3 = 0b110 then
    some
      (cbInsnBase c ||| ((cRs1p c).setWidth 32 <<< 15) |||
        ((0b000 : BitVec 32) <<< 12) ||| 0b1100011)
  else
    some
      (cbInsnBase c ||| ((cRs1p c).setWidth 32 <<< 15) |||
        ((0b001 : BitVec 32) <<< 12) ||| 0b1100011)

/-- Quadrant 2. -/
def expandQuad2 (c : BitVec 16) : Option (BitVec 32) :=
  let funct3 := c.extractLsb' 13 3
  if funct3 = 0b000 then
    if c.getLsbD 12 ∨ cRs2 c = 0 ∨ cRdRs1 c = 0 then none
    else some (packR 0b0000000 (cRs2 c) (cRdRs1 c) 0b001 (cRdRs1 c) 0b0010011)
  else if funct3 = 0b010 then
    if cRdRs1 c = 0 then none
    else some (packI ((lwspUimm c).setWidth 12) 2 0b010 (cRdRs1 c) 0b0000011)
  else if funct3 = 0b100 then
    if c.getLsbD 12 = false then
      if cRs2 c = 0 then
        if cRdRs1 c = 0 then none
        else some (packI 0x000 (cRdRs1 c) 0b000 0 0b1100111)
      else some (packR 0b0000000 (cRs2 c) 0 0b000 (cRdRs1 c) 0b0110011)
    else if cRs2 c = 0 ∧ cRdRs1 c = 0 then some 0x00100073
    else if cRs2 c = 0 then
      if cRdRs1 c = 0 then none
      else some (packI 0x000 (cRdRs1 c) 0b000 1 0b1100111)
    else
      some (packR 0b0000000 (cRs2 c) (cRdRs1 c) 0b000 (cRdRs1 c) 0b0110011)
  else if funct3 = 0b110 then
    some
      (packR (0b0000#4 ++ (swspUimm c).extractLsb' 5 3) (cRs2 c) 2 0b010
        ((swspUimm c).extractLsb' 0 5) 0b0100011)
  else none

/-- The legal expansion of a parcel, if it has one. -/
def expandParcel (c : BitVec 16) : Option (BitVec 32) :=
  let quad := c.extractLsb' 0 2
  if quad = 0b00 then expandQuad0 c
  else if quad = 0b01 then expandQuad1 c
  else if quad = 0b10 then expandQuad2 c
  else none

/-- The outputs of `sisDecompress`. -/
structure Decompressed where
  instrO : BitVec 32
  isCompressedO : Bool
  illegalO : Bool
  deriving DecidableEq, Repr

def sisDecompress (c : BitVec 16) : Decompressed :=
  { instrO := (expandParcel c).getD nopInstr
    isCompressedO := c.extractLsb' 0 2 != 0b11
    illegalO :=
      c.extractLsb' 0 2 != 0b11 && (expandParcel c).isNone }

/-- An illegal parcel is carried through the pipeline as a NOP. -/
theorem sisDecompress_instrO_of_illegal
    {c : BitVec 16} (illegal : (sisDecompress c).illegalO = true) :
    (sisDecompress c).instrO = nopInstr := by
  simp only [sisDecompress, Bool.and_eq_true,
    Option.isNone_iff_eq_none] at illegal ⊢
  rw [illegal.2]
  rfl

end SisRv
