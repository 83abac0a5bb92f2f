import SisRv.Lib.BitField

/-!
# RISC-V instructions and their encodings

The 32-bit instructions of RV32IMA, Zicsr, Zifencei and machine mode.  An
offset of a branch or a jump is kept without its bit 0, which is zero.
-/

namespace SisRv.Riscv

/-! ## Instructions -/

inductive BranchOp where
  | beq | bne | blt | bge | bltu | bgeu
  deriving DecidableEq, Repr

inductive LoadOp where
  | lb | lh | lw | lbu | lhu
  deriving DecidableEq, Repr

inductive StoreOp where
  | sb | sh | sw
  deriving DecidableEq, Repr

/-- The operations with a 12-bit immediate. -/
inductive ImmOp where
  | addi | slti | sltiu | xori | ori | andi
  deriving DecidableEq, Repr

/-- The operations with a shift amount. -/
inductive ShiftOp where
  | slli | srli | srai
  deriving DecidableEq, Repr

inductive RegOp where
  | add | sub | sll | slt | sltu | xor | srl | sra | or | and
  deriving DecidableEq, Repr

inductive MulOp where
  | mul | mulh | mulhsu | mulhu | div | divu | rem | remu
  deriving DecidableEq, Repr

inductive AmoOp where
  | swap | add | xor | and | or | min | max | minu | maxu
  deriving DecidableEq, Repr

inductive CsrOp where
  | rw | rs | rc | rwi | rsi | rci
  deriving DecidableEq, Repr

/-- The instructions that compute, jump, load or store. -/
inductive Base where
  | lui (rd : BitVec 5) (imm : BitVec 20)
  | auipc (rd : BitVec 5) (imm : BitVec 20)
  | jal (rd : BitVec 5) (offset : BitVec 20)
  | jalr (rd rs1 : BitVec 5) (imm : BitVec 12)
  | branch (op : BranchOp) (rs1 rs2 : BitVec 5) (offset : BitVec 12)
  | load (op : LoadOp) (rd rs1 : BitVec 5) (imm : BitVec 12)
  | store (op : StoreOp) (rs1 rs2 : BitVec 5) (imm : BitVec 12)
  | opImm (op : ImmOp) (rd rs1 : BitVec 5) (imm : BitVec 12)
  | shiftImm (op : ShiftOp) (rd rs1 shamt : BitVec 5)
  | opReg (op : RegOp) (rd rs1 rs2 : BitVec 5)
  deriving DecidableEq, Repr

inductive Instr where
  | base (i : Base)
  | fence (fields : BitVec 12) (rd rs1 : BitVec 5)
  | fencei
  | ecall
  | ebreak
  | mret
  | wfi
  | csr (op : CsrOp) (rd field : BitVec 5) (addr : BitVec 12)
  | mul (op : MulOp) (rd rs1 rs2 : BitVec 5)
  | lr (aq rl : Bool) (rd rs1 : BitVec 5)
  | sc (aq rl : Bool) (rd rs1 rs2 : BitVec 5)
  | amo (op : AmoOp) (aq rl : Bool) (rd rs1 rs2 : BitVec 5)
  deriving DecidableEq, Repr

/-! ## Formats -/

def rType
    (funct7 : BitVec 7) (rs2 rs1 : BitVec 5) (funct3 : BitVec 3)
    (rd : BitVec 5) (opcode : BitVec 7) : BitVec 32 :=
  funct7 ++ rs2 ++ rs1 ++ funct3 ++ rd ++ opcode

def iType
    (imm : BitVec 12) (rs1 : BitVec 5) (funct3 : BitVec 3) (rd : BitVec 5)
    (opcode : BitVec 7) : BitVec 32 :=
  imm ++ rs1 ++ funct3 ++ rd ++ opcode

def sType
    (imm : BitVec 12) (rs2 rs1 : BitVec 5) (funct3 : BitVec 3)
    (opcode : BitVec 7) : BitVec 32 :=
  imm.extractLsb' 5 7 ++ rs2 ++ rs1 ++ funct3 ++ imm.extractLsb' 0 5 ++
    opcode

/-- Bit `k` of the field is bit `k + 1` of the offset. -/
def bType
    (offset : BitVec 12) (rs2 rs1 : BitVec 5) (funct3 : BitVec 3)
    (opcode : BitVec 7) : BitVec 32 :=
  offset.extractLsb' 11 1 ++ offset.extractLsb' 4 6 ++ rs2 ++ rs1 ++
    funct3 ++ offset.extractLsb' 0 4 ++ offset.extractLsb' 10 1 ++ opcode

def uType
    (imm : BitVec 20) (rd : BitVec 5) (opcode : BitVec 7) : BitVec 32 :=
  imm ++ rd ++ opcode

/-- Bit `k` of the field is bit `k + 1` of the offset. -/
def jType
    (offset : BitVec 20) (rd : BitVec 5) (opcode : BitVec 7) : BitVec 32 :=
  offset.extractLsb' 19 1 ++ offset.extractLsb' 0 10 ++
    offset.extractLsb' 10 1 ++ offset.extractLsb' 11 8 ++ rd ++ opcode

/-! ## Codes of the operations -/

def BranchOp.funct3 : BranchOp → BitVec 3
  | beq => 0b000
  | bne => 0b001
  | blt => 0b100
  | bge => 0b101
  | bltu => 0b110
  | bgeu => 0b111

def LoadOp.funct3 : LoadOp → BitVec 3
  | lb => 0b000
  | lh => 0b001
  | lw => 0b010
  | lbu => 0b100
  | lhu => 0b101

def StoreOp.funct3 : StoreOp → BitVec 3
  | sb => 0b000
  | sh => 0b001
  | sw => 0b010

def ImmOp.funct3 : ImmOp → BitVec 3
  | addi => 0b000
  | slti => 0b010
  | sltiu => 0b011
  | xori => 0b100
  | ori => 0b110
  | andi => 0b111

def ShiftOp.funct3 : ShiftOp → BitVec 3
  | slli => 0b001
  | srli => 0b101
  | srai => 0b101

def ShiftOp.funct7 : ShiftOp → BitVec 7
  | slli => 0b0000000
  | srli => 0b0000000
  | srai => 0b0100000

def RegOp.funct3 : RegOp → BitVec 3
  | add => 0b000
  | sub => 0b000
  | sll => 0b001
  | slt => 0b010
  | sltu => 0b011
  | xor => 0b100
  | srl => 0b101
  | sra => 0b101
  | or => 0b110
  | and => 0b111

def RegOp.funct7 : RegOp → BitVec 7
  | sub => 0b0100000
  | sra => 0b0100000
  | _ => 0b0000000

def MulOp.funct3 : MulOp → BitVec 3
  | mul => 0b000
  | mulh => 0b001
  | mulhsu => 0b010
  | mulhu => 0b011
  | div => 0b100
  | divu => 0b101
  | rem => 0b110
  | remu => 0b111

def AmoOp.funct5 : AmoOp → BitVec 5
  | swap => 0b00001
  | add => 0b00000
  | xor => 0b00100
  | and => 0b01100
  | or => 0b01000
  | min => 0b10000
  | max => 0b10100
  | minu => 0b11000
  | maxu => 0b11100

def CsrOp.funct3 : CsrOp → BitVec 3
  | rw => 0b001
  | rs => 0b010
  | rc => 0b011
  | rwi => 0b101
  | rsi => 0b110
  | rci => 0b111

/-! ## Encodings -/

def Base.encode : Base → BitVec 32
  | lui rd imm => uType imm rd 0b0110111
  | auipc rd imm => uType imm rd 0b0010111
  | jal rd offset => jType offset rd 0b1101111
  | jalr rd rs1 imm => iType imm rs1 0b000 rd 0b1100111
  | branch op rs1 rs2 offset => bType offset rs2 rs1 op.funct3 0b1100011
  | load op rd rs1 imm => iType imm rs1 op.funct3 rd 0b0000011
  | store op rs1 rs2 imm => sType imm rs2 rs1 op.funct3 0b0100011
  | opImm op rd rs1 imm => iType imm rs1 op.funct3 rd 0b0010011
  | shiftImm op rd rs1 shamt =>
      rType op.funct7 shamt rs1 op.funct3 rd 0b0010011
  | opReg op rd rs1 rs2 => rType op.funct7 rs2 rs1 op.funct3 rd 0b0110011

/-- The upper seven bits of an atomic instruction. -/
def atomicFunct7 (funct5 : BitVec 5) (aq rl : Bool) : BitVec 7 :=
  funct5 ++ BitVec.ofBool aq ++ BitVec.ofBool rl

def Instr.encode : Instr → BitVec 32
  | base i => i.encode
  | fence fields rd rs1 => iType fields rs1 0b000 rd 0b0001111
  | fencei => iType 0 0 0b001 0 0b0001111
  | ecall => iType 0x000 0 0b000 0 0b1110011
  | ebreak => iType 0x001 0 0b000 0 0b1110011
  | mret => iType 0x302 0 0b000 0 0b1110011
  | wfi => iType 0x105 0 0b000 0 0b1110011
  | csr op rd field addr => iType addr field op.funct3 rd 0b1110011
  | mul op rd rs1 rs2 => rType 0b0000001 rs2 rs1 op.funct3 rd 0b0110011
  | lr aq rl rd rs1 =>
      rType (atomicFunct7 0b00010 aq rl) 0 rs1 0b010 rd 0b0101111
  | sc aq rl rd rs1 rs2 =>
      rType (atomicFunct7 0b00011 aq rl) rs2 rs1 0b010 rd 0b0101111
  | amo op aq rl rd rs1 rs2 =>
      rType (atomicFunct7 op.funct5 aq rl) rs2 rs1 0b010 rd 0b0101111

/-! ## The fields of a format -/

section Fields

variable (rs2 rs1 rd : BitVec 5) (funct3 : BitVec 3) (opcode : BitVec 7)

@[simp]
theorem rType_fields (funct7 : BitVec 7) :
    (rType funct7 rs2 rs1 funct3 rd opcode).extractLsb' 0 7 = opcode ∧
      (rType funct7 rs2 rs1 funct3 rd opcode).extractLsb' 7 5 = rd ∧
      (rType funct7 rs2 rs1 funct3 rd opcode).extractLsb' 12 3 = funct3 ∧
      (rType funct7 rs2 rs1 funct3 rd opcode).extractLsb' 15 5 = rs1 ∧
      (rType funct7 rs2 rs1 funct3 rd opcode).extractLsb' 20 5 = rs2 ∧
      (rType funct7 rs2 rs1 funct3 rd opcode).extractLsb' 25 7 =
        funct7 := by
  simp (disch := omega) only [rType,
    BitVec.extractLsb'_append_eq_of_add_le,
    BitVec.extractLsb'_append_eq_of_le]
  simp

@[simp]
theorem rType_funct5 (funct7 : BitVec 7) :
    (rType funct7 rs2 rs1 funct3 rd opcode).extractLsb' 27 5 =
      funct7.extractLsb' 2 5 := by
  simp (disch := omega) only [rType,
    BitVec.extractLsb'_append_eq_of_le]

@[simp]
theorem rType_imm (funct7 : BitVec 7) :
    (rType funct7 rs2 rs1 funct3 rd opcode).extractLsb' 20 12 =
      funct7 ++ rs2 := by
  simp (disch := omega) only [rType, BitVec.extractLsb'_append_eq_of_le]
  simp

@[simp]
theorem iType_fields (imm : BitVec 12) :
    (iType imm rs1 funct3 rd opcode).extractLsb' 0 7 = opcode ∧
      (iType imm rs1 funct3 rd opcode).extractLsb' 7 5 = rd ∧
      (iType imm rs1 funct3 rd opcode).extractLsb' 12 3 = funct3 ∧
      (iType imm rs1 funct3 rd opcode).extractLsb' 15 5 = rs1 ∧
      (iType imm rs1 funct3 rd opcode).extractLsb' 20 12 = imm := by
  simp (disch := omega) only [iType,
    BitVec.extractLsb'_append_eq_of_add_le,
    BitVec.extractLsb'_append_eq_of_le]
  simp

@[simp]
theorem sType_fields (imm : BitVec 12) :
    (sType imm rs2 rs1 funct3 opcode).extractLsb' 0 7 = opcode ∧
      (sType imm rs2 rs1 funct3 opcode).extractLsb' 12 3 = funct3 ∧
      (sType imm rs2 rs1 funct3 opcode).extractLsb' 15 5 = rs1 ∧
      (sType imm rs2 rs1 funct3 opcode).extractLsb' 20 5 = rs2 := by
  simp (disch := omega) only [sType,
    BitVec.extractLsb'_append_eq_of_add_le,
    BitVec.extractLsb'_append_eq_of_le]
  simp

@[simp]
theorem bType_fields (offset : BitVec 12) :
    (bType offset rs2 rs1 funct3 opcode).extractLsb' 0 7 = opcode ∧
      (bType offset rs2 rs1 funct3 opcode).extractLsb' 12 3 = funct3 ∧
      (bType offset rs2 rs1 funct3 opcode).extractLsb' 15 5 = rs1 ∧
      (bType offset rs2 rs1 funct3 opcode).extractLsb' 20 5 = rs2 := by
  simp (disch := omega) only [bType,
    BitVec.extractLsb'_append_eq_of_add_le,
    BitVec.extractLsb'_append_eq_of_le]
  simp

@[simp]
theorem uType_fields (imm : BitVec 20) :
    (uType imm rd opcode).extractLsb' 0 7 = opcode ∧
      (uType imm rd opcode).extractLsb' 7 5 = rd ∧
      (uType imm rd opcode).extractLsb' 12 20 = imm := by
  simp (disch := omega) only [uType,
    BitVec.extractLsb'_append_eq_of_add_le,
    BitVec.extractLsb'_append_eq_of_le]
  simp

@[simp]
theorem jType_fields (offset : BitVec 20) :
    (jType offset rd opcode).extractLsb' 0 7 = opcode ∧
      (jType offset rd opcode).extractLsb' 7 5 = rd := by
  simp (disch := omega) only [jType,
    BitVec.extractLsb'_append_eq_of_add_le,
    BitVec.extractLsb'_append_eq_of_le]
  simp

/-! ### The immediates, as the parts of a word -/

@[simp]
theorem sType_imm (imm : BitVec 12) :
    (sType imm rs2 rs1 funct3 opcode).extractLsb' 25 7 ++
        (sType imm rs2 rs1 funct3 opcode).extractLsb' 7 5 = imm := by
  simp (disch := omega) only [sType,
    BitVec.extractLsb'_append_eq_of_add_le,
    BitVec.extractLsb'_append_eq_of_le, Nat.reduceSub,
    BitVec.extractLsb'_eq_self]
  simp (disch := decide) only
    [BitVec.extractLsb'_append_extractLsb'_eq_extractLsb']
  simp

@[simp]
theorem bType_offset (offset : BitVec 12) :
    (bType offset rs2 rs1 funct3 opcode).extractLsb' 31 1 ++
          (bType offset rs2 rs1 funct3 opcode).extractLsb' 7 1 ++
        (bType offset rs2 rs1 funct3 opcode).extractLsb' 25 6 ++
      (bType offset rs2 rs1 funct3 opcode).extractLsb' 8 4 = offset := by
  simp (disch := omega) only [bType,
    BitVec.extractLsb'_append_eq_of_add_le,
    BitVec.extractLsb'_append_eq_of_le, Nat.reduceSub,
    BitVec.extractLsb'_eq_self]
  simp (disch := decide) only
    [BitVec.extractLsb'_append_extractLsb'_eq_extractLsb']
  simp

@[simp]
theorem jType_offset (offset : BitVec 20) :
    (jType offset rd opcode).extractLsb' 31 1 ++
          (jType offset rd opcode).extractLsb' 12 8 ++
        (jType offset rd opcode).extractLsb' 20 1 ++
      (jType offset rd opcode).extractLsb' 21 10 = offset := by
  simp (disch := omega) only [jType,
    BitVec.extractLsb'_append_eq_of_add_le,
    BitVec.extractLsb'_append_eq_of_le, Nat.reduceSub,
    BitVec.extractLsb'_eq_self]
  simp (disch := decide) only
    [BitVec.extractLsb'_append_extractLsb'_eq_extractLsb']
  simp

end Fields

/-! ## A word from its fields -/

section Words

variable (w : BitVec 32)

theorem eq_rType :
    w = rType (w.extractLsb' 25 7) (w.extractLsb' 20 5)
      (w.extractLsb' 15 5) (w.extractLsb' 12 3) (w.extractLsb' 7 5)
      (w.extractLsb' 0 7) := by
  simp (disch := decide) only [rType,
    BitVec.extractLsb'_append_extractLsb'_eq_extractLsb']
  simp

theorem eq_iType :
    w = iType (w.extractLsb' 20 12) (w.extractLsb' 15 5)
      (w.extractLsb' 12 3) (w.extractLsb' 7 5) (w.extractLsb' 0 7) := by
  simp (disch := decide) only [iType,
    BitVec.extractLsb'_append_extractLsb'_eq_extractLsb']
  simp

theorem eq_uType :
    w = uType (w.extractLsb' 12 20) (w.extractLsb' 7 5)
      (w.extractLsb' 0 7) := by
  simp (disch := decide) only [uType,
    BitVec.extractLsb'_append_extractLsb'_eq_extractLsb']
  simp

theorem eq_sType :
    w = sType (w.extractLsb' 25 7 ++ w.extractLsb' 7 5)
      (w.extractLsb' 20 5) (w.extractLsb' 15 5) (w.extractLsb' 12 3)
      (w.extractLsb' 0 7) := by
  simp (disch := omega) only [sType,
    BitVec.extractLsb'_append_eq_of_add_le,
    BitVec.extractLsb'_append_eq_of_le, Nat.reduceSub,
    BitVec.extractLsb'_eq_self]
  simp (disch := decide) only
    [BitVec.extractLsb'_append_extractLsb'_eq_extractLsb']
  simp

theorem eq_bType :
    w = bType
      (w.extractLsb' 31 1 ++ w.extractLsb' 7 1 ++ w.extractLsb' 25 6 ++
        w.extractLsb' 8 4)
      (w.extractLsb' 20 5) (w.extractLsb' 15 5) (w.extractLsb' 12 3)
      (w.extractLsb' 0 7) := by
  simp (disch := omega) only [bType,
    BitVec.extractLsb'_append_eq_of_add_le,
    BitVec.extractLsb'_append_eq_of_le, Nat.reduceSub,
    BitVec.extractLsb'_eq_self]
  simp (disch := decide) only
    [BitVec.extractLsb'_append_extractLsb'_eq_extractLsb']
  simp

theorem eq_jType :
    w = jType
      (w.extractLsb' 31 1 ++ w.extractLsb' 12 8 ++ w.extractLsb' 20 1 ++
        w.extractLsb' 21 10)
      (w.extractLsb' 7 5) (w.extractLsb' 0 7) := by
  simp (disch := omega) only [jType,
    BitVec.extractLsb'_append_eq_of_add_le,
    BitVec.extractLsb'_append_eq_of_le, Nat.reduceSub,
    BitVec.extractLsb'_eq_self]
  simp (disch := decide) only
    [BitVec.extractLsb'_append_extractLsb'_eq_extractLsb']
  simp

theorem eq_atomicFunct7 :
    w.extractLsb' 25 7 =
      atomicFunct7 (w.extractLsb' 27 5) (w.getLsbD 26) (w.getLsbD 25) := by
  rw [atomicFunct7, ← BitField.extract_one, ← BitField.extract_one]
  simp (disch := decide) only
    [BitVec.extractLsb'_append_extractLsb'_eq_extractLsb']

end Words

end SisRv.Riscv
