import Mathlib.Data.BitVec

/-!
# `sisDecode`

The instruction decoder of `rtl/core/sisDecode.sv`: register addresses,
immediates, class flags and the legality predicate.
-/

namespace SisRv

def opLui : BitVec 7 := 0b0110111
def opAuipc : BitVec 7 := 0b0010111
def opJal : BitVec 7 := 0b1101111
def opJalr : BitVec 7 := 0b1100111
def opBranch : BitVec 7 := 0b1100011
def opLoad : BitVec 7 := 0b0000011
def opStore : BitVec 7 := 0b0100011
def opAluImm : BitVec 7 := 0b0010011
def opAluReg : BitVec 7 := 0b0110011
def opFence : BitVec 7 := 0b0001111
def opSystem : BitVec 7 := 0b1110011
def opAmo : BitVec 7 := 0b0101111

/-- The outputs of `sisDecode`. -/
structure Decoded where
  rs1 : BitVec 5
  rs2 : BitVec 5
  rd : BitVec 5
  immI : BitVec 32
  immS : BitVec 32
  immB : BitVec 32
  immU : BitVec 32
  immJ : BitVec 32
  opcode : BitVec 7
  funct3 : BitVec 3
  funct7 : BitVec 7
  isLui : Bool
  isAuipc : Bool
  isJal : Bool
  isJalr : Bool
  isBranch : Bool
  isLoad : Bool
  isStore : Bool
  isAluImm : Bool
  isAluReg : Bool
  isSystem : Bool
  isFence : Bool
  isAtomic : Bool
  atomicFunct5 : BitVec 5
  aq : Bool
  rl : Bool
  isLegal : Bool
  deriving DecidableEq, Repr

/-! ## Legality, one predicate for each instruction class -/

def legalJalr (funct3 : BitVec 3) : Bool :=
  funct3 == 0b000

def legalBranch (funct3 : BitVec 3) : Bool :=
  funct3 == 0b000 || funct3 == 0b001 ||
    funct3 == 0b100 || funct3 == 0b101 ||
    funct3 == 0b110 || funct3 == 0b111

def legalLoad (funct3 : BitVec 3) : Bool :=
  funct3 == 0b000 || funct3 == 0b001 || funct3 == 0b010 ||
    funct3 == 0b100 || funct3 == 0b101

def legalStore (funct3 : BitVec 3) : Bool :=
  funct3 == 0b000 || funct3 == 0b001 || funct3 == 0b010

def legalAluImm (funct3 : BitVec 3) (funct7 : BitVec 7) : Bool :=
  funct3 == 0b000 || funct3 == 0b010 || funct3 == 0b011 ||
    funct3 == 0b100 || funct3 == 0b110 || funct3 == 0b111 ||
    (funct3 == 0b001 && funct7 == 0b0000000) ||
    (funct3 == 0b101 && (funct7 == 0b0000000 || funct7 == 0b0100000))

def legalAluReg
    (enableM : Bool) (funct3 : BitVec 3) (funct7 : BitVec 7) : Bool :=
  (funct3 == 0b000 && (funct7 == 0b0000000 || funct7 == 0b0100000)) ||
    (funct3 == 0b001 && funct7 == 0b0000000) ||
    (funct3 == 0b010 && funct7 == 0b0000000) ||
    (funct3 == 0b011 && funct7 == 0b0000000) ||
    (funct3 == 0b100 && funct7 == 0b0000000) ||
    (funct3 == 0b101 && (funct7 == 0b0000000 || funct7 == 0b0100000)) ||
    (funct3 == 0b110 && funct7 == 0b0000000) ||
    (funct3 == 0b111 && funct7 == 0b0000000) ||
    (enableM && funct7 == 0b0000001)

/-- ECALL, EBREAK, WFI and MRET in their 12-bit encodings, and the six CSR
operations with any address. -/
def legalSystem (funct3 : BitVec 3) (imm12 : BitVec 12) : Bool :=
  (funct3 == 0b000 &&
      (imm12 == 0x000 || imm12 == 0x001 ||
        imm12 == 0x105 || imm12 == 0x302)) ||
    funct3 == 0b001 || funct3 == 0b010 || funct3 == 0b011 ||
    funct3 == 0b101 || funct3 == 0b110 || funct3 == 0b111

def legalFence (funct3 : BitVec 3) : Bool :=
  funct3 == 0b000

/-- RV32A: word width only; LR.W is accepted with any `rs2`. -/
def legalAtomic
    (enableA : Bool) (funct3 : BitVec 3) (funct5 : BitVec 5) : Bool :=
  enableA && funct3 == 0b010 &&
    (funct5 == 0b00010 || funct5 == 0b00011 || funct5 == 0b00001 ||
      funct5 == 0b00000 || funct5 == 0b00100 || funct5 == 0b01100 ||
      funct5 == 0b01000 || funct5 == 0b10000 || funct5 == 0b10100 ||
      funct5 == 0b11000 || funct5 == 0b11100)

/-! ## The decoder -/

/-- `sisDecode`: `is_legal` is the union of the twelve class predicates. -/
def sisDecode (enableM enableA : Bool) (instr : BitVec 32) : Decoded :=
  let opcode := instr.extractLsb' 0 7
  let funct3 := instr.extractLsb' 12 3
  let funct7 := instr.extractLsb' 25 7
  let funct5 := instr.extractLsb' 27 5
  { rs1 := instr.extractLsb' 15 5
    rs2 := instr.extractLsb' 20 5
    rd := instr.extractLsb' 7 5
    immI := (instr.extractLsb' 20 12).signExtend 32
    immS :=
      (instr.extractLsb' 25 7 ++ instr.extractLsb' 7 5 :
        BitVec 12).signExtend 32
    immB :=
      (instr.extractLsb' 31 1 ++ instr.extractLsb' 7 1 ++
        instr.extractLsb' 25 6 ++ instr.extractLsb' 8 4 ++ 0#1 :
        BitVec 13).signExtend 32
    immU := (instr.extractLsb' 12 20 ++ 0#12 : BitVec 32)
    immJ :=
      (instr.extractLsb' 31 1 ++ instr.extractLsb' 12 8 ++
        instr.extractLsb' 20 1 ++ instr.extractLsb' 21 10 ++ 0#1 :
        BitVec 21).signExtend 32
    opcode := opcode
    funct3 := funct3
    funct7 := funct7
    isLui := opcode == opLui
    isAuipc := opcode == opAuipc
    isJal := opcode == opJal
    isJalr := opcode == opJalr
    isBranch := opcode == opBranch
    isLoad := opcode == opLoad
    isStore := opcode == opStore
    isAluImm := opcode == opAluImm
    isAluReg := opcode == opAluReg
    isSystem := opcode == opSystem
    isFence := opcode == opFence
    isAtomic := opcode == opAmo
    atomicFunct5 := funct5
    aq := instr.getLsbD 26
    rl := instr.getLsbD 25
    isLegal :=
      opcode == opLui || opcode == opAuipc || opcode == opJal ||
        (opcode == opJalr && legalJalr funct3) ||
        (opcode == opBranch && legalBranch funct3) ||
        (opcode == opLoad && legalLoad funct3) ||
        (opcode == opStore && legalStore funct3) ||
        (opcode == opAluImm && legalAluImm funct3 funct7) ||
        (opcode == opAluReg && legalAluReg enableM funct3 funct7) ||
        (opcode == opSystem &&
          legalSystem funct3 (instr.extractLsb' 20 12)) ||
        (opcode == opFence && legalFence funct3) ||
        (opcode == opAmo && legalAtomic enableA funct3 funct5) }

end SisRv
