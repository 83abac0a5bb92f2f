import SisRv.Rtl.Alu
import SisRv.Rtl.Decode

/-!
# `sisHardenTop`

The datapath of the hardenable slice `rtl/asic/sisHardenTop.sv`: an instruction
word is decoded, two registers are read, and the ALU gets an operation that the
slice selects on its own.
-/

namespace SisRv

/-- The registers of `u_regfile`, `x1` to `x31`. -/
structure HardenTop where
  regs : BitVec 5 → BitVec 32

/-- The write port and the debug port of `u_regfile`. -/
structure HardenTopIn where
  wrEn : Bool
  rdAddr : BitVec 5
  rdData : BitVec 32
  dbgEn : Bool
  dbgWe : Bool
  dbgAddr : BitVec 5
  dbgWdata : BitVec 32

namespace HardenTop

variable (s : HardenTop) (instr : BitVec 32)

/-! ## The register file -/

/-- One read port. -/
def rfData (addr : BitVec 5) : BitVec 32 :=
  if addr = 0 then 0 else s.regs addr

/-- One clock edge; the debug port wins. -/
def next (i : HardenTopIn) : HardenTop where
  regs :=
    if i.dbgEn && i.dbgWe && i.dbgAddr != 0 then
      Function.update s.regs i.dbgAddr i.dbgWdata
    else if i.wrEn && i.rdAddr != 0 then
      Function.update s.regs i.rdAddr i.rdData
    else s.regs

/-! ## The datapath -/

/-- The outputs of `u_decode`. -/
def dec : Decoded := sisDecode true true instr

def decodeLegal : Bool := (dec instr).isLegal

/-- `alu_op`, from `funct3` and `funct7` alone. -/
def aluOp : BitVec 4 :=
  let funct3 := (dec instr).funct3
  let funct7 := (dec instr).funct7
  if funct3 = 0b000 then if funct7.getLsbD 5 then 0b1000 else 0b0000
  else if funct3 = 0b001 then 0b0001
  else if funct3 = 0b010 then 0b0010
  else if funct3 = 0b011 then 0b0011
  else if funct3 = 0b100 then 0b0100
  else if funct3 = 0b101 then if funct7.getLsbD 5 then 0b1101 else 0b0101
  else if funct3 = 0b110 then 0b0110
  else 0b0111

def rs1Data : BitVec 32 := s.rfData (dec instr).rs1

def rs2Data : BitVec 32 := s.rfData (dec instr).rs2

def aluResult : BitVec 32 :=
  sisAlu (s.rs1Data instr)
    (if (dec instr).isAluImm then (dec instr).immI else s.rs2Data instr)
    (aluOp instr)

def aluZero : Bool := s.aluResult instr == 0

end HardenTop

end SisRv
