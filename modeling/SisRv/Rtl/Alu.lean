import Mathlib.Data.BitVec

/-!
# `sisAlu` and the M-extension result function

The combinational arithmetic of the EX stage: the RV32I ALU of
`rtl/core/sisAlu.sv` and the function `rv32m_result` of `rtl/core/sisRvCore.sv`.
-/

namespace SisRv

/-! ## `sisAlu` -/

def aluAdd : BitVec 4 := 0b0000
def aluSub : BitVec 4 := 0b1000
def aluSll : BitVec 4 := 0b0001
def aluSlt : BitVec 4 := 0b0010
def aluSltu : BitVec 4 := 0b0011
def aluXor : BitVec 4 := 0b0100
def aluSrl : BitVec 4 := 0b0101
def aluSra : BitVec 4 := 0b1101
def aluOr : BitVec 4 := 0b0110
def aluAnd : BitVec 4 := 0b0111

/-- The `result` output of `sisAlu`. -/
def sisAlu (a b : BitVec 32) (op : BitVec 4) : BitVec 32 :=
  if op = aluAdd then a + b
  else if op = aluSub then a - b
  else if op = aluSll then a <<< b.extractLsb' 0 5
  else if op = aluSlt then (BitVec.ofBool (a.slt b)).setWidth 32
  else if op = aluSltu then (BitVec.ofBool (a.ult b)).setWidth 32
  else if op = aluXor then a ^^^ b
  else if op = aluSrl then a >>> b.extractLsb' 0 5
  else if op = aluSra then a.sshiftRight' (b.extractLsb' 0 5)
  else if op = aluOr then a ||| b
  else if op = aluAnd then a &&& b
  else 0

@[simp]
theorem sisAlu_add (a b : BitVec 32) : sisAlu a b aluAdd = a + b := by
  simp [sisAlu]

/-! ## `rv32m_result` -/

/-- `rv32m_result`: the eight RV32M operations, selected by `funct3`. -/
def rv32mResult (lhs rhs : BitVec 32) (op : BitVec 3) : BitVec 32 :=
  let ssProduct : BitVec 64 := lhs.signExtend 64 * rhs.signExtend 64
  let suProduct : BitVec 64 := lhs.signExtend 64 * rhs.zeroExtend 64
  let uuProduct : BitVec 64 := lhs.zeroExtend 64 * rhs.zeroExtend 64
  if op = 0b000 then ssProduct.extractLsb' 0 32
  else if op = 0b001 then ssProduct.extractLsb' 32 32
  else if op = 0b010 then suProduct.extractLsb' 32 32
  else if op = 0b011 then uuProduct.extractLsb' 32 32
  else if op = 0b100 then
    if rhs = 0 then 0xFFFFFFFF
    else if lhs = 0x80000000 ∧ rhs = 0xFFFFFFFF then 0x80000000
    else lhs.sdiv rhs
  else if op = 0b101 then if rhs = 0 then 0xFFFFFFFF else lhs / rhs
  else if op = 0b110 then
    if rhs = 0 then lhs
    else if lhs = 0x80000000 ∧ rhs = 0xFFFFFFFF then 0
    else lhs.srem rhs
  else if rhs = 0 then lhs else lhs % rhs

end SisRv
