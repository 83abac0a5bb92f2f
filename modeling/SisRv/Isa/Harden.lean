import SisRv.Isa.Datapath
import SisRv.Isa.Decoder
import SisRv.Rtl.HardenTop

/-!
# The hardened slice and the core

The slice selects the ALU operation without the instruction class.  For the
words of OP and OP-IMM the module compares its result with that of EX.
-/

namespace SisRv

open Riscv

namespace HardenTop

/-! ## The selections -/

/-- The selection of the slice, from the fields. -/
def select (funct3 : BitVec 3) (funct7 : BitVec 7) : BitVec 4 :=
  if funct3 = 0b000 ∨ funct3 = 0b101 then
    (BitVec.ofBool (funct7.getLsbD 5) ++ funct3 : BitVec 4)
  else (0#1 ++ funct3 : BitVec 4)

theorem aluOp_eq (instr : BitVec 32) :
    aluOp instr =
      select (instr.extractLsb' 12 3) (instr.extractLsb' 25 7) := by
  have all : ∀ (funct3 : BitVec 3) (bit : Bool),
      (if funct3 = 0b000 then if bit then 0b1000 else 0b0000
      else if funct3 = 0b001 then 0b0001
      else if funct3 = 0b010 then 0b0010
      else if funct3 = 0b011 then 0b0011
      else if funct3 = 0b100 then 0b0100
      else if funct3 = 0b101 then if bit then 0b1101 else 0b0101
      else if funct3 = 0b110 then 0b0110
      else 0b0111 : BitVec 4) =
      if funct3 = 0b000 ∨ funct3 = 0b101 then
        (BitVec.ofBool bit ++ funct3 : BitVec 4)
      else (0#1 ++ funct3 : BitVec 4) := by
    decide
  exact all _ _

/-- Where the slice ignores `funct7`, a legal word of OP has zeros. -/
theorem select_regOp (op : RegOp) :
    select op.funct3 op.funct7 =
      (BitVec.ofBool (op.funct7.getLsbD 5) ++ op.funct3 : BitVec 4) := by
  cases op <;> rfl

/-- An immediate is subtracted as it is added only if its lower 31 bits are
zero. -/
theorem sub_ne_add {a b : BitVec 32} {k : ℕ} (below : k < 31)
    (bit : b.getLsbD k = true) : a - b ≠ a + b := by
  intro same
  have twice : b + b = 0 := by
    have moved := congrArg (fun x => x + b - a) same
    simp only [BitVec.sub_add_cancel] at moved
    rw [BitVec.add_assoc, BitVec.add_comm a, BitVec.add_sub_cancel,
      BitVec.sub_self] at moved
    exact moved.symm
  have double : (b + b).toNat = 2 * b.toNat % 2 ^ 32 := by
    rw [BitVec.toNat_add, ← Nat.two_mul]
  rw [twice] at double
  have range := b.isLt
  have half : b.toNat = 0 ∨ b.toNat = 2 ^ 31 := by
    have zero : (0 : BitVec 32).toNat = 0 := rfl
    omega
  rw [← BitVec.testBit_toNat] at bit
  rcases half with none | top
  · rw [none, Nat.zero_testBit] at bit
    exact Bool.false_ne_true bit
  · rw [top, Nat.testBit_two_pow_of_ne (by omega)] at bit
    exact Bool.false_ne_true bit

/-! ## The two results -/

/-- A legal RV32I word of the classes OP and OP-IMM. -/
def IsOp (instr : BitVec 32) : Prop :=
  (sisDecode false false instr).isLegal = true ∧
    (instr.extractLsb' 0 7 = opAluReg ∨ instr.extractLsb' 0 7 = opAluImm)

/-- ADDI with bit 10 of its immediate set, which is bit 5 of `funct7`. -/
def IsAddiWithBit10 (instr : BitVec 32) : Prop :=
  instr.extractLsb' 0 7 = opAluImm ∧ instr.extractLsb' 12 3 = 0b000 ∧
    instr.getLsbD 30 = true

instance (instr : BitVec 32) : Decidable (IsAddiWithBit10 instr) :=
  inferInstanceAs (Decidable (_ ∧ _ ∧ _))

section Results

variable {p : Params} {s : Core p} {t : HardenTop} {instr : BitVec 32}
  (executes : s.Executes instr t.rfData)
include executes

theorem aluResult_of_opReg (opcode : instr.extractLsb' 0 7 = opAluReg)
    {op : RegOp} (funct3 : op.funct3 = instr.extractLsb' 12 3)
    (funct7 : op.funct7 = instr.extractLsb' 25 7) :
    t.aluResult instr = s.exExecResult := by
  have flags := executes.flags opAluReg opcode
  have fields := executes.fields
  have notMul : op.funct7 ≠ 1#7 := by
    cases op <;> decide
  have notImm : (dec instr).isAluImm = false := by
    simp [dec, sisDecode, opcode, opAluReg, opAluImm]
  rw [aluResult, notImm, aluOp_eq, ← funct3, ← funct7, select_regOp,
    rs1Data, rs2Data]
  simp +decide [Core.exExecResult, Core.exIsMOp, Core.aluResult, Core.aluA,
    Core.aluB, Core.aluOp, flags, fields, executes.rs1, executes.rs2,
    ← funct3, ← funct7, notMul, dec, sisDecode]

theorem aluResult_of_opImm (opcode : instr.extractLsb' 0 7 = opAluImm) :
    t.aluResult instr = s.exExecResult ↔ ¬ IsAddiWithBit10 instr := by
  have flags := executes.flags opAluImm opcode
  have fields := executes.fields
  have isImm : (dec instr).isAluImm = true := by
    simp [dec, sisDecode, opcode]
  have slice : t.aluResult instr =
      sisAlu (t.rfData (instr.extractLsb' 15 5))
        ((instr.extractLsb' 20 12).signExtend 32)
        (select (instr.extractLsb' 12 3) (instr.extractLsb' 25 7)) := by
    rw [aluResult, isImm, aluOp_eq]
    rfl
  have core : s.exExecResult =
      sisAlu (t.rfData (instr.extractLsb' 15 5))
        ((instr.extractLsb' 20 12).signExtend 32)
        (if instr.extractLsb' 12 3 = 0b101 then
          (BitVec.ofBool ((instr.extractLsb' 25 7).getLsbD 5) ++
            instr.extractLsb' 12 3 : BitVec 4)
        else (0#1 ++ instr.extractLsb' 12 3 : BitVec 4)) := by
    have imm : s.ex.immI = (instr.extractLsb' 20 12).signExtend 32 :=
      executes.immI
    simp +decide [Core.exExecResult, Core.exIsMOp, Core.aluResult,
      Core.aluA, Core.aluB, Core.aluOp, flags, fields, executes.rs1, imm]
  rw [slice, core, IsAddiWithBit10, select]
  by_cases add : instr.extractLsb' 12 3 = 0b000
  · have bit : (instr.extractLsb' 25 7).getLsbD 5 = instr.getLsbD 30 := by
      simp
    rw [bit, add]
    cases set : instr.getLsbD 30 with
    | false => simp
    | true =>
        have imm : ((instr.extractLsb' 20 12).signExtend 32).getLsbD 10 =
            true := by
          rw [BitVec.getLsbD_signExtend]
          simp [set]
        have differ := sub_ne_add (a := t.rfData (instr.extractLsb' 15 5))
          (by decide) imm
        simpa [opcode, sisAlu, aluAdd, aluSub] using differ
  · rw [if_congr (or_iff_right add) rfl rfl]
    exact iff_of_true rfl fun bad => add bad.2.1

end Results

end HardenTop

/-- For a legal RV32I word of OP or OP-IMM and the same registers, the slice
has the result of EX if and only if the word is no ADDI with bit 10 of its
immediate set. -/
theorem aluResult_agrees_iff {p : Params} {s : Core p} {t : HardenTop}
    {instr : BitVec 32} (isOp : HardenTop.IsOp instr)
    (executes : s.Executes instr t.rfData) :
    t.aluResult instr = s.exExecResult ↔
      ¬ HardenTop.IsAddiWithBit10 instr := by
  obtain ⟨legal, opcode | opcode⟩ := isOp
  · have regular : legalAluReg false (instr.extractLsb' 12 3)
        (instr.extractLsb' 25 7) = true := by
      simpa +decide [sisDecode, opcode] using legal
    obtain ⟨op, funct3, funct7⟩ :=
      (legalAluReg_iff.mp regular).resolve_right (by simp)
    refine iff_of_true ?_ fun addi => ?_
    · exact HardenTop.aluResult_of_opReg executes opcode funct3 funct7
    · exact absurd (opcode.symm.trans addi.1) (by decide)
  · exact HardenTop.aluResult_of_opImm executes opcode

/-- The slice with `x1 = 5`. -/
def hardenFive : HardenTop := ⟨Function.update (fun _ => 0) 1 5⟩

/-- A core whose EX holds a word with the operands of the slice. -/
def holdsWord (instr : BitVec 32) : Core {} :=
  let reset := Core.reset {} {}
  { reset with
    ex :=
      { reset.ex with
        toDecoded := sisDecode true true instr
        rs1Val := hardenFive.rfData (instr.extractLsb' 15 5)
        rs2Val := hardenFive.rfData (instr.extractLsb' 20 5) } }

theorem executes_holdsWord (instr : BitVec 32) :
    (holdsWord instr).Executes instr hardenFive.rfData :=
  ⟨rfl, rfl, rfl⟩

/-- `addi x2, x1, 3`. -/
theorem aluResult_agrees_iff_addi :
    hardenFive.aluResult 0x00308113 = (holdsWord 0x00308113).exExecResult :=
  (aluResult_agrees_iff ⟨by decide, Or.inr rfl⟩ (executes_holdsWord _)).mpr
    (by decide)

/-- `addi x2, x1, -1` gives 6 instead of 4. -/
theorem not_aluResult_agrees :
    ¬ ∀ (s : Core {}) (t : HardenTop) (instr : BitVec 32),
      HardenTop.IsOp instr → s.Executes instr t.rfData →
      t.aluResult instr = s.exExecResult := by
  intro agrees
  have same := agrees _ hardenFive 0xFFF08113 ⟨by decide, Or.inr rfl⟩
    (executes_holdsWord _)
  exact (HardenTop.aluResult_of_opImm (executes_holdsWord 0xFFF08113)
    rfl).mp same ⟨rfl, rfl, rfl⟩

end SisRv
