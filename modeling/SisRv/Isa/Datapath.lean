import SisRv.Core.AbstractAccess
import SisRv.Lib.Riscv.Semantics

/-!
# The datapath of EX computes RV32I

For the word of a base instruction the decoder, the operand muxes, the ALU and
the branch unit give the value and the next PC of the instruction set.
-/

namespace SisRv

open Riscv

namespace Core

variable {p : Params} (s : Core p)

/-- EX holds an instruction word with the operands of a register file. -/
structure Executes (instr : BitVec 32) (x : BitVec 5 → BitVec 32) : Prop where
  decoded : s.ex.toDecoded = sisDecode p.enableM p.enableA instr
  rs1 : s.ex.rs1Val = x (instr.extractLsb' 15 5)
  rs2 : s.ex.rs2Val = x (instr.extractLsb' 20 5)

variable {s} {x : BitVec 5 → BitVec 32}

/-! ## The ALU -/

theorem sisAlu_regOp (op : RegOp) (a b : BitVec 32) :
    sisAlu a b
        (BitVec.ofBool (op.funct7.getLsbD 5) ++ op.funct3 : BitVec 4) =
      op.apply a b := by
  cases op with
  | add => exact (RegOp.apply_add a b).symm
  | sub => exact (RegOp.apply_sub a b).symm
  | sll => exact (RegOp.apply_sll a b).symm
  | slt => exact (RegOp.apply_slt a b).symm
  | sltu => exact (RegOp.apply_sltu a b).symm
  | xor => rfl
  | srl => exact (RegOp.apply_srl a b).symm
  | sra => exact (RegOp.apply_sra a b).symm
  | or => rfl
  | and => rfl

theorem sisAlu_immOp (op : ImmOp) (a b : BitVec 32) :
    sisAlu a b (0#1 ++ op.funct3 : BitVec 4) = op.regOp.apply a b := by
  rw [← sisAlu_regOp]
  cases op <;> rfl

/-! ## The decoder -/

namespace Executes

variable {instr : BitVec 32} (executes : s.Executes instr x)
include executes

theorem coherent : s.ex.toDecoded.Coherent := by
  rw [executes.decoded]
  exact sisDecode_coherent _ _ _

/-- The class flags of an opcode. -/
theorem flags (opcode : BitVec 7) (same : instr.extractLsb' 0 7 = opcode) :
    s.ex.isLui = (opcode == opLui) ∧ s.ex.isAuipc = (opcode == opAuipc) ∧
      s.ex.isJal = (opcode == opJal) ∧ s.ex.isJalr = (opcode == opJalr) ∧
      s.ex.isBranch = (opcode == opBranch) ∧
      s.ex.isLoad = (opcode == opLoad) ∧
      s.ex.isStore = (opcode == opStore) ∧
      s.ex.isAluImm = (opcode == opAluImm) ∧
      s.ex.isAluReg = (opcode == opAluReg) ∧
      s.ex.isSystem = (opcode == opSystem) ∧
      s.ex.isFence = (opcode == opFence) ∧
      s.ex.isAtomic = (opcode == opAmo) := by
  apply executes.coherent.flags_of_opcode
  rw [executes.decoded]
  exact same

/-- The fields that the datapath reads. -/
theorem fields :
    s.ex.rd = instr.extractLsb' 7 5 ∧
      s.ex.funct3 = instr.extractLsb' 12 3 ∧
      s.ex.funct7 = instr.extractLsb' 25 7 := by
  rw [executes.decoded]
  exact ⟨rfl, rfl, rfl⟩

theorem immI : s.ex.immI = BitVec.ofInt 32 (instr.extractLsb' 20 12).toInt := by
  rw [executes.decoded]
  rfl

theorem immU : s.ex.immU = instr.extractLsb' 12 20 ++ 0#12 := by
  rw [executes.decoded]
  rfl

theorem immB {offset : BitVec 12}
    (is : instr.extractLsb' 31 1 ++ instr.extractLsb' 7 1 ++
      instr.extractLsb' 25 6 ++ instr.extractLsb' 8 4 = offset) :
    s.ex.immB = BitVec.ofInt 32 (2 * offset.toInt) := by
  rw [executes.decoded, ← signExtend_offset, ← is]
  rfl

theorem immJ {offset : BitVec 20}
    (is : instr.extractLsb' 31 1 ++ instr.extractLsb' 12 8 ++
      instr.extractLsb' 20 1 ++ instr.extractLsb' 21 10 = offset) :
    s.ex.immJ = BitVec.ofInt 32 (2 * offset.toInt) := by
  rw [executes.decoded, ← signExtend_offset, ← is]
  rfl

end Executes

/-! ## One class after the other -/

section Classes

variable {rd rs1 rs2 : BitVec 5}

theorem result_of_opReg {op : RegOp}
    (executes : s.Executes (Base.opReg op rd rs1 rs2).encode x) :
    s.exExecResult = op.apply (x rs1) (x rs2) := by
  have flags := executes.flags opAluReg
    (by simp [Base.encode, opAluReg])
  have fields := executes.fields
  have left := executes.rs1
  have right := executes.rs2
  simp only [Base.encode, rType_fields] at left right fields
  have notMul : op.funct7 ≠ 1#7 := by
    cases op <;> decide
  simp +decide [exExecResult, exIsMOp, aluResult, aluA, aluB, aluOp, flags,
    fields, left, right, notMul, ← sisAlu_regOp]

theorem result_of_opImm {op : ImmOp} {imm : BitVec 12}
    (executes : s.Executes (Base.opImm op rd rs1 imm).encode x) :
    s.exExecResult = op.regOp.apply (x rs1) (BitVec.ofInt 32 imm.toInt) := by
  have flags := executes.flags opAluImm
    (by simp [Base.encode, opAluImm])
  have fields := executes.fields
  have left := executes.rs1
  have right := executes.immI
  simp only [Base.encode, iType_fields] at left right fields
  have notShift : op.funct3 ≠ 5#3 := by
    cases op <;> decide
  simp +decide [exExecResult, exIsMOp, aluResult, aluA, aluB, aluOp,
    flags, fields, left, right, notShift, sisAlu_immOp]

theorem result_of_shiftImm {op : ShiftOp} {shamt : BitVec 5}
    (executes : s.Executes (Base.shiftImm op rd rs1 shamt).encode x) :
    s.exExecResult =
      op.regOp.apply (x rs1) (BitVec.ofNat 32 shamt.toNat) := by
  have flags := executes.flags opAluImm
    (by simp [Base.encode, opAluImm])
  have fields := executes.fields
  have left := executes.rs1
  have right := executes.immI
  simp only [Base.encode, rType_fields, rType_imm] at left right fields
  have amount : (BitVec.ofInt 32 (op.funct7 ++ shamt).toInt).toNat % 32 =
      (BitVec.ofNat 32 shamt.toNat).toNat % 32 := by
    have low : ((op.funct7 ++ shamt).signExtend 32).extractLsb' 0 5 =
        shamt := by
      rw [BitField.extract_signExtend _ (by decide) (by decide),
        BitVec.extractLsb'_append_eq_right]
    rw [← amount_eq, ← BitVec.signExtend, low]
    have bound := shamt.isLt
    rw [BitVec.toNat_ofNat]
    omega
  rw [← op.apply_congr (x rs1) amount]
  have code : (if op.funct3 = 5#3 then
        (BitVec.ofBool (op.funct7.getLsbD 5) ++ op.funct3 : BitVec 4)
      else (0#1 ++ op.funct3 : BitVec 4)) =
      (BitVec.ofBool (op.regOp.funct7.getLsbD 5) ++ op.regOp.funct3 :
        BitVec 4) := by
    cases op <;> rfl
  rw [← sisAlu_regOp, ← code]
  simp +decide [exExecResult, exIsMOp, aluResult, aluA, aluB, aluOp,
    flags, fields, left, right]

theorem result_of_lui {imm : BitVec 20}
    (executes : s.Executes (Base.lui rd imm).encode x) :
    s.exExecResult = moved 0 (upper imm) := by
  have flags := executes.flags opLui
    (by simp [Base.encode, opLui])
  have right := executes.immU
  simp only [Base.encode, uType_fields] at right
  simp +decide [exExecResult, exIsMOp, aluResult, aluA, aluB, aluOp, flags,
    right, moved_eq, upper_eq]

theorem result_of_auipc {imm : BitVec 20}
    (executes : s.Executes (Base.auipc rd imm).encode x) :
    s.exExecResult = moved s.ex.pc (upper imm) := by
  have flags := executes.flags opAuipc
    (by simp [Base.encode, opAuipc])
  have right := executes.immU
  simp only [Base.encode, uType_fields] at right
  simp +decide [exExecResult, exIsMOp, aluResult, aluA, aluB, aluOp, flags,
    right, moved_eq, upper_eq]

theorem result_of_jal {offset : BitVec 20}
    (executes : s.Executes (Base.jal rd offset).encode x) :
    s.exExecResult = s.exPcSequential := by
  have flags := executes.flags opJal
    (by simp [Base.encode, opJal])
  simp +decide [exExecResult, exIsMOp, aluResult, aluA, aluB, aluOp, flags,
    exPcSequential]

theorem result_of_jalr {imm : BitVec 12}
    (executes : s.Executes (Base.jalr rd rs1 imm).encode x) :
    s.exExecResult = s.exPcSequential := by
  have flags := executes.flags opJalr
    (by simp [Base.encode, opJalr])
  simp +decide [exExecResult, exIsMOp, aluResult, aluA, aluB, aluOp, flags,
    exPcSequential]

/-! ### Targets -/

theorem target_of_jal {offset : BitVec 20}
    (executes : s.Executes (Base.jal rd offset).encode x) :
    s.exNextPcTarget = moved s.ex.pc (2 * offset.toInt) := by
  have flags := executes.flags opJal
    (by simp [Base.encode, opJal])
  have imm := executes.immJ (jType_offset rd opJal offset)
  simp +decide [exNextPcTarget, exJalTarget, flags, imm, moved_eq]

theorem target_of_jalr {imm : BitVec 12}
    (executes : s.Executes (Base.jalr rd rs1 imm).encode x) :
    s.exNextPcTarget =
      BitVec.ofInt 32 (((x rs1).toInt + imm.toInt) / 2 * 2) := by
  have flags := executes.flags opJalr
    (by simp [Base.encode, opJalr])
  have left := executes.rs1
  have right := executes.immI
  simp only [Base.encode, iType_fields] at left right
  rw [← even_eq]
  simp +decide [exNextPcTarget, exJalrTarget, flags, left, right,
    BitVec.ofInt_add]

theorem taken_of_branch {op : BranchOp} {offset : BitVec 12}
    (executes : s.Executes (Base.branch op rs1 rs2 offset).encode x) :
    s.exBranchTaken = op.taken (x rs1) (x rs2) := by
  have flags := executes.flags opBranch
    (by simp [Base.encode, opBranch])
  have fields := executes.fields
  have left := executes.rs1
  have right := executes.rs2
  simp only [Base.encode, bType_fields] at left right fields
  rw [Bool.eq_iff_iff]
  simp only [exBranchTaken, flags, fields, left, right]
  cases op <;> simp +decide [BranchOp.taken, BitVec.slt_eq_decide,
    BitVec.ult_eq_decide]

theorem target_of_branch {op : BranchOp} {offset : BitVec 12}
    (executes : s.Executes (Base.branch op rs1 rs2 offset).encode x) :
    s.exNextPcTarget =
      if op.taken (x rs1) (x rs2) then moved s.ex.pc (2 * offset.toInt)
      else s.exPcSequential := by
  have flags := executes.flags opBranch
    (by simp [Base.encode, opBranch])
  have imm := executes.immB
    (bType_offset rs2 rs1 op.funct3 opBranch offset)
  simp +decide [exNextPcTarget, exBranchTarget, flags, imm, moved_eq,
    taken_of_branch executes]

end Classes

/-! ## Loads and stores -/

theorem load_of_word {op : LoadOp} {rd rs1 : BitVec 5} {imm : BitVec 12}
    (decoded : s.ex.toDecoded =
      sisDecode p.enableM p.enableA (Base.load op rd rs1 imm).encode) :
    s.ex.isLoad = true ∧ s.ex.isStore = false ∧ s.ex.isAtomic = false ∧
      s.ex.isSystem = false ∧ s.ex.funct3 = op.funct3 ∧ s.ex.rd = rd ∧
      s.aluResult = moved s.ex.rs1Val imm.toInt := by
  have coherent : s.ex.toDecoded.Coherent := by
    rw [decoded]
    exact sisDecode_coherent _ _ _
  have opcode : s.ex.opcode = opLoad := by
    rw [decoded]
    simp [sisDecode, Base.encode, opLoad]
  have flags := coherent.flags_of_opcode opcode
  have offset : s.ex.immI = BitVec.ofInt 32 imm.toInt := by
    rw [decoded]
    simp [sisDecode, Base.encode, BitVec.signExtend]
  refine ⟨?_, ?_, ?_, ?_, ?_, ?_, ?_⟩
  · simp [flags]
  · simp +decide [flags]
  · simp +decide [flags]
  · simp +decide [flags]
  · rw [decoded]
    simp [sisDecode, Base.encode]
  · rw [decoded]
    simp [sisDecode, Base.encode]
  · rw [moved_eq, ← offset]
    simp +decide [aluResult, aluA, aluB, aluOp, flags]

theorem store_of_word {op : StoreOp} {rs1 rs2 : BitVec 5} {imm : BitVec 12}
    (decoded : s.ex.toDecoded =
      sisDecode p.enableM p.enableA (Base.store op rs1 rs2 imm).encode) :
    s.ex.isStore = true ∧ s.ex.isAtomic = false ∧
      s.ex.funct3 = op.funct3 ∧
      s.aluResult = moved s.ex.rs1Val imm.toInt := by
  have coherent : s.ex.toDecoded.Coherent := by
    rw [decoded]
    exact sisDecode_coherent _ _ _
  have opcode : s.ex.opcode = opStore := by
    rw [decoded]
    simp [sisDecode, Base.encode, opStore]
  have flags := coherent.flags_of_opcode opcode
  have offset : s.ex.immS = BitVec.ofInt 32 imm.toInt := by
    rw [decoded]
    simp [sisDecode, Base.encode, BitVec.signExtend]
  refine ⟨?_, ?_, ?_, ?_⟩
  · simp [flags]
  · simp +decide [flags]
  · rw [decoded]
    simp [sisDecode, Base.encode]
  · rw [moved_eq, ← offset]
    simp +decide [aluResult, aluA, aluB, aluOp, flags]

/-! ## All classes -/

variable (s)

/-- The length in bytes of the instruction in EX. -/
def exLength : ℕ := if s.ex.len = 2 then 2 else 4

/-- What EX computes, when the instruction makes no data access. -/
def computed : Outcome :=
  { effect :=
      if s.ex.isBranch then .nothing else .writes s.ex.rd s.exExecResult
    next := s.exNextPcTarget }

variable {s}

theorem exPcSequential_eq :
    s.exPcSequential = moved s.ex.pc s.exLength := by
  rw [exPcSequential, exLength, moved_natCast, lenBytes]
  split_ifs <;> rfl

theorem computed_of_word {instr : Base} (computes : instr.computes = true)
    (executes : s.Executes instr.encode x) :
    s.computed = instr.outcome x s.ex.pc s.exLength := by
  have fields := executes.fields
  have straight
      (opcode : BitVec 7) (same : instr.encode.extractLsb' 0 7 = opcode)
      (other : opcode ≠ opJal ∧ opcode ≠ opJalr ∧ opcode ≠ opBranch) :
      s.exNextPcTarget = s.exPcSequential ∧ s.ex.isBranch = false := by
    have flags := executes.flags opcode same
    simp [exNextPcTarget, flags, other]
  cases instr with
  | lui rd imm =>
      obtain ⟨next, notBranch⟩ := straight opLui
        (by simp [Base.encode, opLui]) (by decide)
      simp only [Base.encode, uType_fields] at fields
      simp [computed, Base.outcome, next, notBranch, fields,
        result_of_lui executes, exPcSequential_eq]
  | auipc rd imm =>
      obtain ⟨next, notBranch⟩ := straight opAuipc
        (by simp [Base.encode, opAuipc]) (by decide)
      simp only [Base.encode, uType_fields] at fields
      simp [computed, Base.outcome, next, notBranch, fields,
        result_of_auipc executes, exPcSequential_eq]
  | jal rd offset =>
      have flags := executes.flags opJal
        (by simp [Base.encode, opJal])
      simp only [Base.encode, jType_fields] at fields
      simp +decide [computed, Base.outcome, flags, fields,
        result_of_jal executes, target_of_jal executes, exPcSequential_eq]
  | jalr rd rs1 imm =>
      have flags := executes.flags opJalr
        (by simp [Base.encode, opJalr])
      simp only [Base.encode, iType_fields] at fields
      simp +decide [computed, Base.outcome, flags, fields,
        result_of_jalr executes, target_of_jalr executes, exPcSequential_eq]
  | branch op rs1 rs2 offset =>
      have flags := executes.flags opBranch
        (by simp [Base.encode, opBranch])
      simp +decide [computed, Base.outcome, flags,
        target_of_branch executes, exPcSequential_eq]
  | load => exact absurd computes (by simp [Base.computes])
  | store => exact absurd computes (by simp [Base.computes])
  | opImm op rd rs1 imm =>
      obtain ⟨next, notBranch⟩ := straight opAluImm
        (by simp [Base.encode, opAluImm]) (by decide)
      simp only [Base.encode, iType_fields] at fields
      simp [computed, Base.outcome, next, notBranch, fields,
        result_of_opImm executes, exPcSequential_eq]
  | shiftImm op rd rs1 shamt =>
      obtain ⟨next, notBranch⟩ := straight opAluImm
        (by simp [Base.encode, opAluImm]) (by decide)
      simp only [Base.encode, rType_fields] at fields
      simp [computed, Base.outcome, next, notBranch, fields,
        result_of_shiftImm executes, exPcSequential_eq]
  | opReg op rd rs1 rs2 =>
      obtain ⟨next, notBranch⟩ := straight opAluReg
        (by simp [Base.encode, opAluReg]) (by decide)
      simp only [Base.encode, rType_fields] at fields
      simp [computed, Base.outcome, next, notBranch, fields,
        result_of_opReg executes, exPcSequential_eq]

/-- No access, no SYSTEM instruction, and a value for each class but the
branches. -/
theorem classes_of_computes {instr : Base} (computes : instr.computes = true)
    (executes : s.Executes instr.encode x) :
    s.ex.isLoad = false ∧ s.ex.isStore = false ∧ s.ex.isAtomic = false ∧
      s.ex.isSystem = false ∧
      (s.ex.isAluReg || s.ex.isAluImm || s.ex.isLui || s.ex.isAuipc ||
        s.ex.isJal || s.ex.isJalr) = !s.ex.isBranch := by
  cases instr with
  | load => exact absurd computes (by simp [Base.computes])
  | store => exact absurd computes (by simp [Base.computes])
  | _ =>
      have flags := executes.flags _ rfl
      simp only [flags, Base.encode, rType_fields, iType_fields, uType_fields,
        jType_fields, bType_fields]
      decide

/-- The instruction in EX leaves in its first cycle for WB, without an
exception. -/
structure Completes (s : Core p) (i : CoreIn) : Prop where
  first : s.ex.state = .exExec
  leaves : s.exToWbFire i = true
  goes : s.wbSingleStepStop = false
  noException : s.exException i = false

theorem wbWrite_of_computes {instr : Base} (computes : instr.computes = true)
    (executes : s.Executes instr.encode x) {i : CoreIn}
    (completes : s.Completes i) (j : CoreIn) (loaded : BitVec 32)
    (rf : BitVec 5 → BitVec 32) :
    (s.step i).wbWrite j rf = s.computed.effect.regs loaded rf := by
  obtain ⟨noLoad, -, noAtomic, noSystem, classes⟩ :=
    classes_of_computes computes executes
  obtain ⟨first, leaves, goes, noException⟩ := completes
  obtain ⟨writes, rd⟩ := wbWritesRd_of_leave leaves goes
  have exits : s.exExecToWb = true := by
    rw [leave_of_exec first] at leaves
    simpa [exExecToWb, first] using leaves
  have result : (s.step i).wbResult j = s.exExecResult := by
    rw [wbResult, step_wb_of_leave leaves goes]
    simp [completedWb, noLoad, exIsLr, exIsSc, exIsAmoOp, exIsCsrOp,
      noAtomic, noSystem, exCompleteAluResult, exits]
  have written : s.exWritesRd i = !s.ex.isBranch := by
    simp only [exWritesRd, noException, classes, noLoad, exIsCsrOp, noSystem,
      exIsLr, exIsSc, exIsAmoOp, noAtomic]
    simp
  rw [wbWrite, writes, rd, result, written, computed]
  cases branch : s.ex.isBranch
  · by_cases zero : s.ex.rd = 0 <;> simp [Effect.regs, zero]
  · simp [Effect.regs]

/-- WB hands the lane of the word read to the register of a load. -/
theorem wbWrite_of_load {i : CoreIn} (leaves : s.exToWbFire i = true)
    (goes : s.wbSingleStepStop = false) (normal : s.exException i = false)
    (load : s.ex.isLoad = true) (j : CoreIn) (rf : BitVec 5 → BitVec 32) :
    (s.step i).wbWrite j rf =
      if s.ex.rd = 0 then rf
      else Function.update rf s.ex.rd (s.step i).wbLoadResult := by
  obtain ⟨writes, rd⟩ := wbWritesRd_of_leave leaves goes
  have written : s.exWritesRd i = true := by
    simp [exWritesRd, normal, load]
  have result : (s.step i).wbResult j = (s.step i).wbLoadResult := by
    rw [wbResult, if_pos]
    rw [step_wb_of_leave leaves goes]
    simp [completedWb, load]
  rw [wbWrite, writes, written, rd, result]
  by_cases zero : s.ex.rd = 0 <;> simp [zero]

end Core

/-- For every computational instruction, LUI, AUIPC, branch, JAL and JALR, EX
selects the next PC of the instruction set, and WB writes the value of the
instruction set to its register and no other. -/
theorem datapath_right {p : Params} {s : Core p} {instr : Base}
    {x : BitVec 5 → BitVec 32} (computes : instr.computes = true)
    (executes : s.Executes instr.encode x) :
    s.exNextPcTarget = (instr.outcome x s.ex.pc s.exLength).next ∧
      ∀ i, s.Completes i → ∀ j loaded rf,
        (s.step i).wbWrite j rf =
          (instr.outcome x s.ex.pc s.exLength).effect.regs loaded rf := by
  have same := Core.computed_of_word computes executes
  constructor
  · rw [← same]
    rfl
  · intro i completes j loaded rf
    rw [← same]
    exact Core.wbWrite_of_computes computes executes completes j loaded rf

/-- One instruction from reset, in EX in cycle 3. -/
def executesFirst (instr : Base) : Core {} :=
  (Run.script {} (CoreIn.fetch [instr.encode])).state 3

/-- `addi x1, x0, -1` after reset. -/
theorem datapath_right_addi :
    (executesFirst (.opImm .addi 1 0 (-1))).exNextPcTarget = 4 ∧
      ∀ j rf, ((executesFirst (.opImm .addi 1 0 (-1))).step {}).wbWrite j rf =
        Function.update rf 1 (-1) := by
  have executes : (executesFirst (.opImm .addi 1 0 (-1))).Executes
      (Base.opImm .addi 1 0 (-1)).encode fun _ => 0 := by
    constructor <;> decide
  have right := datapath_right rfl executes
  have outcome : (Base.opImm .addi 1 0 (-1)).outcome (fun _ => 0)
      (executesFirst (.opImm .addi 1 0 (-1))).ex.pc
      (executesFirst (.opImm .addi 1 0 (-1))).exLength =
        ⟨.writes 1 (-1), 4⟩ := by
    decide
  rw [outcome] at right
  exact ⟨right.1, fun j => right.2 {} (by constructor <;> decide) j 0⟩

end SisRv
