import SisRv.Core.Execute
import SisRv.Lib.Riscv.Encoding

/-!
# The instruction set of the decoder

The words that `sisDecode` calls legal are the encodings of the instructions
of the configuration.  The decoder does not look at `rs1` and `rd` of ECALL,
EBREAK, MRET and WFI, nor at `rs2` of LR.W.
-/

namespace SisRv

open Riscv

/-! ## The instructions of a configuration -/

/-- The instruction belongs to an extension that is not disabled. -/
def Riscv.Instr.enabled (enableM enableA : Bool) : Instr → Bool
  | mul .. => enableM
  | lr .. => enableA
  | sc .. => enableA
  | amo .. => enableA
  | _ => true

/-- The word is the encoding of the instruction, up to the fields that the
decoder does not look at. -/
def Riscv.Instr.Reads (w : BitVec 32) : Instr → Prop
  | ecall => ∃ rs1 rd, w = iType 0x000 rs1 0b000 rd 0b1110011
  | ebreak => ∃ rs1 rd, w = iType 0x001 rs1 0b000 rd 0b1110011
  | mret => ∃ rs1 rd, w = iType 0x302 rs1 0b000 rd 0b1110011
  | wfi => ∃ rs1 rd, w = iType 0x105 rs1 0b000 rd 0b1110011
  | lr aq rl rd rs1 => ∃ rs2,
      w = rType (atomicFunct7 0b00010 aq rl) rs2 rs1 0b010 rd 0b0101111
  | i => w = i.encode

/-- MISC-MEM with `funct3 = 001`. -/
def IsFenceI (w : BitVec 32) : Prop :=
  w.extractLsb' 0 7 = opFence ∧ w.extractLsb' 12 3 = 0b001

instance (w : BitVec 32) : Decidable (IsFenceI w) :=
  inferInstanceAs (Decidable (_ ∧ _))

/-- The class flags. -/
def Decoded.classFlags (d : Decoded) : List Bool :=
  [d.isLui, d.isAuipc, d.isJal, d.isJalr, d.isBranch, d.isLoad, d.isStore,
    d.isAluImm, d.isAluReg, d.isSystem, d.isFence, d.isAtomic]

/-! ## The codes of each class -/

section Codes

variable {funct3 : BitVec 3} {funct7 : BitVec 7} {funct5 : BitVec 5}

theorem legalBranch_iff :
    legalBranch funct3 = true ↔ ∃ op : BranchOp, op.funct3 = funct3 := by
  constructor
  · intro legal
    simp only [legalBranch, Bool.or_eq_true, beq_iff_eq] at legal
    rcases legal with ((((rfl | rfl) | rfl) | rfl) | rfl) | rfl
    exacts [⟨.beq, rfl⟩, ⟨.bne, rfl⟩, ⟨.blt, rfl⟩, ⟨.bge, rfl⟩,
      ⟨.bltu, rfl⟩, ⟨.bgeu, rfl⟩]
  · rintro ⟨op, rfl⟩
    cases op <;> rfl

theorem legalLoad_iff :
    legalLoad funct3 = true ↔ ∃ op : LoadOp, op.funct3 = funct3 := by
  constructor
  · intro legal
    simp only [legalLoad, Bool.or_eq_true, beq_iff_eq] at legal
    rcases legal with (((rfl | rfl) | rfl) | rfl) | rfl
    exacts [⟨.lb, rfl⟩, ⟨.lh, rfl⟩, ⟨.lw, rfl⟩, ⟨.lbu, rfl⟩, ⟨.lhu, rfl⟩]
  · rintro ⟨op, rfl⟩
    cases op <;> rfl

theorem legalStore_iff :
    legalStore funct3 = true ↔ ∃ op : StoreOp, op.funct3 = funct3 := by
  constructor
  · intro legal
    simp only [legalStore, Bool.or_eq_true, beq_iff_eq] at legal
    rcases legal with (rfl | rfl) | rfl
    exacts [⟨.sb, rfl⟩, ⟨.sh, rfl⟩, ⟨.sw, rfl⟩]
  · rintro ⟨op, rfl⟩
    cases op <;> rfl

theorem legalAluImm_iff :
    legalAluImm funct3 funct7 = true ↔
      (∃ op : ImmOp, op.funct3 = funct3) ∨
        ∃ op : ShiftOp, op.funct3 = funct3 ∧ op.funct7 = funct7 := by
  constructor
  · intro legal
    simp only [legalAluImm, Bool.or_eq_true, Bool.and_eq_true,
      beq_iff_eq] at legal
    rcases legal with
      ((((((rfl | rfl) | rfl) | rfl) | rfl) | rfl) | ⟨rfl, rfl⟩) |
        ⟨rfl, rfl | rfl⟩
    exacts [.inl ⟨.addi, rfl⟩, .inl ⟨.slti, rfl⟩, .inl ⟨.sltiu, rfl⟩,
      .inl ⟨.xori, rfl⟩, .inl ⟨.ori, rfl⟩, .inl ⟨.andi, rfl⟩,
      .inr ⟨.slli, rfl, rfl⟩, .inr ⟨.srli, rfl, rfl⟩,
      .inr ⟨.srai, rfl, rfl⟩]
  · rintro (⟨op, rfl⟩ | ⟨op, rfl, rfl⟩) <;> cases op <;>
      simp [legalAluImm, ImmOp.funct3, ShiftOp.funct3, ShiftOp.funct7]

theorem legalAluReg_iff {enableM : Bool} :
    legalAluReg enableM funct3 funct7 = true ↔
      (∃ op : RegOp, op.funct3 = funct3 ∧ op.funct7 = funct7) ∨
        enableM = true ∧ funct7 = 0b0000001 := by
  constructor
  · intro legal
    simp only [legalAluReg, Bool.or_eq_true, Bool.and_eq_true,
      beq_iff_eq] at legal
    rcases legal with
      (((((((⟨rfl, rfl | rfl⟩ | ⟨rfl, rfl⟩) | ⟨rfl, rfl⟩) | ⟨rfl, rfl⟩) |
        ⟨rfl, rfl⟩) | ⟨rfl, rfl | rfl⟩) | ⟨rfl, rfl⟩) | ⟨rfl, rfl⟩) | mul
    exacts [.inl ⟨.add, rfl, rfl⟩, .inl ⟨.sub, rfl, rfl⟩,
      .inl ⟨.sll, rfl, rfl⟩, .inl ⟨.slt, rfl, rfl⟩, .inl ⟨.sltu, rfl, rfl⟩,
      .inl ⟨.xor, rfl, rfl⟩, .inl ⟨.srl, rfl, rfl⟩, .inl ⟨.sra, rfl, rfl⟩,
      .inl ⟨.or, rfl, rfl⟩, .inl ⟨.and, rfl, rfl⟩, .inr mul]
  · rintro (⟨op, rfl, rfl⟩ | ⟨enabled, rfl⟩)
    · cases op <;> simp [legalAluReg, RegOp.funct3, RegOp.funct7]
    · simp [legalAluReg, enabled]

theorem exists_mulOp (funct3 : BitVec 3) :
    ∃ op : MulOp, op.funct3 = funct3 := by
  have codes : funct3 = 0b000 ∨ funct3 = 0b001 ∨ funct3 = 0b010 ∨
      funct3 = 0b011 ∨ funct3 = 0b100 ∨ funct3 = 0b101 ∨
      funct3 = 0b110 ∨ funct3 = 0b111 := by
    revert funct3
    decide
  rcases codes with rfl | rfl | rfl | rfl | rfl | rfl | rfl | rfl
  exacts [⟨.mul, rfl⟩, ⟨.mulh, rfl⟩, ⟨.mulhsu, rfl⟩, ⟨.mulhu, rfl⟩,
    ⟨.div, rfl⟩, ⟨.divu, rfl⟩, ⟨.rem, rfl⟩, ⟨.remu, rfl⟩]

theorem legalSystem_iff {imm12 : BitVec 12} :
    legalSystem funct3 imm12 = true ↔
      funct3 = 0b000 ∧
          (imm12 = 0x000 ∨ imm12 = 0x001 ∨ imm12 = 0x105 ∨ imm12 = 0x302) ∨
        ∃ op : CsrOp, op.funct3 = funct3 := by
  constructor
  · intro legal
    simp only [legalSystem, Bool.or_eq_true, Bool.and_eq_true, beq_iff_eq,
      or_assoc] at legal
    rcases legal with plain | rfl | rfl | rfl | rfl | rfl | rfl
    exacts [.inl plain, .inr ⟨.rw, rfl⟩, .inr ⟨.rs, rfl⟩, .inr ⟨.rc, rfl⟩,
      .inr ⟨.rwi, rfl⟩, .inr ⟨.rsi, rfl⟩, .inr ⟨.rci, rfl⟩]
  · rintro (⟨rfl, named⟩ | ⟨op, rfl⟩)
    · simpa [legalSystem, or_assoc] using named
    · cases op <;> simp [legalSystem, CsrOp.funct3]

theorem legalAtomic_iff {enableA : Bool} :
    legalAtomic enableA funct3 funct5 = true ↔
      enableA = true ∧ funct3 = 0b010 ∧
        (funct5 = 0b00010 ∨ funct5 = 0b00011 ∨
          ∃ op : AmoOp, op.funct5 = funct5) := by
  constructor
  · intro legal
    simp only [legalAtomic, Bool.or_eq_true, Bool.and_eq_true, beq_iff_eq,
      or_assoc, and_assoc] at legal
    refine ⟨legal.1, legal.2.1, ?_⟩
    rcases legal.2.2 with
      lr | sc | rfl | rfl | rfl | rfl | rfl | rfl | rfl | rfl | rfl
    exacts [.inl lr, .inr (.inl sc), .inr (.inr ⟨.swap, rfl⟩),
      .inr (.inr ⟨.add, rfl⟩), .inr (.inr ⟨.xor, rfl⟩),
      .inr (.inr ⟨.and, rfl⟩), .inr (.inr ⟨.or, rfl⟩),
      .inr (.inr ⟨.min, rfl⟩), .inr (.inr ⟨.max, rfl⟩),
      .inr (.inr ⟨.minu, rfl⟩), .inr (.inr ⟨.maxu, rfl⟩)]
  · rintro ⟨enabled, rfl, rfl | rfl | ⟨op, rfl⟩⟩
    · simp [legalAtomic, enabled]
    · simp [legalAtomic, enabled]
    · cases op <;> simp [legalAtomic, enabled, AmoOp.funct5]

end Codes

/-! ## Legal words -/

section Legal

variable {enableM enableA : Bool} {w : BitVec 32}

/-- A legal word belongs to one of the twelve classes. -/
theorem legal_cases (legal : (sisDecode enableM enableA w).isLegal = true) :
    w.extractLsb' 0 7 = opLui ∨ w.extractLsb' 0 7 = opAuipc ∨
      w.extractLsb' 0 7 = opJal ∨
      (w.extractLsb' 0 7 = opJalr ∧ w.extractLsb' 12 3 = 0b000) ∨
      (w.extractLsb' 0 7 = opBranch ∧
        ∃ op : BranchOp, op.funct3 = w.extractLsb' 12 3) ∨
      (w.extractLsb' 0 7 = opLoad ∧
        ∃ op : LoadOp, op.funct3 = w.extractLsb' 12 3) ∨
      (w.extractLsb' 0 7 = opStore ∧
        ∃ op : StoreOp, op.funct3 = w.extractLsb' 12 3) ∨
      (w.extractLsb' 0 7 = opAluImm ∧
        legalAluImm (w.extractLsb' 12 3) (w.extractLsb' 25 7) = true) ∨
      (w.extractLsb' 0 7 = opAluReg ∧
        legalAluReg enableM (w.extractLsb' 12 3)
          (w.extractLsb' 25 7) = true) ∨
      (w.extractLsb' 0 7 = opSystem ∧
        legalSystem (w.extractLsb' 12 3) (w.extractLsb' 20 12) = true) ∨
      (w.extractLsb' 0 7 = opFence ∧ w.extractLsb' 12 3 = 0b000) ∨
      (w.extractLsb' 0 7 = opAmo ∧
        legalAtomic enableA (w.extractLsb' 12 3)
          (w.extractLsb' 27 5) = true) := by
  simp only [sisDecode, Bool.or_eq_true, Bool.and_eq_true, beq_iff_eq,
    legalJalr, legalFence, legalBranch_iff, legalLoad_iff, legalStore_iff,
    or_assoc] at legal
  exact legal

/-- The words of the decoder's instruction set. -/
def InSet (enableM enableA : Bool) (w : BitVec 32) : Prop :=
  ∃ i : Instr, i.enabled enableM enableA = true ∧ i.Reads w

theorem inSet_of_legal
    (legal : (sisDecode enableM enableA w).isLegal = true) :
    InSet enableM enableA w := by
  have u := eq_uType w
  have j := eq_jType w
  have i := eq_iType w
  have b := eq_bType w
  have st := eq_sType w
  have r := eq_rType w
  rcases legal_cases legal with lui | auipc | jal | ⟨jalr, zero⟩ |
    ⟨branch, op, is⟩ | ⟨load, op, is⟩ | ⟨store, op, is⟩ | ⟨imm, codes⟩ |
    ⟨reg, codes⟩ | ⟨system, codes⟩ | ⟨fence, zero⟩ | ⟨amo, codes⟩
  · rw [lui] at u
    exact ⟨.base (.lui _ _), rfl, u⟩
  · rw [auipc] at u
    exact ⟨.base (.auipc _ _), rfl, u⟩
  · rw [jal] at j
    exact ⟨.base (.jal _ _), rfl, j⟩
  · rw [jalr, zero] at i
    exact ⟨.base (.jalr _ _ _), rfl, i⟩
  · rw [branch, ← is] at b
    exact ⟨.base (.branch op _ _ _), rfl, b⟩
  · rw [load, ← is] at i
    exact ⟨.base (.load op _ _ _), rfl, i⟩
  · rw [store, ← is] at st
    exact ⟨.base (.store op _ _ _), rfl, st⟩
  · rcases legalAluImm_iff.mp codes with ⟨op, is⟩ | ⟨op, is, seven⟩
    · rw [imm, ← is] at i
      exact ⟨.base (.opImm op _ _ _), rfl, i⟩
    · rw [imm, ← is, ← seven] at r
      exact ⟨.base (.shiftImm op _ _ _), rfl, r⟩
  · rcases legalAluReg_iff.mp codes with ⟨op, is, seven⟩ | ⟨enabled, mul⟩
    · rw [reg, ← is, ← seven] at r
      exact ⟨.base (.opReg op _ _ _), rfl, r⟩
    · obtain ⟨op, is⟩ := exists_mulOp (w.extractLsb' 12 3)
      rw [reg, ← is, mul] at r
      exact ⟨.mul op _ _ _, enabled, r⟩
  · rcases legalSystem_iff.mp codes with ⟨zero, named⟩ | ⟨op, is⟩
    · rw [system, zero] at i
      rcases named with is | is | is | is <;> rw [is] at i
      · exact ⟨.ecall, rfl, _, _, i⟩
      · exact ⟨.ebreak, rfl, _, _, i⟩
      · exact ⟨.wfi, rfl, _, _, i⟩
      · exact ⟨.mret, rfl, _, _, i⟩
    · rw [system, ← is] at i
      exact ⟨.csr op _ _ _, rfl, i⟩
  · rw [fence, zero] at i
    exact ⟨.fence _ _ _, rfl, i⟩
  · obtain ⟨enabled, two, is⟩ := legalAtomic_iff.mp codes
    rw [amo, two, eq_atomicFunct7] at r
    rcases is with lr | sc | ⟨op, is⟩
    · rw [lr] at r
      exact ⟨.lr _ _ _ _, enabled, _, r⟩
    · rw [sc] at r
      exact ⟨.sc _ _ _ _ _, enabled, r⟩
    · rw [← is] at r
      exact ⟨.amo op _ _ _ _ _, enabled, r⟩

@[simp]
theorem atomicFunct7_funct5 (funct5 : BitVec 5) (aq rl : Bool) :
    (atomicFunct7 funct5 aq rl).extractLsb' 2 5 = funct5 := by
  rw [atomicFunct7, BitVec.append_assoc]
  exact BitVec.extractLsb'_append_eq_left

/-- The class of an opcode decides. -/
theorem isLegal_of_opcode {opcode : BitVec 7}
    (same : w.extractLsb' 0 7 = opcode) :
    (sisDecode enableM enableA w).isLegal =
      (opcode == opLui || opcode == opAuipc || opcode == opJal ||
        (opcode == opJalr && legalJalr (w.extractLsb' 12 3)) ||
        (opcode == opBranch && legalBranch (w.extractLsb' 12 3)) ||
        (opcode == opLoad && legalLoad (w.extractLsb' 12 3)) ||
        (opcode == opStore && legalStore (w.extractLsb' 12 3)) ||
        (opcode == opAluImm &&
          legalAluImm (w.extractLsb' 12 3) (w.extractLsb' 25 7)) ||
        (opcode == opAluReg &&
          legalAluReg enableM (w.extractLsb' 12 3) (w.extractLsb' 25 7)) ||
        (opcode == opSystem &&
          legalSystem (w.extractLsb' 12 3) (w.extractLsb' 20 12)) ||
        (opcode == opFence && legalFence (w.extractLsb' 12 3)) ||
        (opcode == opAmo &&
          legalAtomic enableA (w.extractLsb' 12 3)
            (w.extractLsb' 27 5))) := by
  subst same
  rfl

theorem legal_of_base (i : Base) :
    (sisDecode enableM enableA i.encode).isLegal = true := by
  rw [isLegal_of_opcode rfl]
  cases i with
  | lui | auipc | jal | jalr =>
      simp +decide [Base.encode]
  | branch op =>
      simp +decide [Base.encode, legalBranch_iff.mpr ⟨op, rfl⟩]
  | load op =>
      simp +decide [Base.encode, legalLoad_iff.mpr ⟨op, rfl⟩]
  | store op =>
      simp +decide [Base.encode, legalStore_iff.mpr ⟨op, rfl⟩]
  | opImm op =>
      simp +decide [Base.encode, legalAluImm_iff.mpr (.inl ⟨op, rfl⟩)]
  | shiftImm op =>
      simp +decide [Base.encode,
        legalAluImm_iff.mpr (.inr ⟨op, rfl, rfl⟩)]
  | opReg op =>
      simp +decide [Base.encode,
        legalAluReg_iff.mpr (.inl ⟨op, rfl, rfl⟩)]

theorem legal_of_inSet (inSet : InSet enableM enableA w)
    (other : ¬ IsFenceI w) :
    (sisDecode enableM enableA w).isLegal = true := by
  obtain ⟨i, enabled, reads⟩ := inSet
  cases i with
  | base i =>
      subst reads
      exact legal_of_base i
  | fence fields rd rs1 =>
      subst reads
      rw [isLegal_of_opcode rfl]
      simp +decide [Instr.encode]
  | fencei =>
      subst reads
      exact absurd other (by simp +decide)
  | ecall | ebreak | mret | wfi =>
      obtain ⟨rs1, rd, rfl⟩ := reads
      rw [isLegal_of_opcode rfl]
      simp +decide
  | csr op rd field addr =>
      subst reads
      rw [isLegal_of_opcode rfl]
      simp +decide [Instr.encode, legalSystem_iff.mpr (.inr ⟨op, rfl⟩)]
  | mul op rd rs1 rs2 =>
      subst reads
      rw [isLegal_of_opcode rfl]
      simp +decide [Instr.encode]
      exact legalAluReg_iff.mpr (.inr ⟨enabled, rfl⟩)
  | lr aq rl rd rs1 =>
      obtain ⟨rs2, rfl⟩ := reads
      rw [isLegal_of_opcode rfl]
      simp +decide
      exact legalAtomic_iff.mpr ⟨enabled, rfl, .inl rfl⟩
  | sc aq rl rd rs1 rs2 =>
      subst reads
      rw [isLegal_of_opcode rfl]
      simp +decide [Instr.encode]
      exact legalAtomic_iff.mpr ⟨enabled, rfl, .inr (.inl rfl)⟩
  | amo op aq rl rd rs1 rs2 =>
      subst reads
      rw [isLegal_of_opcode rfl]
      simp +decide [Instr.encode]
      exact legalAtomic_iff.mpr ⟨enabled, rfl, .inr (.inr ⟨op, rfl⟩)⟩

/-! ## Class flags -/

theorem classFlags_of_legal
    (legal : (sisDecode enableM enableA w).isLegal = true) :
    (sisDecode enableM enableA w).classFlags.count true = 1 := by
  have coherent := sisDecode_coherent enableM enableA w
  have one {opcode : BitVec 7} (same : w.extractLsb' 0 7 = opcode)
      (known : opcode ∈ [opLui, opAuipc, opJal, opJalr, opBranch, opLoad,
        opStore, opAluImm, opAluReg, opSystem, opFence, opAmo]) :
      (sisDecode enableM enableA w).classFlags.count true = 1 := by
    have flags := coherent.flags_of_opcode same
    simp only [Decoded.classFlags, flags]
    revert known
    clear same flags
    revert opcode
    decide
  rcases legal_cases legal with is | is | is | ⟨is, -⟩ | ⟨is, -⟩ |
    ⟨is, -⟩ | ⟨is, -⟩ | ⟨is, -⟩ | ⟨is, -⟩ | ⟨is, -⟩ | ⟨is, -⟩ | ⟨is, -⟩ <;>
    exact one is (by decide)

/-- The decoder rejects FENCE.I. -/
theorem not_legal_of_fenceI (fenceI : IsFenceI w) :
    (sisDecode enableM enableA w).isLegal = false := by
  rw [isLegal_of_opcode fenceI.1, fenceI.2]
  rfl

end Legal

/-- A word that is not FENCE.I is legal exactly when it is in the instruction
set, and a legal word has one class flag.  FENCE.I is in the set, but the
decoder rejects it (`not_legal_of_fenceI`). -/
theorem isLegal_iff (enableM enableA : Bool) (w : BitVec 32) :
    (¬ IsFenceI w →
      ((sisDecode enableM enableA w).isLegal = true ↔
        InSet enableM enableA w)) ∧
      ((sisDecode enableM enableA w).isLegal = true →
        (sisDecode enableM enableA w).classFlags.count true = 1) :=
  ⟨fun other => ⟨inSet_of_legal, fun inSet => legal_of_inSet inSet other⟩,
    classFlags_of_legal⟩

theorem isLegal_iff_ecall :
    (sisDecode true true 0x00000073).isLegal = true :=
  ((isLegal_iff true true 0x00000073).1 (by decide)).mpr
    ⟨.ecall, rfl, 0, 0, rfl⟩

/-- LR.W with `rs2 = x1` is no encoding. -/
theorem encode_ne_lr (i : Instr) : 0x1010A1AF ≠ i.encode := by
  intro encoded
  have opcode := congrArg (BitVec.extractLsb' 0 7) encoded
  have five := congrArg (BitVec.extractLsb' 27 5) encoded
  have rs2 := congrArg (BitVec.extractLsb' 20 5) encoded
  cases i with
  | base i => cases i <;> simp [Instr.encode, Base.encode] at opcode
  | lr => simp [Instr.encode] at rs2
  | sc => simp [Instr.encode] at five
  | amo op => cases op <;> simp [Instr.encode, AmoOp.funct5] at five
  | _ => simp [Instr.encode] at opcode

theorem not_isLegal_iff :
    ¬ ∀ (enableM enableA : Bool) (w : BitVec 32),
      w.extractLsb' 0 2 = 0b11 →
      ((sisDecode enableM enableA w).isLegal = true ↔
          ∃ i : Instr, i.enabled enableM enableA = true ∧ w = i.encode) ∧
        ((sisDecode enableM enableA w).isLegal = true →
          (sisDecode enableM enableA w).classFlags.count true = 1) := by
  intro all
  obtain ⟨i, -, encoded⟩ := (all true true 0x1010A1AF (by decide)).1.mp
    (by decide)
  exact encode_ne_lr i encoded

end SisRv
