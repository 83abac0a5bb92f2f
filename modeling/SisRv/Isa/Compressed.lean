import SisRv.Isa.Decoder
import SisRv.Isa.Effects

/-!
# The expander means RV32C

`sisDecompress` accepts the encodings of RV32C, up to the hints among the
shifts, and the datapath executes each expansion as the compressed
instruction.
-/

namespace SisRv

open Riscv

/-! ## Immediates of a parcel -/

section Immediates

variable (c : BitVec 16)

theorem addi4spnUimm_eq :
    addi4spnUimm c = narrowBits.symm (c.extractLsb' 5 8) ++ 0#2 := by
  simp only [addi4spnUimm, narrowBits, Equiv.coe_fn_symm_mk]
  simp (disch := decide) only [BitField.extract_extract]

theorem c0LsUimm_eq :
    c0LsUimm c =
      0#1 ++ wordsBits.symm (c.extractLsb' 10 3, c.extractLsb' 5 2) ++
        0#2 := by
  apply BitVec.eq_of_getLsbD_eq
  intro k bound
  rw [BitVec.getLsbD_append]
  simp only [BitVec.getLsbD_append, wordsBits, Equiv.coe_fn_symm_mk,
    BitVec.getLsbD_extractLsb']
  interval_cases k <;> simp [c0LsUimm]

theorem cImm6_eq : cImm6 c = c.extractLsb' 12 1 ++ c.extractLsb' 2 5 := rfl

theorem addi16spUimm_eq :
    addi16spUimm c = sixteensBits.symm (cImm6 c) ++ 0#4 := by
  simp only [addi16spUimm, sixteensBits, Equiv.coe_fn_symm_mk, cImm6]
  simp (disch := omega) only [BitVec.extractLsb'_append_eq_of_add_le,
    BitVec.extractLsb'_append_eq_of_le, Nat.reduceSub]
  simp (disch := decide) only [BitField.extract_extract, Nat.reduceAdd]

theorem cjImm12_eq :
    cjImm12 c = jumpBits.symm (c.extractLsb' 2 11) ++ 0#1 := by
  simp only [cjImm12, jumpBits, Equiv.coe_fn_symm_mk]
  simp (disch := decide) only [BitField.extract_extract, Nat.reduceAdd]

theorem cbImmPre_eq :
    cbImmPre c =
      0#3 ++ branchBits.symm (c.extractLsb' 10 3, c.extractLsb' 2 5) ++
        0#1 := by
  apply BitVec.eq_of_getLsbD_eq
  intro k bound
  rw [BitVec.getLsbD_append]
  simp only [BitVec.getLsbD_append, branchBits, Equiv.coe_fn_symm_mk,
    BitVec.getLsbD_extractLsb']
  interval_cases k <;> simp [cbImmPre]

theorem lwspUimm_eq :
    lwspUimm c = loadStackBits.symm (cImm6 c) ++ 0#2 := by
  simp only [lwspUimm, loadStackBits, Equiv.coe_fn_symm_mk, cImm6]
  simp (disch := omega) only [BitVec.extractLsb'_append_eq_of_add_le,
    BitVec.extractLsb'_append_eq_of_le, Nat.reduceSub]
  simp (disch := decide) only [BitField.extract_extract, Nat.reduceAdd]

theorem swspUimm_eq :
    swspUimm c = storeStackBits.symm (c.extractLsb' 7 6) ++ 0#2 := by
  simp only [swspUimm, storeStackBits, Equiv.coe_fn_symm_mk]
  simp (disch := decide) only [BitField.extract_extract, Nat.reduceAdd]

/-- To subtract 512 at bit 8 is to extend the sign. -/
theorem cbImmS_eq :
    cbImmS c =
      (branchBits.symm (c.extractLsb' 10 3, c.extractLsb' 2 5)).signExtend
        11 ++ 0#1 := by
  have extended : ∀ offset : BitVec 8,
      (if (0#3 ++ offset ++ 0#1 : BitVec 12).getLsbD 8 then
        (0#3 ++ offset ++ 0#1 : BitVec 12) - 0x200
      else 0#3 ++ offset ++ 0#1) = offset.signExtend 11 ++ 0#1 := by
    decide
  rw [cbImmS, cbImmPre_eq]
  exact extended _

/-- The expanded branch, on one of eight registers. -/
theorem cbInsn_eq (funct3 : BitVec 1) :
    cbInsnBase c ||| ((cRs1p c).setWidth 32 <<< 15) |||
        (funct3.setWidth 32 <<< 12) ||| 0b1100011 =
      bType ((branchBits.symm
          (c.extractLsb' 10 3, c.extractLsb' 2 5)).signExtend 12) 0 (cRs1p c)
        (funct3.setWidth 3) 0b1100011 := by
  have base : ∀ offset : BitVec 8,
      let s : BitVec 12 := offset.signExtend 11 ++ 0#1
      (((s.signExtend 13).setWidth 32 &&& 0x1000) <<< 19) |||
            ((s.setWidth 32 &&& 0x7E0) <<< 20) |||
            ((s.setWidth 32 &&& 0x01E) <<< 7) |||
            ((s.setWidth 32 &&& 0x800) >>> 4) =
        bType (offset.signExtend 12) 0 0 0 0 := by
    decide
  have rest : ∀ (r : BitVec 3) (funct3 : BitVec 1),
      ((creg r).setWidth 32 <<< 15) |||
          ((funct3.setWidth 32 <<< 12) ||| 0b1100011) =
        bType 0 0 (creg r) (funct3.setWidth 3) 0b1100011 := by
    decide
  have whole (offset : BitVec 12) (rs1 : BitVec 5) (funct3 : BitVec 3)
      (op : BitVec 7) :
      bType offset 0 0 0 0 ||| bType 0 0 rs1 funct3 op =
        bType offset 0 rs1 funct3 op := by
    unfold bType
    iterate 7
      refine BitVec.or_append.trans (congrArg₂ (· ++ ·) ?_ (by simp))
    simp
  rw [cbInsnBase, cbImmExt, cbImmS_eq, BitVec.or_assoc, BitVec.or_assoc]
  exact (congrArg₂ (· ||| ·) (base _) (rest (c.extractLsb' 7 3) funct3)).trans
    (whole _ _ _ _)

/-- The jump offset, extended before its bit 0 is dropped. -/
theorem packJ_eq (rd : BitVec 5) :
    packJ (cjOff c) rd =
      jType ((jumpBits.symm (c.extractLsb' 2 11)).signExtend 20) rd
        0b1101111 := by
  have extended (offset : BitVec 11) :
      (offset ++ 0#1).signExtend 21 = offset.signExtend 20 ++ 0#1 :=
    BitField.signExtend_append_zeros offset 20 (by decide)
  rw [cjOff, cjImm12_eq, extended, packJ, jType]
  simp (disch := omega) only [BitVec.extractLsb'_append_eq_of_le,
    Nat.reduceSub]
  rfl

end Immediates

/-! ## Expansions -/

/-- The hints that the expander refuses. -/
def Riscv.Rvc.shiftHint : Rvc → Bool
  | slli rd shamt => shamt == 0 || rd == 0
  | srli _ shamt => shamt == 0
  | srai _ shamt => shamt == 0
  | _ => false

/-- The word that the expander gives. -/
def Riscv.Rvc.expansion (i : Rvc) : Option (BitVec 32) :=
  if i.wellFormed && !i.shiftHint then some i.expand.encode else none

theorem Riscv.Rvc.expansion_of {i : Rvc} (proper : i.wellFormed = true)
    (accepted : i.shiftHint = false) : i.expansion = some i.expand.encode := by
  simp [expansion, proper, accepted]

theorem Riscv.Rvc.expansion_of_shift {i : Rvc} {refused : Prop}
    [Decidable refused] (proper : i.wellFormed = true)
    (same : i.shiftHint = true ↔ refused) :
    (if refused then none else some i.expand.encode) = i.expansion := by
  have value : i.shiftHint = decide refused := by
    rw [Bool.eq_iff_iff, same, decide_eq_true_iff]
  rw [expansion, proper, value]
  by_cases given : refused <;> simp [given]

section Expansion

variable (c : BitVec 16)

theorem append_zeros_iff {w k : ℕ} (x : BitVec w) :
    x ++ 0#k = 0 ↔ x = 0 := by
  constructor
  · intro zero
    have high := congrArg (BitVec.extractLsb' k w) zero
    rw [BitVec.extractLsb'_append_eq_left] at high
    simpa using high
  · intro zero
    simp [zero]

theorem expandQuad0_eq :
    expandQuad0 c = (Rvc.quad0 c).bind Rvc.expansion := by
  have wide (imm : BitVec 5) :
      (0#1 ++ imm ++ 0#2).setWidth 12 = 0#5 ++ imm ++ 0#2 := by
    revert imm
    decide
  have high (imm : BitVec 5) :
      0#5 ++ (0#1 ++ imm ++ 0#2).extractLsb' 5 2 =
        (0#5 ++ imm ++ 0#2).extractLsb' 5 7 := by
    revert imm
    decide
  have low (imm : BitVec 5) :
      (0#1 ++ imm ++ 0#2).extractLsb' 0 5 =
        (0#5 ++ imm ++ 0#2).extractLsb' 0 5 := by
    revert imm
    decide
  unfold expandQuad0 Rvc.quad0
  dsimp only
  split_ifs with addi4spn none lw sw
  · rw [addi4spnUimm_eq, append_zeros_iff] at none
    simp [Rvc.expansion, Rvc.wellFormed, none]
  · rw [addi4spnUimm_eq, append_zeros_iff] at none
    have assoc (imm : BitVec 8) :
        0#2 ++ (imm ++ 0#2) = 0#2 ++ imm ++ 0#2 :=
      BitVec.append_assoc.symm
    have proper : (Rvc.addi4spn (c.extractLsb' 2 3)
        (narrowBits.symm (c.extractLsb' 5 8))).wellFormed = true :=
      bne_iff_ne.mpr none
    rw [Option.bind_some, Rvc.expansion_of proper rfl, addi4spnUimm_eq, assoc]
    rfl
  · rw [c0LsUimm_eq, wide]
    rfl
  · rw [c0LsUimm_eq, high, low]
    rfl
  · rfl

theorem expandQuad1Alu_eq :
    expandQuad1Alu c = (Rvc.quad1Alu c).bind Rvc.expansion := by
  have high : c.extractLsb' 10 3 =
      BitVec.ofBool (c.getLsbD 12) ++ c.extractLsb' 10 2 := by
    rw [← BitField.extract_one]
    simp (disch := decide) only
      [BitVec.extractLsb'_append_extractLsb'_eq_extractLsb']
  have code : (c.extractLsb' 2 5).extractLsb' 3 2 = c.extractLsb' 5 2 :=
    BitField.extract_extract c (by decide)
  have rs2 : (c.extractLsb' 2 5).extractLsb' 0 3 = c.extractLsb' 2 3 :=
    BitField.extract_extract c (by decide)
  have kinds (kind : BitVec 2) :
      kind = 0b00 ∨ kind = 0b01 ∨ kind = 0b10 ∨ kind = 0b11 := by
    revert kind
    decide
  unfold expandQuad1Alu Rvc.quad1Alu
  dsimp only
  rw [high, code, rs2]
  rcases kinds (c.extractLsb' 10 2) with srli | srai | andi | alu
  · rw [srli]
    cases bit : c.getLsbD 12
    · exact Rvc.expansion_of_shift
        (i := .srli (c.extractLsb' 7 3) (c.extractLsb' 2 5)) rfl
        (by simp [Rvc.shiftHint, cRs2])
    · simp +decide
  · rw [srai]
    cases bit : c.getLsbD 12
    · exact Rvc.expansion_of_shift
        (i := .srai (c.extractLsb' 7 3) (c.extractLsb' 2 5)) rfl
        (by simp [Rvc.shiftHint, cRs2])
    · simp +decide
  · rw [andi]
    have imm : cImm6 c = BitVec.ofBool (c.getLsbD 12) ++ c.extractLsb' 2 5 := by
      rw [cImm6, BitField.extract_one]
    rw [imm]
    cases bit : c.getLsbD 12
    · simp +decide
      rfl
    · simp +decide
      rfl
  · rw [alu]
    cases bit : c.getLsbD 12
    · simp +decide
      rcases kinds (c.extractLsb' 5 2) with op | op | op | op
      all_goals simp +decide [op, CaOp.ofCode]
      all_goals rfl
    · simp +decide

theorem expandQuad1_eq :
    expandQuad1 c = (Rvc.quad1 c).bind Rvc.expansion := by
  unfold expandQuad1 Rvc.quad1 cRdRs1
  dsimp only
  rw [← cImm6_eq]
  split_ifs with addi jal li x0 lui sp none none x0 alu j beqz
  · rfl
  · rw [packJ_eq]
    rfl
  · rw [x0]
    rfl
  · rfl
  · rw [addi16spUimm_eq, append_zeros_iff] at none
    simp [Rvc.expansion, Rvc.wellFormed, none]
  · rw [addi16spUimm_eq, append_zeros_iff] at none
    have proper : (Rvc.addi16sp
        (sixteensBits.symm (cImm6 c))).wellFormed = true :=
      bne_iff_ne.mpr none
    rw [Option.bind_some, Rvc.expansion_of proper rfl, addi16spUimm_eq]
    rfl
  · simp [Rvc.expansion, Rvc.wellFormed, none]
  · rw [x0, Option.bind_some, Rvc.expansion_of _ rfl]
    · rfl
    · rw [Rvc.wellFormed, bne_iff_ne.mpr none]
      rfl
  · rw [Option.bind_some, Rvc.expansion_of _ rfl]
    · rfl
    · rw [Rvc.wellFormed, bne_iff_ne.mpr none, bne_iff_ne.mpr sp]
      rfl
  · exact expandQuad1Alu_eq c
  · rw [packJ_eq]
    rfl
  · exact congrArg some (cbInsn_eq c 0)
  · exact congrArg some (cbInsn_eq c 1)

theorem expandQuad2_eq :
    expandQuad2 c = (Rvc.quad2 c).bind Rvc.expansion := by
  have bit : c.extractLsb' 12 1 = BitVec.ofBool (c.getLsbD 12) :=
    BitField.extract_one c 12
  have low (imm : BitVec 6) :
      (imm ++ 0#2).setWidth 12 = 0#4 ++ imm ++ 0#2 := by
    revert imm
    decide
  have upperHalf (imm : BitVec 6) :
      0#4 ++ (imm ++ 0#2).extractLsb' 5 3 =
        (0#4 ++ imm ++ 0#2).extractLsb' 5 7 := by
    revert imm
    decide
  have lowerHalf (imm : BitVec 6) :
      (imm ++ 0#2).extractLsb' 0 5 =
        (0#4 ++ imm ++ 0#2).extractLsb' 0 5 := by
    revert imm
    decide
  unfold expandQuad2 Rvc.quad2 cRdRs1 cRs2
  dsimp only
  rw [← cImm6_eq]
  by_cases slli : c.extractLsb' 13 3 = 0b000
  · rw [if_pos slli, if_pos slli, bit]
    cases c.getLsbD 12
    · exact Rvc.expansion_of_shift
        (i := .slli (c.extractLsb' 7 5) (c.extractLsb' 2 5)) rfl
        (by simp [Rvc.shiftHint])
    · rfl
  rw [if_neg slli, if_neg slli]
  by_cases lwsp : c.extractLsb' 13 3 = 0b010
  · rw [if_pos lwsp, if_pos lwsp]
    by_cases x0 : c.extractLsb' 7 5 = 0
    · rw [if_pos x0, x0]
      rfl
    · have proper : (Rvc.lwsp (c.extractLsb' 7 5)
          (loadStackBits.symm (cImm6 c))).wellFormed = true :=
        bne_iff_ne.mpr x0
      rw [if_neg x0, lwspUimm_eq, low, Option.bind_some,
        Rvc.expansion_of proper rfl]
      rfl
  rw [if_neg lwsp, if_neg lwsp]
  by_cases jump : c.extractLsb' 13 3 = 0b100
  · rw [if_pos jump, if_pos jump, bit]
    cases c.getLsbD 12
    · have clear : BitVec.ofBool false = 0 := rfl
      rw [if_pos rfl, if_pos clear]
      by_cases jr : c.extractLsb' 2 5 = 0
      · rw [if_pos jr, if_pos jr]
        by_cases x0 : c.extractLsb' 7 5 = 0
        · rw [if_pos x0, x0]
          rfl
        · have proper : (Rvc.jr (c.extractLsb' 7 5)).wellFormed = true :=
            bne_iff_ne.mpr x0
          rw [if_neg x0, Option.bind_some, Rvc.expansion_of proper rfl]
          rfl
      · have proper : (Rvc.mv (c.extractLsb' 7 5)
            (c.extractLsb' 2 5)).wellFormed = true :=
          bne_iff_ne.mpr jr
        rw [if_neg jr, if_neg jr, Option.bind_some,
          Rvc.expansion_of proper rfl]
        rfl
    · have bitSet : ¬ BitVec.ofBool true = 0 := by decide
      rw [if_neg Bool.false_ne_true.symm, if_neg bitSet]
      by_cases jalr : c.extractLsb' 2 5 = 0
      · by_cases x0 : c.extractLsb' 7 5 = 0
        · rw [if_pos ⟨jalr, x0⟩, if_pos jalr, if_pos x0]
          rfl
        · have proper : (Rvc.jalr (c.extractLsb' 7 5)).wellFormed = true :=
            bne_iff_ne.mpr x0
          rw [if_neg fun both => x0 both.2, if_pos jalr, if_pos jalr,
            if_neg x0, if_neg x0, Option.bind_some,
            Rvc.expansion_of proper rfl]
          rfl
      · have proper : (Rvc.add (c.extractLsb' 7 5)
            (c.extractLsb' 2 5)).wellFormed = true :=
          bne_iff_ne.mpr jalr
        rw [if_neg fun both => jalr both.1, if_neg jalr, if_neg jalr,
          Option.bind_some, Rvc.expansion_of proper rfl]
        rfl
  rw [if_neg jump, if_neg jump]
  by_cases swsp : c.extractLsb' 13 3 = 0b110
  · rw [if_pos swsp, if_pos swsp, swspUimm_eq, upperHalf, lowerHalf]
    rfl
  · rw [if_neg swsp, if_neg swsp]
    rfl

/-- A parcel is expanded when it encodes an instruction, other than a hint
among the shifts. -/
theorem expandParcel_eq :
    expandParcel c = (Rvc.candidate c).bind Rvc.expansion := by
  unfold expandParcel Rvc.candidate
  dsimp only
  split_ifs
  · exact expandQuad0_eq c
  · exact expandQuad1_eq c
  · exact expandQuad2_eq c
  · rfl

end Expansion

/-! ## Acceptance -/

section Acceptance

variable {c : BitVec 16} {i : Rvc}

theorem expandParcel_of_encode (proper : i.wellFormed = true)
    (encodes : i.encode = c) : expandParcel c = i.expansion := by
  rw [expandParcel_eq, ← encodes, Rvc.candidate_encode proper]
  rfl

theorem instrO_of_encode (proper : i.wellFormed = true)
    (accepted : i.shiftHint = false) (encodes : i.encode = c) :
    (sisDecompress c).instrO = i.expand.encode := by
  rw [sisDecompress, expandParcel_of_encode proper encodes,
    Rvc.expansion_of proper accepted]
  rfl

/-- The expander flags what is no instruction, and the hints among the
shifts. -/
theorem illegalO_iff (parcel : c.extractLsb' 0 2 ≠ 0b11) :
    (sisDecompress c).illegalO = true ↔
      ¬ ∃ i : Rvc,
        i.wellFormed = true ∧ i.shiftHint = false ∧ i.encode = c := by
  rw [sisDecompress, bne_iff_ne.mpr parcel, Bool.true_and,
    Option.isNone_iff_eq_none]
  constructor
  · rintro refused ⟨i, proper, accepted, encodes⟩
    rw [expandParcel_of_encode proper encodes,
      Rvc.expansion_of proper accepted] at refused
    exact absurd refused (by simp)
  · intro none
    rw [expandParcel_eq, Option.bind_eq_none_iff]
    intro i is
    rw [Rvc.expansion, if_neg]
    intro both
    rw [Bool.and_eq_true, Bool.not_eq_true'] at both
    exact none ⟨i, both.1, both.2, Rvc.encode_of_candidate is⟩

end Acceptance

/-- C.SLLI with a zero amount or to x0, and C.SRLI and C.SRAI with a zero
amount, where bit 12 is clear. -/
def IsShiftHint (c : BitVec 16) : Prop :=
  c.extractLsb' 0 2 = 0b10 ∧ c.extractLsb' 13 3 = 0b000 ∧
      c.extractLsb' 12 1 = 0 ∧
      (c.extractLsb' 2 5 = 0 ∨ c.extractLsb' 7 5 = 0) ∨
    c.extractLsb' 0 2 = 0b01 ∧ c.extractLsb' 13 3 = 0b100 ∧
      (c.extractLsb' 10 3 = 0b000 ∨ c.extractLsb' 10 3 = 0b001) ∧
      c.extractLsb' 2 5 = 0

instance (c : BitVec 16) : Decidable (IsShiftHint c) :=
  inferInstanceAs (Decidable (_ ∨ _))

theorem isShiftHint_iff {c : BitVec 16} :
    IsShiftHint c ↔
      ∃ i : Rvc, i.wellFormed = true ∧ i.shiftHint = true ∧ i.encode = c := by
  constructor
  · rintro (⟨op, funct3, bit, idle⟩ | ⟨op, funct3, kind, zero⟩)
    · have whole := eq_ciType c
      rw [op, funct3, bit] at whole
      refine ⟨.slli (c.extractLsb' 7 5) (c.extractLsb' 2 5), rfl, ?_,
        whole.symm⟩
      rw [Rvc.shiftHint, Bool.or_eq_true, beq_iff_eq, beq_iff_eq]
      exact idle
    · have whole := eq_cbType c
      rw [op, funct3, zero] at whole
      rcases kind with srli | srai
      · rw [srli] at whole
        exact ⟨.srli (c.extractLsb' 7 3) 0, rfl, rfl, whole.symm⟩
      · rw [srai] at whole
        exact ⟨.srai (c.extractLsb' 7 3) 0, rfl, rfl, whole.symm⟩
  · rintro ⟨i, -, hint, rfl⟩
    cases i with
    | slli rd shamt =>
        obtain ⟨op, funct3, dest, low, bit⟩ :=
          ciType_fields 0b000 0b10 (0#1 ++ shamt) rd
        rw [(Rvc.field_parts 0#1 shamt).2] at low
        rw [(Rvc.field_parts 0#1 shamt).1] at bit
        rw [Rvc.shiftHint, Bool.or_eq_true, beq_iff_eq, beq_iff_eq] at hint
        refine .inl ⟨op, funct3, bit, ?_⟩
        rw [Rvc.encode, low, dest]
        exact hint
    | srli rd shamt =>
        obtain ⟨op, funct3, low, -, high⟩ :=
          cbType_fields 0b100 0b01 0b000 rd shamt
        exact .inr ⟨op, funct3, .inl high, low.trans (beq_iff_eq.mp hint)⟩
    | srai rd shamt =>
        obtain ⟨op, funct3, low, -, high⟩ :=
          cbType_fields 0b100 0b01 0b001 rd shamt
        exact .inr ⟨op, funct3, .inr high, low.trans (beq_iff_eq.mp hint)⟩
    | _ => exact absurd hint (by simp [Rvc.shiftHint])

/-! ## Meaning -/

/-- EX holds the expansion of a parcel, with the operands of a register file,
in its first cycle. -/
structure Core.HoldsParcel {p : Params} (s : Core p) (c : BitVec 16)
    (x : BitVec 5 → BitVec 32) : Prop where
  executes : s.Executes (sisDecompress c).instrO x
  instr : s.ex.instr = (sisDecompress c).instrO
  len : s.ex.len = 2

/-- ID hands the parcel it holds to EX, with the operands that it selects. -/
theorem Core.holdsParcel_of_issue {p : Params} {s : Core p} {i : CoreIn}
    {x : BitVec 5 → BitVec 32} {pc : BitVec 32} {c : BitVec 16}
    (issue : s.idToExFire i = true) (holds : s.fe.ifId = compressedParcel pc c)
    (rs1 : s.idRs1Val i = x ((sisDecompress c).instrO.extractLsb' 15 5))
    (rs2 : s.idRs2Val i = x ((sisDecompress c).instrO.extractLsb' 20 5)) :
    (s.step i).HoldsParcel c x ∧ (s.step i).ex.state = .exExec ∧
      (s.step i).ex.illegalCompressed = (sisDecompress c).illegalO := by
  have ex : (s.step i).ex = s.issuedEx i := by
    rw [step_ex, exNext_of_issue s i issue]
  have parcel : s.decomp = sisDecompress c := by
    rw [decomp, holds, compressedParcel, BitVec.extractLsb'_append_eq_right]
  have word : s.decodedInstr = (sisDecompress c).instrO := by
    rw [decodedInstr, parcel, holds, compressedParcel, if_pos rfl]
  rw [ex]
  refine ⟨⟨⟨?_, ?_, ?_⟩, ?_, ?_⟩, rfl, ?_⟩
  · rw [ex, ← word]
    rfl
  · rw [ex]
    exact rs1
  · rw [ex]
    exact rs2
  · rw [ex]
    exact word
  · rw [ex]
    show s.fe.ifId.len = 2
    rw [holds]
    rfl
  · show (s.fe.ifId.isCompressed && s.decomp.illegalO) = _
    rw [parcel, holds]
    rfl

/-- The instruction in EX changes the PC only. -/
structure Core.Idles {p : Params} (s : Core p) (x : BitVec 5 → BitVec 32) :
    Prop where
  quiet : s.exDAccessRaw = false
  next : ∀ {t i}, s.Ends t i → t.irqPending i = false →
    t.exPcNext i = moved s.ex.pc 2
  regs : ∀ {t i}, s.Ends t i → ∀ j, (t.step i).wbWrite j x = x

/-- A parcel means what RV32C says. -/
structure MeansRvc (c : BitVec 16) : Prop where
  illegal : (sisDecompress c).illegalO = true ↔
    ¬ ∃ i : Rvc, i.wellFormed = true ∧ i.encode = c
  legal : ∀ {i : Rvc}, i.wellFormed = true → i.encode = c →
    ∀ enableM enableA,
      (sisDecode enableM enableA (sisDecompress c).instrO).isLegal = true
  hint : ∀ {i : Rvc}, i.wellFormed = true → i.encode = c → i.hint = true →
    ∀ {p : Params} {s : Core p} {x : BitVec 5 → BitVec 32},
      x 0 = 0 → s.HoldsParcel c x → s.Idles x
  means : ∀ {i : Rvc}, i.wellFormed = true → i.encode = c →
    ∀ {p : Params} {s : Core p} {x : BitVec 5 → BitVec 32},
      x 0 = 0 → s.HoldsParcel c x → s.Performs (i.outcome x s.ex.pc)

theorem Riscv.Rvc.expand_cases (i : Rvc) :
    (∃ b : Base, i.expand = .base b ∧ b.computes = true) ∨
      (∃ rd rs1 imm, i.expand = .base (.load .lw rd rs1 imm)) ∨
      (∃ rs1 rs2 imm, i.expand = .base (.store .sw rs1 rs2 imm)) ∨
      i = .ebreak := by
  cases i with
  | lw => exact .inr (.inl ⟨_, _, _, rfl⟩)
  | lwsp => exact .inr (.inl ⟨_, _, _, rfl⟩)
  | sw => exact .inr (.inr (.inl ⟨_, _, _, rfl⟩))
  | swsp => exact .inr (.inr (.inl ⟨_, _, _, rfl⟩))
  | ebreak => exact .inr (.inr (.inr rfl))
  | _ => exact .inl ⟨_, rfl, rfl⟩

theorem legal_of_expand (i : Rvc) (enableM enableA : Bool) :
    (sisDecode enableM enableA i.expand.encode).isLegal = true := by
  rcases i.expand_cases with
    ⟨b, is, -⟩ | ⟨rd, rs1, imm, is⟩ | ⟨rs1, rs2, imm, is⟩ | is
  · rw [is]
    exact legal_of_base b
  · rw [is]
    exact legal_of_base _
  · rw [is]
    exact legal_of_base _
  · rw [is, isLegal_of_opcode rfl]
    decide +revert

theorem performs_of_expand {p : Params} {s : Core p}
    {x : BitVec 5 → BitVec 32} {i : Rvc} (zero : x 0 = 0)
    (executes : s.Executes i.expand.encode x)
    (instr : s.ex.instr = i.expand.encode) (len : s.ex.len = 2) :
    s.Performs (i.outcome x s.ex.pc) := by
  have length : s.exLength = 2 := by rw [Core.exLength, len, if_pos rfl]
  have same {b : Base} (is : i.expand = .base b)
      (performs : s.Performs (b.outcome x s.ex.pc s.exLength)) :
      s.Performs (i.outcome x s.ex.pc) := by
    rw [length, ← Core.performs_kept_iff, i.outcome_expand zero is] at performs
    exact Core.performs_kept_iff.mp performs
  rcases i.expand_cases with
    ⟨b, is, computes⟩ | ⟨rd, rs1, imm, is⟩ | ⟨rs1, rs2, imm, is⟩ | is
  · rw [is] at executes
    exact same is (Core.performs_of_computes computes executes)
  · rw [is] at executes
    exact same is (Core.performs_of_lw executes)
  · rw [is] at executes
    exact same is (Core.performs_of_sw executes)
  · subst is
    exact Core.performs_of_ebreak executes instr

/-- A hint changes the PC only. -/
theorem idles_of_performs {p : Params} {s : Core p}
    {x : BitVec 5 → BitVec 32} {o : Outcome} (performs : s.Performs o)
    (idles : o.Idles x s.ex.pc) : s.Idles x := by
  have goesOn : o.effect ≠ .breaks := by
    intro breaks
    exact absurd idles.silent (by simp [breaks, Effect.silent])
  refine ⟨?_, fun ends idle => ?_, fun ends j => ?_⟩
  · have requests := performs.requests
    have silent := idles.silent
    cases effect : o.effect <;>
      simp_all [Core.Requests, Effect.silent]
  · rw [performs.next ends idle, if_neg goesOn, idles.next]
  · rw [performs.regs ends, idles.regs]

/-- Every parcel means what RV32C says, except the hints among the shifts,
which are flagged illegal. -/
theorem means_rvc_iff {c : BitVec 16} (parcel : c.extractLsb' 0 2 ≠ 0b11) :
    MeansRvc c ↔ ¬ IsShiftHint c := by
  constructor
  · intro means isHint
    obtain ⟨i, proper, hint, encodes⟩ := isShiftHint_iff.mp isHint
    refine means.illegal.mp ((illegalO_iff parcel).mpr ?_) ⟨i, proper, encodes⟩
    rintro ⟨i', proper', accepted, encodes'⟩
    have same : i' = i := Rvc.encode_injective proper' proper
      (encodes'.trans encodes.symm)
    rw [same, hint] at accepted
    exact Bool.false_ne_true accepted.symm
  · intro notHint
    have accepted {i : Rvc} (proper : i.wellFormed = true)
        (encodes : i.encode = c) : i.shiftHint = false := by
      by_contra hint
      exact notHint (isShiftHint_iff.mpr ⟨i, proper, by simpa using hint,
        encodes⟩)
    have performs {i : Rvc} (proper : i.wellFormed = true)
        (encodes : i.encode = c) {p : Params} {s : Core p}
        {x : BitVec 5 → BitVec 32} (zero : x 0 = 0)
        (holds : s.HoldsParcel c x) : s.Performs (i.outcome x s.ex.pc) := by
      obtain ⟨executes, instr, len⟩ := holds
      rw [instrO_of_encode proper (accepted proper encodes) encodes]
        at executes instr
      exact performs_of_expand zero executes instr len
    refine ⟨?_, fun proper encodes enableM enableA => ?_,
      fun proper encodes hint p s x zero holds => ?_, performs⟩
    · rw [illegalO_iff parcel]
      refine not_congr (exists_congr fun i => ?_)
      exact ⟨fun ⟨proper, _, encodes⟩ => ⟨proper, encodes⟩,
        fun ⟨proper, encodes⟩ =>
          ⟨proper, accepted proper encodes, encodes⟩⟩
    · rw [instrO_of_encode proper (accepted proper encodes) encodes]
      exact legal_of_expand _ enableM enableA
    · exact idles_of_performs (performs proper encodes zero holds)
        (Rvc.idles_of_hint hint)

/-- `c.li a0, 1` and `c.nop` after reset; the first is in EX in cycle 3. -/
def executesLi : Core {} :=
  (Run.script {} (CoreIn.fetch [0x00014505])).state 3

theorem means_rvc_iff_li :
    MeansRvc 0x4505 ∧ executesLi.exPcNext {} = 2 ∧
      ∀ j rf, (executesLi.step {}).wbWrite j rf =
        Function.update rf 10 1 := by
  have means : MeansRvc 0x4505 :=
    (means_rvc_iff (by decide)).mpr (by decide)
  have holds : executesLi.HoldsParcel 0x4505 fun _ => 0 := by
    refine ⟨⟨?_, ?_, ?_⟩, ?_, ?_⟩ <;> decide
  have performs := means.means (i := .li 10 1) rfl rfl rfl holds
  have outcome : (Rvc.li 10 1).outcome (fun _ => 0) executesLi.ex.pc =
      ⟨.writes 10 1, 2⟩ := by
    decide
  have ends : executesLi.Ends executesLi {} := by
    constructor <;> decide
  rw [outcome] at performs
  exact ⟨means, performs.next ends (by decide), performs.regs ends⟩

/-- `c.slli ra, 0` is a hint, and it is flagged illegal. -/
theorem not_means_rvc_slli :
    ¬ ∀ c : BitVec 16, c.extractLsb' 0 2 ≠ 0b11 → MeansRvc c := by
  intro all
  have means := all 0x0082 (by decide)
  exact means.illegal.mp (by decide) ⟨.slli 1 0, rfl, rfl⟩

end SisRv
