import SisRv.Lib.Riscv.Semantics

/-!
# Compressed instructions

The 16-bit instructions of RV32C without floating point.  An immediate is kept
without the low bits that are zero.
-/

namespace SisRv.Riscv

/-- The operations on two registers. -/
inductive CaOp where
  | sub | xor | or | and
  deriving DecidableEq, Repr

inductive Rvc where
  | addi4spn (rd : BitVec 3) (imm : BitVec 8)
  | lw (rd rs1 : BitVec 3) (imm : BitVec 5)
  | sw (rs1 rs2 : BitVec 3) (imm : BitVec 5)
  | addi (rd : BitVec 5) (imm : BitVec 6)
  | jal (offset : BitVec 11)
  | li (rd : BitVec 5) (imm : BitVec 6)
  | addi16sp (imm : BitVec 6)
  | lui (rd : BitVec 5) (imm : BitVec 6)
  | srli (rd : BitVec 3) (shamt : BitVec 5)
  | srai (rd : BitVec 3) (shamt : BitVec 5)
  | andi (rd : BitVec 3) (imm : BitVec 6)
  | alu (op : CaOp) (rd rs2 : BitVec 3)
  | j (offset : BitVec 11)
  | beqz (rs1 : BitVec 3) (offset : BitVec 8)
  | bnez (rs1 : BitVec 3) (offset : BitVec 8)
  | slli (rd shamt : BitVec 5)
  | lwsp (rd : BitVec 5) (imm : BitVec 6)
  | jr (rs1 : BitVec 5)
  | mv (rd rs2 : BitVec 5)
  | ebreak
  | jalr (rs1 : BitVec 5)
  | add (rd rs2 : BitVec 5)
  | swsp (rs2 : BitVec 5) (imm : BitVec 6)
  deriving DecidableEq, Repr

/-! ## Encodings -/

/-- The eight registers that a field of three bits names. -/
def creg (r : BitVec 3) : BitVec 5 := 0b01#2 ++ r

/-! ### Formats, with the bits of the immediates as they stand -/

def ciType
    (funct3 : BitVec 3) (field : BitVec 6) (rd : BitVec 5) (op : BitVec 2) :
    BitVec 16 :=
  funct3 ++ field.extractLsb' 5 1 ++ rd ++ field.extractLsb' 0 5 ++ op

def cssType
    (funct3 : BitVec 3) (field : BitVec 6) (rs2 : BitVec 5) (op : BitVec 2) :
    BitVec 16 :=
  funct3 ++ field ++ rs2 ++ op

def ciwType
    (funct3 : BitVec 3) (field : BitVec 8) (rd : BitVec 3) (op : BitVec 2) :
    BitVec 16 :=
  funct3 ++ field ++ rd ++ op

/-- The second register is read by a store and written by a load. -/
def clType
    (funct3 high rs1 : BitVec 3) (low : BitVec 2) (reg : BitVec 3)
    (op : BitVec 2) : BitVec 16 :=
  funct3 ++ high ++ rs1 ++ low ++ reg ++ op

def cbType
    (funct3 high rs1 : BitVec 3) (low : BitVec 5) (op : BitVec 2) :
    BitVec 16 :=
  funct3 ++ high ++ rs1 ++ low ++ op

def cjType
    (funct3 : BitVec 3) (target : BitVec 11) (op : BitVec 2) : BitVec 16 :=
  funct3 ++ target ++ op

/-! ### The order of the bits of an immediate -/

def narrowBits : BitVec 8 ≃ BitVec 8 where
  toFun imm :=
    imm.extractLsb' 2 2 ++ imm.extractLsb' 4 4 ++ imm.extractLsb' 0 1 ++
      imm.extractLsb' 1 1
  invFun field :=
    field.extractLsb' 2 4 ++ field.extractLsb' 6 2 ++
      field.extractLsb' 0 1 ++ field.extractLsb' 1 1
  left_inv imm := by
    simp (disch := omega) only [BitVec.extractLsb'_append_eq_of_add_le,
      BitVec.extractLsb'_append_eq_of_le, Nat.reduceSub,
      BitVec.extractLsb'_eq_self]
    simp (disch := decide) only
      [BitVec.extractLsb'_append_extractLsb'_eq_extractLsb']
    simp
  right_inv field := by
    simp (disch := omega) only [BitVec.extractLsb'_append_eq_of_add_le,
      BitVec.extractLsb'_append_eq_of_le, Nat.reduceSub,
      BitVec.extractLsb'_eq_self]
    simp (disch := decide) only
      [BitVec.extractLsb'_append_extractLsb'_eq_extractLsb']
    simp

def wordsBits : BitVec 5 ≃ BitVec 3 × BitVec 2 where
  toFun imm :=
    (imm.extractLsb' 1 3, imm.extractLsb' 0 1 ++ imm.extractLsb' 4 1)
  invFun fields :=
    fields.2.extractLsb' 0 1 ++ fields.1 ++ fields.2.extractLsb' 1 1
  left_inv imm := by
    simp (disch := omega) only [BitVec.extractLsb'_append_eq_of_add_le,
      BitVec.extractLsb'_append_eq_of_le, Nat.reduceSub,
      BitVec.extractLsb'_eq_self]
    simp (disch := decide) only
      [BitVec.extractLsb'_append_extractLsb'_eq_extractLsb']
    simp
  right_inv fields := by
    simp (disch := omega) only [BitVec.extractLsb'_append_eq_of_add_le,
      BitVec.extractLsb'_append_eq_of_le, Nat.reduceSub,
      BitVec.extractLsb'_eq_self]
    simp (disch := decide) only
      [BitVec.extractLsb'_append_extractLsb'_eq_extractLsb']
    simp

def jumpBits : BitVec 11 ≃ BitVec 11 where
  toFun offset :=
    offset.extractLsb' 10 1 ++ offset.extractLsb' 3 1 ++
      offset.extractLsb' 7 2 ++ offset.extractLsb' 9 1 ++
      offset.extractLsb' 5 1 ++ offset.extractLsb' 6 1 ++
      offset.extractLsb' 0 3 ++ offset.extractLsb' 4 1
  invFun field :=
    field.extractLsb' 10 1 ++ field.extractLsb' 6 1 ++
      field.extractLsb' 7 2 ++ field.extractLsb' 4 1 ++
      field.extractLsb' 5 1 ++ field.extractLsb' 0 1 ++
      field.extractLsb' 9 1 ++ field.extractLsb' 1 3
  left_inv offset := by
    simp (disch := omega) only [BitVec.extractLsb'_append_eq_of_add_le,
      BitVec.extractLsb'_append_eq_of_le, Nat.reduceSub,
      BitVec.extractLsb'_eq_self]
    simp (disch := decide) only
      [BitVec.extractLsb'_append_extractLsb'_eq_extractLsb']
    simp
  right_inv field := by
    simp (disch := omega) only [BitVec.extractLsb'_append_eq_of_add_le,
      BitVec.extractLsb'_append_eq_of_le, Nat.reduceSub,
      BitVec.extractLsb'_eq_self]
    simp (disch := decide) only
      [BitVec.extractLsb'_append_extractLsb'_eq_extractLsb']
    simp

def branchBits : BitVec 8 ≃ BitVec 3 × BitVec 5 where
  toFun offset :=
    (offset.extractLsb' 7 1 ++ offset.extractLsb' 2 2,
      offset.extractLsb' 5 2 ++ offset.extractLsb' 0 2 ++
        offset.extractLsb' 4 1)
  invFun fields :=
    fields.1.extractLsb' 2 1 ++ fields.2.extractLsb' 3 2 ++
      fields.2.extractLsb' 0 1 ++ fields.1.extractLsb' 0 2 ++
      fields.2.extractLsb' 1 2
  left_inv offset := by
    simp (disch := omega) only [BitVec.extractLsb'_append_eq_of_add_le,
      BitVec.extractLsb'_append_eq_of_le, Nat.reduceSub,
      BitVec.extractLsb'_eq_self]
    simp (disch := decide) only
      [BitVec.extractLsb'_append_extractLsb'_eq_extractLsb']
    simp
  right_inv fields := by
    simp (disch := omega) only [BitVec.extractLsb'_append_eq_of_add_le,
      BitVec.extractLsb'_append_eq_of_le, Nat.reduceSub,
      BitVec.extractLsb'_eq_self]
    simp (disch := decide) only
      [BitVec.extractLsb'_append_extractLsb'_eq_extractLsb']
    simp

def sixteensBits : BitVec 6 ≃ BitVec 6 where
  toFun imm :=
    imm.extractLsb' 5 1 ++ imm.extractLsb' 0 1 ++ imm.extractLsb' 2 1 ++
      imm.extractLsb' 3 2 ++ imm.extractLsb' 1 1
  invFun field :=
    field.extractLsb' 5 1 ++ field.extractLsb' 1 2 ++
      field.extractLsb' 3 1 ++ field.extractLsb' 0 1 ++
      field.extractLsb' 4 1
  left_inv imm := by
    simp (disch := omega) only [BitVec.extractLsb'_append_eq_of_add_le,
      BitVec.extractLsb'_append_eq_of_le, Nat.reduceSub,
      BitVec.extractLsb'_eq_self]
    simp (disch := decide) only
      [BitVec.extractLsb'_append_extractLsb'_eq_extractLsb']
    simp
  right_inv field := by
    simp (disch := omega) only [BitVec.extractLsb'_append_eq_of_add_le,
      BitVec.extractLsb'_append_eq_of_le, Nat.reduceSub,
      BitVec.extractLsb'_eq_self]
    simp (disch := decide) only
      [BitVec.extractLsb'_append_extractLsb'_eq_extractLsb']
    simp

def loadStackBits : BitVec 6 ≃ BitVec 6 where
  toFun imm :=
    imm.extractLsb' 3 1 ++ imm.extractLsb' 0 3 ++ imm.extractLsb' 4 2
  invFun field :=
    field.extractLsb' 0 2 ++ field.extractLsb' 5 1 ++
      field.extractLsb' 2 3
  left_inv imm := by
    simp (disch := omega) only [BitVec.extractLsb'_append_eq_of_add_le,
      BitVec.extractLsb'_append_eq_of_le, Nat.reduceSub,
      BitVec.extractLsb'_eq_self]
    simp (disch := decide) only
      [BitVec.extractLsb'_append_extractLsb'_eq_extractLsb']
    simp
  right_inv field := by
    simp (disch := omega) only [BitVec.extractLsb'_append_eq_of_add_le,
      BitVec.extractLsb'_append_eq_of_le, Nat.reduceSub,
      BitVec.extractLsb'_eq_self]
    simp (disch := decide) only
      [BitVec.extractLsb'_append_extractLsb'_eq_extractLsb']
    simp

def storeStackBits : BitVec 6 ≃ BitVec 6 where
  toFun imm :=
    imm.extractLsb' 0 4 ++ imm.extractLsb' 4 2
  invFun field :=
    field.extractLsb' 0 2 ++ field.extractLsb' 2 4
  left_inv imm := by
    simp (disch := omega) only [BitVec.extractLsb'_append_eq_of_add_le,
      BitVec.extractLsb'_append_eq_of_le, Nat.reduceSub,
      BitVec.extractLsb'_eq_self]
    simp (disch := decide) only
      [BitVec.extractLsb'_append_extractLsb'_eq_extractLsb']
    simp
  right_inv field := by
    simp (disch := omega) only [BitVec.extractLsb'_append_eq_of_add_le,
      BitVec.extractLsb'_append_eq_of_le, Nat.reduceSub,
      BitVec.extractLsb'_eq_self]
    simp (disch := decide) only
      [BitVec.extractLsb'_append_extractLsb'_eq_extractLsb']
    simp

def CaOp.code : CaOp → BitVec 2
  | sub => 0b00
  | xor => 0b01
  | or => 0b10
  | and => 0b11

namespace Rvc

def encode : Rvc → BitVec 16
  | addi4spn rd imm => ciwType 0b000 (narrowBits imm) rd 0b00
  | lw rd rs1 imm =>
      clType 0b010 (wordsBits imm).1 rs1 (wordsBits imm).2 rd 0b00
  | sw rs1 rs2 imm =>
      clType 0b110 (wordsBits imm).1 rs1 (wordsBits imm).2 rs2 0b00
  | addi rd imm => ciType 0b000 imm rd 0b01
  | jal offset => cjType 0b001 (jumpBits offset) 0b01
  | li rd imm => ciType 0b010 imm rd 0b01
  | addi16sp imm => ciType 0b011 (sixteensBits imm) 2 0b01
  | lui rd imm => ciType 0b011 imm rd 0b01
  | srli rd shamt => cbType 0b100 0b000 rd shamt 0b01
  | srai rd shamt => cbType 0b100 0b001 rd shamt 0b01
  | andi rd imm =>
      cbType 0b100 (imm.extractLsb' 5 1 ++ 0b10#2) rd (imm.extractLsb' 0 5)
        0b01
  | alu op rd rs2 => cbType 0b100 0b011 rd (op.code ++ rs2) 0b01
  | j offset => cjType 0b101 (jumpBits offset) 0b01
  | beqz rs1 offset =>
      cbType 0b110 (branchBits offset).1 rs1 (branchBits offset).2 0b01
  | bnez rs1 offset =>
      cbType 0b111 (branchBits offset).1 rs1 (branchBits offset).2 0b01
  | slli rd shamt => ciType 0b000 (0#1 ++ shamt) rd 0b10
  | lwsp rd imm => ciType 0b010 (loadStackBits imm) rd 0b10
  | jr rs1 => ciType 0b100 (0#1 ++ 0#5) rs1 0b10
  | mv rd rs2 => ciType 0b100 (0#1 ++ rs2) rd 0b10
  | ebreak => ciType 0b100 (1#1 ++ 0#5) 0 0b10
  | jalr rs1 => ciType 0b100 (1#1 ++ 0#5) rs1 0b10
  | add rd rs2 => ciType 0b100 (1#1 ++ rs2) rd 0b10
  | swsp rs2 imm => cssType 0b110 (storeStackBits imm) rs2 0b10

/-- The fields are those of the instruction, not of a reserved encoding or of
another instruction. -/
def wellFormed : Rvc → Bool
  | addi4spn _ imm => imm != 0
  | addi16sp imm => imm != 0
  | lui rd imm => rd != 2 && imm != 0
  | lwsp rd _ => rd != 0
  | jr rs1 => rs1 != 0
  | mv _ rs2 => rs2 != 0
  | jalr rs1 => rs1 != 0
  | add _ rs2 => rs2 != 0
  | _ => true

/-- The encodings set aside for hints. -/
def hint : Rvc → Bool
  | addi rd imm => (rd == 0) != (imm == 0)
  | li rd _ => rd == 0
  | lui rd _ => rd == 0
  | srli _ shamt => shamt == 0
  | srai _ shamt => shamt == 0
  | slli rd shamt => rd == 0 || shamt == 0
  | mv rd _ => rd == 0
  | add rd _ => rd == 0
  | _ => false

end Rvc

/-! ## Meaning -/

def CaOp.regOp : CaOp → RegOp
  | sub => .sub
  | xor => .xor
  | or => .or
  | and => .and

namespace Rvc

/-- The outcome over a register file, at a PC. -/
def outcome (i : Rvc) (x : BitVec 5 → BitVec 32) (pc : BitVec 32) : Outcome :=
  let sequential := moved pc 2
  match i with
  | addi4spn rd imm =>
      ⟨.writes (creg rd) (moved (x 2) (4 * imm.toNat)), sequential⟩
  | lw rd rs1 imm =>
      ⟨.loads .lw (creg rd) (moved (x (creg rs1)) (4 * imm.toNat)),
        sequential⟩
  | sw rs1 rs2 imm =>
      ⟨.stores .sw (moved (x (creg rs1)) (4 * imm.toNat)) (x (creg rs2)),
        sequential⟩
  | addi rd imm => ⟨.writes rd (moved (x rd) imm.toInt), sequential⟩
  | jal offset => ⟨.writes 1 sequential, moved pc (2 * offset.toInt)⟩
  | li rd imm => ⟨.writes rd (BitVec.ofInt 32 imm.toInt), sequential⟩
  | addi16sp imm => ⟨.writes 2 (moved (x 2) (16 * imm.toInt)), sequential⟩
  | lui rd imm =>
      ⟨.writes rd (BitVec.ofInt 32 (imm.toInt * 2 ^ 12)), sequential⟩
  | srli rd shamt =>
      ⟨.writes (creg rd)
        (BitVec.ofNat 32 ((x (creg rd)).toNat / 2 ^ shamt.toNat)),
        sequential⟩
  | srai rd shamt =>
      ⟨.writes (creg rd)
        (BitVec.ofInt 32 ((x (creg rd)).toInt / 2 ^ shamt.toNat)),
        sequential⟩
  | andi rd imm =>
      ⟨.writes (creg rd) (x (creg rd) &&& BitVec.ofInt 32 imm.toInt),
        sequential⟩
  | alu op rd rs2 =>
      ⟨.writes (creg rd) (op.regOp.apply (x (creg rd)) (x (creg rs2))),
        sequential⟩
  | j offset => ⟨.nothing, moved pc (2 * offset.toInt)⟩
  | beqz rs1 offset =>
      ⟨.nothing,
        if x (creg rs1) = 0 then moved pc (2 * offset.toInt)
        else sequential⟩
  | bnez rs1 offset =>
      ⟨.nothing,
        if x (creg rs1) = 0 then sequential
        else moved pc (2 * offset.toInt)⟩
  | slli rd shamt =>
      ⟨.writes rd (BitVec.ofNat 32 ((x rd).toNat * 2 ^ shamt.toNat)),
        sequential⟩
  | lwsp rd imm =>
      ⟨.loads .lw rd (moved (x 2) (4 * imm.toNat)), sequential⟩
  | jr rs1 => ⟨.nothing, BitVec.ofInt 32 ((x rs1).toInt / 2 * 2)⟩
  | mv rd rs2 => ⟨.writes rd (x rs2), sequential⟩
  | ebreak => ⟨.breaks, pc⟩
  | jalr rs1 =>
      ⟨.writes 1 sequential, BitVec.ofInt 32 ((x rs1).toInt / 2 * 2)⟩
  | add rd rs2 => ⟨.writes rd (moved (x rd) (x rs2).toInt), sequential⟩
  | swsp rs2 imm =>
      ⟨.stores .sw (moved (x 2) (4 * imm.toNat)) (x rs2), sequential⟩

/-- The instruction of 32 bits with the same meaning. -/
def expand : Rvc → Instr
  | addi4spn rd imm => .base (.opImm .addi (creg rd) 2 (0#2 ++ imm ++ 0#2))
  | lw rd rs1 imm =>
      .base (.load .lw (creg rd) (creg rs1) (0#5 ++ imm ++ 0#2))
  | sw rs1 rs2 imm =>
      .base (.store .sw (creg rs1) (creg rs2) (0#5 ++ imm ++ 0#2))
  | addi rd imm => .base (.opImm .addi rd rd (imm.signExtend 12))
  | jal offset => .base (.jal 1 (offset.signExtend 20))
  | li rd imm => .base (.opImm .addi rd 0 (imm.signExtend 12))
  | addi16sp imm =>
      .base (.opImm .addi 2 2 ((imm ++ 0#4).signExtend 12))
  | lui rd imm => .base (.lui rd (imm.signExtend 20))
  | srli rd shamt => .base (.shiftImm .srli (creg rd) (creg rd) shamt)
  | srai rd shamt => .base (.shiftImm .srai (creg rd) (creg rd) shamt)
  | andi rd imm =>
      .base (.opImm .andi (creg rd) (creg rd) (imm.signExtend 12))
  | alu op rd rs2 =>
      .base (.opReg op.regOp (creg rd) (creg rd) (creg rs2))
  | j offset => .base (.jal 0 (offset.signExtend 20))
  | beqz rs1 offset =>
      .base (.branch .beq (creg rs1) 0 (offset.signExtend 12))
  | bnez rs1 offset =>
      .base (.branch .bne (creg rs1) 0 (offset.signExtend 12))
  | slli rd shamt => .base (.shiftImm .slli rd rd shamt)
  | lwsp rd imm => .base (.load .lw rd 2 (0#4 ++ imm ++ 0#2))
  | jr rs1 => .base (.jalr 0 rs1 0)
  | mv rd rs2 => .base (.opReg .add rd 0 rs2)
  | ebreak => .ebreak
  | jalr rs1 => .base (.jalr 1 rs1 0)
  | add rd rs2 => .base (.opReg .add rd rd rs2)
  | swsp rs2 imm => .base (.store .sw 2 rs2 (0#4 ++ imm ++ 0#2))

end Rvc

/-! ## The fields of a format -/

section Fields

variable (funct3 : BitVec 3) (op : BitVec 2)

theorem ciType_fields (field : BitVec 6) (rd : BitVec 5) :
    (ciType funct3 field rd op).extractLsb' 0 2 = op ∧
      (ciType funct3 field rd op).extractLsb' 13 3 = funct3 ∧
      (ciType funct3 field rd op).extractLsb' 7 5 = rd ∧
      (ciType funct3 field rd op).extractLsb' 2 5 =
        field.extractLsb' 0 5 ∧
      (ciType funct3 field rd op).extractLsb' 12 1 =
        field.extractLsb' 5 1 := by
  simp (disch := omega) only [ciType,
    BitVec.extractLsb'_append_eq_of_add_le,
    BitVec.extractLsb'_append_eq_of_le]
  simp

theorem cssType_fields (field : BitVec 6) (rs2 : BitVec 5) :
    (cssType funct3 field rs2 op).extractLsb' 0 2 = op ∧
      (cssType funct3 field rs2 op).extractLsb' 13 3 = funct3 ∧
      (cssType funct3 field rs2 op).extractLsb' 2 5 = rs2 ∧
      (cssType funct3 field rs2 op).extractLsb' 7 6 = field := by
  simp (disch := omega) only [cssType,
    BitVec.extractLsb'_append_eq_of_add_le,
    BitVec.extractLsb'_append_eq_of_le]
  simp

theorem ciwType_fields (field : BitVec 8) (rd : BitVec 3) :
    (ciwType funct3 field rd op).extractLsb' 0 2 = op ∧
      (ciwType funct3 field rd op).extractLsb' 13 3 = funct3 ∧
      (ciwType funct3 field rd op).extractLsb' 2 3 = rd ∧
      (ciwType funct3 field rd op).extractLsb' 5 8 = field := by
  simp (disch := omega) only [ciwType,
    BitVec.extractLsb'_append_eq_of_add_le,
    BitVec.extractLsb'_append_eq_of_le]
  simp

theorem clType_fields (high rs1 : BitVec 3) (low : BitVec 2)
    (reg : BitVec 3) :
    (clType funct3 high rs1 low reg op).extractLsb' 0 2 = op ∧
      (clType funct3 high rs1 low reg op).extractLsb' 13 3 = funct3 ∧
      (clType funct3 high rs1 low reg op).extractLsb' 2 3 = reg ∧
      (clType funct3 high rs1 low reg op).extractLsb' 5 2 = low ∧
      (clType funct3 high rs1 low reg op).extractLsb' 7 3 = rs1 ∧
      (clType funct3 high rs1 low reg op).extractLsb' 10 3 = high := by
  simp (disch := omega) only [clType,
    BitVec.extractLsb'_append_eq_of_add_le,
    BitVec.extractLsb'_append_eq_of_le]
  simp

theorem cbType_fields (high rs1 : BitVec 3) (low : BitVec 5) :
    (cbType funct3 high rs1 low op).extractLsb' 0 2 = op ∧
      (cbType funct3 high rs1 low op).extractLsb' 13 3 = funct3 ∧
      (cbType funct3 high rs1 low op).extractLsb' 2 5 = low ∧
      (cbType funct3 high rs1 low op).extractLsb' 7 3 = rs1 ∧
      (cbType funct3 high rs1 low op).extractLsb' 10 3 = high := by
  simp (disch := omega) only [cbType,
    BitVec.extractLsb'_append_eq_of_add_le,
    BitVec.extractLsb'_append_eq_of_le]
  simp

theorem cjType_fields (target : BitVec 11) :
    (cjType funct3 target op).extractLsb' 0 2 = op ∧
      (cjType funct3 target op).extractLsb' 13 3 = funct3 ∧
      (cjType funct3 target op).extractLsb' 2 11 = target := by
  simp (disch := omega) only [cjType,
    BitVec.extractLsb'_append_eq_of_add_le,
    BitVec.extractLsb'_append_eq_of_le]
  simp

end Fields

/-! ## A parcel from its fields -/

section Parcels

variable (c : BitVec 16)

theorem eq_ciType :
    c = ciType (c.extractLsb' 13 3) (c.extractLsb' 12 1 ++ c.extractLsb' 2 5)
      (c.extractLsb' 7 5) (c.extractLsb' 0 2) := by
  simp (disch := omega) only [ciType,
    BitVec.extractLsb'_append_eq_of_add_le,
    BitVec.extractLsb'_append_eq_of_le, Nat.reduceSub,
    BitVec.extractLsb'_eq_self]
  simp (disch := decide) only
    [BitVec.extractLsb'_append_extractLsb'_eq_extractLsb']
  simp

theorem eq_cssType :
    c = cssType (c.extractLsb' 13 3) (c.extractLsb' 7 6)
      (c.extractLsb' 2 5) (c.extractLsb' 0 2) := by
  simp (disch := decide) only [cssType,
    BitVec.extractLsb'_append_extractLsb'_eq_extractLsb']
  simp

theorem eq_ciwType :
    c = ciwType (c.extractLsb' 13 3) (c.extractLsb' 5 8)
      (c.extractLsb' 2 3) (c.extractLsb' 0 2) := by
  simp (disch := decide) only [ciwType,
    BitVec.extractLsb'_append_extractLsb'_eq_extractLsb']
  simp

theorem eq_clType :
    c = clType (c.extractLsb' 13 3) (c.extractLsb' 10 3) (c.extractLsb' 7 3)
      (c.extractLsb' 5 2) (c.extractLsb' 2 3) (c.extractLsb' 0 2) := by
  simp (disch := decide) only [clType,
    BitVec.extractLsb'_append_extractLsb'_eq_extractLsb']
  simp

theorem eq_cbType :
    c = cbType (c.extractLsb' 13 3) (c.extractLsb' 10 3) (c.extractLsb' 7 3)
      (c.extractLsb' 2 5) (c.extractLsb' 0 2) := by
  simp (disch := decide) only [cbType,
    BitVec.extractLsb'_append_extractLsb'_eq_extractLsb']
  simp

theorem eq_cjType :
    c = cjType (c.extractLsb' 13 3) (c.extractLsb' 2 11)
      (c.extractLsb' 0 2) := by
  simp (disch := decide) only [cjType,
    BitVec.extractLsb'_append_extractLsb'_eq_extractLsb']
  simp

end Parcels

/-! ## Decoding -/

def CaOp.ofCode (code : BitVec 2) : CaOp :=
  if code = 0b00 then .sub
  else if code = 0b01 then .xor
  else if code = 0b10 then .or
  else .and

theorem CaOp.ofCode_code (op : CaOp) : ofCode op.code = op := by
  cases op <;> rfl

theorem CaOp.code_ofCode (code : BitVec 2) : (ofCode code).code = code := by
  revert code
  decide

namespace Rvc

section Decode

variable (c : BitVec 16)

def quad0 : Option Rvc :=
  let imm := wordsBits.symm (c.extractLsb' 10 3, c.extractLsb' 5 2)
  if c.extractLsb' 13 3 = 0b000 then
    some (addi4spn (c.extractLsb' 2 3) (narrowBits.symm (c.extractLsb' 5 8)))
  else if c.extractLsb' 13 3 = 0b010 then
    some (lw (c.extractLsb' 2 3) (c.extractLsb' 7 3) imm)
  else if c.extractLsb' 13 3 = 0b110 then
    some (sw (c.extractLsb' 7 3) (c.extractLsb' 2 3) imm)
  else none

def quad1Alu : Option Rvc :=
  let high := c.extractLsb' 10 3
  let low := c.extractLsb' 2 5
  if high = 0b000 then some (srli (c.extractLsb' 7 3) low)
  else if high = 0b001 then some (srai (c.extractLsb' 7 3) low)
  else if high.extractLsb' 0 2 = 0b10 then
    some (andi (c.extractLsb' 7 3) (high.extractLsb' 2 1 ++ low))
  else if high = 0b011 then
    some (alu (.ofCode (low.extractLsb' 3 2)) (c.extractLsb' 7 3)
      (low.extractLsb' 0 3))
  else none

def quad1 : Option Rvc :=
  let imm := c.extractLsb' 12 1 ++ c.extractLsb' 2 5
  let offset := jumpBits.symm (c.extractLsb' 2 11)
  let target := branchBits.symm (c.extractLsb' 10 3, c.extractLsb' 2 5)
  if c.extractLsb' 13 3 = 0b000 then some (addi (c.extractLsb' 7 5) imm)
  else if c.extractLsb' 13 3 = 0b001 then some (jal offset)
  else if c.extractLsb' 13 3 = 0b010 then some (li (c.extractLsb' 7 5) imm)
  else if c.extractLsb' 13 3 = 0b011 then
    if c.extractLsb' 7 5 = 2 then some (addi16sp (sixteensBits.symm imm))
    else some (lui (c.extractLsb' 7 5) imm)
  else if c.extractLsb' 13 3 = 0b100 then quad1Alu c
  else if c.extractLsb' 13 3 = 0b101 then some (j offset)
  else if c.extractLsb' 13 3 = 0b110 then
    some (beqz (c.extractLsb' 7 3) target)
  else some (bnez (c.extractLsb' 7 3) target)

def quad2 : Option Rvc :=
  let rd := c.extractLsb' 7 5
  let rs2 := c.extractLsb' 2 5
  if c.extractLsb' 13 3 = 0b000 then
    if c.extractLsb' 12 1 = 0 then some (slli rd rs2) else none
  else if c.extractLsb' 13 3 = 0b010 then
    some (lwsp rd (loadStackBits.symm (c.extractLsb' 12 1 ++ rs2)))
  else if c.extractLsb' 13 3 = 0b100 then
    if c.extractLsb' 12 1 = 0 then
      if rs2 = 0 then some (jr rd) else some (mv rd rs2)
    else if rs2 = 0 then
      if rd = 0 then some ebreak else some (jalr rd)
    else some (add rd rs2)
  else if c.extractLsb' 13 3 = 0b110 then
    some (swsp rs2 (storeStackBits.symm (c.extractLsb' 7 6)))
  else none

/-- The instruction that the opcode and the function codes name. -/
def candidate : Option Rvc :=
  if c.extractLsb' 0 2 = 0b00 then quad0 c
  else if c.extractLsb' 0 2 = 0b01 then quad1 c
  else if c.extractLsb' 0 2 = 0b10 then quad2 c
  else none

/-- The instruction of a parcel. -/
def decode : Option Rvc := (candidate c).filter wellFormed

end Decode

section Sound

variable {c : BitVec 16} {i : Rvc}

theorem encode_of_quad0 (op : c.extractLsb' 0 2 = 0b00)
    (is : quad0 c = some i) : i.encode = c := by
  have narrow := eq_ciwType c
  have words := eq_clType c
  rw [op] at narrow words
  unfold quad0 at is
  dsimp only at is
  split_ifs at is with addi4spn lw sw
  · cases is
    rw [addi4spn] at narrow
    simp only [encode, Equiv.apply_symm_apply]
    exact narrow.symm
  · cases is
    rw [lw] at words
    simp only [encode, Equiv.apply_symm_apply]
    exact words.symm
  · cases is
    rw [sw] at words
    simp only [encode, Equiv.apply_symm_apply]
    exact words.symm

theorem encode_of_quad1Alu (op : c.extractLsb' 0 2 = 0b01)
    (funct3 : c.extractLsb' 13 3 = 0b100) (is : quad1Alu c = some i) :
    i.encode = c := by
  have branch := eq_cbType c
  rw [op, funct3] at branch
  unfold quad1Alu at is
  dsimp only at is
  split_ifs at is with srli srai andi alu
  · cases is
    rw [srli] at branch
    exact branch.symm
  · cases is
    rw [srai] at branch
    exact branch.symm
  · cases is
    have high : c.extractLsb' 10 3 =
        (c.extractLsb' 10 3).extractLsb' 2 1 ++ 0b10#2 := by
      calc c.extractLsb' 10 3 =
          (c.extractLsb' 10 3).extractLsb' 2 1 ++
            (c.extractLsb' 10 3).extractLsb' 0 2 := by
            simp (disch := decide) only
              [BitVec.extractLsb'_append_extractLsb'_eq_extractLsb']
            simp
        _ = (c.extractLsb' 10 3).extractLsb' 2 1 ++ 0b10#2 := by
            rw [andi]
            rfl
    rw [high] at branch
    rw [encode, BitVec.extractLsb'_append_eq_left,
      BitVec.extractLsb'_append_eq_right]
    exact branch.symm
  · cases is
    have low : c.extractLsb' 2 5 =
        (c.extractLsb' 2 5).extractLsb' 3 2 ++
          (c.extractLsb' 2 5).extractLsb' 0 3 := by
      simp (disch := decide) only
        [BitVec.extractLsb'_append_extractLsb'_eq_extractLsb']
      simp
    rw [alu] at branch
    rw [encode, CaOp.code_ofCode, ← low]
    exact branch.symm

theorem encode_of_quad1 (op : c.extractLsb' 0 2 = 0b01)
    (is : quad1 c = some i) : i.encode = c := by
  have imm := eq_ciType c
  have jump := eq_cjType c
  have branch := eq_cbType c
  rw [op] at imm jump branch
  unfold quad1 at is
  dsimp only at is
  split_ifs at is with addi jal li lui addi16sp alu j beqz
  · cases is
    rw [addi] at imm
    exact imm.symm
  · cases is
    rw [jal] at jump
    rw [encode, Equiv.apply_symm_apply]
    exact jump.symm
  · cases is
    rw [li] at imm
    exact imm.symm
  · cases is
    rw [lui, addi16sp] at imm
    rw [encode, Equiv.apply_symm_apply]
    exact imm.symm
  · cases is
    rw [lui] at imm
    exact imm.symm
  · exact encode_of_quad1Alu op alu is
  · cases is
    rw [j] at jump
    rw [encode, Equiv.apply_symm_apply]
    exact jump.symm
  · cases is
    rw [beqz] at branch
    rw [encode, Equiv.apply_symm_apply]
    exact branch.symm
  · cases is
    have bnez : c.extractLsb' 13 3 = 0b111 := by
      revert addi jal li lui alu j beqz
      generalize c.extractLsb' 13 3 = funct3
      bv_omega
    rw [bnez] at branch
    rw [encode, Equiv.apply_symm_apply]
    exact branch.symm

theorem encode_of_quad2 (op : c.extractLsb' 0 2 = 0b10)
    (is : quad2 c = some i) : i.encode = c := by
  have imm := eq_ciType c
  have store := eq_cssType c
  rw [op] at imm store
  have set (bit : c.extractLsb' 12 1 ≠ 0) : c.extractLsb' 12 1 = 1 := by
    revert bit
    generalize c.extractLsb' 12 1 = bit
    revert bit
    decide
  unfold quad2 at is
  dsimp only at is
  split_ifs at is with slli bit lwsp jump bit low low rd swsp
  · cases is
    rw [slli, bit] at imm
    exact imm.symm
  · cases is
    rw [lwsp] at imm
    rw [encode, Equiv.apply_symm_apply]
    exact imm.symm
  · cases is
    rw [jump, bit, low] at imm
    exact imm.symm
  · cases is
    rw [jump, bit] at imm
    exact imm.symm
  · cases is
    rw [jump, set bit, low, rd] at imm
    exact imm.symm
  · cases is
    rw [jump, set bit, low] at imm
    exact imm.symm
  · cases is
    rw [jump, set bit] at imm
    exact imm.symm
  · cases is
    rw [swsp] at store
    rw [encode, Equiv.apply_symm_apply]
    exact store.symm

theorem encode_of_candidate (is : candidate c = some i) : i.encode = c := by
  unfold candidate at is
  split_ifs at is with zero one two
  · exact encode_of_quad0 zero is
  · exact encode_of_quad1 one is
  · exact encode_of_quad2 two is

end Sound

/-- The two parts of a field of six bits. -/
theorem field_parts (bit : BitVec 1) (low : BitVec 5) :
    (bit ++ low).extractLsb' 5 1 = bit ∧
      (bit ++ low).extractLsb' 0 5 = low :=
  ⟨BitVec.extractLsb'_append_eq_left, BitVec.extractLsb'_append_eq_right⟩

theorem candidate_encode {i : Rvc} (proper : i.wellFormed = true) :
    candidate i.encode = some i := by
  have imm (field : BitVec 6) :
      field.extractLsb' 5 1 ++ field.extractLsb' 0 5 = field := by
    simp (disch := decide) only
      [BitVec.extractLsb'_append_extractLsb'_eq_extractLsb']
    simp
  cases i with
  | addi4spn rd imm => simp +decide [candidate, quad0, encode, ciwType_fields]
  | lw rd rs1 imm => simp +decide [candidate, quad0, encode, clType_fields]
  | sw rd rs1 imm => simp +decide [candidate, quad0, encode, clType_fields]
  | addi rd field =>
      simp +decide [candidate, quad1, encode, ciType_fields, imm]
  | jal offset => simp +decide [candidate, quad1, encode, cjType_fields]
  | li rd field =>
      simp +decide [candidate, quad1, encode, ciType_fields, imm]
  | addi16sp field =>
      simp +decide [candidate, quad1, encode, ciType_fields, imm]
  | lui rd field =>
      have other : ¬ rd = 2#5 := by
        simp only [wellFormed, Bool.and_eq_true, bne_iff_ne] at proper
        exact proper.1
      simp +decide [candidate, quad1, encode, ciType_fields, imm, other]
  | srli rd shamt =>
      simp +decide [candidate, quad1, quad1Alu, encode, cbType_fields]
  | srai rd shamt =>
      simp +decide [candidate, quad1, quad1Alu, encode, cbType_fields]
  | andi rd field =>
      have notSrli (bit : BitVec 1) : ¬ bit ++ 2#2 = 0#3 := by
        revert bit
        decide
      have notSrai (bit : BitVec 1) : ¬ bit ++ 2#2 = 1#3 := by
        revert bit
        decide
      have kept (bit : BitVec 1) : (bit ++ 2#2).extractLsb' 2 1 = bit := by
        revert bit
        decide
      have named (bit : BitVec 1) : (bit ++ 2#2).extractLsb' 0 2 = 2#2 := by
        revert bit
        decide
      simp +decide [candidate, quad1, quad1Alu, encode, cbType_fields,
        notSrli, notSrai, kept, named, imm]
  | alu op rd rs2 =>
      have code : (op.code ++ rs2).extractLsb' 3 2 = op.code :=
        BitVec.extractLsb'_append_eq_left
      have low : (op.code ++ rs2).extractLsb' 0 3 = rs2 :=
        BitVec.extractLsb'_append_eq_right
      simp +decide [candidate, quad1, quad1Alu, encode, cbType_fields, code,
        low, CaOp.ofCode_code]
  | j offset => simp +decide [candidate, quad1, encode, cjType_fields]
  | beqz rs1 offset => simp +decide [candidate, quad1, encode, cbType_fields]
  | bnez rs1 offset => simp +decide [candidate, quad1, encode, cbType_fields]
  | slli rd shamt =>
      simp +decide [candidate, quad2, encode, ciType_fields, field_parts]
  | lwsp rd field =>
      simp +decide [candidate, quad2, encode, ciType_fields, imm]
  | jr rs1 =>
      simp +decide [candidate, quad2, encode, ciType_fields]
  | mv rd rs2 =>
      have other : ¬ rs2 = 0#5 := by simpa [wellFormed] using proper
      simp +decide [candidate, quad2, encode, ciType_fields, field_parts,
        other]
  | ebreak => decide
  | jalr rs1 =>
      have other : ¬ rs1 = 0#5 := by simpa [wellFormed] using proper
      simp +decide [candidate, quad2, encode, ciType_fields, other]
  | add rd rs2 =>
      have other : ¬ rs2 = 0#5 := by simpa [wellFormed] using proper
      simp +decide [candidate, quad2, encode, ciType_fields, field_parts,
        other]
  | swsp rs2 field => simp +decide [candidate, quad2, encode, cssType_fields]

/-- The instructions are the well-formed ones, each with one encoding. -/
theorem decode_eq_some {c : BitVec 16} {i : Rvc} :
    decode c = some i ↔ i.wellFormed = true ∧ i.encode = c := by
  rw [decode, Option.filter_eq_some_iff]
  constructor
  · rintro ⟨is, proper⟩
    exact ⟨proper, encode_of_candidate is⟩
  · rintro ⟨proper, rfl⟩
    exact ⟨candidate_encode proper, proper⟩

/-- Two instructions differ in their encodings. -/
theorem encode_injective {i i' : Rvc} (proper : i.wellFormed = true)
    (proper' : i'.wellFormed = true) (same : i.encode = i'.encode) :
    i = i' := by
  have left := decode_eq_some.mpr ⟨proper, same⟩
  have right := decode_eq_some.mpr ⟨proper', rfl⟩
  exact Option.some_inj.mp (left.symm.trans right)

end Rvc

/-! ## Effects without the register x0 -/

/-- A write to x0 is none. -/
def Effect.kept : Effect → Effect
  | writes rd value => if rd = 0 then nothing else writes rd value
  | e => e

def Outcome.kept (o : Outcome) : Outcome := ⟨o.effect.kept, o.next⟩

theorem Effect.regs_kept (e : Effect) (loaded : BitVec 32)
    (x : BitVec 5 → BitVec 32) : e.kept.regs loaded x = e.regs loaded x := by
  cases e with
  | writes rd value =>
      rw [kept]
      split_ifs with zero
      · simp [regs, zero]
      · rfl
  | _ => rfl

/-- Neither an access nor a breakpoint. -/
def Effect.silent : Effect → Bool
  | nothing => true
  | writes .. => true
  | _ => false

/-- The outcome of an instruction that changes the PC only. -/
structure Outcome.Idles
    (o : Outcome) (x : BitVec 5 → BitVec 32) (pc : BitVec 32) : Prop where
  silent : o.effect.silent = true
  regs : ∀ loaded, o.effect.regs loaded x = x
  next : o.next = moved pc 2

section Meaning

variable {x : BitVec 5 → BitVec 32} {pc : BitVec 32}

theorem idles_of_write {rd : BitVec 5} {value : BitVec 32}
    (same : rd = 0 ∨ value = x rd) :
    Outcome.Idles ⟨.writes rd value, moved pc 2⟩ x pc where
  silent := rfl
  regs := fun loaded => by
    rw [Effect.regs]
    split_ifs with zero
    · rfl
    · rw [same.resolve_left zero, Function.update_eq_self]
  next := rfl

namespace Rvc

/-- A hint changes the PC only. -/
theorem idles_of_hint {i : Rvc} (hint : i.hint = true) :
    (i.outcome x pc).Idles x pc := by
  cases i with
  | addi rd imm =>
      apply idles_of_write
      by_cases zero : rd = 0
      · exact Or.inl zero
      · have none : imm = 0 := by
          have differs : rd ≠ 0 := zero
          rw [Rvc.hint, beq_eq_false_iff_ne.mpr differs] at hint
          simpa using hint
        refine Or.inr ?_
        simp [none, moved]
  | li rd imm => exact idles_of_write (Or.inl (beq_iff_eq.mp hint))
  | lui rd imm => exact idles_of_write (Or.inl (beq_iff_eq.mp hint))
  | srli rd shamt =>
      refine idles_of_write (Or.inr ?_)
      rw [beq_iff_eq.mp hint]
      simp
  | srai rd shamt =>
      refine idles_of_write (Or.inr ?_)
      rw [beq_iff_eq.mp hint]
      simp
  | slli rd shamt =>
      simp only [Rvc.hint, Bool.or_eq_true, beq_iff_eq] at hint
      refine idles_of_write (hint.imp_right fun none => ?_)
      rw [none]
      simp
  | mv rd rs2 => exact idles_of_write (Or.inl (beq_iff_eq.mp hint))
  | add rd rs2 => exact idles_of_write (Or.inl (beq_iff_eq.mp hint))
  | _ => exact absurd hint (by simp [Rvc.hint])

/-! ### The expansion -/

theorem apply_addi (a : BitVec 32) {d : ℤ} {w : ℕ} {imm : BitVec w}
    (value : imm.toInt = d) :
    ImmOp.addi.regOp.apply a (BitVec.ofInt 32 imm.toInt) = moved a d := by
  rw [value, moved_eq]
  exact RegOp.apply_add _ _

/-- An unsigned immediate in units of four. -/
theorem toInt_words (k : ℕ) {w : ℕ} (imm : BitVec w) :
    (0#(k + 1) ++ imm ++ 0#2).toInt = 4 * imm.toNat := by
  rw [BitVec.toInt_append, BitVec.toInt_append]
  simp

theorem toInt_extended {w : ℕ} (v : ℕ) (imm : BitVec w) (wider : w ≤ v) :
    (imm.signExtend v).toInt = imm.toInt :=
  BitVec.toInt_signExtend_of_le wider

theorem toInt_sixteens (imm : BitVec 6) :
    ((imm ++ 0#4).signExtend 12).toInt = 16 * imm.toInt := by
  rw [toInt_extended 12 _ (by decide), BitVec.toInt_append]
  simp

theorem toNat_amount (shamt : BitVec 5) :
    (BitVec.ofNat 32 shamt.toNat).toNat % 32 = shamt.toNat := by
  have bound := shamt.isLt
  rw [BitVec.toNat_ofNat]
  omega

/-- The meaning of the instruction of 32 bits is that of the compressed
instruction. -/
theorem outcome_expand (i : Rvc) (zero : x 0 = 0) {b : Base}
    (is : i.expand = .base b) :
    (b.outcome x pc 2).kept = (i.outcome x pc).kept := by
  cases i with
  | addi4spn rd imm =>
      cases is
      simp only [Base.outcome, outcome, apply_addi _ (toInt_words 1 imm)]
      rfl
  | lw rd rs1 imm =>
      cases is
      simp only [Base.outcome, outcome, toInt_words 4 imm]
      rfl
  | sw rs1 rs2 imm =>
      cases is
      simp only [Base.outcome, outcome, toInt_words 4 imm]
      rfl
  | addi rd imm =>
      cases is
      simp only [Base.outcome, outcome,
        apply_addi _ (toInt_extended 12 imm (by decide))]
      rfl
  | jal offset =>
      cases is
      simp only [Base.outcome, outcome, toInt_extended 20 offset (by decide)]
      rfl
  | li rd imm =>
      cases is
      simp only [Base.outcome, outcome, zero,
        apply_addi _ (toInt_extended 12 imm (by decide))]
      simp [moved]
  | addi16sp imm =>
      cases is
      simp only [Base.outcome, outcome, apply_addi _ (toInt_sixteens imm)]
      rfl
  | lui rd imm =>
      cases is
      simp only [Base.outcome, outcome, upper,
        toInt_extended 20 imm (by decide)]
      simp [moved]
  | srli rd shamt =>
      cases is
      simp only [Base.outcome, outcome, ShiftOp.regOp, RegOp.apply,
        toNat_amount]
      rfl
  | srai rd shamt =>
      cases is
      simp only [Base.outcome, outcome, ShiftOp.regOp, RegOp.apply,
        toNat_amount]
      rfl
  | andi rd imm =>
      cases is
      simp only [Base.outcome, outcome, toInt_extended 12 imm (by decide)]
      rfl
  | alu op rd rs2 =>
      cases is
      rfl
  | j offset =>
      cases is
      simp only [Base.outcome, outcome, toInt_extended 20 offset (by decide)]
      rfl
  | beqz rs1 offset =>
      cases is
      simp only [Base.outcome, outcome, toInt_extended 12 offset (by decide),
        BranchOp.taken, zero]
      simp
  | bnez rs1 offset =>
      cases is
      simp only [Base.outcome, outcome, toInt_extended 12 offset (by decide),
        BranchOp.taken, zero]
      simp
  | slli rd shamt =>
      cases is
      simp only [Base.outcome, outcome, ShiftOp.regOp, RegOp.apply,
        toNat_amount]
      rfl
  | lwsp rd imm =>
      cases is
      simp only [Base.outcome, outcome, toInt_words 3 imm]
      rfl
  | jr rs1 =>
      cases is
      simp [Base.outcome, outcome, Outcome.kept, Effect.kept]
  | mv rd rs2 =>
      cases is
      have sum : RegOp.add.apply 0 (x rs2) = x rs2 := by
        simp [RegOp.apply_add]
      simp only [Base.outcome, outcome, zero, sum]
      rfl
  | ebreak => cases is
  | jalr rs1 =>
      cases is
      simp [Base.outcome, outcome]
  | add rd rs2 =>
      cases is
      rfl
  | swsp rs2 imm =>
      cases is
      simp only [Base.outcome, outcome, toInt_words 3 imm]
      rfl

end Rvc

end Meaning

end SisRv.Riscv
