import SisRv.Lib.ByteMemory
import SisRv.Lib.Riscv.Encoding

/-!
# What a base instruction does

The computation, the access and the next PC of an instruction, over the
integers that its words and immediates stand for.
-/

namespace SisRv.Riscv

/-! ## Arithmetic -/

/-- A word moved by an integer, with wrap-around. -/
def moved (a : BitVec 32) (d : ℤ) : BitVec 32 :=
  BitVec.ofInt 32 (a.toInt + d)

/-- A truth value as a word. -/
def truth (b : Bool) : BitVec 32 := if b then 1 else 0

def RegOp.apply (op : RegOp) (a b : BitVec 32) : BitVec 32 :=
  match op with
  | add => BitVec.ofInt 32 (a.toInt + b.toInt)
  | sub => BitVec.ofInt 32 (a.toInt - b.toInt)
  | sll => BitVec.ofNat 32 (a.toNat * 2 ^ (b.toNat % 32))
  | slt => truth (decide (a.toInt < b.toInt))
  | sltu => truth (decide (a.toNat < b.toNat))
  | xor => a ^^^ b
  | srl => BitVec.ofNat 32 (a.toNat / 2 ^ (b.toNat % 32))
  | sra => BitVec.ofInt 32 (a.toInt / 2 ^ (b.toNat % 32))
  | or => a ||| b
  | and => a &&& b

def ImmOp.regOp : ImmOp → RegOp
  | addi => .add
  | slti => .slt
  | sltiu => .sltu
  | xori => .xor
  | ori => .or
  | andi => .and

def ShiftOp.regOp : ShiftOp → RegOp
  | slli => .sll
  | srli => .srl
  | srai => .sra

def BranchOp.taken (op : BranchOp) (a b : BitVec 32) : Bool :=
  match op with
  | beq => decide (a = b)
  | bne => decide (a ≠ b)
  | blt => decide (a.toInt < b.toInt)
  | bge => decide (b.toInt ≤ a.toInt)
  | bltu => decide (a.toNat < b.toNat)
  | bgeu => decide (b.toNat ≤ a.toNat)

/-- The word an AMO stores. -/
def AmoOp.apply (op : AmoOp) (old arg : BitVec 32) : BitVec 32 :=
  match op with
  | swap => arg
  | add => BitVec.ofInt 32 (old.toInt + arg.toInt)
  | xor => old ^^^ arg
  | and => old &&& arg
  | or => old ||| arg
  | min => BitVec.ofInt 32 (Min.min old.toInt arg.toInt)
  | max => BitVec.ofInt 32 (Max.max old.toInt arg.toInt)
  | minu => BitVec.ofNat 32 (Min.min old.toNat arg.toNat)
  | maxu => BitVec.ofNat 32 (Max.max old.toNat arg.toNat)

/-! ## Loads and stores -/

/-- What a load gets from a byte memory. -/
def LoadOp.value
    (op : LoadOp) (m : BitVec 32 → BitVec 8) (a : BitVec 32) : BitVec 32 :=
  match op with
  | lb => (m a).signExtend 32
  | lh => (ByteMemory.half m a).signExtend 32
  | lw => ByteMemory.word m a
  | lbu => (m a).zeroExtend 32
  | lhu => (ByteMemory.half m a).zeroExtend 32

/-- The number of bytes. -/
def LoadOp.size : LoadOp → ℕ
  | lb => 1
  | lh => 2
  | lw => 4
  | lbu => 1
  | lhu => 2

def StoreOp.size : StoreOp → ℕ
  | sb => 1
  | sh => 2
  | sw => 4

/-- The bytes that a store writes. -/
def StoreOp.bytes (op : StoreOp) (v : BitVec 32) : List (BitVec 8) :=
  (ByteMemory.bytes v).take op.size

/-! ## Instructions -/

/-- What an instruction does besides going on; a load still waits for its
value. -/
inductive Effect where
  | nothing
  | writes (rd : BitVec 5) (value : BitVec 32)
  | loads (op : LoadOp) (rd : BitVec 5) (addr : BitVec 32)
  | stores (op : StoreOp) (addr value : BitVec 32)
  | breaks
  deriving DecidableEq, Repr

structure Outcome where
  effect : Effect
  next : BitVec 32
  deriving DecidableEq, Repr

/-- The immediate of LUI and AUIPC. -/
def upper (imm : BitVec 20) : ℤ := imm.toInt * 2 ^ 12

/-- The outcome over a register file, at a PC, for an instruction of the given
length in bytes. -/
def Base.outcome
    (i : Base) (x : BitVec 5 → BitVec 32) (pc : BitVec 32) (len : ℕ) :
    Outcome :=
  let sequential := moved pc len
  match i with
  | lui rd imm => ⟨.writes rd (moved 0 (upper imm)), sequential⟩
  | auipc rd imm => ⟨.writes rd (moved pc (upper imm)), sequential⟩
  | jal rd offset => ⟨.writes rd sequential, moved pc (2 * offset.toInt)⟩
  | jalr rd rs1 imm =>
      ⟨.writes rd sequential,
        BitVec.ofInt 32 (((x rs1).toInt + imm.toInt) / 2 * 2)⟩
  | branch op rs1 rs2 offset =>
      ⟨.nothing,
        if op.taken (x rs1) (x rs2) then moved pc (2 * offset.toInt)
        else sequential⟩
  | load op rd rs1 imm => ⟨.loads op rd (moved (x rs1) imm.toInt), sequential⟩
  | store op rs1 rs2 imm =>
      ⟨.stores op (moved (x rs1) imm.toInt) (x rs2), sequential⟩
  | opImm op rd rs1 imm =>
      ⟨.writes rd (op.regOp.apply (x rs1) (BitVec.ofInt 32 imm.toInt)),
        sequential⟩
  | shiftImm op rd rs1 shamt =>
      ⟨.writes rd (op.regOp.apply (x rs1) (BitVec.ofNat 32 shamt.toNat)),
        sequential⟩
  | opReg op rd rs1 rs2 =>
      ⟨.writes rd (op.apply (x rs1) (x rs2)), sequential⟩

/-- The instruction makes no data access. -/
def Base.computes : Base → Bool
  | load .. => false
  | store .. => false
  | _ => true

/-- The register file after an effect; the word a load gets is `loaded`. -/
def Effect.regs
    (e : Effect) (loaded : BitVec 32) (x : BitVec 5 → BitVec 32) :
    BitVec 5 → BitVec 32 :=
  match e with
  | writes rd value => if rd = 0 then x else Function.update x rd value
  | loads _ rd _ => if rd = 0 then x else Function.update x rd loaded
  | _ => x

/-! ## In terms of words -/

theorem moved_eq (a : BitVec 32) (d : ℤ) :
    moved a d = a + BitVec.ofInt 32 d := by
  rw [moved, BitVec.ofInt_add, BitVec.ofInt_toInt]

theorem moved_natCast (a : BitVec 32) (n : ℕ) :
    moved a n = a + BitVec.ofNat 32 n := by
  rw [moved_eq, BitVec.ofInt_natCast]

/-- An offset with its bit 0. -/
theorem signExtend_offset {w : ℕ} (offset : BitVec (w + 1)) :
    (offset ++ 0#1).signExtend 32 = BitVec.ofInt 32 (2 * offset.toInt) := by
  rw [BitVec.signExtend, BitVec.toInt_append]
  simp

theorem upper_eq (imm : BitVec 20) :
    BitVec.ofInt 32 (upper imm) = imm ++ 0#12 := by
  have value : (imm ++ 0#12).toInt = upper imm := by
    rw [BitVec.toInt_append, upper, mul_comm]
    simp
  rw [← value, BitVec.ofInt_toInt]

theorem truth_eq (b : Bool) :
    truth b = (BitVec.ofBool b).setWidth 32 := by
  cases b <;> rfl

theorem amount_eq (b : BitVec 32) :
    (b.extractLsb' 0 5).toNat = b.toNat % 32 := by
  simp

namespace RegOp

variable (a b : BitVec 32)

theorem apply_add : add.apply a b = a + b := by
  simp [apply, BitVec.ofInt_add]

theorem apply_sub : sub.apply a b = a - b := by
  rw [apply, ← BitVec.toInt_inj, BitVec.toInt_ofInt, BitVec.toInt_sub]

theorem apply_sll : sll.apply a b = a <<< b.extractLsb' 0 5 := by
  apply BitVec.eq_of_toNat_eq
  rw [apply, BitVec.shiftLeft_eq', amount_eq, BitVec.toNat_shiftLeft,
    Nat.shiftLeft_eq, BitVec.toNat_ofNat]

theorem apply_slt :
    slt.apply a b = (BitVec.ofBool (a.slt b)).setWidth 32 :=
  truth_eq _

theorem apply_sltu :
    sltu.apply a b = (BitVec.ofBool (a.ult b)).setWidth 32 :=
  truth_eq _

theorem apply_srl : srl.apply a b = a >>> b.extractLsb' 0 5 := by
  apply BitVec.eq_of_toNat_eq
  have bound : a.toNat / 2 ^ (b.toNat % 32) < 2 ^ 32 :=
    (Nat.div_le_self _ _).trans_lt a.isLt
  rw [apply, BitVec.ushiftRight_eq', amount_eq, BitVec.toNat_ushiftRight,
    Nat.shiftRight_eq_div_pow, BitVec.toNat_ofNat, Nat.mod_eq_of_lt bound]

theorem apply_sra :
    sra.apply a b = a.sshiftRight' (b.extractLsb' 0 5) := by
  have value : (a.sshiftRight' (b.extractLsb' 0 5)).toInt =
      a.toInt / 2 ^ (b.toNat % 32) := by
    rw [BitVec.sshiftRight', amount_eq, BitVec.toInt_sshiftRight,
      Int.shiftRight_eq_div_pow]
    norm_cast
  rw [apply, ← value, BitVec.ofInt_toInt]

end RegOp

/-- A load depends on the bytes that it reads. -/
theorem LoadOp.value_congr {op : LoadOp} {m m' : BitVec 32 → BitVec 8}
    {a : BitVec 32}
    (same : ∀ k < op.size,
      m (a + BitVec.ofNat 32 k) = m' (a + BitVec.ofNat 32 k)) :
    op.value m a = op.value m' a := by
  have byte (zero : 0 < op.size) : m a = m' a := by
    simpa using same 0 zero
  cases op with
  | lb => rw [value, value, byte (by decide)]
  | lbu => rw [value, value, byte (by decide)]
  | lh =>
      rw [value, value, ByteMemory.half, ByteMemory.half, byte (by decide)]
      rw [show m (a + 1) = m' (a + 1) from same 1 (by decide)]
  | lhu =>
      rw [value, value, ByteMemory.half, ByteMemory.half, byte (by decide)]
      rw [show m (a + 1) = m' (a + 1) from same 1 (by decide)]
  | lw =>
      rw [value, value, ByteMemory.word, ByteMemory.word, byte (by decide)]
      rw [show m (a + 1) = m' (a + 1) from same 1 (by decide),
        show m (a + 2) = m' (a + 2) from same 2 (by decide),
        show m (a + 3) = m' (a + 3) from same 3 (by decide)]

/-- A shift depends on the amount modulo 32. -/
theorem ShiftOp.apply_congr (op : ShiftOp) (a : BitVec 32) {b c : BitVec 32}
    (same : b.toNat % 32 = c.toNat % 32) :
    op.regOp.apply a b = op.regOp.apply a c := by
  cases op <;> simp only [regOp, RegOp.apply, same]

/-- To clear bit 0 is to round down to an even number. -/
theorem even_eq (d : ℤ) :
    BitVec.ofInt 32 d &&& 0xFFFFFFFE#32 = BitVec.ofInt 32 (d / 2 * 2) := by
  have mask (a : BitVec 32) : a &&& 0xFFFFFFFE#32 = a >>> 1 <<< 1 := by
    rw [show 0xFFFFFFFE#32 = BitVec.allOnes 32 <<< 1 from rfl]
    ext k within
    simp only [BitVec.getElem_and, BitVec.getElem_shiftLeft,
      BitVec.getElem_allOnes, BitVec.getElem_ushiftRight]
    by_cases lowest : k < 1
    · simp [lowest]
    · have above : 1 + (k - 1) = k := by omega
      simp [lowest, above, BitVec.getLsbD_eq_getElem within]
  apply BitVec.eq_of_toNat_eq
  rw [mask]
  simp only [BitVec.toNat_shiftLeft, BitVec.toNat_ushiftRight,
    BitVec.toNat_ofInt, Nat.shiftLeft_eq, Nat.shiftRight_eq_div_pow]
  omega

/-- A word read back from the smaller or the larger of two integers. -/
theorem ofInt_min (a b : BitVec 32) :
    BitVec.ofInt 32 (Min.min a.toInt b.toInt) =
      if a.slt b then a else b := by
  rw [BitVec.slt_eq_decide]
  rcases lt_or_ge a.toInt b.toInt with less | greater
  · simp [less, less.le]
  · simp [greater, greater.not_gt]

theorem ofInt_max (a b : BitVec 32) :
    BitVec.ofInt 32 (Max.max a.toInt b.toInt) =
      if b.slt a then a else b := by
  rw [BitVec.slt_eq_decide]
  rcases lt_or_ge b.toInt a.toInt with less | greater
  · simp [less, less.le]
  · simp [greater, greater.not_gt]

theorem ofNat_min (a b : BitVec 32) :
    BitVec.ofNat 32 (Min.min a.toNat b.toNat) =
      if a.ult b then a else b := by
  rw [BitVec.ult_eq_decide]
  rcases lt_or_ge a.toNat b.toNat with less | greater
  · simp [less, less.le]
  · simp [greater, greater.not_gt]

theorem ofNat_max (a b : BitVec 32) :
    BitVec.ofNat 32 (Max.max a.toNat b.toNat) =
      if b.ult a then a else b := by
  rw [BitVec.ult_eq_decide]
  rcases lt_or_ge b.toNat a.toNat with less | greater
  · simp [less, less.le]
  · simp [greater, greater.not_gt]

end SisRv.Riscv
