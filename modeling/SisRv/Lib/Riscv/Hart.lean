import SisRv.Lib.Riscv.Compressed

/-!
# A hart

A hart executes the instructions of RV32IMC that neither trap nor touch the
machine state, one after the other, on a memory that it is given.
-/

namespace SisRv.Riscv

universe u

/-! ## Multiplication and division -/

/-- The result over the integers, with the results of a division by zero that
the architecture lays down. -/
def MulOp.apply (op : MulOp) (a b : BitVec 32) : BitVec 32 :=
  match op with
  | mul => BitVec.ofInt 32 (a.toInt * b.toInt)
  | mulh => BitVec.ofInt 32 (a.toInt * b.toInt / 2 ^ 32)
  | mulhsu => BitVec.ofInt 32 (a.toInt * b.toNat / 2 ^ 32)
  | mulhu => BitVec.ofNat 32 (a.toNat * b.toNat / 2 ^ 32)
  | div => if b = 0 then -1 else BitVec.ofInt 32 (a.toInt.tdiv b.toInt)
  | divu => if b = 0 then -1 else BitVec.ofNat 32 (a.toNat / b.toNat)
  | rem => if b = 0 then a else BitVec.ofInt 32 (a.toInt.tmod b.toInt)
  | remu => if b = 0 then a else BitVec.ofNat 32 (a.toNat % b.toNat)

/-! ## Instructions in memory -/

/-- An instruction of two or of four bytes. -/
inductive Parcel where
  | short (i : Rvc)
  | full (i : Instr)
  deriving DecidableEq, Repr

namespace Parcel

/-- The length in bytes. -/
def length : Parcel → ℕ
  | short _ => 2
  | full _ => 4

/-- The word of four bytes that means the same. -/
def word : Parcel → BitVec 32
  | short i => i.expand.encode
  | full i => i.encode

/-- The outcome at a PC, for the instructions of RV32IMC that do not trap. -/
def outcome? (x : BitVec 5 → BitVec 32) (pc : BitVec 32) :
    Parcel → Option Outcome
  | short .ebreak => none
  | short i => some (i.outcome x pc)
  | full (.base i) => some (i.outcome x pc 4)
  | full (.fence ..) => some ⟨.nothing, moved pc 4⟩
  | full (.mul op rd rs1 rs2) =>
      some ⟨.writes rd (op.apply (x rs1) (x rs2)), moved pc 4⟩
  | full _ => none

/-- The instruction has its encoding in the half words from an address on. -/
def LiesAt (half : BitVec 32 → Option (BitVec 16)) (pc : BitVec 32) :
    Parcel → Prop
  | short i => i.wellFormed = true ∧ half pc = some i.encode
  | full i =>
      half pc = some (i.encode.extractLsb' 0 16) ∧
        half (pc + 2) = some (i.encode.extractLsb' 16 16)

end Parcel

/-! ## Memory and hart -/

/-- What a memory gives to a hart; it may refuse an access. -/
structure Memory (σ : Type u) where
  half : σ → BitVec 32 → Option (BitVec 16)
  load : σ → LoadOp → BitVec 32 → Option (BitVec 32 × σ)
  store : σ → StoreOp → BitVec 32 → BitVec 32 → Option σ

@[ext]
structure Hart (σ : Type u) where
  pc : BitVec 32
  regs : BitVec 5 → BitVec 32
  memory : σ

namespace Hart

variable {σ : Type u} (m : Memory σ) (h h' : Hart σ)

/-- The hart after an outcome. -/
def perform (o : Outcome) : Option (Hart σ) :=
  match o.effect with
  | .nothing | .writes .. => some ⟨o.next, o.effect.regs 0 h.regs, h.memory⟩
  | .loads op _ a =>
      (m.load h.memory op a).map fun (word, memory) =>
        ⟨o.next, o.effect.regs word h.regs, memory⟩
  | .stores op a v =>
      (m.store h.memory op a v).map fun memory => ⟨o.next, h.regs, memory⟩
  | .breaks => none

/-- The hart after an instruction, if it can perform it. -/
def step (parcel : Parcel) : Option (Hart σ) :=
  (parcel.outcome? h.regs h.pc).bind (h.perform m)

/-- The hart after the first instructions of a sequence.  It stays where it
cannot perform one. -/
def after (parcel : ℕ → Parcel) : ℕ → Hart σ
  | 0 => h
  | k + 1 => ((after parcel k).step m (parcel k)).getD (after parcel k)

/-- The hart executes an instruction that lies at its PC. -/
structure Executes (parcel : Parcel) : Prop where
  liesAt : parcel.LiesAt (m.half h.memory) h.pc
  performs : (parcel.outcome? h.regs h.pc).bind (h.perform m) = some h'

variable {m h} {parcel : ℕ → Parcel} {k : ℕ}

theorem executes_after
    (liesAt : (parcel k).LiesAt (m.half (h.after m parcel k).memory)
      (h.after m parcel k).pc)
    (performs : ((h.after m parcel k).step m (parcel k)).isSome = true) :
    (h.after m parcel k).Executes m (h.after m parcel (k + 1)) (parcel k) := by
  obtain ⟨next, steps⟩ := Option.isSome_iff_exists.mp performs
  refine ⟨liesAt, ?_⟩
  show (h.after m parcel k).step m (parcel k) =
    some (((h.after m parcel k).step m (parcel k)).getD _)
  rw [steps]
  rfl

end Hart

end SisRv.Riscv
