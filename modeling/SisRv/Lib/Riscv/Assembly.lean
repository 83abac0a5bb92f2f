import SisRv.Lib.Riscv.Logic

/-!
# Lines of assembly

The lines of an assembly text, what each of them does, and the instructions
that an assembler may put in their place.
-/

namespace SisRv.Riscv

universe u

/-! ## Lines -/

/-- A line with its operands in the order of the text.  A symbol stands for its
value, a local label for the number of the line after it. -/
inductive Line where
  | la (rd : BitVec 5) (symbol : BitVec 32)
  | li (rd : BitVec 5) (value : BitVec 32)
  | addi (rd rs1 : BitVec 5) (imm : BitVec 12)
  | lw (rd : BitVec 5) (imm : BitVec 12) (rs1 : BitVec 5)
  | sw (rs2 : BitVec 5) (imm : BitVec 12) (rs1 : BitVec 5)
  | bgeu (rs1 rs2 : BitVec 5) (label : ℕ)
  | j (label : ℕ)
  | jal (rd : BitVec 5) (symbol : BitVec 32)
  deriving DecidableEq, Repr

namespace Line

/-- What line `n` does, with the lines at the given places. -/
def outcome (place : ℕ → BitVec 32) (n : ℕ) (x : BitVec 5 → BitVec 32) :
    Line → Outcome
  | la rd symbol => ⟨.writes rd symbol, place (n + 1)⟩
  | li rd value => ⟨.writes rd value, place (n + 1)⟩
  | addi rd rs1 imm => ⟨.writes rd (moved (x rs1) imm.toInt), place (n + 1)⟩
  | lw rd imm rs1 => ⟨.loads .lw rd (moved (x rs1) imm.toInt), place (n + 1)⟩
  | sw rs2 imm rs1 =>
      ⟨.stores .sw (moved (x rs1) imm.toInt) (x rs2), place (n + 1)⟩
  | bgeu rs1 rs2 label =>
      ⟨.nothing,
        if BranchOp.bgeu.taken (x rs1) (x rs2) then place label
        else place (n + 1)⟩
  | j label => ⟨.nothing, place label⟩
  | jal rd symbol => ⟨.writes rd (place (n + 1)), symbol⟩

end Line

/-- The machine code at the given places does what the lines say. -/
structure Assembled {σ : Type u} (m : Memory σ) (takes : Parcel → Prop)
    (place : ℕ → BitVec 32) (code : List Line) : Prop where
  means : ∀ {n line}, code[n]? = some line → ∀ {h h' : Hart σ},
    h.regs 0 = 0 → h.pc = place n →
      h.perform m (line.outcome place n h.regs) = some h' →
        Relation.TransGen (Hart.Steps m takes) h h'

/-! ## Rules -/

namespace Assembled

variable {σ : Type u} {m : Memory σ} {takes : Parcel → Prop}
  {place : ℕ → BitVec 32} {code : List Line} {h : Hart σ} {n : ℕ}
  {x : BitVec 5 → BitVec 32} {c c' : σ}

section Rules

variable (assembled : Assembled m takes place code) (zero : h.regs 0 = 0)
  (reached : Hart.Reaches m takes h ⟨place n, x, c⟩)
include assembled zero reached

theorem next {line : Line} {h' : Hart σ} (at_ : code[n]? = some line)
    (performs : Hart.perform m ⟨place n, x, c⟩ (line.outcome place n x) =
      some h') :
    Hart.Reaches m takes h h' :=
  Relation.ReflTransGen.trans reached <|
    (assembled.means at_
      ((Hart.regs_zero_of_reaches reached).trans zero) rfl
        performs).to_reflTransGen

theorem write {line : Line} {rd : BitVec 5} {value : BitVec 32}
    (at_ : code[n]? = some line) (other : rd ≠ 0)
    (writes : line.outcome place n x = ⟨.writes rd value, place (n + 1)⟩) :
    Hart.Reaches m takes h
      ⟨place (n + 1), Function.update x rd value, c⟩ := by
  refine assembled.next zero reached at_ ?_
  rw [writes]
  show some _ = some _
  congr 2
  exact if_neg other

theorem load {rd rs1 : BitVec 5} {imm : BitVec 12} {v : BitVec 32}
    (at_ : code[n]? = some (.lw rd imm rs1)) (other : rd ≠ 0)
    (loads : m.load c .lw (moved (x rs1) imm.toInt) = some (v, c')) :
    Hart.Reaches m takes h ⟨place (n + 1), Function.update x rd v, c'⟩ := by
  refine assembled.next zero reached at_ ?_
  show Option.map _ (m.load c .lw (moved (x rs1) imm.toInt)) = _
  rw [loads]
  show some (⟨place (n + 1),
    if rd = 0 then x else Function.update x rd v, c'⟩ : Hart σ) = _
  rw [if_neg other]

theorem store {rs1 rs2 : BitVec 5} {imm : BitVec 12}
    (at_ : code[n]? = some (.sw rs2 imm rs1))
    (stores : m.store c .sw (moved (x rs1) imm.toInt) (x rs2) = some c') :
    Hart.Reaches m takes h ⟨place (n + 1), x, c'⟩ := by
  refine assembled.next zero reached at_ ?_
  show Option.map _ (m.store c .sw (moved (x rs1) imm.toInt) (x rs2)) = _
  rw [stores]
  rfl

theorem branch {rs1 rs2 : BitVec 5} {label : ℕ}
    (at_ : code[n]? = some (.bgeu rs1 rs2 label))
    (above : (x rs2).toNat ≤ (x rs1).toNat) :
    Hart.Reaches m takes h ⟨place label, x, c⟩ := by
  refine assembled.next zero reached at_ ?_
  have taken : BranchOp.bgeu.taken (x rs1) (x rs2) = true :=
    decide_eq_true above
  rw [Line.outcome, taken]
  rfl

theorem fall {rs1 rs2 : BitVec 5} {label : ℕ}
    (at_ : code[n]? = some (.bgeu rs1 rs2 label))
    (below : (x rs1).toNat < (x rs2).toNat) :
    Hart.Reaches m takes h ⟨place (n + 1), x, c⟩ := by
  refine assembled.next zero reached at_ ?_
  have taken : BranchOp.bgeu.taken (x rs1) (x rs2) = false :=
    decide_eq_false (Nat.not_le.mpr below)
  rw [Line.outcome, taken]
  rfl

theorem jump {label : ℕ} (at_ : code[n]? = some (.j label)) :
    Hart.Reaches m takes h ⟨place label, x, c⟩ :=
  assembled.next zero reached at_ rfl

theorem call {rd : BitVec 5} {symbol : BitVec 32}
    (at_ : code[n]? = some (.jal rd symbol)) (other : rd ≠ 0) :
    Hart.Reaches m takes h
      ⟨symbol, Function.update x rd (place (n + 1)), c⟩ := by
  refine assembled.next zero reached at_ ?_
  show some _ = some _
  congr 2
  exact if_neg other

end Rules

end Assembled

/-! ## An assembler -/

/-- The upper and the lower part of a word, of which the lower one is
sign-extended. -/
def hi (word : BitVec 32) : BitVec 20 := (word + 0x800).extractLsb' 12 20

def lo (word : BitVec 32) : BitVec 12 := word.extractLsb' 0 12

theorem moved_hi_lo (word : BitVec 32) :
    moved (moved 0 (upper (hi word))) (lo word).toInt = word := by
  have bound := word.isLt
  have low : (lo word).toNat = word.toNat % 2 ^ 12 := by
    rw [lo, BitVec.extractLsb'_toNat, Nat.shiftRight_zero]
  have high : (hi word).toNat = (word.toNat + 0x800) % 2 ^ 32 / 2 ^ 12 := by
    rw [hi, BitVec.extractLsb'_toNat, Nat.shiftRight_eq_div_pow,
      BitVec.toNat_add]
    exact Nat.mod_eq_of_lt (by omega)
  rw [moved_eq, moved_eq, upper, zero_add, ← BitVec.toNat_inj,
    BitVec.toNat_add, BitVec.toNat_ofInt, BitVec.toNat_ofInt,
    BitVec.toInt_eq_toNat_cond, BitVec.toInt_eq_toNat_cond, high, low]
  split_ifs <;> omega

/-- The offset field of a jump or a branch of `w` bits from one place to
another. -/
def offset (w : ℕ) (source target : BitVec 32) : BitVec w :=
  BitVec.ofInt w ((target - source).toInt / 2)

namespace Line

/-- The instructions for line `n`, none of them compressed. -/
def expand (place : ℕ → BitVec 32) (n : ℕ) : Line → List Base
  | la rd symbol => [.lui rd (hi symbol), .opImm .addi rd rd (lo symbol)]
  | li rd value => [.lui rd (hi value), .opImm .addi rd rd (lo value)]
  | addi rd rs1 imm => [.opImm .addi rd rs1 imm]
  | lw rd imm rs1 => [.load .lw rd rs1 imm]
  | sw rs2 imm rs1 => [.store .sw rs1 rs2 imm]
  | bgeu rs1 rs2 label =>
      [.branch .bgeu rs1 rs2 (offset 12 (place n) (place label))]
  | j label => [.jal 0 (offset 20 (place n) (place label))]
  | jal rd symbol => [.jal rd (offset 20 (place n) symbol)]

/-- The target is within the reach of the instruction. -/
def Fits (place : ℕ → BitVec 32) (n : ℕ) : Line → Prop
  | bgeu _ _ label =>
      moved (place n) (2 * (offset 12 (place n) (place label)).toInt) =
        place label
  | j label =>
      moved (place n) (2 * (offset 20 (place n) (place label)).toInt) =
        place label
  | jal _ symbol =>
      moved (place n) (2 * (offset 20 (place n) symbol).toInt) = symbol
  | _ => True

/-- The instructions stand at the place of line `n`, the next line after
them. -/
structure Stands {σ : Type u} (m : Memory σ) (place : ℕ → BitVec 32) (n : ℕ)
    (line : Line) : Prop where
  fits : line.Fits place n
  next : place (n + 1) =
    moved (place n) ((line.expand place n).length * 4 : ℕ)
  lies : ∀ c k i, (line.expand place n)[k]? = some i →
    (Parcel.full (.base i)).LiesAt (m.half c)
      (moved (place n) (k * 4 : ℕ))

end Line

instance (half : BitVec 32 → Option (BitVec 16)) (pc : BitVec 32)
    (parcel : Parcel) : Decidable (parcel.LiesAt half pc) :=
  match parcel with
  | .short _ => inferInstanceAs (Decidable (_ ∧ _))
  | .full _ => inferInstanceAs (Decidable (_ ∧ _))

/-- In a memory whose code does not change. -/
theorem Line.stands_of_half {σ : Type u} {m : Memory σ}
    {place : ℕ → BitVec 32} {n : ℕ} {line : Line}
    {half : BitVec 32 → Option (BitVec 16)} (same : ∀ c, m.half c = half)
    (fits : line.Fits place n)
    (next : place (n + 1) =
      moved (place n) ((line.expand place n).length * 4 : ℕ))
    (lies : ∀ k (below : k < (line.expand place n).length),
      (Parcel.full (.base (line.expand place n)[k])).LiesAt half
        (moved (place n) (k * 4 : ℕ))) :
    line.Stands m place n where
  fits := fits
  next := next
  lies := by
    intro c k i at_
    obtain ⟨below, rfl⟩ := List.getElem?_eq_some_iff.mp at_
    rw [same]
    exact lies k below

namespace Hart

variable {σ : Type u} {m : Memory σ} {takes : Parcel → Prop}
  {h h' : Hart σ} {place : ℕ → BitVec 32} {n : ℕ} {line : Line}

theorem steps_of_base {i : Base} (taken : takes (.full (.base i)))
    (lies : (Parcel.full (.base i)).LiesAt (m.half h.memory) h.pc)
    (performs : h.perform m (i.outcome h.regs h.pc 4) = some h') :
    Steps m takes h h' :=
  ⟨_, taken, lies, performs⟩

/-- A word that takes two instructions. -/
theorem advances_of_word
    (taken : ∀ i : Base, takes (.full (.base i)))
    {rd : BitVec 5} {word : BitVec 32}
    (first : (Parcel.full (.base (.lui rd (hi word)))).LiesAt
      (m.half h.memory) h.pc)
    (second : (Parcel.full (.base (.opImm .addi rd rd (lo word)))).LiesAt
      (m.half h.memory) (moved h.pc 4)) :
    Relation.TransGen (Steps m takes) h ⟨moved (moved h.pc 4) 4,
      (Effect.writes rd word).regs 0 h.regs, h.memory⟩ := by
  let upperHalf : Hart σ := ⟨moved h.pc 4,
    (Effect.writes rd (moved 0 (upper (hi word)))).regs 0 h.regs, h.memory⟩
  have one : Steps m takes h upperHalf :=
    steps_of_base (taken _) first rfl
  have two : Steps m takes upperHalf ⟨moved (moved h.pc 4) 4,
      (Effect.writes rd word).regs 0 h.regs, h.memory⟩ := by
    refine steps_of_base (taken _) second ?_
    have sum : rd ≠ 0 → RegOp.add.apply (upperHalf.regs rd)
        (BitVec.ofInt 32 (lo word).toInt) = word := by
      intro other
      have written : upperHalf.regs rd = moved 0 (upper (hi word)) := by
        have written : upperHalf.regs = Function.update h.regs rd
            (moved 0 (upper (hi word))) := if_neg other
        rw [written, Function.update_self]
      rw [written, RegOp.apply, BitVec.ofInt_add, BitVec.ofInt_toInt,
        BitVec.ofInt_toInt, ← moved_eq, moved_hi_lo]
    show some _ = some _
    congr 2
    show (if rd = 0 then _ else _) = (if rd = 0 then _ else _)
    by_cases zero : rd = 0
    · rw [if_pos zero, if_pos zero]
      exact if_pos zero
    · rw [if_neg zero, if_neg zero]
      have before : upperHalf.regs =
          Function.update h.regs rd (moved 0 (upper (hi word))) := if_neg zero
      rw [show ImmOp.addi.regOp = .add from rfl, sum zero, before,
        Function.update_idem]
  exact (Relation.TransGen.single one).tail two

theorem advances_of_stands (taken : ∀ i : Base, takes (.full (.base i)))
    (stands : line.Stands m place n) (pc : h.pc = place n)
    (performs : h.perform m (line.outcome place n h.regs) = some h') :
    Relation.TransGen (Steps m takes) h h' := by
  have only {i : Base} (expands : line.expand place n = [i])
      (same : h.perform m (i.outcome h.regs h.pc 4) =
        h.perform m (line.outcome place n h.regs)) : Relation.TransGen (Steps m takes) h h' := by
    have lies := stands.lies h.memory 0 i (by rw [expands]; rfl)
    rw [moved_natCast, Nat.zero_mul, BitVec.add_zero, ← pc] at lies
    exact Relation.TransGen.single
      (steps_of_base (taken i) lies (same.trans performs))
  have next := stands.next
  have fits := stands.fits
  rw [← pc] at next
  have word {rd : BitVec 5} {value : BitVec 32}
      (expands : line.expand place n =
        [.lui rd (hi value), .opImm .addi rd rd (lo value)])
      (same : line.outcome place n h.regs =
        ⟨.writes rd value, place (n + 1)⟩) : Relation.TransGen (Steps m takes) h h' := by
    have first := stands.lies h.memory 0 _ (by rw [expands]; rfl)
    have second := stands.lies h.memory 1 _ (by rw [expands]; rfl)
    rw [moved_natCast, Nat.zero_mul, BitVec.add_zero, ← pc] at first
    rw [← pc] at second
    rw [same] at performs
    have reached := advances_of_word taken first second
    have there : moved (moved h.pc 4) 4 = place (n + 1) := by
      rw [next, expands, moved_eq, moved_eq, moved_natCast, BitVec.add_assoc]
      rfl
    rw [there] at reached
    rw [← Option.some.inj performs]
    exact reached
  cases line with
  | la rd symbol | li rd value => exact word rfl rfl
  | addi rd rs1 imm =>
      refine only rfl (congrArg (h.perform m) ?_)
      have sum : RegOp.add.apply (h.regs rs1) (BitVec.ofInt 32 imm.toInt) =
          moved (h.regs rs1) imm.toInt := by
        rw [RegOp.apply, moved_eq, BitVec.ofInt_add, BitVec.ofInt_toInt,
          BitVec.ofInt_toInt]
      rw [Line.outcome, next, ← sum]
      rfl
  | lw rd imm rs1 | sw rs2 imm rs1 =>
      refine only rfl (congrArg (h.perform m) ?_)
      rw [Line.outcome, next]
      rfl
  | bgeu rs1 rs2 label =>
      refine only rfl (congrArg (h.perform m) ?_)
      have lands : moved h.pc
          (2 * (offset 12 (place n) (place label)).toInt) = place label := by
        rw [pc]
        exact fits
      simp only [Line.outcome, Base.outcome, lands, next]
      rfl
  | j label =>
      refine only rfl ?_
      have lands : moved h.pc
          (2 * (offset 20 (place n) (place label)).toInt) = place label := by
        rw [pc]
        exact fits
      simp only [Line.outcome, Base.outcome, lands]
      rfl
  | jal rd symbol =>
      refine only rfl (congrArg (h.perform m) ?_)
      have lands : moved h.pc (2 * (offset 20 (place n) symbol).toInt) =
          symbol := by
        rw [pc]
        exact fits
      simp only [Line.outcome, Base.outcome, lands, next]
      rfl

end Hart

/-- Code in which every line stands at its place does what it says. -/
theorem Assembled.of_stands {σ : Type u} {m : Memory σ}
    {takes : Parcel → Prop} {place : ℕ → BitVec 32} {code : List Line}
    (taken : ∀ i : Base, takes (.full (.base i)))
    (stands : ∀ (n : ℕ) (line : Line), code[n]? = some line →
      line.Stands m place n) :
    Assembled m takes place code where
  means := fun at_ _ _ _ pc performs =>
    Hart.advances_of_stands taken (stands _ _ at_) pc performs

end SisRv.Riscv
