import SisRv.Core.Reservation

/-!
# Constrained LR/SC sequences

The SC of a sequence of simple instructions finds the reservation of its LR
unless one of them redirects.
-/

namespace SisRv

open Riscv

/-- The instructions between the LR and the SC of a constrained loop, given
whether a branch is taken: a branch or jump that goes anywhere goes forward. -/
def Riscv.Base.inLoop (taken : Bool) : Base → Bool
  | .opReg .. => true
  | .opImm .. => true
  | .shiftImm .. => true
  | .lui .. => true
  | .auipc .. => true
  | .branch _ _ _ offset => !taken || decide (0 < offset.toInt)
  | .jal _ offset => decide (0 < offset.toInt)
  | .jalr .. => false
  | .load .. => false
  | .store .. => false

namespace Core

variable {p : Params} {s : Core p} {i : CoreIn}

/-- EX holds such an instruction. -/
def InLoop (s : Core p) : Prop :=
  ∃ instr : Base,
    s.ex.instr = instr.encode ∧ instr.inLoop s.exBranchTaken = true

/-- The instruction is not at the place after this one. -/
def jumps (s : Core p) : Bool := s.ex.isJal || s.exBranchTaken

theorem classes_of_inLoop
    (sound : s.ExSound) (valid : s.ex.valid = true) (body : s.InLoop) :
    s.ex.isJalr = false ∧ s.ex.isSystem = false ∧ s.ex.isAtomic = false := by
  obtain ⟨instr, word, allowed⟩ := body
  have decoded := sound.decoded valid
  rw [word] at decoded
  have flags := (sound.coherent valid).flags_of_opcode
    (congrArg Decoded.opcode decoded)
  cases instr with
  | jalr => exact absurd allowed Bool.false_ne_true
  | load => exact absurd allowed Bool.false_ne_true
  | store => exact absurd allowed Bool.false_ne_true
  | _ =>
      simp only [flags, sisDecode, Base.encode, rType_fields, iType_fields,
        uType_fields, jType_fields, bType_fields]
      decide

/-- Without an exception or interrupt it redirects if it jumps. -/
theorem redirect_of_inLoop
    (sound : s.ExSound) (body : s.InLoop) (leaves : s.exToWbFire i = true)
    (goes : s.wbSingleStepStop = false) (normal : s.exException i = false)
    (quiet : s.irqPending i = false) : s.exRedirect i = s.jumps := by
  obtain ⟨noJalr, noSystem, -⟩ :=
    classes_of_inLoop sound (valid_of_leave leaves) body
  cases branch : s.ex.isBranch <;>
    simp [exRedirect, leaves, goes, normal, quiet, noJalr, exIsEcall,
      exIsEbreak, exIsMret, exIsSystemImm, noSystem, jumps, exBranchTaken,
      branch]

end Core

namespace Run

variable {p : Params} {r : Run p} {a n x : ℕ}

/-- An instruction goes from EX to WB without an exception or interrupt. -/
structure Passes (r : Run p) (n : ℕ) : Prop where
  leaves : (r.state n).exToWbFire (r.inputs n) = true
  goes : (r.state n).wbSingleStepStop = false
  normal : (r.state n).exException (r.inputs n) = false
  quiet : (r.state n).irqPending (r.inputs n) = false

/-- The LR that leaves EX in cycle `a` and the SC in EX from cycle `n` to
cycle `x` have the same address, and in between only the instructions of a
constrained loop depart. -/
structure ConstrainedSequence (r : Run p) (a n x : ℕ) : Prop where
  before : a < n
  lr : (r.state a).exIsLr = true
  passes : r.Passes a
  body : ∀ k, a < k → k < n → r.departs k = true →
    r.Passes k ∧ (r.state k).InLoop
  sc : r.CompletesSc n x
  same : (r.state n).ex.rs1Val = (r.state a).ex.rs1Val

/-- None of the instructions that depart after cycle `a` and before cycle `n`
jumps. -/
def GoesStraight (r : Run p) (a n : ℕ) : Prop :=
  ∀ k, a < k → k < n → r.departs k = true → (r.state k).jumps = false

theorem goesStraight_succ (above : a < n) :
    r.GoesStraight a (n + 1) ↔
      r.GoesStraight a n ∧
        (r.departs n = true → (r.state n).jumps = false) := by
  constructor
  · intro straight
    exact ⟨fun k later within => straight k later (by omega),
      straight n above (by omega)⟩
  · rintro ⟨straight, here⟩ k later within
    by_cases last : k = n
    · subst last
      exact here
    · exact straight k later (by omega)

/-- The reservation behind an instruction of the loop. -/
theorem lr_of_body (passes : r.Passes n) (body : (r.state n).InLoop) :
    (r.state (n + 1)).lrReservationValid =
        ((r.state n).lrReservationValid && !(r.state n).jumps) ∧
      ((r.state n).jumps = false →
        (r.state (n + 1)).lrReservationAddr =
          (r.state n).lrReservationAddr) := by
  obtain ⟨leaves, goes, normal, quiet⟩ := passes
  have redirects := Core.redirect_of_inLoop (r.exSound n) body leaves goes
    normal quiet
  have notAtomic := (Core.classes_of_inLoop (r.exSound n)
    (Core.valid_of_leave leaves) body).2.2
  cases jumps : (r.state n).jumps with
  | true =>
      rw [jumps] at redirects
      refine ⟨?_, fun other => absurd other (by decide)⟩
      show (r.state n).lrValidNext (r.inputs n) = _
      simp [Core.lrValidNext, redirects]
  | false =>
      rw [jumps] at redirects
      obtain ⟨addr, kept⟩ := (Core.lr_of_straight (r.exSound n) leaves goes
        redirects).2 (by simp [Core.exIsLr, notAtomic])
      refine ⟨?_, fun _ => addr⟩
      show (r.state n).lrValidNext (r.inputs n) = _
      simp [kept, Core.exIsSc, notAtomic]

/-- The reservation of the LR lasts until the first jump. -/
theorem ConstrainedSequence.reservation
    (sequence : r.ConstrainedSequence a n x) {m : ℕ}
    (above : a + 1 ≤ m) (within : m ≤ n) :
    ((r.state m).lrReservationValid = true ↔ r.GoesStraight a m) ∧
      ((r.state m).lrReservationValid = true →
        (r.state m).lrReservationAddr = (r.state a).ex.rs1Val) := by
  induction m, above using Nat.le_induction with
  | base =>
      obtain ⟨leaves, goes, normal, quiet⟩ := sequence.passes
      have atomic : (r.state a).ex.isAtomic = true := by
        have lr := sequence.lr
        simp only [Core.exIsLr, Bool.and_eq_true] at lr
        exact lr.1
      have straight := Core.redirect_of_isAccess
        ((r.exSound a).coherent (Core.valid_of_leave leaves))
        (by simp [Decoded.isAccess, atomic]) leaves goes
      rw [normal, quiet, Bool.or_false] at straight
      obtain ⟨addr, valid⟩ := (Core.lr_of_straight (r.exSound a) leaves goes
        straight).1 sequence.lr
      refine ⟨⟨fun _ k above below => absurd below (by omega), fun _ => valid⟩,
        fun _ => addr⟩
  | succ m above inductionHypothesis =>
      obtain ⟨valid, addr⟩ := inductionHypothesis (by omega)
      rw [goesStraight_succ (by omega), ← valid]
      cases departs : r.departs m with
      | false =>
          obtain ⟨sameAddr, sameValid⟩ := lr_of_not_departs departs
          simpa [sameAddr, sameValid] using addr
      | true =>
          obtain ⟨passes, body⟩ :=
            sequence.body m (by omega) (by omega) departs
          obtain ⟨next, kept⟩ := lr_of_body passes body
          rw [next]
          cases jumps : (r.state m).jumps with
          | true => simp
          | false => simpa [kept jumps] using addr

/-- The SC of a constrained sequence stores if and only if nothing between it
and the LR jumps. -/
theorem constrained_sc_iff (sequence : r.ConstrainedSequence a n x) :
    r.Stores n x ↔ r.GoesStraight a n := by
  obtain ⟨valid, addr⟩ :=
    sequence.reservation (Nat.succ_le_of_lt sequence.before) le_rfl
  rw [sequence.sc.stores_iff, ← valid]
  simp only [Core.exScSucceeds, sequence.sc.sc, Bool.true_and,
    Bool.and_eq_true, beq_iff_eq, sequence.same]
  exact ⟨fun succeeds => succeeds.1, fun reserved => ⟨reserved, addr reserved⟩⟩

end Run

/-- `lui x1, 0x80000`, `lr.w x2, (x1)`, `addi x2, x2, 1` and
`sc.w x3, x2, (x1)`. -/
def straightLoop : Run {} :=
  Run.script {}
    (CoreIn.fetch [(Base.lui 1 0x80000).encode,
        (Instr.lr false false 2 1).encode] ++
      [.accept,
        { CoreIn.answer (Base.opImm .addi 2 2 1).encode with
          dReqReady := true },
        { dRspValid := true }, .accept,
        .answer (Instr.sc false false 3 1 2).encode, .idle,
        { dReqReady := true }, { dRspValid := true }])

theorem straightLoop_sequence :
    straightLoop.ConstrainedSequence 6 10 11 where
  before := by decide
  lr := by decide
  passes := by constructor <;> decide
  body := fun k after before departs => by
    by_cases add : k = 8
    · subst add
      exact ⟨by constructor <;> decide,
        .opImm .addi 2 2 1, by decide, by decide⟩
    · have idle : straightLoop.departs k = false := by
        interval_cases k <;> first
          | exact absurd rfl add
          | decide
      rw [idle] at departs
      exact absurd departs (by decide)
  sc :=
    { le := by decide, leaves := by decide
      stays := fun m above below => by
        obtain rfl : m = 10 := by omega
        decide
      same := by constructor <;> decide
      sc := by decide, first := by decide, goes := by decide
      normal := by decide }
  same := by decide

theorem constrained_sc_iff_straightLoop : straightLoop.Stores 10 11 := by
  refine (Run.constrained_sc_iff straightLoop_sequence).mpr ?_
  intro k after before departs
  interval_cases k <;> decide

/-- `lui x1, 0x80000`, `lr.w x2, (x1)`, `j .+8` and `sc.w x3, x2, (x1)`. -/
def jumpsInLoop : Run {} :=
  Run.script {}
    (CoreIn.fetch [(Base.lui 1 0x80000).encode,
        (Instr.lr false false 2 1).encode] ++
      [.accept,
        { CoreIn.answer (Base.jal 0 4).encode with dReqReady := true },
        { dRspValid := true }, .idle, .accept,
        .answer (Instr.sc false false 3 1 2).encode])

theorem jumpsInLoop_sequence : jumpsInLoop.ConstrainedSequence 6 11 11 where
  before := by decide
  lr := by decide
  passes := by constructor <;> decide
  body := fun k after before departs => by
    by_cases jump : k = 7
    · subst jump
      exact ⟨by constructor <;> decide,
        .jal 0 4, by decide, by decide⟩
    · have idle : jumpsInLoop.departs k = false := by
        interval_cases k <;> first
          | exact absurd rfl jump
          | decide
      rw [idle] at departs
      exact absurd departs (by decide)
  sc :=
    { le := le_rfl, leaves := by decide
      stays := fun m above below => absurd below (by omega)
      same := SameInstr.refl _, sc := by decide
      first := by decide, goes := by decide
      normal := by decide }
  same := by decide

/-- The SC behind a jump over one instruction stores nothing in RAM. -/
theorem not_constrained_sc :
    ¬ ∀ (p : Params) (r : Run p) (a n x : ℕ),
      r.ConstrainedSequence a n x →
        (r.state a).ex.rs1Val = 0x80000000 → r.Stores n x := by
  intro succeeds
  have stores := succeeds {} jumpsInLoop 6 11 11 jumpsInLoop_sequence
    (by decide)
  have fails := jumpsInLoop_sequence.sc.fails (by decide)
  have twice := stores.asks.symm.trans fails.asks
  simp at twice

end SisRv
