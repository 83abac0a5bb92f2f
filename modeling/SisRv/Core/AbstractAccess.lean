import SisRv.Core.Forwarding
import SisRv.Core.Run

/-!
# Abstract register access

The debugger reads and writes the register file as soon as `halted` is high,
while the instructions in EX and WB are still on their way.  An access is in
order when it keeps apart from what they write.
-/

namespace SisRv

namespace Core

variable {p : Params} {s : Core p} {i : CoreIn}

/-- `dbg_abs_ready`. -/
def dbgAbsReady (s : Core p) (i : CoreIn) : Bool := i.dbgAbsValid && s.halted

/-- `dbg_abs_rdata`. -/
def dbgAbsRdata (s : Core p) (i : CoreIn) : BitVec 32 :=
  s.rfData i.dbgAbsRegaddr

/-- An abstract write to a register is served. -/
def absWrites (s : Core p) (i : CoreIn) : Bool :=
  s.dbgAbsReady i && i.dbgAbsWrite && i.dbgAbsRegaddr != 0

/-- An abstract read of a register is answered. -/
def absReads (s : Core p) (i : CoreIn) (rs : BitVec 5) : Bool :=
  s.dbgAbsReady i && !i.dbgAbsWrite && i.dbgAbsRegaddr == rs

/-- A register file after the abstract write of the cycle. -/
def absWrite (s : Core p) (i : CoreIn) (rf : BitVec 5 → BitVec 32) :
    BitVec 5 → BitVec 32 :=
  if s.absWrites i then Function.update rf i.dbgAbsRegaddr i.dbgAbsWdata
  else rf

theorem regsNext_eq :
    s.regsNext i =
      if s.absWrites i then
        Function.update s.regs i.dbgAbsRegaddr i.dbgAbsWdata
      else s.wbWrite i s.regs := rfl

/-- The pipeline write and the abstract write of a cycle do not compete. -/
def WriteApart (s : Core p) (i : CoreIn) : Prop :=
  s.absWrites i = true → s.wbWritesRd = true → s.wb.rd ≠ 0 →
    s.wb.rd = i.dbgAbsRegaddr

/-- Both writes of such a cycle take effect, the abstract one last. -/
theorem regsNext_of_apart (apart : s.WriteApart i) :
    s.regsNext i = s.absWrite i (s.wbWrite i s.regs) := by
  rw [regsNext_eq]
  by_cases abstract : s.absWrites i = true
  · simp only [abstract, if_true, absWrite]
    by_cases writes : (s.wbWritesRd && s.wb.rd != 0) = true
    · have both := writes
      simp only [Bool.and_eq_true, bne_iff_ne] at both
      rw [wbWrite, if_pos writes, apart abstract both.1 both.2,
        Function.update_idem]
    · rw [wbWrite, if_neg writes]
  · simp only [absWrite, abstract, Bool.false_eq_true, if_false]

/-- What `wb_writes_rd` is going to be for the instruction that leaves EX. -/
def exWritesRd (s : Core p) (i : CoreIn) : Bool :=
  !s.exException i &&
    (s.ex.isAluReg || s.ex.isAluImm || s.ex.isLui || s.ex.isAuipc ||
      s.ex.isJal || s.ex.isJalr || s.ex.isLoad || s.exIsCsrOp || s.exIsLr ||
      s.exIsSc || s.exIsAmoOp)

theorem wbWritesRd_of_leave
    (leaves : s.exToWbFire i = true) (goes : s.wbSingleStepStop = false) :
    (s.step i).wbWritesRd = s.exWritesRd i ∧ (s.step i).wb.rd = s.ex.rd := by
  rw [wbWritesRd, step_wb_of_leave leaves goes]
  refine ⟨?_, rfl⟩
  simp only [completedWb, exWritesRd, exException, Bool.not_or, Bool.not_not,
    Bool.true_and]

end Core

namespace Run

variable {p : Params} (r : Run p)

/-- The core is halted in the cycles from `n` up to `m`, `m` left out. -/
def HaltedUntil (n m : ℕ) : Prop :=
  ∀ k, n ≤ k → k < m → (r.state k).halted = true

/-- The register file of cycle `n` after the pipeline writes of the next `d`
cycles. -/
def committed (n : ℕ) : ℕ → BitVec 5 → BitVec 32
  | 0 => (r.state n).regs
  | d + 1 => (r.state (n + d)).wbWrite (r.inputs (n + d)) (committed n d)

/-- By cycle `n + d` the register has the value it keeps until the core is
resumed. -/
structure Lasts (n d : ℕ) (rs : BitVec 5) : Prop where
  halted : r.HaltedUntil n (n + d)
  kept : ∀ e, d ≤ e → r.HaltedUntil n (n + e) →
    r.committed n e rs = r.committed n d rs

/-- In cycle `n` no pipeline write is lost to an abstract write, and an
abstract read answers with the value its register has after all instructions
that commit before the core is resumed. -/
structure AccessRight (n : ℕ) : Prop where
  write : (r.state (n + 1)).regs =
    (r.state n).absWrite (r.inputs n)
      ((r.state n).wbWrite (r.inputs n) (r.state n).regs)
  read : ∀ rs, (r.state n).absReads (r.inputs n) rs = true →
    ∀ d, r.Lasts n d rs →
      (r.state n).dbgAbsRdata (r.inputs n) =
        if rs = 0 then 0 else r.committed n d rs

/-- The instruction in EX goes on to write a register before the core is
resumed. -/
def WritesHalted (n : ℕ) (rs : BitVec 5) : Prop :=
  ∃ x, n ≤ x ∧ r.HaltedUntil n (x + 2) ∧
    (r.state x).exToWbFire (r.inputs x) = true ∧
    (r.state x).exWritesRd (r.inputs x) = true ∧ (r.state x).ex.rd = rs

/-- The abstract access of cycle `n` keeps apart from the instructions in WB
and EX. -/
structure AccessApart (n : ℕ) : Prop where
  write : (r.state n).WriteApart (r.inputs n)
  readWb : ∀ rs, rs ≠ 0 → (r.state n).absReads (r.inputs n) rs = true →
    (r.state n).wbWritesRd = true → (r.state n).wb.rd ≠ rs
  readEx : ∀ rs, rs ≠ 0 → (r.state n).absReads (r.inputs n) rs = true →
    ¬ r.WritesHalted n rs

variable {r} {n : ℕ} {rs : BitVec 5}

theorem HaltedUntil.shorter {m k : ℕ} (halted : r.HaltedUntil n m)
    (within : k ≤ m) : r.HaltedUntil n k :=
  fun j above below => halted j above (lt_of_lt_of_le below within)

theorem leave_of_write {m : ℕ}
    (writes : (r.state (m + 1)).wbWritesRd = true) :
    (r.state m).exToWbFire (r.inputs m) = true ∧
      (r.state m).wbSingleStepStop = false := by
  have valid : (r.state (m + 1)).wb.valid = true := by
    simp only [Core.wbWritesRd, Bool.and_eq_true] at writes
    exact writes.1.1.1.1.1.1.1
  rw [r.state_succ] at valid
  exact Core.leave_of_wb_valid valid

/-- A write-back after cycle `n` comes from the instruction in EX. -/
theorem writesHalted_of_write {d : ℕ}
    (halted : r.HaltedUntil n (n + (d + 1) + 1))
    (writes : (r.state (n + (d + 1))).wbWritesRd = true)
    (hit : (r.state (n + (d + 1))).wb.rd = rs) :
    r.WritesHalted n rs := by
  obtain ⟨leaves, goes⟩ := leave_of_write writes
  obtain ⟨same, sameRd⟩ := Core.wbWritesRd_of_leave leaves goes
  exact ⟨n + d, Nat.le_add_right n d, halted, leaves, same.symm.trans writes,
    sameRd.symm.trans hit⟩

theorem committed_of_silent {d e : ℕ} (later : d ≤ e)
    (silent : ∀ k, d ≤ k → k < e → (r.state (n + k)).wbWritesRd = true →
      (r.state (n + k)).wb.rd ≠ rs) :
    r.committed n e rs = r.committed n d rs := by
  induction e, later using Nat.le_induction with
  | base => rfl
  | succ e later inductionHypothesis =>
      rw [committed, Core.wbWrite_of_miss,
        inductionHypothesis fun k low high => silent k low (by omega)]
      exact fun writes _ => silent e later (Nat.lt_succ_self e) writes

/-- The register keeps its value if neither WB nor EX holds an instruction
that writes it. -/
theorem committed_of_apart
    (wb : (r.state n).wbWritesRd = true → (r.state n).wb.rd ≠ rs)
    (ex : ¬ r.WritesHalted n rs) (d : ℕ)
    (halted : r.HaltedUntil n (n + d)) :
    r.committed n d rs = (r.state n).regs rs := by
  refine committed_of_silent (Nat.zero_le d) fun k _ below writes hit => ?_
  cases k with
  | zero => exact wb writes hit
  | succ k =>
      exact ex
        (writesHalted_of_write (halted.shorter (by omega)) writes hit)

/-- EX holds the same instruction as long as the core is halted. -/
theorem ex_of_halted {x : ℕ} (above : n ≤ x) (halted : r.HaltedUntil n x) :
    ((r.state x).ex.valid = true → (r.state n).ex.valid = true) ∧
      SameInstr (r.state x).ex (r.state n).ex := by
  induction x, above using Nat.le_induction with
  | base => exact ⟨id, SameInstr.refl _⟩
  | succ x above inductionHypothesis =>
      obtain ⟨valid, same⟩ :=
        inductionHypothesis (halted.shorter (Nat.le_succ x))
      have quiet : (r.state x).idToExFire (r.inputs x) = false := by
        simp [Core.idToExFire, halted x above (Nat.lt_succ_self x)]
      rw [r.state_succ]
      exact ⟨fun later => valid (Core.valid_of_exNext quiet later),
        ((r.state x).exNext_sameInstr _ quiet).trans same⟩

theorem ex_of_writesHalted (writes : r.WritesHalted n rs) :
    (r.state n).ex.valid = true ∧ (r.state n).ex.rd = rs := by
  obtain ⟨x, above, halted, leaves, -, hit⟩ := writes
  obtain ⟨valid, same⟩ := ex_of_halted above (halted.shorter (by omega))
  refine ⟨valid (Core.valid_of_leave leaves), ?_⟩
  rw [← hit, ← same.toDecoded]

/-- What is in EX and WB has been committed at some time. -/
theorem exists_lasts (halted : (r.state n).halted = true)
    (rs : BitVec 5) : ∃ d, r.Lasts n d rs := by
  by_cases writes : r.WritesHalted n rs
  · obtain ⟨x, above, free, leaves, -, -⟩ := writes
    obtain ⟨d, rfl⟩ := Nat.exists_eq_add_of_le above
    have quiet : (r.state (n + d)).idToExFire (r.inputs (n + d)) = false := by
      simp [Core.idToExFire, free (n + d) above (by omega)]
    have empty : (r.state (n + d + 1)).ex.valid = false := by
      rw [r.state_succ]
      exact Core.empty_of_leave leaves quiet
    refine ⟨d + 2, free, fun e later wide => ?_⟩
    refine committed_of_silent later fun k low high now _ => ?_
    obtain ⟨j, rfl⟩ := Nat.exists_eq_add_of_le low
    -- a later write-back would come from another instruction
    have left := (leave_of_write (m := n + d + 1 + j) (by
      rw [← now]
      congr 2
      omega)).1
    have held := (ex_of_halted (n := n + d + 1) (Nat.le_add_right _ j)
      fun k low high => wide k (by omega) (by omega)).1
      (Core.valid_of_leave left)
    rw [empty] at held
    exact absurd held (by decide)
  · refine ⟨1, fun k low high => ?_, fun e later wide => ?_⟩
    · obtain rfl : k = n := by omega
      exact halted
    refine committed_of_silent later fun k low high now hit => writes ?_
    obtain ⟨j, rfl⟩ := Nat.exists_eq_add_of_le' low
    exact writesHalted_of_write (wide.shorter (by omega)) now hit

/-- Once EX and WB are empty every abstract access keeps apart. -/
theorem accessApart_of_empty (ex : (r.state n).ex.valid = false)
    (wb : (r.state n).wb.valid = false) :
    r.AccessApart n := by
  have silent : (r.state n).wbWritesRd = false := by
    simp [Core.wbWritesRd, wb]
  refine ⟨?_, ?_, ?_⟩
  · intro _ writes
    rw [silent] at writes
    exact absurd writes Bool.false_ne_true
  · intro _ _ _ writes
    rw [silent] at writes
    exact absurd writes Bool.false_ne_true
  · intro _ _ _ writes
    rw [(ex_of_writesHalted writes).1] at ex
    exact Bool.false_ne_true ex.symm

end Run

/-- Every abstract access that keeps apart from the instructions on their way
is right. -/
theorem access_right {p : Params} (r : Run p) (n : ℕ)
    (apart : r.AccessApart n) : r.AccessRight n where
  write := Core.regsNext_of_apart apart.write
  read := by
    intro rs reads d lasts
    have addr : (r.inputs n).dbgAbsRegaddr = rs := by
      simp only [Core.absReads, Bool.and_eq_true, beq_iff_eq] at reads
      exact reads.2
    rw [Core.dbgAbsRdata, Core.rfData, addr]
    by_cases zero : rs = 0
    · simp only [zero, if_true]
    · rw [if_neg zero, if_neg zero]
      exact (Run.committed_of_apart (apart.readWb rs zero reads)
        (apart.readEx rs zero reads) d lasts.halted).symm

/-- The halt request comes while an `addi` to `x1` is in EX, the abstract
access one cycle later. -/
def haltedAddi (access : CoreIn) : Run {} :=
  Run.script {} (CoreIn.fetch [0x00500093] ++
    [.idle, { dbgHaltReq := true }, access, access])

theorem access_right_haltedAddi :
    (haltedAddi { dbgAbsValid := true, dbgAbsRegaddr := 1 }).AccessRight 5 :=
  access_right _ 5 (Run.accessApart_of_empty (by decide) (by decide))

/-- The abstract write of `x2` displaces the write of `x1`. -/
theorem not_access_right :
    ¬ ∀ (p : Params) (r : Run p) (n : ℕ), r.AccessRight n := by
  intro right
  have written := congrFun (right {} (haltedAddi
    { dbgAbsValid := true, dbgAbsWrite := true, dbgAbsRegaddr := 2 }) 4).write
    1
  revert written
  decide

end SisRv
