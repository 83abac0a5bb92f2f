import SisRv.Core.Redirect
import SisRv.Csr.Run
import SisRv.Lib.Tally

/-!
# Retirement counters

What `minstret`, the retire log and the event counters count, against the
instructions that reach WB and take effect.
-/

namespace SisRv

open Sync

/-! ## Counters that are left alone -/

namespace CsrState

variable {p : Params} {c n : CsrState p}

/-- The addresses of the counters. -/
def IsCounter (addr : BitVec 12) : Prop :=
  addr ∈ [csrMcycle, csrMcycleh, csrMinstret, csrMinstreth] ∨
    (csrIsMhpmcounter addr).isSome = true

instance (addr : BitVec 12) : Decidable (IsCounter addr) :=
  inferInstanceAs (Decidable (_ ∨ _))

theorem writeIndexed_counters {addr : BitVec 12} (val : BitVec 32)
    (other : ¬ IsCounter addr) :
    (c.writeIndexed n addr val).minstret = n.minstret ∧
      (c.writeIndexed n addr val).mhpmcounter = n.mhpmcounter := by
  have none : csrIsMhpmcounter addr = none := by
    simpa using fun some => other (Or.inr some)
  unfold writeIndexed
  rw [none]
  repeat' split
  all_goals first | exact ⟨rfl, rfl⟩ | contradiction

theorem writeCsr_counters {addr : BitVec 12} (val : BitVec 32)
    (other : ¬ IsCounter addr) :
    (c.writeCsr n addr val).minstret = n.minstret ∧
      (c.writeCsr n addr val).mhpmcounter = n.mhpmcounter := by
  revert other
  apply writeCsr_cases (P := fun addr t => ¬ IsCounter addr →
    t.minstret = n.minstret ∧ t.mhpmcounter = n.mhpmcounter)
  case mcycle => exact fun _ _ => ⟨rfl, rfl⟩
  case minstret =>
    intro high other
    exact absurd (Or.inl (by cases high <;> decide)) other
  case tselect =>
    intro _
    split_ifs <;> exact ⟨rfl, rfl⟩
  case indexed => exact fun _ other => writeIndexed_counters val other
  all_goals exact fun _ => ⟨rfl, rfl⟩

theorem commit_counters (irq : IrqLines) (x : CsrIn p)
    (untouched : x.csrWen = true → ¬ IsCounter x.csrAddr) :
    (c.commit irq x n).minstret = n.minstret ∧
      (c.commit irq x n).mhpmcounter = n.mhpmcounter := by
  unfold commit
  split_ifs with enter mret write
  · exact ⟨rfl, rfl⟩
  · exact ⟨rfl, rfl⟩
  · exact writeCsr_counters _ (untouched write)
  · exact ⟨rfl, rfl⟩

/-- A counter that is neither inhibited nor written ticks by its event. -/
theorem next_counters (irq : IrqLines) (x : CsrIn p)
    (running : c.mcountinhibit = 0)
    (untouched : x.csrWen = true → ¬ IsCounter x.csrAddr) :
    (c.next irq x).minstret =
        c.minstret + (if x.instrRetire = true then 1 else 0) ∧
      ∀ hi, (c.next irq x).mhpmcounter hi = c.mhpmcounter hi +
        (if c.mhpmevent hi &&& x.hpmEvents ≠ 0 then 1 else 0) := by
  obtain ⟨minstret, mhpmcounter⟩ :=
    commit_counters (c := c) (n := c.tickCounters x) irq x untouched
  constructor
  · refine minstret.trans ?_
    simp only [tickCounters, running]
    cases x.instrRetire <;> simp
  · intro hi
    refine (congrFun mhpmcounter hi).trans ?_
    have ticks : (!(0 : BitVec 32).getLsbD hi.val.val &&
        (c.mhpmevent hi &&& x.hpmEvents) != 0) = true ↔
        c.mhpmevent hi &&& x.hpmEvents ≠ 0 := by simp
    simp only [tickCounters, running, ticks]
    split_ifs <;> simp

end CsrState

/-! ## What WB retires -/

namespace Core

variable {p : Params} {s : Core p} {i : CoreIn}

/-- An instruction is in WB and takes effect: it has no synchronous
exception. -/
def takesEffect (s : Core p) : Bool :=
  s.wb.valid && !(s.wbFault || s.wb.isEcall || s.wb.isEbreak)

/-- An interrupt has been accepted with the instruction in WB. -/
def irqAccepted (s : Core p) : Bool := s.wb.irqPending && !s.wb.isCsrOp

/-- An instruction that takes effect retires unless it comes with an
interrupt. -/
theorem instrRetire_eq :
    s.instrRetire = (s.takesEffect && !s.irqAccepted) := by
  by_cases valid : s.wb.valid = true
  · by_cases fault : s.wbFault = true
    · obtain ⟨cause, val, -, control⟩ := wbControl_of_fault s valid fault
      simp [instrRetire, control, wbTrap, takesEffect, fault]
    · have sane : s.wbFault = false := by simpa using fault
      have parts := sane
      simp only [wbFault, Bool.or_eq_false_iff, Bool.not_eq_false'] at parts
      simp only [instrRetire, takesEffect, irqAccepted, wbControl, wbRetires,
        valid, sane, parts, Bool.not_true, Bool.false_eq_true, if_false,
        Bool.false_or, Bool.true_and]
      by_cases csrOp : s.wb.isCsrOp = true
      · simp [csrOp]
      by_cases ecall : s.wb.isEcall = true
      · simp [csrOp, ecall, wbTrap]
      by_cases ebreak : s.wb.isEbreak = true
      · simp [csrOp, ecall, ebreak, wbTrap]
      by_cases mret : s.wb.isMret = true
      · simp [csrOp, ecall, ebreak, mret]
      by_cases irq : s.wb.irqPending = true <;>
        simp [csrOp, ecall, ebreak, mret, irq, wbTrap]
  · simp [instrRetire, wbControl, takesEffect, valid]

theorem wb_valid_of_retires (retires : s.instrRetire = true) :
    s.wb.valid = true := by
  rw [instrRetire_eq, takesEffect] at retires
  simp only [Bool.and_eq_true] at retires
  exact retires.1.1

/-- What holds in EX when an instruction leaves it to retire. -/
theorem quiet_of_retires (retires : (s.step i).instrRetire = true) :
    s.exToWbFire i = true ∧ s.wbSingleStepStop = false ∧
      s.exException i = false ∧
      (s.irqPending i = true → s.exIsCsrOp = true) := by
  obtain ⟨leaves, goes⟩ := leave_of_wb_valid (wb_valid_of_retires retires)
  simp only [instrRetire_eq, takesEffect, irqAccepted, Bool.and_eq_true,
    Bool.not_eq_true', Bool.or_eq_false_iff] at retires
  obtain ⟨⟨-, ⟨sane, -⟩, -⟩, accepted⟩ := retires
  rw [wbFault, step_wb_of_leave leaves goes] at sane
  rw [step_wb_of_leave leaves goes] at accepted
  refine ⟨leaves, goes, sane, fun pending => ?_⟩
  by_contra other
  have both : (s.irqPending i && !s.exIsCsrOp) = true := by
    rw [pending, Bool.eq_false_iff.mpr other]
    rfl
  exact Bool.false_ne_true (accepted.symm.trans both)

theorem flags_of_branch (coherent : s.ex.toDecoded.Coherent)
    (branch : s.ex.isBranch = true) :
    s.ex.isJal = false ∧ s.ex.isJalr = false ∧ s.ex.isSystem = false := by
  rw [coherent.isBranch, beq_iff_eq] at branch
  have flags := coherent.flags_of_opcode branch
  simp only [flags]
  decide

/-- A branch that retires shows in WB where EX has sent it. -/
theorem wb_branch_target (sound : s.ExSound)
    (retires : (s.step i).instrRetire = true)
    (branch : s.ex.isBranch = true) :
    (s.step i).wb.pcNext =
        (if s.exBranchTaken then s.exBranchTarget else s.exPcSequential) ∧
      (s.step i).wb.pcSequential = s.exPcSequential := by
  obtain ⟨leaves, goes, quiet, onlyCsr⟩ := quiet_of_retires retires
  have coherent := sound.coherent (valid_of_leave leaves)
  obtain ⟨noJal, noJalr, other⟩ := flags_of_branch coherent branch
  have idle : s.irqPending i = false := by
    by_contra pending
    have csrOp := onlyCsr (by simpa using pending)
    simp [exIsCsrOp, other] at csrOp
  rw [step_wb_of_leave leaves goes]
  refine ⟨?_, rfl⟩
  show s.exPcNext i = _
  rw [exPcNext_of_not_system quiet other, idle]
  simp [exNextPcTarget, noJal, noJalr, branch]

theorem hpmEvents_getLsbD (s : Core p) :
    s.hpmEvents.getLsbD 1 =
        (s.wb.valid && s.instrRetire && (s.wb.isLoad || s.wb.isLr)) ∧
      s.hpmEvents.getLsbD 2 =
        (s.wb.valid && s.instrRetire &&
          (s.wb.isStore || s.wb.isSc || s.wb.isAmoOp)) ∧
      s.hpmEvents.getLsbD 3 = s.wbBranchTaken ∧
      s.hpmEvents.getLsbD 4 = s.wbControlRedirect := by
  simp only [hpmEvents, BitVec.getLsbD_append, BitVec.getLsbD_ofBool]
  simp

end Core

/-! ## The events of a run -/

/-- The events with a counter of their own kind. -/
inductive RetireEvent where
  | loads
  | stores
  | takenBranches
  | redirects
  deriving DecidableEq, Repr

/-- The bit of `mhpmevent` that selects an event. -/
def RetireEvent.bit : RetireEvent → ℕ
  | loads => 1
  | stores => 2
  | takenBranches => 3
  | redirects => 4

namespace Run

variable {p : Params} (r : Run p)

/-- The instruction in WB is a branch that EX has decided to take. -/
def branchTaken : ℕ → Bool
  | 0 => false
  | n + 1 => (r.state n).ex.isBranch && (r.state n).exBranchTaken

/-- The branch in WB has the next instruction as its target. -/
def branchesAhead : ℕ → Bool
  | 0 => false
  | n + 1 => (r.state n).exBranchTarget == (r.state n).exPcSequential

/-- The class of the instruction in WB, by what it does. -/
def inClass (n : ℕ) : RetireEvent → Bool
  | .loads => (r.state n).wb.isLoad || (r.state n).wb.isLr
  | .stores =>
      (r.state n).wb.isStore || (r.state n).wb.isSc || (r.state n).wb.isAmoOp
  | .takenBranches => r.branchTaken n
  | .redirects =>
      (r.state n).wb.isJal || (r.state n).wb.isJalr || r.branchTaken n ||
        (r.state n).wb.isMret

/-- An instruction of the class takes effect. -/
def Performs (e : RetireEvent) (n : ℕ) : Prop :=
  (r.state n).takesEffect = true ∧ r.inClass n e = true

instance (e : RetireEvent) : DecidablePred (r.Performs e) :=
  fun _ => inferInstanceAs (Decidable (_ ∧ _))

/-- A counter of the event misses the instruction in WB: it comes with an
interrupt, or its branch is taken to the next instruction. -/
def Missed (e : RetireEvent) (n : ℕ) : Prop :=
  (r.state n).irqAccepted = true ∨
    (e = .takenBranches ∨ e = .redirects) ∧ r.branchTaken n = true ∧
      r.branchesAhead n = true

instance (e : RetireEvent) : DecidablePred (r.Missed e) :=
  fun _ => inferInstanceAs (Decidable (_ ∨ _ ∧ _ ∧ _))

section Events

variable {r} {n : ℕ}

/-- A full WB holds the instruction that has just left EX. -/
theorem wb_of_valid (valid : (r.state (n + 1)).wb.valid = true) :
    (r.state n).exToWbFire (r.inputs n) = true ∧
      (r.state (n + 1)).wb = (r.state n).completedWb (r.inputs n) := by
  rw [state_succ] at valid
  obtain ⟨leaves, goes⟩ := Core.leave_of_wb_valid valid
  exact ⟨leaves, wb_of_leave leaves goes⟩

theorem wbBranchTaken_iff :
    (r.state n).wbBranchTaken = true ↔
      (r.state n).instrRetire = true ∧ r.branchTaken n = true ∧
        r.branchesAhead n = false := by
  cases n with
  | zero => simp [branchTaken, state_zero, Core.wbBranchTaken, Core.reset,
      WbRegs.reset]
  | succ n =>
      by_cases retires : (r.state (n + 1)).instrRetire = true
      · have valid := Core.wb_valid_of_retires retires
        have branches : (r.state (n + 1)).wb.isBranch =
            (r.state n).ex.isBranch := by
          rw [(wb_of_valid valid).2]
          rfl
        simp only [Core.wbBranchTaken, valid, retires, branches, branchTaken,
          branchesAhead, Bool.true_and, true_and, Bool.and_eq_true]
        by_cases branch : (r.state n).ex.isBranch = true
        · have target := Core.wb_branch_target (r.exSound n) retires branch
          rw [← state_succ] at target
          rw [target.1, target.2]
          by_cases taken : (r.state n).exBranchTaken = true <;>
            simp [branch, taken]
        · simp [branch]
      · simp [Core.wbBranchTaken, retires]

/-- A taken branch is in no other class of redirects. -/
theorem class_of_branchTaken (valid : (r.state n).wb.valid = true)
    (taken : r.branchTaken n = true) :
    (r.state n).wb.isJal = false ∧ (r.state n).wb.isJalr = false ∧
      (r.state n).wb.isMret = false := by
  cases n with
  | zero => exact absurd taken Bool.false_ne_true
  | succ n =>
      obtain ⟨leaves, held⟩ := wb_of_valid valid
      simp only [branchTaken, Bool.and_eq_true] at taken
      obtain ⟨noJal, noJalr, other⟩ := Core.flags_of_branch
        ((r.exSound n).coherent (Core.valid_of_leave leaves)) taken.1
      rw [held]
      refine ⟨noJal, noJalr, ?_⟩
      show (r.state n).exIsMret = false
      simp [Core.exIsMret, Core.exIsSystemImm, other]

theorem retires_iff :
    (r.state n).instrRetire = true ↔
      (r.state n).takesEffect = true ∧ (r.state n).irqAccepted = false := by
  rw [Core.instrRetire_eq, Bool.and_eq_true, Bool.not_eq_true']

theorem valid_of_takesEffect (takes : (r.state n).takesEffect = true) :
    (r.state n).wb.valid = true := by
  rw [Core.takesEffect, Bool.and_eq_true] at takes
  exact takes.1

/-- The event bit of a cycle. -/
theorem hpmEvents_iff (e : RetireEvent) :
    (r.state n).hpmEvents.getLsbD e.bit = true ↔
      r.Performs e n ∧ ¬ r.Missed e n := by
  obtain ⟨loads, stores, branches, redirects⟩ :=
    (r.state n).hpmEvents_getLsbD
  have retires := retires_iff (r := r) (n := n)
  have taken := wbBranchTaken_iff (r := r) (n := n)
  by_cases takes : (r.state n).takesEffect = true
  · have valid := valid_of_takesEffect takes
    simp only [Performs, Missed, takes, true_and]
    simp only [takes, true_and] at retires
    cases e with
    | loads =>
        rw [RetireEvent.bit, loads, valid]
        simp only [Bool.true_and, Bool.and_eq_true, retires, inClass]
        simp [and_comm]
    | stores =>
        rw [RetireEvent.bit, stores, valid]
        simp only [Bool.true_and, Bool.and_eq_true, retires, inClass]
        simp [and_comm]
    | takenBranches =>
        rw [RetireEvent.bit, branches, taken, retires]
        simp only [inClass]
        simp
        tauto
    | redirects =>
        rw [RetireEvent.bit, redirects, Core.wbControlRedirect, valid]
        by_cases branch : r.branchTaken n = true
        · obtain ⟨noJal, noJalr, noMret⟩ := class_of_branchTaken valid branch
          simp only [noJal, noJalr, noMret, Bool.true_and, Bool.false_or,
            Bool.or_false, Bool.and_eq_true, taken, retires, branch, inClass,
            true_and]
          simp
        · have straight : (r.state n).wbBranchTaken = false := by
            simpa [branch] using taken
          simp only [straight, branch, Bool.true_and, Bool.or_false,
            Bool.and_eq_true, retires, inClass]
          simp [and_comm]
  · have stays : (r.state n).instrRetire = false :=
      Bool.eq_false_iff.mpr fun retired => takes (retires.mp retired).1
    have straight : (r.state n).wbBranchTaken = false := by
      simp [Core.wbBranchTaken, stays]
    refine iff_of_false ?_ fun performs => takes performs.1.1
    cases e with
    | loads =>
        simp only [RetireEvent.bit, loads, stays, Bool.and_false,
          Bool.false_and, Bool.false_eq_true, not_false_eq_true]
    | stores =>
        simp only [RetireEvent.bit, stores, stays, Bool.and_false,
          Bool.false_and, Bool.false_eq_true, not_false_eq_true]
    | takenBranches =>
        simp only [RetireEvent.bit, branches, straight, Bool.false_eq_true,
          not_false_eq_true]
    | redirects =>
        simp only [RetireEvent.bit, redirects, Core.wbControlRedirect, stays,
          Bool.and_false, Bool.false_and, Bool.false_eq_true,
          not_false_eq_true]

end Events

/-! ## Counting from a cycle on -/

/-- One call of `dpi_sisrv_retire_insn`. -/
structure RetireInsn where
  pcVal : BitVec 32
  insnVal : BitVec 32
  rawInsnVal : BitVec 32
  isCompressed : Bool
  rdVal : BitVec 5
  wdataVal : BitVec 32
  wrEn : Bool
  deriving DecidableEq, Repr

/-- The retire log of a cycle. -/
def retireInsn (n : ℕ) : Option RetireInsn :=
  let s := r.state n
  if s.wb.valid && s.instrRetire then
    some
      { pcVal := s.wb.pc
        insnVal := s.wb.instr
        rawInsnVal := s.wb.raw
        isCompressed := s.wb.isCompressed
        rdVal := s.wb.rd
        wdataVal := s.wbResult (r.inputs n)
        wrEn := s.wbWritesRd }
  else none

/-- The retire log before cycle `n`. -/
def retireLog : ℕ → List RetireInsn := emitted r.retireInsn

/-- The counters run free in a cycle: none is inhibited, and no CSR
instruction addresses one. -/
def CountersFree (n : ℕ) : Prop :=
  (r.state n).csr.mcountinhibit = 0 ∧
    ((r.state n).csrWenW = true →
      ¬ CsrState.IsCounter (r.state n).csrAddrW)

instance : DecidablePred r.CountersFree :=
  fun _ => inferInstanceAs (Decidable (_ ∧ (_ → ¬ _)))

/-- From cycle `m` on, for `d` cycles, the counters show what has happened. -/
structure CountsExactly (m d : ℕ) : Prop where
  minstret : (r.state (m + d)).csr.minstret =
    (r.state m).csr.minstret + BitVec.ofNat 64
      (Nat.count (fun k => (r.state (m + k)).takesEffect = true) d)
  log : (r.retireLog (m + d)).length = (r.retireLog m).length +
    Nat.count (fun k => (r.state (m + k)).takesEffect = true) d
  mhpmcounter : ∀ hi e,
    (∀ k < d, (r.state (m + k)).csr.mhpmevent hi =
      BitVec.twoPow 32 e.bit) →
    (r.state (m + d)).csr.mhpmcounter hi =
      (r.state m).csr.mhpmcounter hi + BitVec.ofNat 64
        (Nat.count (fun k => r.Performs e (m + k)) d)

/-- A counter selects the event in the cycles from `m` to `m + k`. -/
def Selected (e : RetireEvent) (m k : ℕ) : Prop :=
  ∃ hi, ∀ j ≤ k,
    (r.state (m + j)).csr.mhpmevent hi = BitVec.twoPow 32 e.bit

/-- The instruction in WB is counted: it comes with no interrupt, and if an
event of branches is selected, its branch is not taken to the next
instruction. -/
structure Counted (m k : ℕ) : Prop where
  alone : (r.state (m + k)).irqAccepted = false
  away : r.Selected .takenBranches m k ∨ r.Selected .redirects m k →
    r.branchTaken (m + k) = true → r.branchesAhead (m + k) = false

theorem retireInsn_isSome (n : ℕ) :
    (r.retireInsn n).isSome = (r.state n).instrRetire := by
  by_cases retires : (r.state n).instrRetire = true
  · simp [retireInsn, Core.wb_valid_of_retires retires, retires]
  · simp [retireInsn, retires]

variable {r} {m k : ℕ}

theorem step_of_free (free : r.CountersFree k) :
    (r.state (k + 1)).csr.minstret = (r.state k).csr.minstret +
        (if (r.state k).instrRetire = true then 1 else 0) ∧
      ∀ hi e, (r.state k).csr.mhpmevent hi = BitVec.twoPow 32 e.bit →
        (r.state (k + 1)).csr.mhpmcounter hi =
          (r.state k).csr.mhpmcounter hi +
            if r.Performs e k ∧ ¬ r.Missed e k then 1 else 0 := by
  obtain ⟨minstret, mhpmcounter⟩ := CsrState.next_counters
    (r.inputs k).irq (r.state k).csrIn free.1 free.2
  refine ⟨minstret, fun hi e selects => (mhpmcounter hi).trans ?_⟩
  have bit : (r.state k).csr.mhpmevent hi &&& (r.state k).csrIn.hpmEvents ≠ 0
      ↔ (r.state k).hpmEvents.getLsbD e.bit = true := by
    rw [selects, BitVec.twoPow_and]
    have single : BitVec.twoPow 32 e.bit ≠ 0#32 := by cases e <;> decide
    show (if (r.state k).hpmEvents.getLsbD e.bit = true then
      BitVec.twoPow 32 e.bit else 0#32) ≠ 0#32 ↔ _
    split_ifs with event
    · exact iff_of_true single event
    · exact iff_of_false (fun differs => differs rfl) event
  simp only [bit, hpmEvents_iff]

/-- `minstret` is exact when every instruction that takes effect retires. -/
theorem minstret_exact_iff (r : Run p) (m : ℕ) :
    (∀ d, (∀ k < d, r.CountersFree (m + k)) →
      (r.state (m + d)).csr.minstret =
        (r.state m).csr.minstret + BitVec.ofNat 64
          (Nat.count (fun k => (r.state (m + k)).takesEffect = true) d)) ↔
    ∀ k, (∀ j ≤ k, r.CountersFree (m + j)) →
      ((r.state (m + k)).instrRetire = true ↔
        (r.state (m + k)).takesEffect = true) :=
  counts_iff (fun k => (r.state (m + k)).csr.minstret)
    (by decide) fun _ free => (step_of_free free).1

theorem log_exact_iff (r : Run p) (m : ℕ) :
    (∀ d, (∀ k < d, r.CountersFree (m + k)) →
      (r.retireLog (m + d)).length = (r.retireLog m).length +
        Nat.count (fun k => (r.state (m + k)).takesEffect = true) d) ↔
    ∀ k, (∀ j ≤ k, r.CountersFree (m + j)) →
      ((r.state (m + k)).instrRetire = true ↔
        (r.state (m + k)).takesEffect = true) := by
  simp only [retireLog, length_emitted_add, retireInsn_isSome,
    Nat.add_left_cancel_iff]
  exact count_eq_iff

/-- An event counter is exact when it misses no event. -/
theorem mhpmcounter_exact_iff (r : Run p) (m : ℕ) (hi : HpmIndex)
    (e : RetireEvent) :
    (∀ d, (∀ k < d, r.CountersFree (m + k) ∧
        (r.state (m + k)).csr.mhpmevent hi = BitVec.twoPow 32 e.bit) →
      (r.state (m + d)).csr.mhpmcounter hi =
        (r.state m).csr.mhpmcounter hi + BitVec.ofNat 64
          (Nat.count (fun k => r.Performs e (m + k)) d)) ↔
    ∀ k, (∀ j ≤ k, r.CountersFree (m + j) ∧
        (r.state (m + j)).csr.mhpmevent hi = BitVec.twoPow 32 e.bit) →
      (r.Performs e (m + k) ∧ ¬ r.Missed e (m + k) ↔
        r.Performs e (m + k)) :=
  counts_iff (fun k => (r.state (m + k)).csr.mhpmcounter hi)
    (by decide) fun _ watch => (step_of_free watch.1).2 hi e watch.2

end Run

/-- The counters and the retire log are exact from a cycle on exactly when
every instruction that takes effect while they run free is counted. -/
theorem counts_exactly_iff {p : Params} (r : Run p) (m : ℕ) :
    (∀ d, (∀ k < d, r.CountersFree (m + k)) → r.CountsExactly m d) ↔
    ∀ k, (∀ j ≤ k, r.CountersFree (m + j)) →
      (r.state (m + k)).takesEffect = true → r.Counted m k := by
  constructor
  · intro counts k free takes
    have retires := ((r.minstret_exact_iff m).mp fun d watch =>
      (counts d watch).minstret) k free
    have alone := (Run.retires_iff.mp (retires.mpr takes)).2
    have seen (e : RetireEvent) (selected : r.Selected e m k)
        (performs : r.Performs e (m + k)) : ¬ r.Missed e (m + k) := by
      obtain ⟨hi, selects⟩ := selected
      have agree := ((r.mhpmcounter_exact_iff m hi e).mp fun d watch =>
        (counts d fun j before => (watch j before).1).mhpmcounter hi e
          fun j before => (watch j before).2) k fun j within =>
        ⟨free j within, selects j within⟩
      exact (agree.mpr performs).2
    refine ⟨alone, fun selected taken => ?_⟩
    by_contra ahead
    have meets : r.branchesAhead (m + k) = true := by simpa using ahead
    rcases selected with selected | selected
    · exact seen .takenBranches selected ⟨takes, taken⟩
        (Or.inr ⟨Or.inl rfl, taken, meets⟩)
    · exact seen .redirects selected ⟨takes, by simp [Run.inClass, taken]⟩
        (Or.inr ⟨Or.inr rfl, taken, meets⟩)
  · intro counted d watch
    have retires (k : ℕ) (free : ∀ j ≤ k, r.CountersFree (m + j)) :
        (r.state (m + k)).instrRetire = true ↔
          (r.state (m + k)).takesEffect = true := by
      rw [Run.retires_iff]
      exact ⟨And.left, fun takes => ⟨takes, (counted k free takes).alone⟩⟩
    refine ⟨(r.minstret_exact_iff m).mpr retires d watch,
      (r.log_exact_iff m).mpr retires d watch, fun hi e selects => ?_⟩
    refine (r.mhpmcounter_exact_iff m hi e).mpr (fun k watched => ?_) d
      fun k before => ⟨watch k before, selects k before⟩
    refine ⟨And.left, fun performs => ⟨performs, fun missed => ?_⟩⟩
    have good := counted k (fun j within => (watched j within).1) performs.1
    rcases missed with accepted | ⟨branches, taken, ahead⟩
    · rw [good.alone] at accepted
      exact Bool.false_ne_true accepted
    · have selected : r.Selected e m k :=
        ⟨hi, fun j within => (watched j within).2⟩
      have away := good.away (by
        rcases branches with rfl | rfl
        · exact Or.inl selected
        · exact Or.inr selected) taken
      rw [away] at ahead
      exact Bool.false_ne_true ahead

/-- `mstatus.MIE` and `mie.MSIE` are set, then the software interrupt arrives
with an `addi`. -/
def interruptedAddi : Run {} :=
  Run.script {} (CoreIn.fetch [0x30045073, 0x30445073, 0x00500093] ++
    [.idle, { extMsip := true }])

/-- The `addi` writes its register and is not counted. -/
theorem not_counts_exactly :
    ¬ ∀ (p : Params) (r : Run p) (m d : ℕ),
      (∀ k < d, r.CountersFree (m + k)) → r.CountsExactly m d := by
  intro all
  have free : ∀ k < 9, interruptedAddi.CountersFree (0 + k) := by
    decide
  have counts := (all {} interruptedAddi 0 9 free).minstret
  revert counts
  decide

end SisRv
