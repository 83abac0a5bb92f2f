import SisRv.Core.Execute

/-!
# The next PC and the WB decision

EX chooses the next PC and WB, one cycle later, the CSR action.  The two
priority chains agree except for an interrupt that displaces the exit of
ECALL, EBREAK or MRET.
-/

namespace SisRv

/-- What WB decides for the instruction it holds. -/
inductive WbDecision where
  | trap (cause : BitVec 32)
  | mret
  | completes
  deriving DecidableEq, Repr

namespace Core

variable {p : Params} (s : Core p) (i : CoreIn)

def wbDecision : WbDecision :=
  if s.trapEnter then .trap s.trapCause
  else if s.mretExec then .mret
  else .completes

/-- Where a decision sends the program, for the instruction in EX and the
`mtvec` and `mepc` of its last cycle there. -/
def decidedPc : WbDecision → BitVec 32
  | .trap cause =>
      if cause.getLsbD 31 && s.mtvecVectored then
        s.mtvecBase + 4 * (cause &&& 0x7FFFFFFF)
      else s.mtvecBase
  | .mret => s.mepcOut
  | .completes => s.exNextPcTarget

/-- The interrupt branch of the EX chain. -/
def irqTarget : BitVec 32 :=
  if s.mtvecVectored then s.mtvecIrqVector i else s.mtvecBase

/-- An enabled interrupt displaces the exit of ECALL, EBREAK or MRET: EX
follows the interrupt, WB the instruction. -/
def irqDisplaces : Bool :=
  !s.exException i && s.irqPending i &&
    ((s.exIsEcall || s.exIsEbreak) && s.mtvecVectored ||
      s.exIsMret && s.irqTarget i != s.mepcOut)

section Classes

variable {s i}

/-! ## System instructions -/

theorem system_of_imm {imm12 : BitVec 12} (is : s.exIsSystemImm imm12) :
    s.ex.isSystem = true ∧ s.ex.funct3 = 0 ∧
      s.ex.instr.extractLsb' 20 12 = imm12 := by
  simp only [exIsSystemImm, Bool.and_eq_true, beq_iff_eq] at is
  exact ⟨is.1.1, is.1.2, is.2⟩

theorem not_csrOp_of_imm {imm12 : BitVec 12} (is : s.exIsSystemImm imm12) :
    s.exIsCsrOp = false := by
  simp [exIsCsrOp, (system_of_imm is).2.1]

theorem imm_unique {a b : BitVec 12} (different : a ≠ b)
    (is : s.exIsSystemImm a) : s.exIsSystemImm b = false := by
  by_contra also
  have first := (system_of_imm is).2.2
  have second := (system_of_imm (by simpa using also)).2.2
  exact different (first.symm.trans second)

theorem exNextPcTarget_of_system
    (coherent : s.ex.toDecoded.Coherent) (system : s.ex.isSystem = true) :
    s.exNextPcTarget = s.exPcSequential := by
  have flags := coherent.of_system system
  simp [exNextPcTarget, flags]

/-! ## Interrupt causes -/

theorem irqCause_of_pending (pending : s.irqPending i = true) :
    s.irqCause i = 0x8000000B ∨ s.irqCause i = 0x80000007 ∨
      s.irqCause i = 0x80000003 := by
  simp only [irqPending, CsrState.irqPending, Bool.or_eq_true] at pending
  unfold irqCause CsrState.irqCause
  split_ifs with meip mtip msip
  · exact Or.inl rfl
  · exact Or.inr (Or.inl rfl)
  · exact Or.inr (Or.inr rfl)
  · simp [meip, mtip, msip] at pending

/-- The offset of an interrupt vector is four times the exception code. -/
theorem mtvecIrqVector_eq (pending : s.irqPending i = true) :
    s.mtvecIrqVector i =
      s.mtvecBase + 4 * (s.irqCause i &&& 0x7FFFFFFF) := by
  unfold mtvecIrqVector
  rcases irqCause_of_pending pending with cause | cause | cause <;>
    rw [cause] <;> congr 1

theorem interrupt_of_pending (pending : s.irqPending i = true) :
    (s.irqCause i).getLsbD 31 = true := by
  rcases irqCause_of_pending pending with cause | cause | cause <;>
    rw [cause] <;> decide

theorem mtvecIrqVector_ne_base (pending : s.irqPending i = true) :
    s.mtvecIrqVector i ≠ s.mtvecBase := by
  rw [mtvecIrqVector_eq pending]
  intro same
  have zero : 4 * (s.irqCause i &&& 0x7FFFFFFF) = 0 := by
    simpa using same
  rcases irqCause_of_pending pending with cause | cause | cause <;>
    rw [cause] at zero <;> exact absurd zero (by decide)

theorem decidedPc_irq (pending : s.irqPending i = true) :
    s.decidedPc (.trap (s.irqCause i)) = s.irqTarget i := by
  simp [decidedPc, irqTarget, interrupt_of_pending pending,
    mtvecIrqVector_eq pending]

theorem decidedPc_sync
    {cause : BitVec 32} (sync : cause.getLsbD 31 = false) :
    s.decidedPc (.trap cause) = s.mtvecBase := by
  simp only [decidedPc, sync, Bool.false_and, Bool.false_eq_true, if_false]

end Classes

/-! ## The chain of EX below the exceptions -/

section Chain

variable {s i}

theorem exPcNext_of_system
    (coherent : s.ex.toDecoded.Coherent) (quiet : s.exException i = false)
    (system : s.ex.isSystem = true) :
    s.exPcNext i =
      if s.irqPending i && !s.exIsCsrOp then s.irqTarget i
      else if s.exIsEcall || s.exIsEbreak then s.mtvecBase
      else if s.exIsMret then s.mepcOut
      else s.exPcSequential := by
  have flags := coherent.of_system system
  simp [exPcNext, quiet, irqTarget, flags]

theorem exPcNext_of_not_system
    (quiet : s.exException i = false) (other : s.ex.isSystem = false) :
    s.exPcNext i =
      if s.irqPending i then s.irqTarget i else s.exNextPcTarget := by
  simp [exPcNext, quiet, irqTarget, exNextPcTarget, exIsCsrOp, exIsEcall,
    exIsEbreak, exIsMret, exIsSystemImm, other]

end Chain

/-! ## The chain of WB -/

/-- The conditions WB traps on before it looks at the class. -/
def wbFault : Bool :=
  s.wb.triggerHit || s.wb.fetchErr || s.wb.memErr || s.wb.memMisaligned ||
    s.wb.instrAddrMisaligned || !s.wb.decIsLegalEff

/-- Such a trap is synchronous and returns to the instruction. -/
theorem wbControl_of_fault
    (valid : s.wb.valid = true) (fault : s.wbFault = true) :
    ∃ cause val : BitVec 32, cause.getLsbD 31 = false ∧
      s.wbControl = wbTrap cause val s.wb.pc := by
  by_cases fetchErr : s.wb.fetchErr = true
  · exact ⟨1, s.wb.pc, by decide, by simp [wbControl, valid, fetchErr]⟩
  by_cases trigger : s.wb.triggerHit = true
  · exact ⟨3, 0, by decide, by simp [wbControl, valid, fetchErr, trigger]⟩
  by_cases misaligned : s.wb.memMisaligned = true
  · refine ⟨if s.wb.isStore then 6 else 4, s.wb.memAddr, ?_, ?_⟩
    · split_ifs <;> decide
    · simp [wbControl, valid, fetchErr, trigger, misaligned]
  by_cases memErr : s.wb.memErr = true
  · refine ⟨if s.wb.isStore || s.wb.isAmoOp || s.wb.isSc then 7 else 5,
      s.wb.memAddr, ?_, ?_⟩
    · split_ifs <;> decide
    · simp [wbControl, valid, fetchErr, trigger, misaligned, memErr]
  by_cases target : s.wb.instrAddrMisaligned = true
  · exact ⟨0, s.wb.nextPcTarget, by decide, by
      simp [wbControl, valid, fetchErr, trigger, misaligned, memErr, target]⟩
  have illegal : s.wb.decIsLegalEff = false := by
    simpa [wbFault, fetchErr, trigger, misaligned, memErr, target] using
      fault
  refine ⟨2, if s.wb.isCompressed then
    (s.wb.raw.extractLsb' 0 16).setWidth 32 else s.wb.raw, by decide, ?_⟩
  simp [wbControl, valid, fetchErr, trigger, misaligned, memErr, target,
    illegal]

/-- Without such a condition WB decides by class, then by the interrupt. -/
theorem wbDecision_of_no_fault
    (valid : s.wb.valid = true) (sane : s.wbFault = false) :
    s.wbDecision =
      if s.wb.isCsrOp then .completes
      else if s.wb.isEcall then
        .trap (if s.wb.priv = privM then 11 else 8)
      else if s.wb.isEbreak then .trap 3
      else if s.wb.isMret then .mret
      else if s.wb.irqPending then .trap s.wb.irqCause
      else .completes := by
  simp only [wbFault, Bool.or_eq_false_iff, Bool.not_eq_false'] at sane
  simp only [wbDecision, trapEnter, trapCause, mretExec, wbControl, valid,
    sane, Bool.not_true, Bool.false_eq_true, if_false]
  by_cases csrOp : s.wb.isCsrOp = true
  · simp [csrOp]
  by_cases ecall : s.wb.isEcall = true
  · simp [csrOp, ecall, wbTrap]
  by_cases ebreak : s.wb.isEbreak = true
  · simp [csrOp, ecall, ebreak, wbTrap]
  by_cases mret : s.wb.isMret = true
  · simp [csrOp, ecall, ebreak, mret]
  by_cases irq : s.wb.irqPending = true <;>
    simp [csrOp, ecall, ebreak, mret, irq, wbTrap]

/-! ## The decision for the instruction that leaves EX -/

section Decision

variable {s i} (leaves : s.exToWbFire i = true)
  (goes : s.wbSingleStepStop = false)
include leaves goes

/-- Every exception of the EX chain is a synchronous trap in WB. -/
theorem decision_of_exception (exception : s.exException i = true) :
    ∃ cause : BitVec 32, cause.getLsbD 31 = false ∧
      (s.step i).wbDecision = .trap cause := by
  have valid : (s.step i).wb.valid = true := by
    rw [step_wb_of_leave leaves goes]
    rfl
  have fault : (s.step i).wbFault = true := by
    rw [wbFault, step_wb_of_leave leaves goes]
    exact exception
  obtain ⟨cause, val, sync, control⟩ :=
    wbControl_of_fault (s.step i) valid fault
  refine ⟨cause, sync, ?_⟩
  simp [wbDecision, trapEnter, trapCause, control, wbTrap]

theorem decision_of_no_exception (quiet : s.exException i = false) :
    (s.step i).wbDecision =
      if s.exIsCsrOp then .completes
      else if s.exIsEcall then
        .trap (if s.ex.priv = privM then 11 else 8)
      else if s.exIsEbreak then .trap 3
      else if s.exIsMret then .mret
      else if s.irqPending i then .trap (s.irqCause i)
      else .completes := by
  have valid : (s.step i).wb.valid = true := by
    rw [step_wb_of_leave leaves goes]
    rfl
  have sane : (s.step i).wbFault = false := by
    rw [wbFault, step_wb_of_leave leaves goes]
    exact quiet
  rw [wbDecision_of_no_fault (s.step i) valid sane,
    step_wb_of_leave leaves goes]
  rfl

/-- ECALL and EBREAK trap to the base, the pending interrupt to its
vector. -/
theorem agree_of_call
    (coherent : s.ex.toDecoded.Coherent) (quiet : s.exException i = false)
    (call : s.exIsEcall = true ∨ s.exIsEbreak = true) :
    s.exPcNext i = s.decidedPc (s.step i).wbDecision ↔
      s.irqDisplaces i = false := by
  have facts : s.ex.isSystem = true ∧ s.exIsCsrOp = false ∧
      s.exIsMret = false := by
    rcases call with ecall | ebreak
    · exact ⟨(system_of_imm ecall).1, not_csrOp_of_imm ecall,
        imm_unique (by decide) ecall⟩
    · exact ⟨(system_of_imm ebreak).1, not_csrOp_of_imm ebreak,
        imm_unique (by decide) ebreak⟩
  obtain ⟨system, noCsr, noMret⟩ := facts
  have target : s.decidedPc (s.step i).wbDecision = s.mtvecBase := by
    rw [decision_of_no_exception leaves goes quiet, noCsr]
    by_cases ecall : s.exIsEcall = true
    · simp only [ecall, Bool.false_eq_true, if_false, if_true]
      exact decidedPc_sync (by split_ifs <;> decide)
    · simp only [ecall, call.resolve_left ecall, Bool.false_eq_true,
        if_false, if_true]
      exact decidedPc_sync (by decide)
  have isCall : (s.exIsEcall || s.exIsEbreak) = true := by
    simpa using call
  rw [target, exPcNext_of_system coherent quiet system]
  simp only [irqDisplaces, quiet, noCsr, noMret, isCall, irqTarget]
  by_cases pending : s.irqPending i = true
  · by_cases vectored : s.mtvecVectored = true
    · simp [pending, vectored, mtvecIrqVector_ne_base pending]
    · simp [pending, vectored]
  · simp [pending]

/-- The two chains choose the same PC unless an interrupt displaces the exit
of the instruction. -/
theorem pcNext_eq_decidedPc_iff (sound : s.ExSound) :
    s.exPcNext i = s.decidedPc (s.step i).wbDecision ↔
      s.irqDisplaces i = false := by
  by_cases exception : s.exException i = true
  · obtain ⟨cause, sync, decision⟩ :=
      decision_of_exception leaves goes exception
    simp [irqDisplaces, exception, decision, decidedPc_sync sync, exPcNext]
  have quiet : s.exException i = false := by simpa using exception
  have coherent := sound.coherent (valid_of_leave leaves)
  by_cases call : s.exIsEcall = true ∨ s.exIsEbreak = true
  · exact agree_of_call leaves goes coherent quiet call
  obtain ⟨noEcall, noEbreak⟩ : s.exIsEcall = false ∧ s.exIsEbreak = false := by
    simpa using call
  rw [decision_of_no_exception leaves goes quiet]
  by_cases system : s.ex.isSystem = true
  · rw [exPcNext_of_system coherent quiet system]
    by_cases mret : s.exIsMret = true
    · -- An MRET returns to `mepc`, the pending interrupt goes to its vector.
      have noCsr := not_csrOp_of_imm mret
      by_cases pending : s.irqPending i = true <;>
        simp [irqDisplaces, quiet, noCsr, noEcall, noEbreak, mret, pending,
          decidedPc]
    · by_cases csrOp : s.exIsCsrOp = true
      · simp [irqDisplaces, noEcall, noEbreak, mret, csrOp, decidedPc,
          exNextPcTarget_of_system coherent system]
      · by_cases pending : s.irqPending i = true
        · simp [irqDisplaces, noEcall, noEbreak, mret, csrOp, pending,
            decidedPc_irq pending]
        · simp [irqDisplaces, noEcall, noEbreak, mret, csrOp, pending,
            decidedPc, exNextPcTarget_of_system coherent system]
  · have other : s.ex.isSystem = false := by simpa using system
    have noCsr : s.exIsCsrOp = false := by simp [exIsCsrOp, other]
    have noMret : s.exIsMret = false := by
      simp [exIsMret, exIsSystemImm, other]
    rw [exPcNext_of_not_system quiet other]
    by_cases pending : s.irqPending i = true
    · simp [irqDisplaces, noEcall, noEbreak, noMret, noCsr, pending,
        decidedPc_irq pending]
    · simp [irqDisplaces, noEcall, noEbreak, noMret, noCsr, pending,
        decidedPc]

/-- Without a redirect the instruction completes and the next one follows
it. -/
theorem completes_of_no_redirect (straight : s.exRedirect i = false) :
    (s.step i).wbDecision = .completes ∧
      s.exNextPcTarget = s.exPcSequential := by
  simp only [exRedirect, leaves, goes, Bool.not_false, Bool.true_and,
    Bool.or_eq_false_iff] at straight
  obtain ⟨⟨⟨⟨⟨⟨⟨quiet, noJal⟩, noJalr⟩, noBranch⟩, noEcall⟩, noEbreak⟩,
    noMret⟩, noIrq⟩ := straight
  constructor
  · rw [decision_of_no_exception leaves goes quiet]
    by_cases csrOp : s.exIsCsrOp = true
    · simp [csrOp]
    · have idle : s.irqPending i = false := by simpa [csrOp] using noIrq
      simp [noEcall, noEbreak, noMret, idle]
  · simp only [Bool.and_eq_false_iff] at noBranch
    simp only [exNextPcTarget, noJal, noJalr]
    rcases noBranch with other | notTaken
    · simp [other]
    · simp [notTaken]

end Decision

end Core

/-! ## Agreement over a run -/

namespace Run

variable {p : Params} (r : Run p)

/-- EX in cycle `n` and WB in cycle `n + 1` agree on the instruction that goes
from one to the other: on its next PC, on where the core fetches, and a trap
is recorded. -/
structure Agrees (n : ℕ) : Prop where
  pcNext : (r.state n).exPcNext (r.inputs n) =
    (r.state n).decidedPc (r.state (n + 1)).wbDecision
  redirected : (r.state n).exRedirect (r.inputs n) = true →
    (r.state (n + 1)).fe.fetchPc =
      (r.state n).decidedPc (r.state (n + 1)).wbDecision
  straight : (r.state n).exRedirect (r.inputs n) = false →
    (r.state (n + 1)).wbDecision = .completes ∧
      (r.state n).decidedPc (r.state (n + 1)).wbDecision =
        (r.state n).exPcSequential
  recorded : ∀ cause, (r.state (n + 1)).wbDecision = .trap cause →
    (r.state (n + 2)).csr.mcause = cause ∧
      (r.state (n + 2)).csr.mepc = (r.state (n + 1)).wbControl.trapEpc ∧
      (r.state (n + 2)).csr.priv = privM

/-- A trap decision is recorded in the CSR unit at the next edge. -/
theorem recorded_of_trap
    (n : ℕ) {cause : BitVec 32}
    (trap : (r.state n).wbDecision = .trap cause) :
    (r.state (n + 1)).csr.mcause = cause ∧
      (r.state (n + 1)).csr.mepc = (r.state n).wbControl.trapEpc ∧
      (r.state (n + 1)).csr.priv = privM := by
  have enter : (r.state n).trapEnter = true ∧
      (r.state n).trapCause = cause := by
    unfold Core.wbDecision at trap
    split_ifs at trap with enters
    simp only [WbDecision.trap.injEq] at trap
    exact ⟨enters, trap⟩
  simp [r.state_succ n, CsrState.next, CsrState.latchHits, CsrState.commit,
    Core.csrIn, enter]

theorem fetchPc_of_redirect
    (n : ℕ) (redirect : (r.state n).exRedirect (r.inputs n) = true) :
    (r.state (n + 1)).fe.fetchPc = (r.state n).exPcNext (r.inputs n) := by
  rw [r.state_succ, Core.step_fe, Core.fe_fetchPc]
  simp [Core.flush, redirect, Core.flushTarget,
    Core.not_stop_of_redirect redirect]

end Run

/-- In every run without single-stepping, EX and WB agree on an instruction
that leaves EX exactly when no interrupt displaces its exit. -/
theorem redirect_commit_agree_iff
    {p : Params} (r : Run p) (single : r.NoSingleStep) (n : ℕ)
    (leaves : (r.state n).exToWbFire (r.inputs n) = true) :
    r.Agrees n ↔ (r.state n).irqDisplaces (r.inputs n) = false := by
  have goes := r.not_stop_of_noSingleStep single n
  have sound := r.exSound n
  have same := Core.pcNext_eq_decidedPc_iff leaves goes sound
  constructor
  · exact fun agrees => same.mp agrees.pcNext
  · intro kept
    have pcNext := same.mpr kept
    exact {
      pcNext := pcNext
      redirected := fun redirect =>
        (r.fetchPc_of_redirect n redirect).trans pcNext
      straight := fun straight => by
        obtain ⟨completes, sequential⟩ :=
          Core.completes_of_no_redirect leaves goes straight
        refine ⟨completes, ?_⟩
        rw [r.state_succ, completes]
        exact sequential
      recorded := fun cause trap => r.recorded_of_trap (n + 1) trap }

/-- An MRET without an interrupt. -/
def mretAlone : Run {} :=
  Run.script {} (CoreIn.fetch [0x30200073])

theorem redirect_commit_agree_iff_mretAlone : mretAlone.Agrees 3 :=
  (redirect_commit_agree_iff mretAlone (Run.noSingleStep_script (by decide)) 3
    (by decide)).mpr (by decide)

/-- Interrupts are enabled with vector base 4, and the software interrupt is
high while an MRET is in EX. -/
def mretUnderIrq : Run {} :=
  Run.script {}
    (CoreIn.fetch [0x30525073, 0x30445073, 0x30045073, 0x30200073] ++
      [.idle, { extMsip := true }])

theorem mretUnderIrq_noSingleStep : mretUnderIrq.NoSingleStep :=
  Run.noSingleStep_script (by decide)

/-- That MRET goes to the interrupt vector while WB executes it as a return:
the core fetches from the vector and records no trap. -/
theorem redirect_commit_disagree :
    ¬ ∀ (p : Params) (r : Run p), r.NoSingleStep → ∀ n,
      (r.state n).exToWbFire (r.inputs n) = true → r.Agrees n := by
  intro agree
  have same :=
    (agree {} mretUnderIrq mretUnderIrq_noSingleStep 9
      (by decide)).pcNext
  exact absurd same (by decide)

end SisRv
