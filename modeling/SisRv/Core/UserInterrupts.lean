import SisRv.Core.Privilege
import SisRv.Core.Redirect
import SisRv.Csr.PrivilegeStack

/-!
# Interrupts of user mode

An interrupt that `mie` enables and that is high while a user-mode instruction
leaves EX is recorded for that instruction if `mstatus.MIE` is set, and only
then.
-/

namespace SisRv

namespace CsrState

variable {p : Params} (c : CsrState p) (irq : IrqLines)

/-- The interrupt of highest priority that is high and enabled in `mie`. -/
def enabledCause : Option (BitVec 32) :=
  if c.mie.getLsbD 11 && irq.extMeip then some 0x8000000B
  else if c.mie.getLsbD 7 && irq.extMtip then some 0x80000007
  else if c.mie.getLsbD 3 && irq.extMsip then some 0x80000003
  else none

theorem irqPending_of_enabled {cause : BitVec 32}
    (enabled : c.enabledCause irq = some cause) (mie : c.mieBit = true) :
    c.irqPending irq = true ∧ c.irqCause irq = cause := by
  unfold mieBit at mie
  unfold enabledCause at enabled
  simp only [irqPending, irqCause, meipOn, mtipOn, msipOn, irqOn, mie,
    Bool.true_and]
  split_ifs at enabled ⊢ with meip mtip msip <;> simp_all

theorem not_irqPending_of_mie (mie : c.mieBit = false) :
    c.irqPending irq = false := by
  unfold mieBit at mie
  simp only [irqPending, meipOn, mtipOn, msipOn, irqOn, mie, Bool.false_and,
    Bool.or_self]

end CsrState

namespace Core

variable {p : Params} {s : Core p} {i : CoreIn}

/-- An interrupt trap returns to the successor of the instruction. -/
theorem trapEpc_of_irq (valid : s.wb.valid = true) (sane : s.wbFault = false)
    (plain : s.wb.isCsrOp = false ∧ s.wb.isEcall = false ∧
      s.wb.isEbreak = false ∧ s.wb.isMret = false)
    (irq : s.wb.irqPending = true) :
    s.wbControl.trapEpc = s.wb.nextPcTarget := by
  simp only [wbFault, Bool.or_eq_false_iff, Bool.not_eq_false'] at sane
  simp only [wbControl, valid, sane, plain, irq, Bool.not_true,
    Bool.false_eq_true, if_false, if_true]
  rfl

/-- No legal MRET is executed in user mode. -/
theorem not_mret_of_user (sound : s.PrivSound) (enableU : p.enableU = true)
    (user : s.csr.priv = privU) (valid : s.ex.valid = true)
    (legal : s.exLegalEff = true) :
    s.exIsMret = false := by
  by_contra mret
  have machine := (allowed_of_legal enableU legal).1 (by simpa using mret)
  rw [sound.ex valid, user] at machine
  exact absurd machine (by decide)

end Core

namespace Run

variable {p : Params} (r : Run p)

/-- In cycle `n` a user-mode instruction that is no CSR access and has no
synchronous exception leaves EX while an interrupt is high and enabled in
`mie`. -/
structure InterruptsUser (n : ℕ) (cause : BitVec 32) : Prop where
  user : (r.state n).csr.priv = privU
  enabled : (r.state n).csr.enabledCause (r.inputs n).irq = some cause
  leaves : (r.state n).exToWbFire (r.inputs n) = true
  goes : (r.state n).wbSingleStepStop = false
  noCsrOp : (r.state n).exIsCsrOp = false
  noException : (r.state n).exException (r.inputs n) = false
  noEcall : (r.state n).exIsEcall = false
  noEbreak : (r.state n).exIsEbreak = false

/-- The trap is taken by the instruction that leaves EX in cycle `n`, and
recorded. -/
structure RecordsInterrupt (n : ℕ) (cause : BitVec 32) : Prop where
  taken : (r.state (n + 1)).wbDecision = .trap cause
  mcause : (r.state (n + 2)).csr.mcause = cause
  mepc : (r.state (n + 2)).csr.mepc = (r.state n).exNextPcTarget
  machine : (r.state (n + 2)).csr.priv = privM

end Run

/-- With ENABLE_U, an enabled interrupt is recorded for the user-mode
instruction exactly when `mstatus.MIE` is set. -/
theorem records_interrupt_iff {p : Params} (r : Run p)
    (enableU : p.enableU = true) (n : ℕ) (cause : BitVec 32)
    (interrupts : r.InterruptsUser n cause) :
    r.RecordsInterrupt n cause ↔ (r.state n).csr.mieBit = true := by
  obtain ⟨user, enabled, leaves, goes, noCsrOp, quiet, noEcall, noEbreak⟩ :=
    interrupts
  have legal : (r.state n).exLegalEff = true := by
    simp only [Core.exException, Bool.or_eq_false_iff, Bool.not_eq_false']
      at quiet
    exact quiet.2
  have noMret := Core.not_mret_of_user (r.privSound n) enableU user
    (Core.valid_of_leave leaves) legal
  have decision : (r.state (n + 1)).wbDecision =
      if (r.state n).irqPending (r.inputs n) then
        .trap ((r.state n).irqCause (r.inputs n))
      else .completes := by
    rw [r.state_succ, Core.decision_of_no_exception leaves goes quiet]
    simp only [noCsrOp, noEcall, noEbreak, noMret, Bool.false_eq_true,
      if_false]
  constructor
  · intro records
    by_contra masked
    have idle : (r.state n).irqPending (r.inputs n) = false :=
      (r.state n).csr.not_irqPending_of_mie _ (by simpa using masked)
    rw [records.taken, idle] at decision
    exact absurd decision (by simp)
  · intro mie
    obtain ⟨pending, same⟩ :=
      (r.state n).csr.irqPending_of_enabled _ enabled mie
    have pending : (r.state n).irqPending (r.inputs n) = true := pending
    have same : (r.state n).irqCause (r.inputs n) = cause := same
    have taken : (r.state (n + 1)).wbDecision = .trap cause := by
      rw [decision, pending, same]
      rfl
    obtain ⟨mcause, mepc, machine⟩ := r.recorded_of_trap (n + 1) taken
    refine ⟨taken, mcause, mepc.trans ?_, machine⟩
    have held := Run.wb_of_leave leaves goes
    rw [Core.trapEpc_of_irq] <;> simp only [Core.wbFault, held]
    · rfl
    · rfl
    · exact quiet
    · exact ⟨noCsrOp, noEcall, noEbreak, noMret⟩
    · exact pending

/-- M-mode gives user mode all permissions in the first 16 KiB, enables the
software interrupt in `mie`, executes `status` and returns to address 28,
where the interrupt arrives with an `addi`. -/
def userInterrupt (status : BitVec 32) : Run {} :=
  Run.script _
    (CoreIn.fetch
        [0x7FF00093, 0x3B009073, 0x3A0FD073, 0x30445073, 0x341E5073, status,
          0x30200073] ++
      [.idle, .idle, .idle] ++ CoreIn.fetch [0x00500113] ++
      [.idle, { extMsip := true }])

theorem userInterrupt_interrupts (status : BitVec 32)
    (either : status = 0x30009073 ∨ status = 0x00000013) :
    (userInterrupt status).InterruptsUser 20 0x80000003 := by
  rcases either with rfl | rfl <;> constructor <;> decide +kernel

/-- `csrw mstatus` sets MPIE. -/
theorem records_interrupt_iff_userInterrupt :
    (userInterrupt 0x30009073).RecordsInterrupt 20 0x80000003 :=
  (records_interrupt_iff (userInterrupt 0x30009073) rfl 20 0x80000003
    (userInterrupt_interrupts _ (Or.inl rfl))).mpr (by decide +kernel)

/-- With MPIE clear, as after reset, user mode is not interrupted. -/
theorem not_records_interrupt :
    ¬ ∀ (p : Params) (r : Run p), p.enableU = true → ∀ n cause,
      r.InterruptsUser n cause → r.RecordsInterrupt n cause := by
  intro all
  have records := all {} (userInterrupt 0x00000013) rfl 20 0x80000003
    (userInterrupt_interrupts _ (Or.inr rfl))
  have untouched : ((userInterrupt 0x00000013).state 22).csr.mcause ≠
      0x80000003 := by decide +kernel
  exact untouched records.mcause

end SisRv
