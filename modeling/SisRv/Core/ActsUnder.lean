import SisRv.Core.CsrVisibility
import SisRv.Core.Serial

/-!
# The instruction in EX under other circumstances

What an instruction does in EX is the same under another CSR state and other
inputs, if the signals that read them are.  Nothing else of the core is read
in EX, apart from the reservation and the value read by an AMO.
-/

namespace SisRv

namespace Core

variable {p : Params}

/-- The same answer of the data bus, as far as it is read. -/
def SameAnswer (s : Core p) (i j : CoreIn) : Prop :=
  s.dRspReady = true →
    j.dRspValid = i.dRspValid ∧ j.dRspRdata = i.dRspRdata ∧
      j.dRspErr = i.dRspErr

/-- The checks on the instruction in EX have the same outcome under input `i`
as under the CSR state `c` and input `j`. -/
structure SameChecks (s : Core p) (i j : CoreIn) (c : CsrState p) : Prop where
  answer : s.SameAnswer i j
  legal : (s.withCsr c).exLegalEff = s.exLegalEff
  hits : (s.withCsr c).trigHitSet = s.trigHitSet
  access : (s.withCsr c).exMemAccess = s.exMemAccess
  denied : (s.withCsr c).exPmpDFault = s.exPmpDFault

/-- The instruction in EX acts under input `i` as under the CSR state `c` and
input `j`. -/
structure ActsUnder (s : Core p) (i j : CoreIn) (c : CsrState p) : Prop
    extends SameChecks s i j c where
  pending : s.exToWbFire i = true → c.irqPending j.irq = s.irqPending i
  cause : s.exToWbFire i = true → c.irqCause j.irq = s.irqCause i
  target : s.exToWbFire i = true → (s.withCsr c).exPcNext j = s.exPcNext i

/-! ## Signals that are the same -/

namespace SameChecks

variable {s : Core p} {i j : CoreIn} {c : CsrState p}
  (acts : s.SameChecks i j c)
include acts

theorem rspFire : (s.withCsr c).dataRspFire j = s.dataRspFire i := by
  have ready : (s.withCsr c).dRspReady = s.dRspReady := rfl
  unfold dataRspFire
  rw [ready]
  by_cases waits : s.dRspReady = true
  · rw [(acts.answer waits).1]
  · simp [waits]

theorem answer_of_fire (fire : s.dataRspFire i = true) :
    j.dRspRdata = i.dRspRdata ∧ j.dRspErr = i.dRspErr := by
  simp only [dataRspFire, Bool.and_eq_true] at fire
  exact (acts.answer fire.2).2

theorem trigger : (s.withCsr c).exTriggerHit = s.exTriggerHit := by
  simp only [exTriggerHit, acts.hits]

theorem execToWb : (s.withCsr c).exExecToWb = s.exExecToWb := by
  simp only [exExecToWb, withCsr_ex, acts.access]

theorem memToWb : (s.withCsr c).exMemToWb j = s.exMemToWb i := by
  simp only [exMemToWb, acts.rspFire]
  rfl

theorem amoStoreToWb :
    (s.withCsr c).exAmoStoreToWb j = s.exAmoStoreToWb i := by
  simp only [exAmoStoreToWb, acts.rspFire]
  rfl

theorem toWbFire : (s.withCsr c).exToWbFire j = s.exToWbFire i := by
  simp only [exToWbFire, acts.execToWb, acts.memToWb, acts.amoStoreToWb]

theorem memRdata :
    (s.withCsr c).exCompleteMemRdata j = s.exCompleteMemRdata i := by
  simp only [exCompleteMemRdata, acts.memToWb]
  split_ifs with read
  · simp only [exMemToWb, Bool.and_eq_true] at read
    exact (acts.answer_of_fire read.1.2).1
  · rfl

theorem memErr :
    (s.withCsr c).exCompleteMemErr j = s.exCompleteMemErr i := by
  simp only [exCompleteMemErr, acts.execToWb, acts.denied, acts.memToWb,
    acts.amoStoreToWb]
  split_ifs with exits read store
  · rfl
  · simp only [exMemToWb, Bool.and_eq_true] at read
    exact (acts.answer_of_fire read.1.2).2
  · simp only [exAmoStoreToWb, Bool.and_eq_true] at store
    exact (acts.answer_of_fire store.2).2
  · rfl

theorem memMisaligned :
    (s.withCsr c).exCompleteMemMisaligned = s.exCompleteMemMisaligned := by
  simp only [exCompleteMemMisaligned, acts.execToWb]
  rfl

theorem instrAddrMisaligned :
    (s.withCsr c).exInstrAddrMisaligned = s.exInstrAddrMisaligned := by
  simp only [exInstrAddrMisaligned, acts.legal]
  rfl

theorem exception : (s.withCsr c).exException j = s.exException i := by
  simp only [exException, acts.trigger, acts.memErr, acts.memMisaligned,
    acts.instrAddrMisaligned, acts.legal, withCsr_ex]

theorem atomicRspOk : (s.withCsr c).atomicRspOk j = s.atomicRspOk i := by
  simp only [Core.atomicRspOk, acts.rspFire]
  by_cases fire : s.dataRspFire i = true
  · rw [(acts.answer_of_fire fire).2]
    rfl
  · simp [fire]

theorem lrAddrNext : (s.withCsr c).lrAddrNext j = s.lrAddrNext i := by
  simp only [Core.lrAddrNext, acts.atomicRspOk]
  rfl

theorem amoOldValNext :
    (s.withCsr c).amoOldValNext j = s.amoOldValNext i := by
  simp only [Core.amoOldValNext, acts.atomicRspOk]
  by_cases fire : s.dataRspFire i = true
  · rw [(acts.answer_of_fire fire).1]
    rfl
  · simp [Core.atomicRspOk, fire]
    rfl

end SameChecks

namespace ActsUnder

variable {s : Core p} {i j : CoreIn} {c : CsrState p}
  (acts : s.ActsUnder i j c)
include acts

theorem redirect : (s.withCsr c).exRedirect j = s.exRedirect i := by
  by_cases leaves : s.exToWbFire i = true
  · have pending : (s.withCsr c).irqPending j = s.irqPending i :=
      acts.pending leaves
    simp only [exRedirect, acts.toWbFire, acts.exception, pending]
    rfl
  · simp [exRedirect, acts.toWbFire, leaves]

theorem completedWb (leaves : s.exToWbFire i = true) :
    (s.withCsr c).completedWb j = s.completedWb i := by
  have pending : (s.withCsr c).irqPending j = s.irqPending i :=
    acts.pending leaves
  have cause : (s.withCsr c).irqCause j = s.irqCause i := acts.cause leaves
  have result : (s.withCsr c).exCompleteAluResult = s.exCompleteAluResult := by
    simp only [exCompleteAluResult, acts.execToWb]
    rfl
  have address : (s.withCsr c).exCompleteMemAddr = s.exCompleteMemAddr := by
    simp only [exCompleteMemAddr, acts.execToWb]
    rfl
  simp only [Core.completedWb, result, address, acts.memRdata, acts.memErr,
    acts.memMisaligned, acts.instrAddrMisaligned, acts.legal, acts.trigger,
    acts.target leaves, pending, cause]
  rfl

theorem lrValidNext : (s.withCsr c).lrValidNext j = s.lrValidNext i := by
  simp only [Core.lrValidNext, acts.redirect, acts.rspFire]
  by_cases fire : s.dataRspFire i = true
  · rw [(acts.answer_of_fire fire).2]
    rfl
  · simp [fire]
    rfl

/-- The CSR state may change where EX does not read it. -/
theorem transfer
    {j' : CoreIn} {c' : CsrState p} (alike : CsrState.Alike c c')
    (lines : j'.irq = j.irq) (answer : s.SameAnswer i j') :
    s.ActsUnder i j' c' := by
  have reads : (s.withCsr c).ReadsSame j c' := readsSame_of_alike alike
  obtain ⟨access, denied⟩ := access_of_reads reads
  obtain ⟨pending, cause⟩ := alike.interrupts j.irq
  -- the other input is read like `j`
  have inputs : (s.withCsr c').SameChecks j j' c' := {
    answer := fun ready => by
      obtain ⟨valid, rdata, err⟩ := acts.answer ready
      rw [valid, rdata, err]
      exact answer ready
    legal := rfl
    hits := rfl
    access := rfl
    denied := rfl }
  exact {
    answer := answer
    legal := (legal_of_reads reads).trans acts.legal
    hits := (hits_of_reads reads).trans acts.hits
    access := access.trans acts.access
    denied := denied.trans acts.denied
    pending := fun leaves => by rw [lines, pending, acts.pending leaves]
    cause := fun leaves => by rw [lines, cause, acts.cause leaves]
    target := fun leaves => by
      have sameLines : (s.withCsr c').irqPending j' =
          (s.withCsr c').irqPending j ∧
          (s.withCsr c').irqCause j' = (s.withCsr c').irqCause j := by
        simp only [irqPending, irqCause, lines, and_self]
      have moved : (s.withCsr c').exPcNext j' =
          (s.withCsr c').exPcNext j := by
        simp only [exPcNext, mtvecIrqVector, sameLines,
          show (s.withCsr c').exException j' = _ from inputs.exception]
      rw [moved, ← acts.target leaves]
      exact target_of_reads reads (acts.toWbFire.trans leaves) }

end ActsUnder

/-! ## Views of EX -/

/-- The same in EX; the front end, WB, the registers, the CSR state and the
debug state may differ, but neither core is about to stop. -/
structure SameView (s t : Core p) : Prop where
  ex : t.ex = s.ex
  lrReservationAddr : t.lrReservationAddr = s.lrReservationAddr
  lrReservationValid : t.lrReservationValid = s.lrReservationValid
  amoOldVal : t.amoOldVal = s.amoOldVal
  goes : s.wbSingleStepStop = false
  alsoGoes : t.wbSingleStepStop = false

namespace SameView

variable {s t : Core p} (same : SameView s t)
include same

/-- A signal of EX is the same over the CSR state of the other core. -/
theorem apply {Value : Type} (signal : Core p → Value)
    (blind : ∀ (s : Core p) fe wb halted stepActive regs,
      signal { s with
        fe := fe
        wb := wb
        halted := halted
        stepActive := stepActive
        regs := regs } = signal s) :
    signal t = signal (s.withCsr t.csr) := by
  have replaced := blind (s.withCsr t.csr) t.fe t.wb t.halted t.stepActive
    t.regs
  rw [← replaced]
  congr 1
  obtain ⟨ex, addr, valid, old, -, -⟩ := same
  cases t
  simp only [withCsr] at *
  subst ex addr valid old
  rfl

theorem redirect (j : CoreIn) :
    t.exRedirect j = (s.withCsr t.csr).exRedirect j := by
  have stop : (s.withCsr t.csr).wbSingleStepStop = false := same.goes
  simp only [exRedirect, same.alsoGoes, stop]
  exact same.apply (fun u : Core p => u.exToWbFire j && !false &&
    (u.exException j || u.ex.isJal || u.ex.isJalr ||
      (u.ex.isBranch && u.exBranchTaken) || u.exIsEcall || u.exIsEbreak ||
      u.exIsMret || (u.irqPending j && !u.exIsCsrOp)))
    fun _ _ _ _ _ _ => rfl

end SameView

end Core

end SisRv
