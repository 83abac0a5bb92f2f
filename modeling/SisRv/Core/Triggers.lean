import SisRv.Core.Reservation
import SisRv.Core.TrapCause
import SisRv.Core.WithoutTriggers

/-!
# Debug triggers

A trigger that matches in EX turns its instruction into a breakpoint, unless
the instruction was not fetched or is flushed by a single-step stop: the hit
bits are latched all the same.
-/

namespace SisRv

open Sync Riscv

namespace Core

variable {p : Params} {s : Core p} {i : CoreIn}

theorem gate_of_hit {t : Fin p.nTrigger} (hit : s.trigHitSet t = true) :
    s.ex.valid = true ∧ s.ex.state = .exExec ∧ s.exDecIsLegalEff = true := by
  simp only [trigHitSet, Bool.and_eq_true, beq_iff_eq] at hit
  exact ⟨hit.1.1.1, hit.1.1.2, hit.1.2⟩

theorem trigger_of_hit {t : Fin p.nTrigger} (hit : s.trigHitSet t = true) :
    s.exTriggerHit = true := by
  simp only [exTriggerHit, List.any_eq_true]
  exact ⟨t, List.mem_finRange t, hit⟩

/-- If one trigger hits, the hits are the matches. -/
theorem trigHitSet_eq {t : Fin p.nTrigger} (hit : s.trigHitSet t = true) :
    s.trigHitSet = s.triggerMatches := by
  obtain ⟨valid, first, legal⟩ := gate_of_hit hit
  funext u
  simp [trigHitSet, valid, first, legal]

/-! ## Without triggers -/

/-- The execute, store and load bits of all triggers are clear. -/
def Unarmed (s : Core p) : Prop :=
  ∀ t, (s.csr.tdata1 t).extractLsb' 0 3 = 0#3

theorem noHit_of_unarmed (unarmed : s.Unarmed) : s.exTriggerHit = false := by
  have clear (t : Fin p.nTrigger) (k : ℕ) (low : k < 3) :
      (s.csr.tdata1 t).getLsbD k = false := by
    have bit := congrArg (BitVec.getLsbD · k) (unarmed t)
    simpa [low] using bit
  rw [exTriggerHit, List.any_eq_false]
  intro t _
  simp only [trigHitSet, triggerMatches, clear t 0 (by decide),
    clear t 1 (by decide), clear t 2 (by decide), Bool.false_and,
    Bool.or_false, Bool.and_false]
  exact Bool.false_ne_true

end Core

namespace Run

variable {p : Params} (r : Run p)

/-- The run of the core without triggers. -/
def withoutTriggers : ℕ → Core p :=
  trajectory Core.stepWithoutTriggers (Core.reset p r.power) r.inputs

variable {r}

/-- A run in which no trigger hits does not miss them. -/
theorem state_of_noHit (noHit : ∀ n, (r.state n).exTriggerHit = false)
    (n : ℕ) : r.state n = r.withoutTriggers n := by
  induction n with
  | zero =>
      rfl
  | succ n inductionHypothesis =>
      have next : r.withoutTriggers (n + 1) =
          (r.withoutTriggers n).stepWithoutTriggers (r.inputs n) := rfl
      rw [next, ← inductionHypothesis, r.state_succ,
        Core.stepWithoutTriggers_of_noHit (noHit n)]

/-! ## A hit -/

variable {n : ℕ}

/-- The instruction in EX in cycle `n` becomes a breakpoint: it traps with
cause 3 at its own address, does nothing else, and the hit bits of exactly the
triggers that match are set.  The reservation is only cleared, as by every
trap. -/
structure BreaksAt (r : Run p) (n : ℕ) : Prop where
  trap : (r.state (n + 1)).wbDecision = .trap 3
  mcause : (r.state (n + 2)).csr.mcause = 3
  mepc : (r.state (n + 2)).csr.mepc = (r.state n).ex.pc
  mtval : (r.state (n + 2)).csr.mtval = 0
  silent : r.dPresents n = none
  gone : (r.state (n + 1)).ex.valid = false
  noGpr : (r.state (n + 1)).wbWritesRd = false
  noCsr : (r.state (n + 1)).csrWenW = false
  noMret : (r.state (n + 1)).mretExec = false
  reserved :
    (r.state (n + 1)).lrReservationAddr = (r.state n).lrReservationAddr
  unreserved : (r.state (n + 1)).lrReservationValid = true →
    (r.state n).lrReservationValid = true
  hits : ∀ t, ((r.state (n + 1)).csr.tdata1 t).getLsbD mcHit =
    (((r.csrBehind n).tdata1 t).getLsbD mcHit || (r.state n).triggerMatches t)

section Hit

variable {t : Fin p.nTrigger} (hit : (r.state n).trigHitSet t = true)
include hit

theorem hits_of_hit (u : Fin p.nTrigger) :
    ((r.state (n + 1)).csr.tdata1 u).getLsbD mcHit =
      (((r.csrBehind n).tdata1 u).getLsbD mcHit ||
        (r.state n).triggerMatches u) := by
  have hits : (r.state n).csrIn.trigHitSet = (r.state n).triggerMatches :=
    Core.trigHitSet_eq hit
  rw [csr_succ, CsrState.latchHits, hits]
  cases fires : (r.state n).triggerMatches u with
  | false => simp [fires]
  | true =>
      simp only [fires, if_true, BitVec.getLsbD_or, Bool.or_true]
      simp [mcHit]

/-- A hit breaks unless it comes with a failed fetch or a stop. -/
theorem breaksAt_of_hit
    (fetched : (r.state n).ex.fetchErr = false)
    (goes : (r.state n).wbSingleStepStop = false) : r.BreaksAt n := by
  obtain ⟨-, first, -⟩ := Core.gate_of_hit hit
  have trigger := Core.trigger_of_hit hit
  have leaves := Core.leave_of_trigger (i := r.inputs n) trigger
  have redirect : (r.state n).exRedirect (r.inputs n) = true := by
    simp [Core.exRedirect, leaves, goes, Core.exException, trigger]
  have wb := wb_of_leave leaves goes
  have control : (r.state (n + 1)).wbControl =
      Core.wbTrap 3 0 (r.state n).ex.pc := by
    simp [Core.wbControl, wb, Core.completedWb, fetched, trigger]
  obtain ⟨trap, mcause, mtval, mepc⟩ := recorded_of_control control
  obtain ⟨addr, kept⟩ := Core.lr_of_first (i := r.inputs n) first
  exact {
    trap := trap, mcause := mcause, mepc := mepc, mtval := mtval
    silent := by
      simp [dPresents, Core.dPort, Core.dReqValid, Core.exMemRequesting,
        first, Core.exMemAccess, trigger]
    gone := (Core.drained_of_flush (s := r.state n) (i := r.inputs n)
      (by simp [Core.flush, redirect])).ex
    noGpr := by simp [Core.wbWritesRd, wb, Core.completedWb, trigger]
    noCsr := by simp [Core.csrWenW, control, Core.wbTrap]
    noMret := by simp [Core.mretExec, control, Core.wbTrap]
    reserved := addr
    unreserved := fun still => by
      have cleared : (r.state (n + 1)).lrReservationValid = false :=
        kept.trans (by simp [redirect])
      rw [cleared] at still
      exact absurd still (by decide)
    hits := hits_of_hit hit }

theorem breaksAt_iff :
    r.BreaksAt n ↔ (r.state n).ex.fetchErr = false ∧
      (r.state n).wbSingleStepStop = false := by
  refine ⟨fun breaks => ?_, fun clean => breaksAt_of_hit hit clean.1 clean.2⟩
  have leaves := Core.leave_of_trigger (i := r.inputs n)
    (Core.trigger_of_hit hit)
  have goes : (r.state n).wbSingleStepStop = false := by
    by_contra still
    have stop : (r.state n).wbSingleStepStop = true := by simpa using still
    have empty : (r.state (n + 1)).wb.valid = false := by
      rw [r.state_succ, Core.step_wb, Core.wbNext, if_pos stop]
    have trap := breaks.trap
    simp [Core.wbDecision, Core.trapEnter, Core.mretExec,
      Core.wbControl_of_empty empty] at trap
  refine ⟨?_, goes⟩
  by_contra failed
  have wb := wb_of_leave leaves goes
  have control : (r.state (n + 1)).wbControl =
      Core.wbTrap 1 (r.state n).ex.pc (r.state n).ex.pc := by
    simp [Core.wbControl, wb, Core.completedWb, failed]
  have cause := (recorded_of_control control).2.1
  rw [breaks.mcause] at cause
  exact absurd cause (by decide)

end Hit

/-- An instruction that sets a hit bit becomes a breakpoint if and only if its
fetch has not failed and no single-step stop flushes it; while no trigger has
one of the three bits set, the run, with the requests at both ports, is the one
of a core without triggers. -/
theorem triggers_exact (r : Run p) :
    (∀ n t, (r.state n).trigHitSet t = true →
      (r.BreaksAt n ↔ (r.state n).ex.fetchErr = false ∧
        (r.state n).wbSingleStepStop = false)) ∧
    ((∀ n, (r.state n).Unarmed) → ∀ n,
      r.state n = r.withoutTriggers n ∧
        r.iPresents n =
          (r.withoutTriggers n).untriggered.iPort (r.inputs n) ∧
        r.dPresents n = (r.withoutTriggers n).untriggered.dPort) := by
  refine ⟨fun n t hit => breaksAt_iff hit, fun unarmed n => ?_⟩
  have noHit (n : ℕ) := Core.noHit_of_unarmed (unarmed n)
  rw [← state_of_noHit noHit n]
  exact ⟨rfl, (Core.sameFetch_of_noHit (noHit n) _).iPort.symm,
    (Core.dPort_of_noHit (noHit n)).symm⟩

end Run

/-- An execute trigger on address 16, whose word is fetched with or without a
bus error and is in EX in cycle 11. -/
def executeTrigger (failed : Bool) : Run {} :=
  Run.script {}
    (CoreIn.fetch [(Base.opImm .addi 1 0 0x44).encode,
        (Instr.csr .rw 0 1 csrTdata1).encode,
        (Base.opImm .addi 1 0 16).encode,
        (Instr.csr .rw 0 1 csrTdata2).encode] ++
      [.accept, { CoreIn.answer nopInstr with iRspErr := failed }])

theorem triggers_exact_executeTrigger :
    (executeTrigger false).BreaksAt 11 :=
  ((Run.triggers_exact (executeTrigger false)).1 11 0 (by decide)).mpr
    ⟨by decide, by decide⟩

/-- The failed fetch is reported with cause 1, the hit bit is set. -/
theorem not_triggers_exact :
    ¬ ∀ (p : Params) (r : Run p) (n : ℕ) (t : Fin p.nTrigger),
      (r.state n).trigHitSet t = true → r.BreaksAt n := by
  intro always
  have breaks := always {} (executeTrigger true) 11 0 (by decide)
  have mcause : ((executeTrigger true).state 13).csr.mcause = 1 := by
    decide
  rw [breaks.mcause] at mcause
  exact absurd mcause (by decide)

end SisRv
