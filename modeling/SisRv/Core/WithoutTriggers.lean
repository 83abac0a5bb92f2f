import SisRv.Core.ActsUnder
import SisRv.Core.Requests

/-!
# A core without triggers

`sisRvCore` with `ex_trigger_hit` and `trig_hit_set` tied low.  As long as no
trigger hits, the core makes the same steps.
-/

namespace SisRv

open Sync

namespace Core

variable {p : Params} (s : Core p) (i : CoreIn)

/-! ## The core with the signals tied low -/

/-- The core as EX sees it when the comparators find zero in place of
`trig_tdata1`. -/
def untriggered : Core p :=
  s.withCsr { s.csr with tdata1 := fun _ => 0 }

/-- An operand in ID.  A CSR instruction in WB reads the trigger registers as
they are. -/
def operandWithoutTriggers (rs : BitVec 5) : BitVec 32 :=
  if s.untriggered.exForwardValid && s.ex.rd != 0 && s.ex.rd == rs then
    s.exForwardResult
  else if s.wbWritesRd && s.wb.rd != 0 && s.wb.rd == rs then s.wbResult i
  else s.rfData rs

/-- One clock edge with the two signals tied low.  The trigger registers stay
CSRs that can be read and written. -/
def stepWithoutTriggers : Core p :=
  { s.untriggered.step i with
    ex :=
      if s.untriggered.idToExFire i then
        { s.untriggered.issuedEx i with
          rs1Val := s.operandWithoutTriggers i s.dec.rs1
          rs2Val := s.operandWithoutTriggers i s.dec.rs2 }
      else s.untriggered.exNext i
    regs := s.regsNext i
    csr := s.csr.next i.irq s.untriggered.csrIn }

/-- Both signals are low, whatever is in the trigger registers. -/
theorem trigHitSet_untriggered : s.untriggered.trigHitSet = fun _ => false := by
  funext t
  have clear (k : ℕ) : (s.untriggered.csr.tdata1 t).getLsbD k = false :=
    BitVec.getLsbD_zero
  simp only [trigHitSet, triggerMatches, clear, Bool.false_and,
    Bool.or_false, Bool.and_false]

theorem exTriggerHit_untriggered : s.untriggered.exTriggerHit = false := by
  simp [exTriggerHit, trigHitSet_untriggered]

/-! ## The front end of two cores -/

variable {s i}

/-- The same in IF, and in all that IF reads elsewhere. -/
structure SameFetch (s t : Core p) (i : CoreIn) : Prop where
  fe : t.fe = s.fe
  halted : t.halted = s.halted
  stepActive : t.stepActive = s.stepActive
  stop : t.wbSingleStepStop = s.wbSingleStepStop
  next : t.wb.pcNext = s.wb.pcNext
  allow : t.pmpFetchAllow = s.pmpFetchAllow
  redirect : t.exRedirect i = s.exRedirect i
  target : t.exPcNext i = s.exPcNext i
  issue : t.idToExFire i = s.idToExFire i

namespace SameFetch

variable {t : Core p} (same : SameFetch s t i)
include same

/-! ### Signals -/

theorem buffers :
    t.fbufHit = s.fbufHit ∧ t.pfbufHit = s.pfbufHit ∧ t.bufHit = s.bufHit := by
  simp only [bufHit, fbufHit, pfbufHit, same.fe, and_self]

theorem accepts : t.ifCanAcceptFetch i = s.ifCanAcceptFetch i := by
  simp only [ifCanAcceptFetch, same.fe, same.halted, same.stepActive,
    same.stop, same.redirect, same.issue]

theorem serves :
    t.ifServeBuf i = s.ifServeBuf i ∧ t.ifServePf i = s.ifServePf i := by
  simp only [ifServePf, ifServeBuf, same.accepts, same.fe, same.buffers,
    and_self]

theorem demands : t.ifReqActive i = s.ifReqActive i := by
  simp only [ifReqActive, same.accepts, same.fe, same.buffers]

theorem prefetches : t.pfTarget = s.pfTarget ∧ t.pfIssue i = s.pfIssue i := by
  simp only [pfIssue, pfWant, pfTarget, same.accepts, same.demands, same.fe,
    and_self]

theorem requests :
    t.ifReqFire i = s.ifReqFire i ∧ t.pfReqFire i = s.pfReqFire i := by
  simp only [ifReqFire, pfReqFire, same.demands, same.prefetches, and_self]

theorem responses :
    t.ifWaiting = s.ifWaiting ∧ t.ifRspFire i = s.ifRspFire i ∧
      t.ifRspTaken i = s.ifRspTaken i ∧ t.pfRspFire i = s.pfRspFire i ∧
      t.iRspFault i = s.iRspFault i := by
  simp only [ifRspTaken, ifRspFire, pfRspFire, ifWaiting, iRspFault, same.fe,
    same.allow, and_self]

theorem word :
    t.ifWordReady i = s.ifWordReady i ∧ t.ifWordData i = s.ifWordData i ∧
      t.ifWordErr i = s.ifWordErr i ∧ t.ifWordPc i = s.ifWordPc i := by
  simp only [ifWordReady, ifWordData, ifWordErr, ifWordPc, ifServeData,
    ifServeErr, same.responses, same.serves, same.buffers, same.fe, and_self]

theorem produces :
    t.ifSecondReady i = s.ifSecondReady i ∧ t.ifProduces i = s.ifProduces i := by
  simp only [ifProduces, ifWordEmits, ifSecondReady, same.word,
    same.responses, same.fe, and_self]

/-- The instruction port. -/
theorem iPort : t.iPort i = s.iPort i := by
  have valid : t.iReqValid i = s.iReqValid i := by
    simp only [iReqValid, same.demands, same.prefetches]
  simp only [Core.iPort, valid, iReqAddr, same.demands, same.prefetches,
    same.fe]

/-! ### The clock edge -/

theorem accepted (f : FrontEnd) :
    t.acceptDemand i f = s.acceptDemand i f ∧
      t.acceptPrefetch i f = s.acceptPrefetch i f := by
  simp only [acceptPrefetch, acceptDemand, same.requests, same.prefetches,
    same.fe, and_self]

theorem prefetched (f : FrontEnd) :
    t.takePrefetch i f = s.takePrefetch i f ∧
      t.promotePrefetch i f = s.promotePrefetch i f := by
  simp only [promotePrefetch, takePrefetch, same.serves, same.responses,
    same.fe, and_self]

theorem filled (f : FrontEnd) :
    t.dropResponse i f = s.dropResponse i f ∧
      t.fillBuffer i f = s.fillBuffer i f := by
  simp only [fillBuffer, dropResponse, same.responses, same.fe, and_self]

theorem assembled (f : FrontEnd) :
    t.assembleWord i f = s.assembleWord i f ∧
      t.assembleSecond i f = s.assembleSecond i f := by
  simp only [assembleSecond, assembleWord, same.word, same.produces,
    same.responses, same.fe, and_self]

theorem flushed (f : FrontEnd) :
    t.redirectFetch i f = s.redirectFetch i f ∧
      t.stopFetch i f = s.stopFetch i f := by
  simp only [redirectFetch, stopFetch, flushFetch, same.responses,
    same.redirect, same.target, same.stop, same.next, same.fe, and_self]

theorem issued (f : FrontEnd) : t.issueFetch i f = s.issueFetch i f := by
  simp only [issueFetch, same.issue, same.produces]

theorem feNext : t.feNext i = s.feNext i := by
  simp only [Core.feNext, same.accepted, same.prefetched, same.filled,
    same.assembled, same.flushed, same.issued, same.fe]

end SameFetch

/-! ## A step in which no trigger hits -/

section NoHit

variable (noHit : s.exTriggerHit = false)
include noHit

theorem trigHitSet_of_noHit : s.trigHitSet = fun _ => false := by
  funext t
  simp only [exTriggerHit, List.any_eq_false] at noHit
  simpa using noHit t (List.mem_finRange t)

/-- EX does not miss the triggers. -/
theorem actsUnder_of_noHit (i : CoreIn) :
    s.ActsUnder i i s.untriggered.csr := by
  have hits : s.untriggered.trigHitSet = s.trigHitSet := by
    rw [trigHitSet_untriggered, trigHitSet_of_noHit noHit]
  have access : s.untriggered.exMemAccess = s.exMemAccess := by
    simp only [exMemAccess, exTriggerHit_untriggered, noHit]
    rfl
  have checks : s.SameChecks i i s.untriggered.csr :=
    ⟨fun _ => ⟨rfl, rfl, rfl⟩, rfl, hits, access, rfl⟩
  refine ⟨checks, fun _ => rfl, fun _ => rfl, fun _ => ?_⟩
  simp only [exPcNext, checks.exception]
  rfl

theorem exForwardValid_of_noHit :
    s.untriggered.exForwardValid = s.exForwardValid := by
  simp only [exForwardValid, exTriggerHit_untriggered, noHit]
  rfl

theorem idExHazard_of_noHit : s.untriggered.idExHazard = s.idExHazard := by
  simp only [idExHazard, exForwardValid_of_noHit noHit]
  rfl

theorem dReq_of_noHit :
    s.untriggered.exMemRequesting = s.exMemRequesting ∧
      s.untriggered.exMemReqAddr = s.exMemReqAddr := by
  have access : s.untriggered.exMemAccess = s.exMemAccess :=
    (actsUnder_of_noHit noHit {}).access
  simp only [exMemRequesting, exMemReqAddr, access]
  exact ⟨rfl, rfl⟩

theorem idToExFire_of_noHit :
    s.untriggered.idToExFire i = s.idToExFire i := by
  have acts := actsUnder_of_noHit noHit i
  have leaves : s.untriggered.exToWbFire i = s.exToWbFire i := acts.toWbFire
  have redirect : s.untriggered.exRedirect i = s.exRedirect i := acts.redirect
  simp only [idToExFire, exCanAccept, leaves, redirect,
    idExHazard_of_noHit noHit]
  rfl

theorem sameFetch_of_noHit (i : CoreIn) : SameFetch s s.untriggered i where
  fe := rfl
  halted := rfl
  stepActive := rfl
  stop := rfl
  next := rfl
  allow := rfl
  redirect := (actsUnder_of_noHit noHit i).redirect
  target := by
    have exception : s.untriggered.exException i = s.exException i :=
      (actsUnder_of_noHit noHit i).exception
    simp only [exPcNext, exception]
    rfl
  issue := idToExFire_of_noHit noHit

theorem dPort_of_noHit : s.untriggered.dPort = s.dPort := by
  obtain ⟨requests, address⟩ := dReq_of_noHit noHit
  have same : s.untriggered.dReq = s.dReq :=
    dReq_congr (.refl _) address rfl rfl
  have valid : s.untriggered.dReqValid = s.dReqValid := requests
  simp only [dPort, valid, same]

theorem exNext_of_noHit :
    (s.stepWithoutTriggers i).ex = s.exNext i := by
  have issue := idToExFire_of_noHit noHit (i := i)
  have operand (rs : BitVec 5) :
      s.operandWithoutTriggers i rs = s.idOperand i rs := by
    simp only [operandWithoutTriggers, idOperand,
      exForwardValid_of_noHit noHit]
  have acts := actsUnder_of_noHit noHit i
  have access : s.untriggered.exMemAccess = s.exMemAccess := acts.access
  have leaves : s.untriggered.exToWbFire i = s.exToWbFire i := acts.toWbFire
  have redirect : s.untriggered.exRedirect i = s.exRedirect i := acts.redirect
  have fire : s.untriggered.dataReqFire i = s.dataReqFire i := by
    simp only [dataReqFire, (dReq_of_noHit noHit).1]
  by_cases issues : s.idToExFire i = true
  · have latched := issue.trans issues
    simp only [stepWithoutTriggers, latched, if_true, operand, exNext, issues]
    rfl
  · have quiet := issue.trans (by simpa using issues)
    have stage (e : ExRegs) :
        s.untriggered.exStateStep i e = s.exStateStep i e := by
      simp only [exStateStep, exExecStep, access, fire, leaves]
      rfl
    simp only [stepWithoutTriggers, quiet, exNext, issues, flushEx, stage,
      redirect]
    rfl

theorem wbNext_of_noHit (i : CoreIn) :
    s.untriggered.wbNext i = s.wbNext i := by
  have acts := actsUnder_of_noHit noHit i
  have leaves : s.untriggered.exToWbFire i = s.exToWbFire i := acts.toWbFire
  by_cases exits : s.exToWbFire i = true
  · have completed : s.untriggered.completedWb i = s.completedWb i :=
      acts.completedWb exits
    simp only [wbNext, leaves, exits, if_true, completed]
    rfl
  · simp only [wbNext, leaves, exits]
    rfl

theorem csrIn_of_noHit : s.untriggered.csrIn = s.csrIn := by
  have events : s.untriggered.hpmEvents = s.hpmEvents := by
    simp only [hpmEvents, hpmLoadUseStall, idExHazard_of_noHit noHit]
    rfl
  simp only [csrIn, events, trigHitSet_untriggered, trigHitSet_of_noHit noHit]
  rfl

/-- The triggers are not missed in a step in which none of them hits. -/
theorem stepWithoutTriggers_of_noHit (i : CoreIn) :
    s.stepWithoutTriggers i = s.step i := by
  have acts := actsUnder_of_noHit noHit i
  have registers : s.stepWithoutTriggers i =
      { fe := s.untriggered.feNext i
        ex := (s.stepWithoutTriggers i).ex
        wb := s.untriggered.wbNext i
        lrReservationAddr := s.untriggered.lrAddrNext i
        lrReservationValid := s.untriggered.lrValidNext i
        amoOldVal := s.untriggered.amoOldValNext i
        halted := s.haltedNext i
        stepActive := s.stepActiveNext i
        regs := s.regsNext i
        csr := s.csr.next i.irq s.untriggered.csrIn } := rfl
  have addr : s.untriggered.lrAddrNext i = s.lrAddrNext i := acts.lrAddrNext
  have valid : s.untriggered.lrValidNext i = s.lrValidNext i :=
    acts.lrValidNext
  have old : s.untriggered.amoOldValNext i = s.amoOldValNext i :=
    acts.amoOldValNext
  rw [registers, (sameFetch_of_noHit noHit i).feNext, exNext_of_noHit noHit,
    wbNext_of_noHit noHit, addr, valid, old, csrIn_of_noHit noHit]
  rfl

end NoHit

end Core

end SisRv
