import SisRv.Core.Steady
import SisRv.Csr.Handler

/-!
# Ordinary instructions

An instruction that is neither SYSTEM nor SC, makes its accesses in its own
memory and takes no exception does the same whatever the interrupt lines, the
reservation and the trap registers are.
-/

namespace SisRv

namespace Core

variable {p : Params}

/-- The same pipeline with the CSR state, the reservation and the AMO value of
another core. -/
def withHidden (t s : Core p) : Core p :=
  { t with
    csr := s.csr
    lrReservationAddr := s.lrReservationAddr
    lrReservationValid := s.lrReservationValid
    amoOldVal := s.amoOldVal }

/-- The same instruction in EX, neither SYSTEM nor SC, over CSR states that
agree where it reads them. -/
structure SameOrdinary (s t : Core p) : Prop where
  ex : s.ex = t.ex
  system : t.ex.isSystem = false
  notSc : t.exIsSc = false
  access : CsrState.SameAccess t.csr s.csr
  goes : s.wbSingleStepStop = false
  alsoGoes : t.wbSingleStepStop = false

/-- The data bus answers alike. -/
def SameRsp (i j : CoreIn) : Prop :=
  i.dRspValid = j.dRspValid ∧ i.dRspRdata = j.dRspRdata ∧
    i.dRspErr = j.dRspErr

namespace SameOrdinary

variable {s t : Core p} (same : SameOrdinary s t)
include same

theorem view : SameView (t.withHidden s) s where
  ex := same.ex
  lrReservationAddr := rfl
  lrReservationValid := rfl
  amoOldVal := rfl
  goes := same.alsoGoes
  alsoGoes := same.goes

/-! ### Signals that read what is replaced -/

theorem exLegalEff : (t.withHidden s).exLegalEff = t.exLegalEff := by
  have before := t.not_privIllegal_of_not_system same.system
  have after := (t.withHidden s).not_privIllegal_of_not_system same.system
  simp only [Core.exLegalEff, before, after]
  rfl

theorem trigHitSet : (t.withHidden s).trigHitSet = t.trigHitSet := by
  funext k
  have bits := same.access.tdata1 k
  simp only [Core.trigHitSet, triggerMatches, withHidden,
    same.access.tdata2, bits 0 (by decide), bits 1 (by decide),
    bits 2 (by decide), bits 3 (by decide), bits 6 (by decide)]
  rfl

theorem exDAccessRaw : (t.withHidden s).exDAccessRaw = t.exDAccessRaw := by
  have notSc : (t.withHidden s).exIsSc = false := same.notSc
  simp only [Core.exDAccessRaw, notSc, same.notSc]
  rfl

theorem pmpDAllow : (t.withHidden s).pmpDAllow = t.pmpDAllow := by
  have priv : (t.withHidden s).dPmpPriv = t.dPmpPriv :=
    same.access.dataPriv
  have cfg : (t.withHidden s).csr.pmpcfg = t.csr.pmpcfg :=
    same.access.pmpcfg
  have addr : (t.withHidden s).csr.pmpaddr = t.csr.pmpaddr :=
    same.access.pmpaddr
  simp only [Core.pmpDAllow, priv, cfg, addr]
  rfl

theorem exTriggerHit : (t.withHidden s).exTriggerHit = t.exTriggerHit := by
  simp only [Core.exTriggerHit, same.trigHitSet]

theorem exMemAccess : (t.withHidden s).exMemAccess = t.exMemAccess := by
  simp only [Core.exMemAccess, same.exDAccessRaw, same.exTriggerHit,
    same.pmpDAllow]
  rfl

theorem exPmpDFault : (t.withHidden s).exPmpDFault = t.exPmpDFault := by
  simp only [Core.exPmpDFault, same.exDAccessRaw, same.pmpDAllow]
  rfl

theorem exExecToWb : (t.withHidden s).exExecToWb = t.exExecToWb := by
  simp only [Core.exExecToWb, same.exMemAccess]
  rfl

theorem exInstrAddrMisaligned :
    (t.withHidden s).exInstrAddrMisaligned = t.exInstrAddrMisaligned := by
  simp only [Core.exInstrAddrMisaligned, same.exLegalEff]
  rfl

/-- The requests are the same, that of the write phase of an AMO if the value
read is. -/
theorem dReq
    (old : t.amoStorePhase = true → s.amoOldVal = t.amoOldVal) :
    s.dReq = t.dReq := by
  have moved : s.dReq = (t.withHidden s).dReq :=
    same.view.apply Core.dReq fun _ _ _ _ _ _ => rfl
  have address : (t.withHidden s).exMemReqAddr = t.exMemReqAddr := by
    simp only [exMemReqAddr, same.exMemAccess]
    rfl
  have data : (t.withHidden s).dReqWdata = t.dReqWdata := by
    have phase : (t.withHidden s).amoStorePhase = t.amoStorePhase := rfl
    simp only [dReqWdata, storeData, address, phase]
    by_cases writes : t.amoStorePhase = true
    · have value : (t.withHidden s).amoNewVal = t.amoNewVal := by
        have kept : (t.withHidden s).amoOldVal = t.amoOldVal := old writes
        simp only [amoNewVal, kept]
        rfl
      simp only [value]
      rfl
    · simp only [writes]
      rfl
  rw [moved]
  simp only [Core.dReq, dReqAddr, dReqWstrb, storeStrb, address, data]
  rfl

/-! ### The later phases -/

theorem launched : SameOrdinary s.launched t.launched where
  ex := by
    have result : s.exExecResult = t.exExecResult :=
      same.view.apply Core.exExecResult fun _ _ _ _ _ _ => rfl
    have alu : s.aluResult = t.aluResult :=
      same.view.apply Core.aluResult fun _ _ _ _ _ _ => rfl
    simp only [Core.launched, result, alu, same.ex]
  system := same.system
  notSc := same.notSc
  access := same.access
  goes := same.goes
  alsoGoes := same.alsoGoes

theorem amoRead (rdata : BitVec 32) :
    SameOrdinary (s.amoRead rdata) (t.amoRead rdata) where
  ex := by simp only [Core.amoRead, same.ex]
  system := same.system
  notSc := same.notSc
  access := same.access
  goes := same.goes
  alsoGoes := same.alsoGoes

theorem amoLaunched : SameOrdinary s.amoLaunched t.amoLaunched where
  ex := by simp only [Core.amoLaunched, same.ex]
  system := same.system
  notSc := same.notSc
  access := same.access
  goes := same.goes
  alsoGoes := same.alsoGoes

/-! ### What leaves EX -/

section Leaving

variable {i j : CoreIn} (rsp : SameRsp i j)
include rsp

theorem exToWbFire : s.exToWbFire i = t.exToWbFire j := by
  have moved : s.exToWbFire i = (t.withHidden s).exToWbFire i :=
    same.view.apply (fun u => u.exToWbFire i) fun _ _ _ _ _ _ => rfl
  rw [moved]
  simp only [Core.exToWbFire, exMemToWb, exAmoStoreToWb, dataRspFire,
    same.exExecToWb, rsp.1]
  rfl

theorem exCompleteMemErr :
    (t.withHidden s).exCompleteMemErr i = t.exCompleteMemErr j := by
  simp only [Core.exCompleteMemErr, exMemToWb, exAmoStoreToWb, dataRspFire,
    same.exExecToWb, same.exPmpDFault, rsp.1, rsp.2.2]
  rfl

theorem exException :
    (t.withHidden s).exException i = t.exException j := by
  have misaligned : (t.withHidden s).exCompleteMemMisaligned =
      t.exCompleteMemMisaligned := by
    simp only [exCompleteMemMisaligned, same.exExecToWb]
    rfl
  simp only [Core.exException, same.exTriggerHit, same.exCompleteMemErr rsp,
    misaligned, same.exInstrAddrMisaligned, same.exLegalEff]
  rfl

/-- WB holds the same, apart from the interrupt, the next PC and what only
atomics use. -/
theorem completedWb :
    s.completedWb i =
      { t.completedWb j with
        amoOldVal := s.amoOldVal
        scResult := if s.exScSucceeds then 0 else 1
        pcNext := s.exPcNext i
        irqPending := s.irqPending i
        irqCause := s.irqCause i } := by
  have moved : s.completedWb i = (t.withHidden s).completedWb i :=
    same.view.apply (fun u => u.completedWb i) fun _ _ _ _ _ _ => rfl
  have pcNext : s.exPcNext i = (t.withHidden s).exPcNext i :=
    same.view.apply (fun u => u.exPcNext i) fun _ _ _ _ _ _ => rfl
  have success : s.exScSucceeds = (t.withHidden s).exScSucceeds :=
    same.view.apply Core.exScSucceeds fun _ _ _ _ _ _ => rfl
  rw [moved, pcNext, success]
  simp only [Core.completedWb, exCompleteAluResult, exCompleteMemAddr,
    exCompleteMemRdata, exCompleteMemMisaligned, exMemToWb, dataRspFire,
    same.exExecToWb, same.exCompleteMemErr rsp, same.exTriggerHit,
    same.exInstrAddrMisaligned, same.exLegalEff, rsp.1, rsp.2.1]
  rfl

end Leaving

end SameOrdinary

end Core

/-! ## In WB -/

/-- The conditions on which WB takes a synchronous exception before it looks
at the class of the instruction. -/
def WbRegs.faults (w : WbRegs) : Bool :=
  w.triggerHit || w.fetchErr || w.memErr || w.memMisaligned ||
    w.instrAddrMisaligned || !w.decIsLegalEff

/-- An instruction that commits in WB and reads or writes no CSR. -/
structure WbRegs.Plain (w : WbRegs) : Prop where
  valid : w.valid = true
  sane : w.faults = false
  csrOp : w.isCsrOp = false
  ecall : w.isEcall = false
  ebreak : w.isEbreak = false
  mret : w.isMret = false

namespace Core

variable {p : Params} {s t : Core p} {i j : CoreIn}

/-- Such an instruction traps for an interrupt only, and then returns to the
next one. -/
theorem control_of_plain (plain : s.wb.Plain) :
    s.csrWenW = false ∧ s.mretExec = false ∧
      s.trapEnter = s.wb.irqPending ∧
      (s.wb.irqPending = true →
        s.trapCause = s.wb.irqCause ∧
          s.wbControl.trapEpc = s.wb.nextPcTarget) := by
  have sane := plain.sane
  simp only [WbRegs.faults, Bool.or_eq_false_iff, Bool.not_eq_false'] at sane
  by_cases irq : s.wb.irqPending = true <;>
    simp [csrWenW, mretExec, trapEnter, trapCause, wbControl, wbTrap,
      plain.valid, sane, plain.csrOp, plain.ecall, plain.ebreak, plain.mret,
      irq]

/-- What a plain instruction writes depends neither on the CSR state nor on
the inputs. -/
theorem wbWrite_of_plain
    {old scResult pcNext cause : BitVec 32} {pending : Bool}
    (plain : t.wb.Plain) (notSc : t.wb.isSc = false)
    (amo : t.wb.isAmoOp = true → old = t.wb.amoOldVal)
    (wb : s.wb =
      { t.wb with
        amoOldVal := old
        scResult := scResult
        pcNext := pcNext
        irqPending := pending
        irqCause := cause }) : s.wbWrite i = t.wbWrite j := by
  have writes : s.wbWritesRd = t.wbWritesRd := by
    simp only [wbWritesRd, wb]
  have load : s.wbLoadResult = t.wbLoadResult := by
    simp only [wbLoadResult, wb]
  have result : s.wbResult i = t.wbResult j := by
    by_cases isAmo : t.wb.isAmoOp = true
    · simp [wbResult, load, wb, plain.csrOp, notSc, isAmo, amo isAmo]
    · simp [wbResult, load, wb, plain.csrOp, notSc, isAmo]
  funext rf
  simp only [wbWrite, writes, result, wb]

end Core

/-- An AMO that makes no access takes an exception. -/
theorem Core.faults_of_amo
    {p : Params} {t : Core p} {j : CoreIn} (valid : t.ex.valid = true)
    (first : t.ex.state = .exExec) (amo : t.exIsAmoOp = true)
    (noAccess : t.exMemAccess = false) :
    (t.completedWb j).faults = true := by
  have atomic := (t.atomic_of_amo amo).1
  have leaves : t.exExecToWb = true := by
    simp [exExecToWb, valid, first, noAccess]
  have raw : t.exDAccessRaw = true := by simp [exDAccessRaw, amo]
  simp only [exMemAccess, raw, Bool.true_and, Bool.and_eq_false_iff,
    Bool.not_eq_false'] at noAccess
  rcases noAccess with (trigger | misaligned) | denied
  · simp [WbRegs.faults, completedWb, trigger]
  · simp only [exMemAligned, Bool.not_eq_false'] at misaligned
    simp [WbRegs.faults, completedWb, exCompleteMemMisaligned, leaves, atomic,
      misaligned]
  · by_cases aligned : t.exMemAligned = true
    · simp [WbRegs.faults, completedWb, exCompleteMemErr, leaves, exPmpDFault,
        raw, aligned, denied]
    · simp only [exMemAligned, Bool.not_eq_true, Bool.not_eq_false']
        at aligned
      simp [WbRegs.faults, completedWb, exCompleteMemMisaligned, leaves,
        atomic, aligned]

/-! ## On the serial machine -/

theorem CsrState.kept_withCounters
    {p : Params} (c : CsrState p) (k : Counters) :
    Kept c (c.withCounters k) :=
  ⟨rfl, rfl, rfl, rfl, rfl, rfl, rfl, rfl, fun _ _ _ => rfl⟩

/-- The data bus answers requests of the given kind by the requests of that
kind alone. -/
def Surroundings.Separate (env : Surroundings) (own : BusReq → Bool) : Prop :=
  ∀ asked q, own q = true →
    env.answer (asked ++ [q]) = env.answer (asked.filter own ++ [q])

namespace Arch

variable {p : Params} (env : Surroundings) (own : BusReq → Bool)

/-- The state after `k` instructions without interrupts. -/
def alone (m : Arch p) (k : ℕ) : Arch p := (plainExec env .low)^[k] m

theorem alone_succ (m : Arch p) (k : ℕ) :
    m.alone env (k + 1) = (m.alone env k).plainExec env .low :=
  Function.iterate_succ_apply' _ _ _

/-- The next instruction is neither SYSTEM nor SC, commits without an
exception when no interrupt is requested, and makes requests of the given kind
only. -/
structure Ordinary (d : Arch p) : Prop where
  system : (d.begun env.mem).ex.isSystem = false
  notSc : (d.begun env.mem).exIsSc = false
  commits : ∃ w, (d.plainExec env .low).entered = d.entered ++ [w] ∧
    w.faults = false
  requests : ∃ new, (d.plainExec env .low).asked = d.asked ++ new ∧
    ∀ q ∈ new, own q = true

/-- A state with handlers run before it stands at the same instruction as one
without. -/
structure SameMain (m d : Arch p) : Prop where
  pc : m.pc = d.pc
  regs : m.regs = d.regs
  access : CsrState.SameAccess d.csr m.csr
  requests : m.asked.filter own = d.asked.filter own

/-- Both execute the same instruction, the first to WB entry `w`; it commits
alike, and an interrupt on it would return to where the second one goes on. -/
structure SameCommit (m d m' d' : Arch p) (w : WbRegs) : Prop where
  entered : m'.entered = m.entered ++ [w]
  alone : ∃ w', d'.entered = d.entered ++ [w'] ∧ w'.fetched = w.fetched
  plain : w.Plain
  target : w.nextPcTarget = d'.pc
  pc : w.irqPending = false → m'.pc = d'.pc
  regs : m'.regs = d'.regs
  kept : CsrState.Kept d.csr d'.csr
  asks : ∃ new, m'.asked = m.asked ++ new ∧ d'.asked = d.asked ++ new

theorem SameMain.refl (m : Arch p) : SameMain own m m :=
  ⟨rfl, rfl, .refl _, rfl⟩

theorem SameCommit.requests
    {own} {m d m' d' : Arch p} {w : WbRegs} (same : SameMain own m d)
    (commit : SameCommit m d m' d' w) :
    m'.asked.filter own = d'.asked.filter own := by
  obtain ⟨new, asks, asks'⟩ := commit.asks
  rw [asks, asks', List.filter_append, List.filter_append, same.requests]

section Finish

variable {own} {m d : Arch p} {s t : Core p} {i j : CoreIn}

theorem plain_of_not_system
    (system : t.ex.isSystem = false)
    (sane : (t.completedWb j).faults = false) : (t.completedWb j).Plain where
  valid := rfl
  sane := sane
  csrOp := by simp [Core.completedWb, Core.exIsCsrOp, system]
  ecall := by
    simp [Core.completedWb, Core.exIsEcall, Core.exIsSystemImm, system]
  ebreak := by
    simp [Core.completedWb, Core.exIsEbreak, Core.exIsSystemImm, system]
  mret := by
    simp [Core.completedWb, Core.exIsMret, Core.exIsSystemImm, system]

/-- A plain instruction changes counters and hit bits only. -/
theorem kept_finish
    {o : Moment} {asked : List BusReq} (csr : t.csr = d.csr)
    (plain : (t.completedWb j).Plain) (noIrq : t.irqPending j = false) :
    CsrState.Kept d.csr (d.finish t j o asked).csr := by
  have committed : ∀ (u : Core p) (c : CsrState p),
      u.wb = t.completedWb j →
        CsrState.Kept c (c.next o.wbLines u.csrIn) := by
    intro u c wb
    obtain ⟨noWrite, noMret, traps, -⟩ :=
      Core.control_of_plain (s := u) (by rw [wb]; exact plain)
    have noTrap : u.trapEnter = false := by
      rw [traps, wb]
      exact noIrq
    refine (CsrState.kept_commit c o.wbLines u.csrIn noTrap noMret
      fun writes => ?_).trans (CsrState.kept_latchHits _ _)
    exact absurd (noWrite.symm.trans writes) Bool.false_ne_true
  have latched : CsrState.Kept d.csr
      ((CsrState.latchHits t.csrIn t.csr).withCounters o.counters) := by
    rw [← csr]
    exact (t.csr.kept_latchHits t.csrIn).trans
      (CsrState.kept_withCounters _ _)
  exact (latched.trans (committed _ _ rfl)).trans
    (CsrState.kept_withCounters _ _)

theorem finish_same
    {o o' : Moment} {asked asked' : List BusReq}
    (same : Core.SameOrdinary s t) (rsp : Core.SameRsp i j)
    (amo : t.exIsAmoOp = true → s.amoOldVal = t.amoOldVal)
    (regs : s.regs = t.regs) (csr : t.csr = d.csr)
    (sane : (t.completedWb j).faults = false)
    (noIrq : t.irqPending j = false)
    (asks : ∃ new, asked = m.asked ++ new ∧ asked' = d.asked ++ new) :
    SameCommit m d (m.finish s i o asked) (d.finish t j o' asked')
      (s.completedWb i) := by
  have plain := plain_of_not_system same.system sane
  have completed := same.completedWb rsp
  have quiet : t.exException j = false := sane
  have straight : t.exPcNext j = t.exNextPcTarget := by
    rw [Core.exPcNext_of_not_system quiet same.system, noIrq]
    rfl
  have alsoQuiet : s.exException i = false := by
    have moved : s.exException i = (t.withHidden s).exException i :=
      same.view.apply (fun u => u.exException i) fun _ _ _ _ _ _ => rfl
    rw [moved, same.exException rsp, quiet]
  have target : s.exNextPcTarget = t.exNextPcTarget :=
    same.view.apply Core.exNextPcTarget fun _ _ _ _ _ _ => rfl
  have system : s.ex.isSystem = false := by rw [same.ex, same.system]
  exact {
    entered := rfl
    alone := ⟨t.completedWb j, rfl, by rw [completed]; rfl⟩
    plain := by
      rw [completed]
      exact ⟨plain.valid, plain.sane, plain.csrOp, plain.ecall, plain.ebreak,
        plain.mret⟩
    target := target.trans straight.symm
    pc := fun notPending => by
      have pending : s.irqPending i = false := notPending
      show s.exPcNext i = t.exPcNext j
      rw [straight, Core.exPcNext_of_not_system alsoQuiet system, pending,
        ← target]
      rfl
    regs := by
      have writes : ∀ a b : Core p, a.wb = s.completedWb i →
          b.wb = t.completedWb j → ∀ k l, a.wbWrite k = b.wbWrite l := by
        intro a b first second k l
        rw [completed, ← second] at first
        rw [← second] at plain
        refine Core.wbWrite_of_plain plain ?_ ?_ first <;> rw [second]
        · exact same.notSc
        · exact amo
      simp only [finish, regs]
      exact congrFun (writes _ _ rfl rfl _ _) _
    kept := kept_finish csr plain noIrq
    asks := asks }

end Finish

section Issue

variable {own} {m d : Arch p} (same : SameMain own m d)
include same

theorem SameMain.issue (mem : InstrMemory) : m.issue mem = d.issue mem := by
  have denied : m.denied = d.denied := by
    funext addr
    simp only [Arch.denied, same.access.pmpcfg, same.access.pmpaddr,
      same.access.priv]
  have fe : (m.fetching mem).fe = (d.fetching mem).fe := by
    simp only [fetching, denied, same.pc]
  have priv : (m.fetching mem).privO = (d.fetching mem).privO :=
    same.access.priv
  have dec : (m.fetching mem).dec = (d.fetching mem).dec := by
    simp only [Core.dec, Core.decodedInstr, Core.decomp, fe]
  have operand : ∀ rs, (m.fetching mem).idOperand {} rs =
      (d.fetching mem).idOperand {} rs := by
    intro rs
    rw [Run.idOperand_fetching, Run.idOperand_fetching, same.regs]
  simp only [Arch.issue, Core.issuedEx, Core.idRs1Val, Core.idRs2Val,
    Core.decodedInstr, Core.decomp, operand, dec, fe, priv]

end Issue

section Exec

variable {env own} {m d : Arch p}

/-- The two states after the issue of the instruction. -/
theorem SameMain.begun
    (same : SameMain own m d) (ordinary : d.Ordinary env own) :
    Core.SameOrdinary (m.begun env.mem) (d.begun env.mem) where
  ex := same.issue env.mem
  system := ordinary.system
  notSc := ordinary.notSc
  access := same.access
  goes := by
    have running : (m.begun env.mem).stepActive = false := rfl
    simp [Core.wbSingleStepStop, running]
  alsoGoes := by
    have running : (d.begun env.mem).stepActive = false := rfl
    simp [Core.wbSingleStepStop, running]

theorem Ordinary.sane
    {t : Core p} {j : CoreIn} {o : Moment} {asked : List BusReq}
    (ordinary : d.Ordinary env own)
    (exec : d.plainExec env .low = d.finish t j o asked) :
    (t.completedWb j).faults = false := by
  obtain ⟨w, enters, sane⟩ := ordinary.commits
  have last : [t.completedWb j] = [w] := by
    rw [exec] at enters
    exact List.append_cancel_left enters
  rw [List.singleton_inj.mp last]
  exact sane

theorem Ordinary.own_of_asked
    (ordinary : d.Ordinary env own) (asked : List BusReq)
    (exec : (d.plainExec env .low).asked = d.asked ++ asked) :
    ∀ q ∈ asked, own q = true := by
  obtain ⟨new, asks, all⟩ := ordinary.requests
  rw [exec] at asks
  rw [List.append_cancel_left asks]
  exact all

theorem answer_same
    (separate : env.Separate own) {asked asked' : List BusReq} {q : BusReq}
    (mine : own q = true)
    (asks : asked.filter own = asked'.filter own) :
    env.answer (asked ++ [q]) = env.answer (asked' ++ [q]) := by
  rw [separate asked q mine, separate asked' q mine, asks]

/-- An ordinary instruction commits as if no handler had run before it. -/
theorem exec_same
    (separate : env.Separate own) (same : SameMain own m d)
    (ordinary : d.Ordinary env own) (o : Moment) :
    ∃ w, SameCommit m d (m.exec env o) (d.plainExec env .low) w := by
  have begun := same.begun ordinary
  have low : ∀ t : Core p, t.irqPending (.ofLines .low) = false :=
    fun t => t.csr.irqPending_low
  have first : (m.begun env.mem).dReq = (d.begun env.mem).dReq :=
    begun.dReq fun writes => by
      simp [Core.amoStorePhase, Arch.begun, Arch.core, Arch.issue,
        Core.issuedEx] at writes
  have accesses : (m.begun env.mem).exMemAccess =
      (d.begun env.mem).exMemAccess :=
    (begun.view.apply Core.exMemAccess fun _ _ _ _ _ _ => rfl).trans
      begun.exMemAccess
  have amos : (m.begun env.mem).exIsAmoOp = (d.begun env.mem).exIsAmoOp :=
    begun.view.apply Core.exIsAmoOp fun _ _ _ _ _ _ => rfl
  by_cases access : (d.begun env.mem).exMemAccess = true
  · have asks : (m.readAsked env).filter own =
        (d.readAsked env).filter own := by
      rw [readAsked, readAsked, first, List.filter_append,
        List.filter_append, same.requests]
    by_cases amo : (d.begun env.mem).exIsAmoOp = true
    · have ok : (env.answer (d.readAsked env)).2 = false := by
        by_contra fails
        obtain ⟨w, enters, -⟩ := ordinary.commits
        rw [plainExec, exec_of_drop access amo (by simpa using fails)]
          at enters
        simp at enters
      have exec := exec_of_amo access amo ok ⟨.low, .low, .zero⟩
      have mine := ordinary.own_of_asked
        [(d.begun env.mem).dReq, (d.amoBegun env).dReq]
        (by rw [plainExec, exec]; simp [finish, amoAsked, readAsked])
      have answer : env.answer (m.readAsked env) =
          env.answer (d.readAsked env) := by
        rw [readAsked, readAsked, first]
        exact answer_same separate (mine _ (by simp)) same.requests
      have amoBegun : Core.SameOrdinary (m.amoBegun env) (d.amoBegun env) := by
        rw [Arch.amoBegun, Arch.amoBegun, answer]
        exact begun.launched.amoRead _
      have old : (m.amoBegun env).amoOldVal = (d.amoBegun env).amoOldVal := by
        rw [Arch.amoBegun, Arch.amoBegun, answer]
        rfl
      have second : (m.amoBegun env).dReq = (d.amoBegun env).dReq :=
        amoBegun.dReq fun _ => old
      have written : env.answer (m.amoAsked env) =
          env.answer (d.amoAsked env) := by
        rw [amoAsked, amoAsked, second]
        exact answer_same separate (mine _ (by simp)) asks
      rw [exec_of_amo (accesses.trans access) (amos.trans amo)
        (by rw [answer, ok]), plainExec, exec, written]
      refine ⟨_, finish_same amoBegun.amoLaunched ⟨rfl, rfl, rfl⟩
        (fun _ => old) same.regs rfl (ordinary.sane exec) (low _) ?_⟩
      exact ⟨[(d.begun env.mem).dReq, (d.amoBegun env).dReq], by
        simp [amoAsked, readAsked, first, second], by
        simp [amoAsked, readAsked]⟩
    · have other : (d.begun env.mem).exIsAmoOp = false := by simpa using amo
      have exec := exec_of_access access other ⟨.low, .low, .zero⟩
      have mine := ordinary.own_of_asked [(d.begun env.mem).dReq]
        (by rw [plainExec, exec]; rfl)
      have answer : env.answer (m.readAsked env) =
          env.answer (d.readAsked env) := by
        rw [readAsked, readAsked, first]
        exact answer_same separate (mine _ (List.mem_singleton_self _))
          same.requests
      rw [exec_of_access (accesses.trans access) (amos.trans other), plainExec,
        exec, answer]
      exact ⟨_, finish_same begun.launched ⟨rfl, rfl, rfl⟩
        (fun isAmo => absurd isAmo amo) same.regs rfl (ordinary.sane exec)
        (low _) ⟨_, by rw [readAsked, first], rfl⟩⟩
  · have plain : (d.begun env.mem).exMemAccess = false := by
      simpa using access
    have exec := exec_of_plain plain ⟨.low, .low, .zero⟩
    have sane := ordinary.sane exec
    rw [exec_of_plain (accesses.trans plain), plainExec, exec]
    refine ⟨_, finish_same begun ⟨rfl, rfl, rfl⟩ (fun isAmo => ?_) same.regs
      rfl sane (low _) ⟨[], by simp, by simp⟩⟩
    -- an AMO without an access traps
    have traps := Core.faults_of_amo (t := d.begun env.mem)
      (j := .ofLines .low) rfl rfl isAmo plain
    exact absurd (sane.symm.trans traps) Bool.false_ne_true

/-! ### Programs that end in a loop -/

theorem Ordinary.of_same
    (separate : env.Separate own) (same : SameMain own m d)
    (ordinary : d.Ordinary env own) : m.Ordinary env own := by
  have begun := same.begun ordinary
  obtain ⟨w, commit⟩ :=
    exec_same separate same ordinary ⟨.low, .low, .zero⟩
  obtain ⟨new, asks, asks'⟩ := commit.asks
  exact {
    system := by rw [begun.ex, ordinary.system]
    notSc :=
      (begun.view.apply Core.exIsSc fun _ _ _ _ _ _ => rfl).trans
        ordinary.notSc
    commits := ⟨w, commit.entered, commit.plain.sane⟩
    requests := ⟨new, asks, ordinary.own_of_asked new asks'⟩ }

theorem SameMain.plainExec
    (separate : env.Separate own) (same : SameMain own m d)
    (ordinary : d.Ordinary env own) :
    SameMain own (m.plainExec env .low) (d.plainExec env .low) := by
  obtain ⟨w, commit⟩ :=
    exec_same separate same ordinary ⟨.low, .low, .zero⟩
  obtain ⟨w', itself⟩ := exec_same separate (SameMain.refl own m)
    (ordinary.of_same separate same) ⟨.low, .low, .zero⟩
  have one : w = w' := by
    have enters := commit.entered.symm.trans itself.entered
    exact List.singleton_inj.mp (List.append_cancel_left enters)
  exact {
    pc := by rw [← itself.target, ← one, commit.target]
    regs := commit.regs
    access := commit.kept.symm.sameAccess.trans
      (same.access.trans itself.kept.sameAccess)
    requests := commit.requests same }

/-- An ordinary instruction that jumps to itself is executed for ever. -/
theorem ordinary_of_loop
    (separate : env.Separate own) (ordinary : d.Ordinary env own)
    (pc : (d.plainExec env .low).pc = d.pc)
    (regs : (d.plainExec env .low).regs = d.regs)
    (requests : (d.plainExec env .low).asked = d.asked) (k : ℕ) :
    SameMain own (d.alone env k) d := by
  induction k with
  | zero => exact SameMain.refl own d
  | succ k inductionHypothesis =>
      have next := inductionHypothesis.plainExec separate ordinary
      obtain ⟨w, itself⟩ := exec_same separate (SameMain.refl own d) ordinary
        ⟨.low, .low, .zero⟩
      rw [alone_succ]
      exact {
        pc := next.pc.trans pc
        regs := next.regs.trans regs
        access := itself.kept.sameAccess.trans next.access
        requests := by rw [next.requests, requests] }

end Exec

end Arch

end SisRv
