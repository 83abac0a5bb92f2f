import SisRv.Core.ActsUnder

/-!
# The pipeline executes one instruction after the other

While EX acts on the CSR state behind WB, every cycle of a run stands
somewhere in the execution of one instruction by the serial machine: the
instructions before it have committed once WB is empty, those after it have
done nothing yet.
-/

namespace SisRv

open Sync

/-! ## One edge of the pipeline -/

namespace Core

variable {p : Params} {s t : Core p} {i j : CoreIn}

theorem exNext_of_kept
    (quiet : s.idToExFire i = false) (kept : s.flush i = false) :
    s.exNext i = s.exStateStep i s.ex := by
  rw [exNext_of_quiet s i quiet, flushEx]
  simp only [flush] at kept
  simp [kept]

/-- An access begins with its request. -/
theorem exNext_of_access
    (quiet : s.idToExFire i = false) (kept : s.flush i = false)
    (valid : s.ex.valid = true) (first : s.ex.state = .exExec)
    (access : s.exMemAccess = true) :
    s.exNext i =
      { s.launched.ex with
        state := if s.dataReqFire i then .exMemWait else .exMemReq } := by
  rw [exNext_of_kept quiet kept]
  simp [exStateStep, valid, first, exExecStep, access, launched]

/-- The reservation changes when an instruction leaves EX. -/
theorem lr_of_busy (busy : s.exToWbFire i = false) :
    s.lrAddrNext i = s.lrReservationAddr ∧
      s.lrValidNext i = s.lrReservationValid := by
  have straight : s.exRedirect i = false := by simp [exRedirect, busy]
  by_cases answered :
      (s.ex.valid && s.ex.state == .exMemWait && s.dataRspFire i) = true
  · have amo : s.exIsAmoOp = true := by
      by_contra other
      simp only [Bool.and_eq_true, beq_iff_eq] at answered
      simp [leave_of_memWait answered.1.2, answered, other] at busy
    obtain ⟨atomic, notLr, notSc⟩ := s.atomic_of_amo amo
    constructor
    · simp [lrAddrNext, notLr]
    · simp [lrValidNext, straight, notLr, notSc, amo]
  · have silent : s.atomicRspOk i = false := by
      simp only [atomicRspOk, answered, Bool.false_and]
    constructor
    · simp [lrAddrNext, silent]
    · simp only [lrValidNext, straight, answered]
      rfl

theorem kept_of_busy
    (goes : s.wbSingleStepStop = false) (busy : s.exToWbFire i = false) :
    s.flush i = false := by
  simp [flush, exRedirect, busy, goes]

theorem no_hits_of_busy (busy : s.exToWbFire i = false) :
    s.trigHitSet = fun _ => false := by
  funext t
  by_contra hit
  have trigger : s.exTriggerHit = true := by
    simp only [exTriggerHit, List.any_eq_true]
    exact ⟨t, List.mem_finRange t, by simpa using hit⟩
  rw [leave_of_trigger trigger] at busy
  exact absurd busy (by decide)

/-- A wait for a response is left with it, by an AMO only after its write. -/
theorem fire_of_leave_wait
    (state : s.ex.state = .exMemWait) (leaves : s.exToWbFire i = true) :
    s.dataRspFire i = true ∧ s.exIsAmoOp = false := by
  simp only [leave_of_memWait state, Bool.and_eq_true,
    Bool.not_eq_true'] at leaves
  exact ⟨leaves.1.2, leaves.2⟩

theorem wbControl_congr (wb : t.wb = s.wb) : t.wbControl = s.wbControl := by
  simp only [wbControl, wbRetires, wb]

/-- What the CSR unit gets from WB. -/
theorem csrIn_congr (wb : t.wb = s.wb) :
    t.csrIn =
      { s.csrIn with
        hpmEvents := t.hpmEvents, trigHitSet := t.trigHitSet } := by
  simp only [csrIn, csrAddrW, csrWenW, trapEnter, trapCause, mretExec,
    instrRetire, wbControl_congr wb, wb]

theorem wbWrite_congr
    (wb : t.wb = s.wb) (csr : t.csr = s.csr) (irq : j.irq = i.irq) :
    t.wbWrite j = s.wbWrite i := by
  have result : t.wbResult j = s.wbResult i := by
    simp only [wbResult, wbLoadResult, csrRdataW, csrAddrW, wb, csr, irq]
  have writes : t.wbWritesRd = s.wbWritesRd := by simp only [wbWritesRd, wb]
  funext rf
  simp only [wbWrite, writes, result, wb]

/-- The commit of WB on a register file or a CSR state, without EX. -/
theorem regsNext_of_noWrite
    (silent : (i.dbgAbsValid && i.dbgAbsWrite) = false) :
    s.regsNext i = s.wbWrite i s.regs := by
  have noWrite : (i.dbgAbsValid && s.halted && i.dbgAbsWrite &&
      i.dbgAbsRegaddr != 0) = false := by
    by_cases valid : i.dbgAbsValid = true
    · simp_all
    · simp [valid]
  simp only [regsNext, noWrite, wbWrite, Bool.false_eq_true, if_false]

end Core

namespace CsrState

variable {p : Params} {c n : CsrState p} {x y : CsrIn p}

theorem latchHits_of_none (none : x.trigHitSet = fun _ => false) :
    latchHits x c = c := by
  simp [latchHits, none]

theorem alike_of_uncounted (same : c.uncounted = n.uncounted) :
    Alike (latchHits x c) n := by
  have fields := same
  simp only [uncounted, withCounters, CsrState.mk.injEq] at fields
  obtain ⟨mstatus, mie, mtvec, mcounteren, -, mepc, -, -, -, -, -, -, -, -,
    priv, pmpcfg, pmpaddr, -, tdata1, tdata2⟩ := fields
  constructor
  case tdata1 =>
    intro t k low
    simp only [latchHits, tdata1]
    split_ifs
    · rw [getLsbD_of_hit _ low]
    · rfl
  all_goals first | assumption | (symm; assumption)

/-- The hits latched over the uncounted state, with the counters restored. -/
theorem latchHits_withCounters
    (hits : y.trigHitSet = x.trigHitSet) (same : c.uncounted = n) :
    (latchHits y n).withCounters (latchHits x c).counters =
      latchHits x c := by
  subst same
  simp only [latchHits, withCounters, counters, uncounted, hits]

/-- A commit does not depend on events and counters, which it does not show
either. -/
theorem uncounted_next
    {irq : IrqLines} (events : BitVec 32)
    (none : y.trigHitSet = fun _ => false)
    (same : y = { x with hpmEvents := events, trigHitSet := y.trigHitSet }) :
    (c.next irq y).uncounted =
      (c.commit irq x (c.tickCounters x)).uncounted := by
  rw [next, latchHits_of_none none, uncounted_commit, uncounted_commit c _ _ x,
    uncounted_tickCounters, uncounted_tickCounters, same]
  rfl

end CsrState

/-! ## What is followed along a run -/

/-- The same inputs with other interrupt lines. -/
def CoreIn.withLines (i : CoreIn) (lines : IrqLines) : CoreIn :=
  { i with
    extMsip := lines.extMsip
    extMtip := lines.extMtip
    extMeip := lines.extMeip }

namespace Run

variable {p : Params} (r : Run p)

/-- The data requests accepted before cycle `n`. -/
def asked : ℕ → List BusReq :=
  emitted fun n =>
    if (r.state n).dataReqFire (r.inputs n) then some (r.state n).dReq
    else none

/-- The registers behind the instruction in WB. -/
def regsBehind (n : ℕ) : BitVec 5 → BitVec 32 :=
  (r.state n).wbWrite (r.inputs n) (r.state n).regs

/-- The CSR state behind the instruction in WB, without hits in EX. -/
def csrBehind (n : ℕ) : CsrState p :=
  (r.state n).csr.commit (r.inputs n).irq (r.state n).csrIn
    ((r.state n).csr.tickCounters (r.state n).csrIn)

/-- An instruction leaves EX or is dropped there. -/
def completes (n : ℕ) : Bool :=
  (r.state n).exToWbFire (r.inputs n) || (r.state n).exDropsAmo (r.inputs n)

/-- What the instruction that leaves EX in cycle `n` reads, if EX acts as
under the given interrupt lines. -/
def moment (lines : ℕ → IrqLines) (n : ℕ) : Moment where
  lines := lines n
  wbLines := (r.inputs (n + 1)).irq
  counters := (r.state (n + 1)).csr.counters

/-- The serial machine, advanced whenever an instruction completes. -/
def serial (env : Surroundings) (lines : ℕ → IrqLines) : ℕ → Arch p
  | 0 => Arch.reset p r.power.regs
  | n + 1 =>
      if r.completes n then
        (serial env lines n).exec env (r.moment lines n)
      else serial env lines n

/-- The debugger writes no register. -/
def NoAbstractWrite : Prop :=
  ∀ n, ((r.inputs n).dbgAbsValid && (r.inputs n).dbgAbsWrite) = false

/-- A run without single-stepping and without writes of the debugger, on a
bus with one outstanding request. -/
structure FreeRuns : Prop where
  single : r.NoSingleStep
  noWrite : r.NoAbstractWrite
  bus : r.InstrBus

/-- The words of the instruction in EX in cycle `n` are those of memory, and a
response is the answer to the requests made so far. -/
structure Served (env : Surroundings) (n : ℕ) : Prop where
  words : ∀ w ∈ (r.sources n).ex, r.ReadAs env.mem w
  answer : (r.state n).dataRspFire (r.inputs n) = true →
    env.answer (r.asked n) =
      ((r.inputs n).dRspRdata, (r.inputs n).dRspErr)

/-- Such a run that executes everything over the given memories. -/
structure RunsIn (env : Surroundings) : Prop extends r.FreeRuns where
  served : ∀ n, (r.state n).ex.valid = true → r.Served env n

/-- In cycle `n` EX acts as under the CSR state behind WB and the given lines,
and its words were checked under that state. -/
structure ActsBehind (lines : ℕ → IrqLines) (n : ℕ) : Prop where
  acts : (r.state n).ActsUnder (r.inputs n)
    ((r.inputs n).withLines (lines n)) (r.state (n + 1)).csr
  verdicts : ∀ w ∈ (r.sources n).ex,
    r.executable w.answered w.addr = r.executable (n + 1) w.addr

/-- The instruction in EX acts so over the given memories. -/
structure Sees (env : Surroundings) (lines : ℕ → IrqLines) (n : ℕ) : Prop
    extends r.ActsBehind lines n, r.Served env n

end Run

/-! ## Where the serial machine is -/

/-- How far the next instruction of the serial machine is in EX of `s`, which
has made the data requests `asked`. -/
inductive Phase {p : Params} (env : Surroundings) (m : Arch p) (s : Core p)
    (asked : List BusReq) : Prop
  | idle
      (empty : s.ex.valid = false) (old : s.amoOldVal = m.amoOldVal)
      (asks : asked = m.asked)
  | first
      (ex : s.ex = m.issue env.mem) (old : s.amoOldVal = m.amoOldVal)
      (asks : asked = m.asked)
  | request
      (ex : s.ex = { (m.begun env.mem).launched.ex with state := .exMemReq })
      (access : (m.begun env.mem).exMemAccess = true)
      (old : s.amoOldVal = m.amoOldVal) (asks : asked = m.asked)
  | wait
      (ex : s.ex = (m.begun env.mem).launched.ex)
      (access : (m.begun env.mem).exMemAccess = true)
      (old : s.amoOldVal = m.amoOldVal) (asks : asked = m.readAsked env)
  | amoRequest
      (ex : s.ex = (m.amoBegun env).ex)
      (access : (m.begun env.mem).exMemAccess = true)
      (amo : (m.begun env.mem).exIsAmoOp = true)
      (ok : (env.answer (m.readAsked env)).2 = false)
      (old : s.amoOldVal = (m.amoBegun env).amoOldVal)
      (asks : asked = m.readAsked env)
  | amoWait
      (ex : s.ex = (m.amoBegun env).amoLaunched.ex)
      (access : (m.begun env.mem).exMemAccess = true)
      (amo : (m.begun env.mem).exIsAmoOp = true)
      (ok : (env.answer (m.readAsked env)).2 = false)
      (old : s.amoOldVal = (m.amoBegun env).amoOldVal)
      (asks : asked = m.amoAsked env)

/-- Nothing is under way while EX is empty. -/
theorem Phase.of_empty {p : Params} {env : Surroundings} {m : Arch p}
    {s : Core p} {asked : List BusReq} (phase : Phase env m s asked)
    (empty : s.ex.valid = false) :
    s.amoOldVal = m.amoOldVal ∧ asked = m.asked := by
  have full : (m.issue env.mem).valid = true := rfl
  cases phase with
  | idle _ old asks => exact ⟨old, asks⟩
  | first ex =>
      rw [ex, full] at empty
      exact absurd empty (by decide)
  | request ex =>
      rw [ex] at empty
      exact absurd (full.symm.trans empty) (by decide)
  | wait ex =>
      rw [ex] at empty
      exact absurd (full.symm.trans empty) (by decide)
  | amoRequest ex =>
      rw [ex] at empty
      exact absurd (full.symm.trans empty) (by decide)
  | amoWait ex =>
      rw [ex] at empty
      exact absurd (full.symm.trans empty) (by decide)

/-- Cycle `n` of a run stands in the next instruction of the serial machine. -/
structure Run.Tracks {p : Params} (r : Run p) (env : Surroundings)
    (m : Arch p) (n : ℕ) : Prop where
  pc : (r.state n).oldestPc = m.pc
  regs : r.regsBehind n = m.regs
  csr : (r.csrBehind n).uncounted = m.csr
  lrReservationAddr :
    (r.state n).lrReservationAddr = m.lrReservationAddr
  lrReservationValid :
    (r.state n).lrReservationValid = m.lrReservationValid
  entered : r.entered n = m.entered
  phase : Phase env m (r.state n) (r.asked n)

namespace Run

variable {p : Params} {r : Run p}

/-! ## The state behind WB -/

theorem regs_succ (noWrite : r.NoAbstractWrite) (n : ℕ) :
    (r.state (n + 1)).regs = r.regsBehind n := by
  rw [r.state_succ, Core.step_regs, Core.regsNext_of_noWrite (noWrite n)]
  rfl

theorem csr_succ (n : ℕ) :
    (r.state (n + 1)).csr =
      CsrState.latchHits (r.state n).csrIn (r.csrBehind n) := rfl

/-- Nothing is committed after a cycle in which nothing leaves EX. -/
theorem behind_of_busy
    (noWrite : r.NoAbstractWrite) {n : ℕ}
    (busy : (r.state n).exToWbFire (r.inputs n) = false) :
    r.regsBehind (n + 1) = r.regsBehind n ∧
      (r.csrBehind (n + 1)).uncounted = (r.csrBehind n).uncounted := by
  have empty : (r.state (n + 1)).wb.valid = false := Core.wb_of_stay busy
  have control := Core.wbControl_of_empty empty
  constructor
  · rw [← regs_succ noWrite n]
    simp [regsBehind, Core.wbWrite, Core.wbWritesRd, empty]
  · have idle : r.csrBehind (n + 1) = (r.state (n + 1)).csr.tickCounters
        (r.state (n + 1)).csrIn := by
      simp [csrBehind, CsrState.commit, Core.csrIn, Core.trapEnter,
        Core.mretExec, Core.csrWenW, control]
    rw [idle, CsrState.uncounted_tickCounters, csr_succ,
      CsrState.latchHits_of_none (Core.no_hits_of_busy busy)]

/-- The CSR state that EX acts on is the one behind WB. -/
theorem alike_of_behind {n : ℕ} {c : CsrState p}
    (same : (r.csrBehind n).uncounted = c) :
    CsrState.Alike (r.state (n + 1)).csr c := by
  rw [csr_succ]
  apply CsrState.alike_of_uncounted
  rw [← same]
  rfl

/-! ## An instruction enters EX -/

section Issue

variable {env : Surroundings} {m : Arch p} {n : ℕ}

/-- The serial machine reads its operands from the registers. -/
theorem idOperand_fetching (mem : InstrMemory) (rs : BitVec 5) :
    (m.fetching mem).idOperand {} rs = if rs = 0 then 0 else m.regs rs := by
  simp [Core.idOperand, Arch.fetching, Arch.core, Core.exForwardValid,
    ExRegs.reset, Core.wbWritesRd, WbRegs.reset, Core.rfData]

theorem issue_of_behind
    {lines : ℕ → IrqLines} (free : r.FreeRuns)
    (issue : (r.state n).idToExFire (r.inputs n) = true)
    (sees : r.Sees env lines (n + 1))
    (pc : (r.state n).fe.ifId.pc = m.pc)
    (regs : r.regsBehind (n + 1) = m.regs)
    (csr : (r.csrBehind (n + 1)).uncounted = m.csr) :
    (r.state (n + 1)).ex = m.issue env.mem := by
  have latched :
      (r.state (n + 1)).ex = (r.state n).issuedEx (r.inputs n) :=
    Core.exNext_of_issue _ _ issue
  have taken := Core.ifIdValid_of_issue issue
  have valid : (r.state (n + 1)).ex.valid = true := by rw [latched]; rfl
  have alike := alike_of_behind csr
  -- the instruction is the one in memory
  have parcel : (r.state n).fe.ifId =
      env.mem.parcelAt p.enableC m.denied m.pc := by
    have assembled := (r.provSound free.bus (n + 1)).ex valid
    have same : (r.state (n + 1)).ex.parcel = (r.state n).fe.ifId := by
      rw [latched, ExRegs.parcel, Core.issuedEx, ← taken]
    rw [same] at assembled
    have refused : ∀ w ∈ (r.sources (n + 1)).ex,
        m.denied w.addr = !r.executable w.answered w.addr := by
      intro w member
      rw [sees.verdicts w member, executable, ← alike.priv, ← alike.pmpcfg,
        ← alike.pmpaddr, Arch.denied]
    rw [← pc]
    exact (assembled.decodes sees.words refused).2
  -- it was issued at the privilege behind WB
  have priv : (r.state n).privO = (m.fetching env.mem).privO := by
    have sound := r.privSound (n + 1)
    have noCommit : ¬ ((r.state (n + 1)).trapEnter = true ∨
        (r.state (n + 1)).mretExec = true) := by
      intro commits
      rw [(sound.drained commits).ex] at valid
      exact absurd valid (by decide)
    rw [not_or, Bool.not_eq_true, Bool.not_eq_true] at noCommit
    have kept := (r.state (n + 1)).csr.next_priv (r.inputs (n + 1)).irq
      (r.state (n + 1)).csrIn noCommit.1 noCommit.2
    have issued := sound.ex valid
    rw [latched] at issued
    calc (r.state n).privO
        = (r.state (n + 1)).csr.priv := issued
      _ = (r.state (n + 2)).csr.priv := kept.symm
      _ = m.csr.priv := alike.priv.symm
  -- and with the registers behind WB
  have operand : ∀ rs : BitVec 5,
      rs = (r.state n).dec.rs1 ∨ rs = (r.state n).dec.rs2 →
        (r.state n).idOperand (r.inputs n) rs =
          (m.fetching env.mem).idOperand {} rs := by
    intro rs read
    rw [r.idOperand_eq_olderRegs issue read, idOperand_fetching, olderRegs,
      ← regs, regsBehind, regs_succ free.noWrite n]
    rfl
  have fetched : (r.state n).fe.ifId = (m.fetching env.mem).fe.ifId := parcel
  have decoded : (r.state n).dec = (m.fetching env.mem).dec := by
    simp only [Core.dec, Core.decodedInstr, Core.decomp, fetched]
  have rs1 := operand _ (Or.inl rfl)
  have rs2 := operand _ (Or.inr rfl)
  rw [decoded] at rs1 rs2
  rw [latched, Arch.issue]
  simp only [Core.issuedEx, Core.idRs1Val, Core.idRs2Val, rs1, rs2, priv,
    decoded, Core.decodedInstr, Core.decomp, fetched]

end Issue

/-! ## An instruction leaves EX -/

section Leave

variable {m : Arch p} {n : ℕ} {t : Core p} {j : CoreIn}

/-- The serial machine finishes the instruction as the pipeline does. -/
structure FinishesAs (r : Run p) (n : ℕ) (m : Arch p) : Prop where
  pc : m.pc = (r.state n).exPcNext (r.inputs n)
  regs : m.regs = r.regsBehind (n + 1)
  csr : m.csr = (r.csrBehind (n + 1)).uncounted
  lrReservationAddr :
    m.lrReservationAddr = (r.state (n + 1)).lrReservationAddr
  lrReservationValid :
    m.lrReservationValid = (r.state (n + 1)).lrReservationValid
  amoOldVal : m.amoOldVal = (r.state (n + 1)).amoOldVal
  entered : m.entered = r.entered (n + 1)

theorem entered_of_leave
    (single : r.NoSingleStep)
    (leaves : (r.state n).exToWbFire (r.inputs n) = true) :
    (r.state (n + 1)).wb = (r.state n).completedWb (r.inputs n) ∧
      r.entered (n + 1) = r.entered n ++ [(r.state (n + 1)).wb] :=
  ⟨wb_of_leave leaves (r.not_stop_of_noSingleStep single n),
    emitted_succ_of_some (if_pos leaves)⟩

theorem finish_of_leave
    (single : r.NoSingleStep) (noWrite : r.NoAbstractWrite)
    (lines : ℕ → IrqLines) (asked : List BusReq)
    (view : Core.SameView (r.state n) t)
    (acts : (r.state n).ActsUnder (r.inputs n) j t.csr)
    (leaves : (r.state n).exToWbFire (r.inputs n) = true)
    (regs : r.regsBehind n = t.regs)
    (csr : (r.csrBehind n).uncounted = t.csr)
    (entered : r.entered n = m.entered) :
    r.FinishesAs n (m.finish t j (r.moment lines n) asked) := by
  have completed : t.completedWb j =
      (r.state n).completedWb (r.inputs n) :=
    (view.apply (fun u => u.completedWb j) fun _ _ _ _ _ _ => rfl).trans
      (acts.completedWb leaves)
  obtain ⟨wb, grows⟩ := entered_of_leave single leaves
  have hits : t.csrIn.trigHitSet = (r.state n).csrIn.trigHitSet :=
    (view.apply Core.trigHitSet fun _ _ _ _ _ _ => rfl).trans acts.hits
  have hit : (CsrState.latchHits t.csrIn t.csr).withCounters
      (r.moment lines n).counters = (r.state (n + 1)).csr :=
    CsrState.latchHits_withCounters hits csr
  have redirect : t.exRedirect j = (r.state n).exRedirect (r.inputs n) :=
    (view.redirect j).trans acts.redirect
  constructor
  case pc =>
    exact (view.apply (fun u => u.exPcNext j) fun _ _ _ _ _ _ => rfl).trans
      (acts.target leaves)
  case regs =>
    simp only [Arch.finish, regsBehind, hit, completed, ← wb]
    rw [regs_succ noWrite n, regs]
    exact congrFun (Core.wbWrite_congr rfl rfl rfl) _
  case csr =>
    simp only [Arch.finish, hit, completed, ← wb]
    exact CsrState.uncounted_next _ rfl
      (Core.csrIn_congr (s := r.state (n + 1)) rfl)
  case lrReservationAddr =>
    exact (view.apply (fun u => u.lrAddrNext j) fun _ _ _ _ _ _ => rfl).trans
      acts.lrAddrNext
  case lrReservationValid =>
    have next : (r.state n).lrValidNext (r.inputs n) =
        (r.state (n + 1)).lrReservationValid := rfl
    rw [← next, ← acts.lrValidNext]
    simp only [Arch.finish, Core.lrValidNext, redirect, acts.redirect]
    congr 1
    exact view.apply (fun u =>
      if u.ex.valid && u.ex.state == .exMemWait && u.dataRspFire j then
        if u.ex.isAtomic && !j.dRspErr then
          if u.exIsLr then true
          else if u.exIsAmoOp then u.lrReservationValid
          else false
        else if u.exIsSc then false
        else u.lrReservationValid
      else u.lrReservationValid) fun _ _ _ _ _ _ => rfl
  case amoOldVal =>
    exact (view.apply (fun u => u.amoOldValNext j)
      fun _ _ _ _ _ _ => rfl).trans acts.amoOldValNext
  case entered =>
    simp only [Arch.finish]
    rw [grows, wb, completed, entered]

end Leave

/-! ## Requests -/

theorem asked_of_fire {n : ℕ}
    (fire : (r.state n).dataReqFire (r.inputs n) = true) :
    r.asked (n + 1) = r.asked n ++ [(r.state n).dReq] :=
  emitted_succ_of_some (if_pos fire)

theorem asked_of_silence {n : ℕ}
    (silent : (r.state n).dataReqFire (r.inputs n) = false) :
    r.asked (n + 1) = r.asked n :=
  emitted_succ_of_none (if_neg (by simp [silent]))

end Run

namespace Core

variable {p : Params} {s t : Core p} {i j : CoreIn} {c : CsrState p}

/-- The first request depends on the CSR state by the decision to make it. -/
theorem SameChecks.dReq (acts : s.SameChecks i j c) :
    (s.withCsr c).dReq = s.dReq := by
  have address : (s.withCsr c).exMemReqAddr = s.exMemReqAddr := by
    simp only [exMemReqAddr, acts.access]
    rfl
  simp only [Core.dReq, dReqAddr, dReqWdata, dReqWstrb, storeData, storeStrb,
    address]
  rfl

/-- A request that waits is the one of the first cycle. -/
theorem dReq_of_launched
    (coherent : t.ex.toDecoded.Coherent) (first : t.ex.state = .exExec)
    (access : t.exMemAccess = true)
    (ex : s.ex = { t.launched.ex with state := .exMemReq }) :
    s.dReq = t.dReq := by
  have before : t.exMemReqAddr = t.aluResult := by
    simp [exMemReqAddr, first, access]
  have after : s.exMemReqAddr = t.aluResult := by
    simp only [exMemReqAddr, ex, launched]
    exact exExecResult_of_access coherent (isAccess_of_exMemAccess access)
  have phases : s.amoStorePhase = false ∧ t.amoStorePhase = false := by
    simp [amoStorePhase, ex, first]
  simp only [Core.dReq, dReqAddr, dReqWe, dReqWdata, dReqWstrb, storeData,
    storeStrb, before, after, phases, exIsSc, ex]
  rfl

end Core

namespace Run

variable {p : Params} {r : Run p} {env : Surroundings}
  {lines : ℕ → IrqLines} {m : Arch p} {n : ℕ}

/-! ## The instruction of a phase -/

section Tracked

variable (tracks : r.Tracks env m n)
include tracks

theorem Tracks.acts
    (sees : r.ActsBehind lines n) {j : CoreIn} (at_ : j.irq = lines n)
    (answer : (r.state n).SameAnswer (r.inputs n) j) :
    (r.state n).ActsUnder (r.inputs n) j m.csr :=
  sees.acts.transfer (alike_of_behind tracks.csr) at_ answer

theorem Tracks.view
    (single : r.NoSingleStep) {t : Core p}
    (ex : (r.state n).ex = t.ex)
    (old : (r.state n).amoOldVal = t.amoOldVal)
    (addr : t.lrReservationAddr = m.lrReservationAddr)
    (reserved : t.lrReservationValid = m.lrReservationValid)
    (running : t.stepActive = false) : (r.state n).SameView t where
  ex := ex.symm
  lrReservationAddr := addr.trans tracks.lrReservationAddr.symm
  lrReservationValid := reserved.trans tracks.lrReservationValid.symm
  amoOldVal := old.symm
  goes := r.not_stop_of_noSingleStep single n
  alsoGoes := by simp [Core.wbSingleStepStop, running]

/-- Without an answer that EX waits for, the inputs are the lines. -/
theorem Tracks.acts_ofLines
    (sees : r.ActsBehind lines n)
    (busy : (r.state n).dRspReady = false) :
    (r.state n).ActsUnder (r.inputs n) (.ofLines (lines n)) m.csr :=
  tracks.acts sees rfl fun ready => by
    rw [busy] at ready
    exact absurd ready (by decide)

/-- An answer is the one to the requests made so far. -/
theorem Tracks.acts_ofAnswer
    (sees : r.Sees env lines n)
    (fire : (r.state n).dataRspFire (r.inputs n) = true)
    {asked : List BusReq} (asks : r.asked n = asked) :
    (r.state n).ActsUnder (r.inputs n)
      (.ofAnswer (lines n) (env.answer asked)) m.csr :=
  tracks.acts sees.toActsBehind rfl fun _ => by
    have answer := sees.answer fire
    rw [asks] at answer
    simp only [Core.dataRspFire, Bool.and_eq_true] at fire
    simp [CoreIn.ofAnswer, answer, fire.1]

end Tracked

theorem FinishesAs.of_eq {m' : Arch p} (finishes : r.FinishesAs n m)
    (same : m' = m) : r.FinishesAs n m' := by
  rw [same]
  exact finishes

/-- The serial machine finishes the instruction that leaves EX. -/
theorem Tracks.leave
    (free : r.FreeRuns) (tracks : r.Tracks env m n)
    (sees : (r.state n).ex.valid = true → r.Sees env lines n)
    (leaves : (r.state n).exToWbFire (r.inputs n) = true) :
    r.FinishesAs n (m.exec env (r.moment lines n)) ∧
      (m.exec env (r.moment lines n)).asked = r.asked n := by
  have sees := sees (Core.valid_of_leave leaves)
  have goes := free.single
  cases tracks.phase with
  | idle empty =>
      rw [Core.valid_of_leave leaves] at empty
      exact absurd empty (by decide)
  | first ex old asks =>
      have state : (r.state n).ex.state = .exExec := by rw [ex]; rfl
      have acts := tracks.acts_ofLines sees.toActsBehind
        (by simp [Core.dRspReady, state])
      have view : (r.state n).SameView (m.begun env.mem) :=
        tracks.view goes ex old rfl rfl rfl
      have noAccess : (m.begun env.mem).exMemAccess = false := by
        rw [view.apply Core.exMemAccess fun _ _ _ _ _ _ => rfl]
        refine acts.access.trans ?_
        by_contra access
        rw [Core.not_leave_of_access state (by simpa using access)] at leaves
        exact absurd leaves (by decide)
      have exec := Arch.exec_of_plain noAccess (r.moment lines n)
      refine ⟨FinishesAs.of_eq (finish_of_leave goes free.noWrite lines _
        view acts leaves tracks.regs tracks.csr tracks.entered) exec, ?_⟩
      rw [exec, asks]
      rfl
  | request ex =>
      rw [Core.not_leave_of_request (Or.inl (by rw [ex]))] at leaves
      exact absurd leaves (by decide)
  | wait ex access old asks =>
      have state : (r.state n).ex.state = .exMemWait := by rw [ex]; rfl
      have view : (r.state n).SameView (m.begun env.mem).launched :=
        tracks.view goes ex old rfl rfl rfl
      obtain ⟨fire, other⟩ := Core.fire_of_leave_wait state leaves
      have acts := tracks.acts_ofAnswer sees fire asks
      have notAmo : (m.begun env.mem).exIsAmoOp = false :=
        (view.apply Core.exIsAmoOp fun _ _ _ _ _ _ => rfl).trans other
      have exec := Arch.exec_of_access access notAmo (r.moment lines n)
      refine ⟨FinishesAs.of_eq (finish_of_leave goes free.noWrite lines _
        view acts leaves tracks.regs tracks.csr tracks.entered) exec, ?_⟩
      rw [exec, asks]
      rfl
  | amoRequest ex =>
      rw [Core.not_leave_of_request (Or.inr (by rw [ex]; rfl))] at leaves
      exact absurd leaves (by decide)
  | amoWait ex access amo ok old asks =>
      have state : (r.state n).ex.state = .exAmoStoreWait := by rw [ex]; rfl
      have view : (r.state n).SameView (m.amoBegun env).amoLaunched :=
        tracks.view goes ex old rfl rfl rfl
      have acts := tracks.acts_ofAnswer sees
        (Core.rspFire_of_leave leaves (by
          simp [Core.dRspReady, Core.valid_of_leave leaves, state])) asks
      have exec := Arch.exec_of_amo access amo ok (r.moment lines n)
      refine ⟨FinishesAs.of_eq (finish_of_leave goes free.noWrite lines _
        view acts leaves tracks.regs tracks.csr tracks.entered) exec, ?_⟩
      rw [exec, asks]
      rfl

theorem oldVal_of_silent
    (silent : (r.state n).atomicRspOk (r.inputs n) = false) :
    (r.state (n + 1)).amoOldVal = (r.state n).amoOldVal :=
  Core.amoOldVal_of_silent silent

theorem exState_of_busy
    (single : r.NoSingleStep) (valid : (r.state n).ex.valid = true)
    (busy : (r.state n).exToWbFire (r.inputs n) = false) :
    (r.state (n + 1)).ex =
      (r.state n).exStateStep (r.inputs n) (r.state n).ex :=
  Core.exNext_of_kept (Core.quiet_of_busy valid busy)
    (Core.kept_of_busy (r.not_stop_of_noSingleStep single n) busy)

/-- An AMO that is dropped. -/
theorem Tracks.drop
    (free : r.FreeRuns) (tracks : r.Tracks env m n)
    (served : r.Served env n)
    (drops : (r.state n).exDropsAmo (r.inputs n) = true) :
    r.Tracks env (m.exec env (r.moment lines n)) (n + 1) := by
  obtain ⟨valid, busy, quiet, empty⟩ := Core.facts_of_drop drops
  have goes := r.not_stop_of_noSingleStep free.single n
  have kept := Core.kept_of_busy goes busy
  simp only [Core.exDropsAmo, Bool.and_eq_true, beq_iff_eq] at drops
  obtain ⟨⟨⟨⟨-, state⟩, fire⟩, amo⟩, err⟩ := drops
  have answer := served.answer fire
  obtain ⟨regs, csr⟩ := behind_of_busy free.noWrite busy
  obtain ⟨addr, reserved⟩ := Core.lr_of_busy busy
  have asked : r.asked (n + 1) = r.asked n := asked_of_silence (by
    simp [Core.dataReqFire, Core.exMemRequesting, state])
  have entered : r.entered (n + 1) = r.entered n :=
    emitted_succ_of_none (if_neg (by simp [busy]))
  have old : (r.state (n + 1)).amoOldVal = (r.state n).amoOldVal :=
    oldVal_of_silent (by simp [Core.atomicRspOk, err])
  -- the next instruction has been waiting behind it
  have pc : (r.state (n + 1)).oldestPc = (r.state n).exPcSequential := by
    have gone : (r.state (n + 1)).ex.valid = false := empty
    rw [Core.oldestPc, gone, if_neg (by decide), r.state_succ,
      Core.frontPc_step (r.feSound n) kept, quiet]
    exact r.exFollowed n valid
  cases tracks.phase with
  | idle absent =>
      rw [valid] at absent
      exact absurd absent (by decide)
  | first ex => simp [ex, Arch.issue, Core.issuedEx] at state
  | request ex => simp [ex] at state
  | amoRequest ex => simp [ex, Arch.amoBegun, Core.amoRead] at state
  | amoWait ex => simp [ex, Core.amoLaunched] at state
  | wait ex access oldPhase asks =>
      have view : (r.state n).SameView (m.begun env.mem).launched :=
        tracks.view free.single ex oldPhase rfl rfl rfl
      have isAmo : (m.begun env.mem).exIsAmoOp = true :=
        (view.apply Core.exIsAmoOp fun _ _ _ _ _ _ => rfl).trans amo
      have fails : (env.answer (m.readAsked env)).2 = true := by
        rw [← asks, answer]
        exact err
      rw [Arch.exec_of_drop access isAmo fails]
      exact {
        pc := pc.trans
          (view.apply Core.exPcSequential fun _ _ _ _ _ _ => rfl).symm
        regs := regs.trans tracks.regs
        csr := csr.trans tracks.csr
        lrReservationAddr := addr.trans tracks.lrReservationAddr
        lrReservationValid := reserved.trans tracks.lrReservationValid
        entered := entered.trans tracks.entered
        phase := .idle empty (old.trans oldPhase) (asked.trans asks) }

/-! ### A cycle in which EX keeps its instruction -/

section Stay

variable (single : r.NoSingleStep) (tracks : r.Tracks env m n)
  (valid : (r.state n).ex.valid = true) (sees : r.Sees env lines n)
  (busy : (r.state n).exToWbFire (r.inputs n) = false)
include single tracks valid sees busy

theorem Tracks.stay_first
    (ex : (r.state n).ex = m.issue env.mem)
    (old : (r.state n).amoOldVal = m.amoOldVal)
    (asks : r.asked n = m.asked) :
    Phase env m (r.state (n + 1)) (r.asked (n + 1)) := by
  have state : (r.state n).ex.state = .exExec := by rw [ex]; rfl
  have acts := tracks.acts_ofLines sees.toActsBehind
    (by simp [Core.dRspReady, state])
  have view : (r.state n).SameView (m.begun env.mem) :=
    tracks.view single ex old rfl rfl rfl
  have access : (r.state n).exMemAccess = true := by
    simpa [Core.leave_of_exec state, valid] using busy
  have begins : (m.begun env.mem).exMemAccess = true :=
    (view.apply Core.exMemAccess fun _ _ _ _ _ _ => rfl).trans
      (acts.access.trans access)
  have request : (m.begun env.mem).dReq = (r.state n).dReq :=
    (view.apply Core.dReq fun _ _ _ _ _ _ => rfl).trans acts.dReq
  have launched : (m.begun env.mem).launched.ex =
      (r.state n).launched.ex :=
    view.apply (fun u => u.launched.ex) fun _ _ _ _ _ _ => rfl
  have same : (r.state (n + 1)).amoOldVal = (r.state n).amoOldVal :=
    oldVal_of_silent (Core.not_atomicRspOk_of_state (by simp [state]))
  have enters :=
    Core.exNext_of_access (Core.quiet_of_busy valid busy)
      (Core.kept_of_busy (r.not_stop_of_noSingleStep single n) busy) valid
      state access
  rw [← launched] at enters
  by_cases fire : (r.state n).dataReqFire (r.inputs n) = true
  · rw [if_pos fire] at enters
    refine .wait enters begins (same.trans old) ?_
    rw [asked_of_fire fire, asks, ← request, Arch.readAsked]
  · rw [if_neg fire] at enters
    refine .request enters begins (same.trans old) ?_
    rw [asked_of_silence (by simpa using fire), asks]

/-- The answer to the read of an AMO starts its write. -/
theorem Tracks.stay_wait
    (noDrop : (r.state n).exDropsAmo (r.inputs n) = false)
    (ex : (r.state n).ex = (m.begun env.mem).launched.ex)
    (access : (m.begun env.mem).exMemAccess = true)
    (old : (r.state n).amoOldVal = m.amoOldVal)
    (asks : r.asked n = m.readAsked env) :
    Phase env m (r.state (n + 1)) (r.asked (n + 1)) := by
  have state : (r.state n).ex.state = .exMemWait := by rw [ex]; rfl
  have next := exState_of_busy single valid busy
  have oldNext : (r.state (n + 1)).amoOldVal =
      (r.state n).amoOldValNext (r.inputs n) := rfl
  have silent : (r.state n).dataReqFire (r.inputs n) = false :=
    Core.not_reqFire_of_rspReady (by simp [Core.dRspReady, valid, state])
  simp only [Core.exStateStep, valid, state, if_true] at next
  by_cases fire : (r.state n).dataRspFire (r.inputs n) = true
  · have amo : (r.state n).exIsAmoOp = true := by
      simpa [Core.leave_of_memWait state, valid, fire] using busy
    have ok : (r.inputs n).dRspErr = false := by
      simpa [Core.exDropsAmo, valid, state, fire, amo] using noDrop
    obtain ⟨atomic, notLr, -⟩ := (r.state n).atomic_of_amo amo
    have answer := sees.answer fire
    rw [asks] at answer
    have view : (r.state n).SameView (m.begun env.mem).launched :=
      tracks.view single ex old rfl rfl rfl
    refine .amoRequest ?_ access
      ((view.apply Core.exIsAmoOp fun _ _ _ _ _ _ => rfl).trans amo)
      (by rw [answer]; exact ok) ?_
      ((asked_of_silence silent).trans asks)
    · rw [next]
      simp [Core.exMemWaitStep, fire, atomic, ok, notLr, amo,
        Arch.amoBegun, Core.amoRead, answer, ← ex]
    · rw [oldNext]
      simp [Core.amoOldValNext, Core.atomicRspOk, valid, state, fire,
        atomic, ok, notLr, amo, Arch.amoBegun, Core.amoRead, answer]
  · refine .wait ?_ access ?_ ((asked_of_silence silent).trans asks)
    · rw [next, ← ex]
      simp [Core.exMemWaitStep, fire]
    · rw [oldNext, ← old]
      simp [Core.amoOldValNext, Core.atomicRspOk, fire]

/-- The phase after the cycle. -/
theorem Tracks.stay
    (noDrop : (r.state n).exDropsAmo (r.inputs n) = false) :
    Phase env m (r.state (n + 1)) (r.asked (n + 1)) := by
  have next := exState_of_busy single valid busy
  -- the old value changes with the answer to a read only
  have same (other : (r.state n).ex.state ≠ .exMemWait) :
      (r.state (n + 1)).amoOldVal = (r.state n).amoOldVal :=
    oldVal_of_silent (Core.not_atomicRspOk_of_state other)
  cases tracks.phase with
  | idle absent =>
      rw [valid] at absent
      exact absurd absent (by decide)
  | first ex old asks =>
      exact tracks.stay_first single valid sees busy ex old asks
  | request ex access old asks =>
      have state : (r.state n).ex.state = .exMemReq := by rw [ex]
      have same := (same (by simp [state])).trans old
      simp only [Core.exStateStep, valid, state, if_true] at next
      by_cases fire : (r.state n).dataReqFire (r.inputs n) = true
      · rw [if_pos fire, ex] at next
        refine .wait next access same ?_
        rw [asked_of_fire fire, asks, Arch.readAsked,
          Core.dReq_of_launched (sisDecode_coherent _ _ _) rfl access ex]
      · rw [if_neg fire] at next
        refine .request (next.trans ex) access same ?_
        rw [asked_of_silence (by simpa using fire), asks]
  | wait ex access old asks =>
      exact tracks.stay_wait single valid sees busy noDrop ex access old asks
  | amoRequest ex access amo ok old asks =>
      have state : (r.state n).ex.state = .exAmoStoreReq := by rw [ex]; rfl
      have view : (r.state n).SameView (m.amoBegun env) :=
        tracks.view single ex old rfl rfl rfl
      have acts := tracks.acts_ofLines sees.toActsBehind
        (by simp [Core.dRspReady, state])
      have request : (m.amoBegun env).dReq = (r.state n).dReq :=
        (view.apply Core.dReq fun _ _ _ _ _ _ => rfl).trans acts.dReq
      have same := (same (by simp [state])).trans old
      simp only [Core.exStateStep, valid, state, if_true] at next
      by_cases fire : (r.state n).dataReqFire (r.inputs n) = true
      · rw [if_pos fire, ex] at next
        refine .amoWait next access amo ok same ?_
        rw [asked_of_fire fire, asks, ← request, Arch.amoAsked]
      · rw [if_neg fire] at next
        refine .amoRequest (next.trans ex) access amo ok same ?_
        rw [asked_of_silence (by simpa using fire), asks]
  | amoWait ex access amo ok old asks =>
      have state : (r.state n).ex.state = .exAmoStoreWait := by rw [ex]; rfl
      have silent : (r.state n).dataReqFire (r.inputs n) = false :=
        Core.not_reqFire_of_rspReady (by
          simp [Core.dRspReady, valid, state])
      have noRsp : (r.state n).dataRspFire (r.inputs n) = false := by
        simpa [Core.leave_of_amoStoreWait state, valid] using busy
      refine .amoWait ?_ access amo ok ((same (by simp [state])).trans old)
        ((asked_of_silence silent).trans asks)
      rw [next, ← ex]
      simp [Core.exStateStep, valid, state, noRsp]

end Stay

/-! ## From one cycle to the next -/

section Step

variable (free : r.FreeRuns)
  (next : (r.state (n + 1)).ex.valid = true → r.Sees env lines (n + 1))
include free next

/-- What follows is about to enter EX or has done so. -/
theorem phase_of_free
    (ready : (r.state n).idToExFire (r.inputs n) = true ∨
      ((r.state n).exNext (r.inputs n)).valid = false)
    (pc : (r.state (n + 1)).oldestPc = m.pc)
    (regs : r.regsBehind (n + 1) = m.regs)
    (csr : (r.csrBehind (n + 1)).uncounted = m.csr)
    (old : (r.state (n + 1)).amoOldVal = m.amoOldVal)
    (asks : r.asked (n + 1) = m.asked) :
    Phase env m (r.state (n + 1)) (r.asked (n + 1)) := by
  rcases ready with issue | empty
  · have latched :
        (r.state (n + 1)).ex = (r.state n).issuedEx (r.inputs n) :=
      Core.exNext_of_issue _ _ issue
    have valid : (r.state (n + 1)).ex.valid = true := by rw [latched]; rfl
    have at_ : (r.state n).fe.ifId.pc = m.pc := by
      rw [← pc, Core.oldestPc, if_pos valid, latched]
      rfl
    exact .first (issue_of_behind free issue (next valid) at_ regs csr) old
      asks
  · exact .idle empty old asks

theorem tracks_step
    (tracks : r.Tracks env m n)
    (sees : (r.state n).ex.valid = true → r.Sees env lines n) :
    r.Tracks env
      (if r.completes n then m.exec env (r.moment lines n) else m)
      (n + 1) := by
  have goes := r.not_stop_of_noSingleStep free.single n
  by_cases drops : (r.state n).exDropsAmo (r.inputs n) = true
  · rw [if_pos (by simp [completes, drops])]
    have served := (sees (Core.facts_of_drop drops).1).toServed
    exact tracks.drop free served drops
  have noDrop : (r.state n).exDropsAmo (r.inputs n) = false := by
    simpa using drops
  have pc := Core.oldestPc_step goes (r.exSound n) noDrop (r.feSound n)
    (r.exFollowed n)
  by_cases leaves : (r.state n).exToWbFire (r.inputs n) = true
  · rw [if_pos (by simp [completes, leaves])]
    obtain ⟨finishes, asks⟩ := tracks.leave free sees leaves
    rw [if_pos leaves, ← r.state_succ] at pc
    have ready : (r.state n).idToExFire (r.inputs n) = true ∨
        ((r.state n).exNext (r.inputs n)).valid = false := by
      by_cases issue : (r.state n).idToExFire (r.inputs n) = true
      · exact Or.inl issue
      · exact Or.inr (Core.empty_of_leave leaves (by simpa using issue))
    have asked : r.asked (n + 1) = r.asked n :=
      asked_of_silence (Core.not_reqFire_of_leave leaves)
    exact {
      pc := pc.trans finishes.pc.symm
      regs := finishes.regs.symm
      csr := finishes.csr.symm
      lrReservationAddr := finishes.lrReservationAddr.symm
      lrReservationValid := finishes.lrReservationValid.symm
      entered := finishes.entered.symm
      phase := phase_of_free free next ready (pc.trans finishes.pc.symm)
        finishes.regs.symm finishes.csr.symm finishes.amoOldVal.symm
        (asked.trans asks.symm) }
  have busy : (r.state n).exToWbFire (r.inputs n) = false := by
    simpa using leaves
  rw [if_neg (by simp [completes, noDrop, busy])]
  obtain ⟨regs, csr⟩ := behind_of_busy free.noWrite busy
  obtain ⟨addr, reserved⟩ := Core.lr_of_busy busy
  rw [busy, if_neg (by decide), ← r.state_succ] at pc
  have samePc := pc.trans tracks.pc
  have sameRegs := regs.trans tracks.regs
  have sameCsr := csr.trans tracks.csr
  have phase : Phase env m (r.state (n + 1)) (r.asked (n + 1)) := by
    by_cases valid : (r.state n).ex.valid = true
    · exact tracks.stay free.single valid (sees valid) busy noDrop
    -- nothing is in EX before the next issue
    have ready : (r.state n).idToExFire (r.inputs n) = true ∨
        ((r.state n).exNext (r.inputs n)).valid = false := by
      by_cases issue : (r.state n).idToExFire (r.inputs n) = true
      · exact Or.inl issue
      · right
        by_contra still
        exact valid (Core.valid_of_exNext (by simpa using issue)
          (by simpa using still))
    have silent : r.asked (n + 1) = r.asked n := asked_of_silence (by
      simp [Core.dataReqFire, Core.exMemRequesting, valid])
    have same : (r.state (n + 1)).amoOldVal = (r.state n).amoOldVal :=
      oldVal_of_silent (by simp [Core.atomicRspOk, valid])
    obtain ⟨old, asks⟩ := tracks.phase.of_empty (by simpa using valid)
    exact phase_of_free free next ready samePc sameRegs sameCsr
      (same.trans old) (silent.trans asks)
  exact {
    pc := samePc
    regs := sameRegs
    csr := sameCsr
    lrReservationAddr := addr.trans tracks.lrReservationAddr
    lrReservationValid := reserved.trans tracks.lrReservationValid
    entered := (emitted_succ_of_none (if_neg leaves)).trans tracks.entered
    phase := phase }

end Step

theorem tracks_zero (r : Run p) (env : Surroundings) :
    r.Tracks env (Arch.reset p r.power.regs) 0 where
  pc := rfl
  regs := rfl
  csr := rfl
  lrReservationAddr := rfl
  lrReservationValid := rfl
  entered := rfl
  phase := .idle rfl rfl rfl

/-- Every cycle stands in an instruction of the serial machine. -/
theorem tracks_serial
    (free : r.FreeRuns)
    (sees : ∀ n, (r.state n).ex.valid = true → r.Sees env lines n)
    (n : ℕ) : r.Tracks env (r.serial env lines n) n := by
  induction n with
  | zero => exact tracks_zero r env
  | succ n inductionHypothesis =>
      exact tracks_step free (sees (n + 1)) inductionHypothesis (sees n)

end Run

end SisRv
