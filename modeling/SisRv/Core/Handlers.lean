import SisRv.Core.MainProgram
import SisRv.Core.TrapReturn

/-!
# Main program and handlers

A run is divided at its interrupt entries and MRETs.  Outside the handlers
every cycle stands where the main program alone would; what a handler does is
not followed, apart from what it leaves behind.
-/

namespace SisRv

open Sync

theorem CsrState.irqCause_interrupt
    {p : Params} {c : CsrState p} {irq : IrqLines}
    (pending : c.irqPending irq = true) :
    (c.irqCause irq).getLsbD 31 = true := by
  simp only [irqPending, Bool.or_eq_true] at pending
  unfold irqCause
  rcases pending with (external | timer) | software
  · rw [if_pos external]
    decide
  · split_ifs <;> decide
  · split_ifs <;> decide

/-! ## Interrupts in WB -/

namespace Core

/-- WB enters a trap for an interrupt. -/
def WbControl.isInterrupt (c : WbControl) : Bool :=
  c.trapEnter && c.trapCause.getLsbD 31

variable {p : Params} (s : Core p) {i : CoreIn}

/-- The instruction in WB is interrupted. -/
def wbInterrupt : Bool := s.wbControl.isInterrupt

variable {s}

theorem either_false
    {choice : Prop} [Decidable choice] {a b : Bool} (first : a = false)
    (second : b = false) : (if choice then a else b) = false := by
  rw [first, second, ite_self]

theorem isInterrupt_wbTrap (cause val epc : BitVec 32) :
    (wbTrap cause val epc).isInterrupt = cause.getLsbD 31 := rfl

theorem irqPending_of_wbInterrupt (interrupt : s.wbInterrupt = true) :
    s.wb.irqPending = true := by
  by_contra quiet
  have none : s.wbInterrupt = false := by
    simp only [wbInterrupt, wbControl, if_neg quiet,
      apply_ite WbControl.isInterrupt, isInterrupt_wbTrap,
      apply_ite fun c : BitVec 32 => c.getLsbD 31]
    -- no other cause has the interrupt bit
    repeat' with_reducible refine either_false ?_ ?_
    all_goals rfl
  exact Bool.false_ne_true (none.symm.trans interrupt)

theorem not_write_of_mret (returns : s.mretExec = true) :
    s.csrWenW = false := by
  have one : (s.wbControl.mretExec && s.wbControl.csrWen) = false := by
    show (fun c : WbControl => c.mretExec && c.csrWen) s.wbControl = false
    simp only [wbControl, apply_ite fun c : WbControl => c.mretExec && c.csrWen]
    repeat' with_reducible refine either_false ?_ ?_
    all_goals rfl
  rw [mretExec] at returns
  rw [returns, Bool.true_and] at one
  exact one

theorem trapEnter_of_wbInterrupt (interrupt : s.wbInterrupt = true) :
    s.trapEnter = true := by
  rw [wbInterrupt, WbControl.isInterrupt, Bool.and_eq_true] at interrupt
  exact interrupt.1

/-- An instruction is interrupted for what is requested as it leaves EX. -/
theorem leaves_of_wbInterrupt (interrupt : (s.step i).wbInterrupt = true) :
    s.exToWbFire i = true ∧ s.irqPending i = true := by
  have pending := irqPending_of_wbInterrupt interrupt
  have redirect :=
    redirect_of_commit (Or.inl (trapEnter_of_wbInterrupt interrupt))
  have leaves := toWb_of_redirect redirect
  rw [step_wb_of_leave leaves (not_stop_of_redirect redirect)] at pending
  exact ⟨leaves, pending⟩

/-- EX acts on the CSR state behind a WB that writes nothing it reads. -/
theorem actsUnder_of_alike
    {c : CsrState p} (alike : CsrState.Alike s.csr c) :
    s.ActsUnder i (i.withLines i.irq) c := by
  have reads : s.ReadsSame i c := readsSame_of_alike alike
  obtain ⟨access, denied⟩ := access_of_reads reads
  obtain ⟨pending, cause⟩ := alike.interrupts i.irq
  exact {
    answer := fun _ => ⟨rfl, rfl, rfl⟩
    legal := legal_of_reads reads
    hits := hits_of_reads reads
    access := access
    denied := denied
    pending := fun _ => pending
    cause := fun _ => cause
    target := fun leaves => target_of_reads reads leaves }

end Core

namespace Arch

variable {p : Params} (env : Surroundings) (own : BusReq → Bool)

/-- The program that starts in `m` consists of ordinary instructions whose
data is apart from that of handlers; if MPRV is set in M-mode, MPP is what an
MRET leaves there. -/
structure MainProgram (m : Arch p) : Prop where
  separate : env.Separate own
  ordinary : ∀ k, (m.alone env k).Ordinary env own
  settled : m.csr.MprvSettled

end Arch

/-! ## Handlers in a run -/

namespace Run

variable {p : Params} (r : Run p)

/-- Behind the instruction in WB in cycle `n` a handler goes on: since an
interrupt after cycle `b` there has been no MRET. -/
def inHandler (b : ℕ) : ℕ → Bool
  | 0 => false
  | n + 1 =>
      decide (b ≤ n) && ((r.state (n + 1)).wbInterrupt ||
        !(r.state (n + 1)).mretExec && inHandler b n)

/-- The instructions other than those of handlers that entered WB from cycle
`b` on. -/
def mainEntered (b : ℕ) : ℕ → List Fetched :=
  emitted fun n =>
    if decide (b ≤ n) && !r.inHandler b n &&
        (r.state n).exToWbFire (r.inputs n) then
      some (r.state (n + 1)).wb.fetched
    else none

/-- What is expected of handlers from cycle `b` on: they write no trap,
interrupt, PMP or trigger CSR, neither by an instruction nor by an exception,
make no request of the given kind and end with the registers as they found
them. -/
structure HandlersBehave (own : BusReq → Bool) (b : ℕ) : Prop where
  writes : ∀ n, r.inHandler b n = true →
    (r.state (n + 1)).csrWenW = true →
      CsrState.guardsMain p.pmpEntries (r.state (n + 1)).csrAddrW = false
  noException : ∀ n, r.inHandler b n = true →
    (r.state (n + 1)).trapEnter = true →
      (r.state (n + 1)).wbInterrupt = true
  apart : ∀ n, r.inHandler b n = true →
    (r.state n).dataReqFire (r.inputs n) = true →
      own (r.state n).dReq = false
  restores : ∀ e n, e ≤ n → (r.state e).wbInterrupt = true →
    (∀ k, e ≤ k → k ≤ n → r.inHandler b k = true) →
    (r.state (n + 1)).mretExec = true →
      (r.state (n + 2)).regs = (r.state (e + 1)).regs

/-- Handlers end. -/
def HandlersReturn (b : ℕ) : Prop :=
  ∀ n, r.inHandler b n = true → ∃ m, n ≤ m ∧ r.inHandler b m = false

/-- From cycle `b` on the run executes the main program that starts in `m`,
interrupted by handlers; the instructions of the main program and its data are
those of the given memories. -/
structure RunsMain (env : Surroundings) (m : Arch p) (b : ℕ) : Prop
    extends r.FreeRuns where
  begins : r.Tracks env m b
  written : (r.state b).csrWenW = false
  checked : ∀ w ∈ (r.state b).inUse (r.sources b),
    r.executable w.answered w.addr = r.executable b w.addr
  served : ∀ n, b ≤ n → r.inHandler b n = false →
    (r.state n).ex.valid = true → r.Served env n

section Succ

variable {r} {b n : ℕ}

theorem inHandler_succ (late : b ≤ n) :
    r.inHandler b (n + 1) = ((r.state (n + 1)).wbInterrupt ||
      !(r.state (n + 1)).mretExec && r.inHandler b n) := by
  simp [inHandler, late]

theorem inHandler_start (b : ℕ) : r.inHandler b b = false := by
  cases b with
  | zero => rfl
  | succ b => simp [inHandler]

theorem late_of_inHandler (inside : r.inHandler b n = true) : b ≤ n := by
  cases n with
  | zero => simp [inHandler] at inside
  | succ n =>
      simp only [inHandler, Bool.and_eq_true, decide_eq_true_eq] at inside
      omega

theorem mainEntered_of_early (early : n ≤ b) : r.mainEntered b n = [] := by
  induction n with
  | zero => rfl
  | succ n inductionHypothesis =>
      rw [mainEntered, emitted_succ_of_none (by
        rw [if_neg]
        simp [Nat.not_le.mpr (Nat.lt_of_succ_le early)])]
      exact inductionHypothesis (Nat.le_of_succ_le early)

theorem mainEntered_of_leave
    (late : b ≤ n) (outside : r.inHandler b n = false)
    (leaves : (r.state n).exToWbFire (r.inputs n) = true) :
    r.mainEntered b (n + 1) =
      r.mainEntered b n ++ [(r.state (n + 1)).wb.fetched] :=
  emitted_succ_of_some (if_pos (by simp [late, outside, leaves]))

theorem mainEntered_of_silence
    (silent : r.inHandler b n = true ∨
      (r.state n).exToWbFire (r.inputs n) = false) :
    r.mainEntered b (n + 1) = r.mainEntered b n := by
  apply emitted_succ_of_none
  rw [if_neg]
  rcases silent with inside | busy
  · simp [inside]
  · simp [busy]

end Succ

/-! ## What is known of a cycle -/

/-- The lines of each cycle. -/
def lines (n : ℕ) : IrqLines := (r.inputs n).irq

/-- Cycle `n` is outside the handlers and stands at the instruction of `m`,
where `d` stands without handlers. -/
structure AtMain (env : Surroundings) (own : BusReq → Bool) (d : Arch p)
    (b n : ℕ) (m : Arch p) : Prop where
  outside : r.inHandler b n = false
  tracks : r.Tracks env m n
  same : Arch.SameMain own m d
  settled : m.csr.MprvSettled
  written : (r.state n).csrWenW = false
  checked : ∀ w ∈ (r.state n).inUse (r.sources n),
    r.executable w.answered w.addr = r.executable n w.addr

/-- Cycle `n` is in the handler that was entered in cycle `e` over the CSR
state `c`, before the instruction at which `d` stands. -/
structure AtHandler (own : BusReq → Bool) (d : Arch p) (b n : ℕ)
    (e : ℕ) (c : CsrState p) : Prop where
  entered : (r.state e).wbInterrupt = true
  began : e ≤ n
  inside : ∀ k, e ≤ k → k ≤ n → r.inHandler b k = true
  regs : r.regsBehind e = d.regs
  access : CsrState.SameAccess d.csr c
  settled : c.MprvSettled
  recorded : (r.state e).csrIn.trapEpc = d.pc
  behind : CsrState.Kept (c.trapEntered (r.state e).csrIn) (r.csrBehind n)
  here : (r.state n).ex.valid = true →
    CsrState.Kept (c.trapEntered (r.state e).csrIn) (r.state n).csr
  requests : (r.asked n).filter own = d.asked.filter own

/-- Where a cycle stands if the main program alone is at `d`. -/
inductive Stands (env : Surroundings) (own : BusReq → Bool) (d : Arch p)
    (b n : ℕ) : Prop
  | main (m : Arch p) (at_ : r.AtMain env own d b n m)
  | handler (e : ℕ) (c : CsrState p) (at_ : r.AtHandler own d b n e c)

/-- The state of cycle `n`, if no instruction is in EX. -/
def standing (n : ℕ) : Arch p where
  pc := (r.state n).oldestPc
  regs := r.regsBehind n
  csr := (r.csrBehind n).uncounted
  lrReservationAddr := (r.state n).lrReservationAddr
  lrReservationValid := (r.state n).lrReservationValid
  amoOldVal := (r.state n).amoOldVal
  asked := r.asked n
  entered := r.entered n

theorem standing_congr
    {r r' : Run p} {n : ℕ} (power : r.power = r'.power)
    (same : ∀ m ≤ n, r.inputs m = r'.inputs m) :
    r.standing n = r'.standing n := by
  have states : ∀ m, m ≤ n → r.state m = r'.state m := by
    intro m before
    rw [state, state, power]
    exact trajectory_congr fun k earlier => same k (by omega)
  have asked : r.asked n = r'.asked n :=
    emitted_congr fun m before => by rw [states m before.le, same m before.le]
  have entered : r.entered n = r'.entered n :=
    emitted_congr fun m before => by
      rw [states m before.le, states (m + 1) before, same m before.le]
  simp only [standing, regsBehind, csrBehind, asked, entered,
    states n le_rfl, same n le_rfl]

section Steps

variable {r} {env : Surroundings} {own : BusReq → Bool} {m d : Arch p}
  {b n : ℕ}

/-! ### Outside the handlers -/

theorem sees_of_main
    (free : r.FreeRuns) (written : (r.state n).csrWenW = false)
    (checked : ∀ w ∈ (r.state n).inUse (r.sources n),
      r.executable w.answered w.addr = r.executable n w.addr)
    (served : r.Served env n) (valid : (r.state n).ex.valid = true) :
    r.Sees env r.lines n where
  acts := Core.actsUnder_of_alike
    (Core.quiet_of_no_write (r.privSound n) valid written).alike
  verdicts := fun w member => by
    have used : w ∈ (r.state n).inUse (r.sources n) :=
      Core.mem_inUse_iff.mpr
        (Or.inr (Or.inr (Or.inr (Or.inr ⟨valid, member⟩))))
    rw [executable_step free.bus
      (fun writes => absurd (written.symm.trans writes) Bool.false_ne_true)
      (List.mem_append_left _ used)]
    exact checked w used
  toServed := served

/-- The next cycle is outside as well. -/
theorem AtMain.next
    (runs : r.RunsMain env m b) (late : b ≤ n)
    {d d' : Arch p} {before after : Arch p}
    (at_ : r.AtMain env own d b n before)
    (outside : r.inHandler b (n + 1) = false)
    (written : (r.state (n + 1)).csrWenW = false)
    (tracks : ((r.state (n + 1)).ex.valid = true →
      r.Sees env r.lines (n + 1)) → r.Tracks env after (n + 1))
    (same : Arch.SameMain own after d') (settled : after.csr.MprvSettled) :
    r.AtMain env own d' b (n + 1) after := by
  have checked := executable_of_step runs.bus
    (fun writes => absurd (at_.written.symm.trans writes) Bool.false_ne_true)
    at_.checked
  exact {
    outside := outside
    tracks := tracks fun valid =>
      sees_of_main runs.toFreeRuns written checked
        (runs.served (n + 1) (by omega) outside valid) valid
    same := same
    settled := settled
    written := written
    checked := checked }

section Main

variable {start : Arch p} (runs : r.RunsMain env start b)
  (separate : env.Separate own) (ordinary : d.Ordinary env own)
  (late : b ≤ n) (at_ : r.AtMain env own d b n m)
include runs separate ordinary late at_

/-- An instruction of the main program leaves EX, interrupted or not. -/
theorem AtMain.leave
    (leaves : (r.state n).exToWbFire (r.inputs n) = true) :
    (d.plainExec env .low).entered.map WbRegs.fetched =
        d.entered.map WbRegs.fetched ++ [(r.state (n + 1)).wb.fetched] ∧
      r.Stands env own (d.plainExec env .low) b (n + 1) := by
  have free := runs.toFreeRuns
  have sees : (r.state n).ex.valid = true → r.Sees env r.lines n :=
    fun valid => sees_of_main free at_.written at_.checked
      (runs.served n late at_.outside valid) valid
  obtain ⟨finishes, asks⟩ := at_.tracks.leave free sees leaves
  obtain ⟨w, commit⟩ :=
    Arch.exec_same separate at_.same ordinary (r.moment r.lines n)
  obtain ⟨wb, grows⟩ := entered_of_leave free.single leaves
  have reached : (r.state (n + 1)).wb = w := by
    have enters := commit.entered
    rw [finishes.entered, grows, at_.tracks.entered] at enters
    exact List.singleton_inj.mp (List.append_cancel_left enters)
  obtain ⟨noWrite, noMret, traps, irq⟩ :=
    Core.control_of_plain (s := r.state (n + 1))
      (by rw [reached]; exact commit.plain)
  obtain ⟨w', enters, same⟩ := commit.alone
  refine ⟨by rw [enters, List.map_append, reached, ← same]; rfl, ?_⟩
  have asked : r.asked (n + 1) = r.asked n :=
    asked_of_silence (Core.not_reqFire_of_leave leaves)
  have requests : (r.asked (n + 1)).filter own =
      (d.plainExec env .low).asked.filter own := by
    rw [asked, ← asks, commit.requests at_.same]
  have before : CsrState.Kept m.csr (r.state (n + 1)).csr :=
    (alike_of_behind at_.tracks.csr).kept.symm
  have access : CsrState.SameAccess (d.plainExec env .low).csr
      (r.state (n + 1)).csr :=
    commit.kept.symm.sameAccess.trans
      (at_.same.access.trans before.sameAccess)
  by_cases pending : (r.state (n + 1)).wb.irqPending = true
  · have enter : (r.state (n + 1)).trapEnter = true := traps.trans pending
    have cause : (r.state (n + 1)).trapCause.getLsbD 31 = true := by
      rw [(irq pending).1, wb]
      rw [wb] at pending
      exact CsrState.irqCause_interrupt pending
    have interrupt : (r.state (n + 1)).wbInterrupt = true := by
      rw [Core.wbInterrupt, Core.WbControl.isInterrupt, Bool.and_eq_true]
      exact ⟨enter, cause⟩
    exact .handler (n + 1) (r.state (n + 1)).csr {
      entered := interrupt
      began := le_rfl
      inside := fun k above below => by
        rw [le_antisymm below above, inHandler_succ late, interrupt,
          Bool.true_or]
      regs := finishes.regs.symm.trans commit.regs
      access := access
      settled := before.settled at_.settled
      recorded := by
        show (r.state (n + 1)).wbControl.trapEpc = _
        rw [(irq pending).2, reached, commit.target]
      behind := CsrState.kept_commit_of_trap _ _ _ enter
      here := fun valid => by
        have drained := (r.privSound (n + 1)).drained (Or.inl enter)
        exact absurd (drained.ex.symm.trans valid) Bool.false_ne_true
      requests := requests }
  · have quiet : (r.state (n + 1)).wb.irqPending = false := by
      simpa using pending
    have noTrap : (r.state (n + 1)).trapEnter = false := traps.trans quiet
    have noInterrupt : (r.state (n + 1)).wbInterrupt = false := by
      by_contra interrupt
      exact pending (Core.irqPending_of_wbInterrupt (by simpa using interrupt))
    have commits : CsrState.Kept (r.state (n + 1)).csr
        (r.csrBehind (n + 1)).uncounted :=
      (CsrState.kept_commit _ _ _ noTrap noMret fun writes =>
        absurd (noWrite.symm.trans writes) Bool.false_ne_true).trans
        (CsrState.kept_withCounters _ _)
    have state : (m.exec env (r.moment r.lines n)).csr =
        (r.csrBehind (n + 1)).uncounted := finishes.csr
    refine .main (m.exec env (r.moment r.lines n)) (at_.next runs late ?_
      noWrite (fun next => ?_) ?_ ?_)
    · rw [inHandler_succ late, noInterrupt, noMret, at_.outside]
      rfl
    · have tracks := tracks_step free next at_.tracks sees
      rw [if_pos (by simp [completes, leaves])] at tracks
      exact tracks
    · exact {
        pc := commit.pc (by rw [← reached, quiet])
        regs := commit.regs
        access := by
          rw [state]
          exact access.trans commits.sameAccess
        requests := commit.requests at_.same }
    · rw [state]
      exact commits.settled (before.settled at_.settled)

/-- The main program has no AMO whose read fails. -/
theorem AtMain.not_drop :
    (r.state n).exDropsAmo (r.inputs n) = false := by
  by_contra drops
  have dropped : (r.state n).exDropsAmo (r.inputs n) = true := by
    simpa using drops
  obtain ⟨valid, busy, -⟩ := Core.facts_of_drop dropped
  have served := runs.served n late at_.outside valid
  have silent : r.entered (n + 1) = r.entered n :=
    emitted_succ_of_none (if_neg (by simp [busy]))
  obtain ⟨w, commit⟩ :=
    Arch.exec_same separate at_.same ordinary (r.moment r.lines n)
  have tracks : r.Tracks env (m.exec env (r.moment r.lines n)) (n + 1) :=
    at_.tracks.drop runs.toFreeRuns served dropped
  have after := tracks.entered
  rw [silent, at_.tracks.entered, commit.entered] at after
  simp at after

/-- Nothing leaves EX. -/
theorem AtMain.stay
    (busy : (r.state n).exToWbFire (r.inputs n) = false) :
    r.Stands env own d b (n + 1) := by
  have free := runs.toFreeRuns
  have served : (r.state n).ex.valid = true → r.Served env n :=
    runs.served n late at_.outside
  have noDrop := at_.not_drop runs separate ordinary late
  have empty : (r.state (n + 1)).wb.valid = false := Core.wb_of_stay busy
  have control := Core.wbControl_of_empty empty
  refine .main m (at_.next runs late ?_ ?_ (fun next => ?_) at_.same
    at_.settled)
  · rw [inHandler_succ late, at_.outside]
    simp [Core.wbInterrupt, Core.WbControl.isInterrupt, control]
  · rw [Core.csrWenW, control]
  · have tracks := tracks_step free next at_.tracks fun valid =>
      sees_of_main free at_.written at_.checked (served valid) valid
    rw [if_neg (by simp [completes, busy, noDrop])] at tracks
    exact tracks

end Main

/-! ### In a handler -/

/-- Between two instructions every cycle stands somewhere. -/
theorem tracks_standing (empty : (r.state n).ex.valid = false) :
    r.Tracks env (r.standing n) n where
  pc := rfl
  regs := rfl
  csr := rfl
  lrReservationAddr := rfl
  lrReservationValid := rfl
  entered := rfl
  phase := .idle empty rfl rfl

section Handler

variable {e : ℕ} {c : CsrState p} (free : r.FreeRuns)
  (behave : r.HandlersBehave own b) (at_ : r.AtHandler own d b n e c)
include behave at_

theorem AtHandler.not_trap : (r.state (n + 1)).trapEnter = false := by
  by_contra enter
  have inside := at_.inside n at_.began le_rfl
  have interrupt := behave.noException n inside (by simpa using enter)
  obtain ⟨leaves, pending⟩ :=
    Core.leaves_of_wbInterrupt (s := r.state n) interrupt
  have quiet := CsrState.irqPending_of_trapEntered
    (at_.here (Core.valid_of_leave leaves)) (r.inputs n).irq
  exact Bool.false_ne_true (quiet.symm.trans pending)

theorem AtHandler.requests_succ :
    (r.asked (n + 1)).filter own = d.asked.filter own := by
  rw [← at_.requests]
  by_cases fire : (r.state n).dataReqFire (r.inputs n) = true
  · have foreign := behave.apart n (at_.inside n at_.began le_rfl) fire
    rw [asked_of_fire fire, List.filter_append]
    simp [foreign]
  · rw [asked_of_silence (by simpa using fire)]

include free

/-- The MRET commits. -/
theorem AtHandler.leave (returns : (r.state (n + 1)).mretExec = true) :
    r.AtMain env own d b (n + 1) (r.standing (n + 1)) := by
  have inside := at_.inside n at_.began le_rfl
  have late := late_of_inHandler inside
  have noTrap := at_.not_trap behave
  have redirect := Core.redirect_of_commit (s := r.state n) (Or.inr returns)
  have leaves := Core.toWb_of_redirect redirect
  have here := at_.here (Core.valid_of_leave leaves)
  obtain ⟨flushed, target, -⟩ := Core.flushTarget_of_mret (r.exSound n)
    returns noTrap (CsrState.irqPending_of_trapEntered here _)
  have drained : (r.state (n + 1)).Drained := Core.drained_of_flush flushed
  have whole : ¬ (r.state (n + 1)).Straddling :=
    Core.not_straddling_of_flush flushed
  have noDrop : (r.state n).exDropsAmo (r.inputs n) = false := by
    by_contra drops
    have busy := (Core.facts_of_drop (by simpa using drops)).2.1
    exact Bool.false_ne_true (busy.symm.trans leaves)
  have pc : (r.state (n + 1)).oldestPc = d.pc := by
    rw [r.state_succ, Core.oldestPc_step
      (r.not_stop_of_noSingleStep free.single n) (r.exSound n) noDrop
      (r.feSound n) (r.exFollowed n), if_pos leaves, target, here.mepc]
    exact at_.recorded
  have noInterrupt : (r.state (n + 1)).wbInterrupt = false := by
    by_contra interrupt
    rw [Bool.not_eq_false] at interrupt
    exact Bool.false_ne_true
      (noTrap.symm.trans (Core.trapEnter_of_wbInterrupt interrupt))
  have entered : CsrState.Kept (c.trapEntered (r.state e).csrIn)
      (r.state (n + 1)).csr :=
    at_.behind.trans (CsrState.kept_latchHits _ _)
  obtain ⟨access, settled⟩ :=
    CsrState.sameAccess_mretDone at_.settled entered
  have done : CsrState.Kept (r.state (n + 1)).csr.mretDone
      (r.csrBehind (n + 1)).uncounted :=
    (CsrState.kept_commit_of_mret _ _ _ noTrap returns).trans
      (CsrState.kept_withCounters _ _)
  exact {
    outside := by
      rw [inHandler_succ late, noInterrupt, returns]
      rfl
    tracks := tracks_standing drained.ex
    same := {
      pc := pc
      regs := by
        have restored :=
          behave.restores e n at_.began at_.entered at_.inside returns
        rw [regs_succ free.noWrite, regs_succ free.noWrite, at_.regs]
          at restored
        exact restored
      access := at_.access.trans (access.trans done.sameAccess)
      requests := at_.requests_succ behave }
    settled := done.settled settled
    written := Core.not_write_of_mret returns
    checked := by
      simp [Core.inUse, drained.ex, drained.ifId, drained.fbuf, drained.pf,
        whole] }

/-- The handler goes on or ends. -/
theorem AtHandler.step : r.Stands env own d b (n + 1) := by
  have inside := at_.inside n at_.began le_rfl
  by_cases returns : (r.state (n + 1)).mretExec = true
  · exact .main _ (at_.leave free behave returns)
  · have noMret : (r.state (n + 1)).mretExec = false := by simpa using returns
    have entered : CsrState.Kept (c.trapEntered (r.state e).csrIn)
        (r.state (n + 1)).csr :=
      at_.behind.trans (CsrState.kept_latchHits _ _)
    exact .handler e c {
      entered := at_.entered
      began := at_.began.trans (Nat.le_succ n)
      inside := fun k above below => by
        rcases Nat.lt_or_ge n k with after | before
        · rw [le_antisymm below after,
            inHandler_succ (late_of_inHandler inside), noMret, inside]
          simp
        · exact at_.inside k above before
      regs := at_.regs
      access := at_.access
      settled := at_.settled
      recorded := at_.recorded
      behind := entered.trans (CsrState.kept_commit _ _ _
        (at_.not_trap behave) noMret (behave.writes n inside))
      here := fun _ => entered
      requests := at_.requests_succ behave }

end Handler

/-! ### Runs -/

/-- Every cycle stands where the main program alone is after as many
instructions. -/
theorem stands_alone
    {start : Arch p} (program : start.MainProgram env own)
    (runs : r.RunsMain env start b) (behave : r.HandlersBehave own b)
    (late : b ≤ n) :
    (start.alone env (r.mainEntered b n).length).entered.map
          WbRegs.fetched =
        start.entered.map WbRegs.fetched ++ r.mainEntered b n ∧
      r.Stands env own (start.alone env (r.mainEntered b n).length) b n := by
  induction n, late using Nat.le_induction with
  | base =>
      rw [mainEntered_of_early le_rfl]
      refine ⟨(List.append_nil _).symm, .main start ?_⟩
      exact {
        outside := inHandler_start b
        tracks := runs.begins
        same := .refl own start
        settled := program.settled
        written := runs.written
        checked := runs.checked }
  | succ n late inductionHypothesis =>
      obtain ⟨enters, stands⟩ := inductionHypothesis
      have ordinary := program.ordinary (r.mainEntered b n).length
      cases stands with
      | main m at_ =>
          by_cases leaves : (r.state n).exToWbFire (r.inputs n) = true
          · obtain ⟨grows, after⟩ :=
              at_.leave runs program.separate ordinary late leaves
            rw [mainEntered_of_leave late at_.outside leaves,
              List.length_append, List.length_singleton, Arch.alone_succ,
              grows, enters, List.append_assoc]
            exact ⟨rfl, after⟩
          · have busy : (r.state n).exToWbFire (r.inputs n) = false := by
              simpa using leaves
            rw [mainEntered_of_silence (Or.inr busy)]
            exact ⟨enters,
              at_.stay runs program.separate ordinary late busy⟩
      | handler e c at_ =>
          rw [mainEntered_of_silence
            (Or.inl (at_.inside n at_.began le_rfl))]
          exact ⟨enters, at_.step runs.toFreeRuns behave⟩

end Steps

end Run

end SisRv
