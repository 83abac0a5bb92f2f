import SisRv.Core.Refinement
import SisRv.Lib.Stutter

/-!
# Execution with interrupts off

The counters and the interrupt lines are the only inputs of an instruction
that depend on when it is executed.  If no interrupt is requested and no CSR
instruction reads a counter, the execution of a run depends on the number of
completed instructions alone.
-/

namespace SisRv

open Sync

/-! ## Reads of what changes with time -/

/-- The address of a counter or of its user-mode shadow. -/
def namesCounter (addr : BitVec 12) : Bool :=
  addr == csrMcycle || addr == csrCycle || addr == csrMcycleh ||
    addr == csrCycleh || addr == csrMinstret || addr == csrInstret ||
    addr == csrMinstreth || addr == csrInstreth ||
    (csrIsMhpmcounter addr).isSome || (csrIsHpmcounter addr).isSome

namespace CsrState

variable {p : Params} (c : CsrState p) {addr : BitVec 12}
  {irq irq' : IrqLines}

theorem csrRdata_withCounters
    (other : namesCounter addr = false) (lines : addr = csrMip → irq' = irq)
    (k : Counters) :
    (c.withCounters k).csrRdata irq' addr = c.csrRdata irq addr := by
  simp only [namesCounter, Bool.or_eq_false_iff, beq_eq_false_iff_ne,
    Option.isSome_eq_false_iff, Option.isNone_iff_eq_none] at other
  obtain ⟨⟨⟨⟨⟨⟨⟨⟨⟨mcycle, cycle⟩, mcycleh⟩, cycleh⟩, minstret⟩, instret⟩,
    minstreth⟩, instreth⟩, machine⟩, user⟩ := other
  have effective : addr = csrMip →
      (c.withCounters k).mipEffective irq' = c.mipEffective irq := by
    intro named
    rw [lines named]
    rfl
  simp only [csrRdata, mcycle, cycle, mcycleh, cycleh, minstret, instret,
    minstreth, instreth, machine, user, or_self, if_false]
  -- what is left reads no counter in any arm of the last case
  generalize csrIsPmpcfg p.pmpEntries addr = slot
  generalize csrIsPmpaddr p.pmpEntries addr = entry
  generalize csrIsMhpmevent addr = event
  by_cases mip : addr = csrMip
  · simp only [effective mip]
    cases slot <;> cases entry <;> cases event <;> rfl
  · simp only [mip, if_false]
    cases slot <;> cases entry <;> cases event <;> rfl

theorem writeCsr_withCounters (n : CsrState p) (val : BitVec 32)
    (k : Counters) :
    (c.withCounters k).writeCsr n addr val = c.writeCsr n addr val := rfl

/-- A commit of the same new value does not depend on the counters. -/
theorem commit_withCounters {x : CsrIn p} (k k' : Counters)
    (value : x.csrWen = true →
      (c.withCounters k).csrNewVal irq' x =
        (c.withCounters k').csrNewVal irq x) :
    (c.withCounters k).commit irq' x c.uncounted =
      (c.withCounters k').commit irq x c.uncounted := by
  simp only [commit, writeCsr_withCounters]
  by_cases traps : x.trapEnter = true
  · rw [if_pos traps, if_pos traps]
    rfl
  rw [if_neg traps, if_neg traps]
  by_cases returns : x.mretExec = true
  · rw [if_pos returns, if_pos returns]
    rfl
  rw [if_neg returns, if_neg returns]
  by_cases writes : x.csrWen = true
  · rw [if_pos writes, if_pos writes, value writes]
  · rw [if_neg writes, if_neg writes]

end CsrState

namespace Core

variable {p : Params} (s : Core p)

/-- A CSR instruction that reads its CSR commits: any but a CSRRW with `x0` as
destination. -/
def readsCsr : Bool :=
  s.csrWenW && !(s.wb.csrOpType == 0b01 && s.wb.rd == 0)

/-- What the CSR instruction in WB reads does not change with time, unless the
lines have another value than the given one. -/
def ReadsSteady (lines wbLines : IrqLines) : Prop :=
  s.readsCsr = true → namesCounter s.csrAddrW = false ∧
    (s.csrAddrW = csrMip → wbLines = lines)

section Steady

variable {s} {t : Core p}

theorem readsSteady_congr
    {lines wbLines : IrqLines} (wb : t.wb = s.wb)
    (steady : s.ReadsSteady lines wbLines) :
    t.ReadsSteady lines wbLines := by
  simpa only [ReadsSteady, readsCsr, csrWenW, csrAddrW, wbControl_congr wb,
    wb] using steady

/-- A CSR instruction that writes a register reads its CSR. -/
theorem readsCsr_of_writes
    (writes : s.wbWritesRd = true) (target : s.wb.rd ≠ 0)
    (csrOp : s.wb.isCsrOp = true) : s.readsCsr = true := by
  simp only [wbWritesRd, Bool.and_eq_true, Bool.not_eq_true'] at writes
  obtain ⟨⟨⟨⟨⟨⟨⟨valid, trigger⟩, fetchErr⟩, memErr⟩, misaligned⟩, aligned⟩,
    legal⟩, -⟩ := writes
  have commits : s.csrWenW = true := by
    simp [csrWenW, wbControl, valid, trigger, fetchErr, memErr, misaligned,
      aligned, legal, csrOp]
  rw [readsCsr, commits, Bool.true_and, Bool.not_eq_true',
    Bool.and_eq_false_iff]
  exact Or.inr (beq_eq_false_iff_ne.mpr target)

variable {c : CsrState p} {k k' : Counters} {lines wbLines : IrqLines}

theorem wbWrite_steady
    (steady : s.ReadsSteady lines wbLines) :
    ({ s with csr := c.withCounters k } : Core p).wbWrite
        (.ofLines wbLines) =
      ({ s with csr := c.withCounters k' } : Core p).wbWrite
        (.ofLines lines) := by
  funext rf
  have result : s.wbWritesRd = true → s.wb.rd ≠ 0 →
      ({ s with csr := c.withCounters k } : Core p).wbResult
          (.ofLines wbLines) =
        ({ s with csr := c.withCounters k' } : Core p).wbResult
          (.ofLines lines) := by
    intro writes target
    by_cases csrOp : s.wb.isCsrOp = true
    · obtain ⟨other, mip⟩ :=
        steady (readsCsr_of_writes writes target csrOp)
      have read := (c.withCounters k').csrRdata_withCounters other mip k
      have same : ({ s with csr := c.withCounters k } : Core p).csrRdataW
          (.ofLines wbLines) =
        ({ s with csr := c.withCounters k' } : Core p).csrRdataW
          (.ofLines lines) := read
      simp only [wbResult, same]
      rfl
    · simp only [wbResult, csrOp]
      rfl
  simp only [wbWrite]
  by_cases writes : (s.wbWritesRd && s.wb.rd != 0) = true
  · have both := writes
    rw [Bool.and_eq_true, bne_iff_ne] at both
    rw [result both.1 both.2]
    rfl
  · exact (if_neg writes).trans (if_neg writes).symm

theorem next_steady
    (steady : s.ReadsSteady lines wbLines) :
    ((c.withCounters k).next wbLines s.csrIn).uncounted =
      ((c.withCounters k').next lines s.csrIn).uncounted := by
  have value : s.csrIn.csrWen = true →
      (c.withCounters k).csrNewVal wbLines s.csrIn =
        (c.withCounters k').csrNewVal lines s.csrIn := by
    intro (commits : s.csrWenW = true)
    by_cases reads : s.readsCsr = true
    · obtain ⟨other, mip⟩ := steady reads
      have read : (c.withCounters k).csrRdata wbLines s.csrIn.csrAddr =
          (c.withCounters k').csrRdata lines s.csrIn.csrAddr :=
        (c.withCounters k').csrRdata_withCounters other mip k
      simp only [CsrState.csrNewVal, read]
    · -- CSRRW writes its operand
      have plain : s.csrIn.csrOp = 0b01 := by
        simp only [readsCsr, commits, Bool.true_and, Bool.not_eq_true,
          Bool.not_eq_false', Bool.and_eq_true, beq_iff_eq] at reads
        exact reads.1
      simp only [CsrState.csrNewVal, plain, if_true]
  have commit := CsrState.commit_withCounters c k k' value
  have latched : ∀ n : CsrState p,
      (CsrState.latchHits s.csrIn n).uncounted =
        CsrState.latchHits s.csrIn n.uncounted := fun _ => rfl
  have same : ∀ k : Counters, (c.withCounters k).uncounted = c.uncounted :=
    fun _ => rfl
  rw [CsrState.next, CsrState.next, latched, latched,
    CsrState.uncounted_commit, (c.withCounters k').uncounted_commit,
    CsrState.uncounted_tickCounters, CsrState.uncounted_tickCounters, same,
    same, commit]

end Steady

end Core

/-! ## The serial machine at other moments -/

namespace Arch

variable {p : Params} {m : Arch p} {env : Surroundings} {o o' : Moment}

theorem finish_steady
    {s : Core p} {i : CoreIn} {asked : List BusReq}
    (steady : ∀ t : Core p, t.wb = s.completedWb i →
      t.ReadsSteady o'.wbLines o.wbLines) :
    m.finish s i o asked = m.finish s i o' asked := by
  have here := steady
    { s with ex := ExRegs.reset 0, wb := s.completedWb i } rfl
  simp only [finish, Arch.mk.injEq, true_and, and_true]
  exact ⟨congrFun (Core.wbWrite_steady here) _, Core.next_steady here⟩

theorem exec_steady
    (lines : o.lines = o'.lines)
    (steady : ∀ t : Core p,
      (m.exec env o).entered = m.entered ++ [t.wb] →
        t.ReadsSteady o'.wbLines o.wbLines) :
    m.exec env o = m.exec env o' := by
  rcases m.exec_cases env o.lines with ⟨s, i, asked, -, finishes⟩ | drops
  · rw [finishes o rfl, finishes o' lines.symm]
    apply finish_steady
    intro t same
    apply steady
    rw [finishes o rfl, finish, same]
  · rw [drops, drops]

/-! ### Logs -/

theorem entered_exec (m : Arch p) (env : Surroundings) (o : Moment) :
    m.entered <+: (m.exec env o).entered := by
  rcases m.exec_cases env o.lines with ⟨s, i, asked, -, finishes⟩ | drops
  · rw [finishes o rfl]
    exact List.prefix_append _ _
  · rw [drops]

theorem asked_exec (m : Arch p) (env : Surroundings) (o : Moment) :
    m.asked <+: (m.exec env o).asked := by
  rcases m.exec_cases env o.lines with ⟨s, i, asked, grows, finishes⟩ | drops
  · rw [finishes o rfl]
    exact grows
  · rw [drops]
    exact List.prefix_append _ _

/-- An instruction that does not reach WB changes nothing. -/
theorem exec_of_silent
    (silent : (m.exec env o).entered = m.entered) :
    (m.exec env o).regs = m.regs ∧ (m.exec env o).csr = m.csr := by
  rcases m.exec_cases env o.lines with ⟨s, i, asked, -, finishes⟩ | drops
  · rw [finishes o rfl, finish] at silent
    simp at silent
  · rw [drops]
    exact ⟨rfl, rfl⟩

end Arch

/-! ## Runs with interrupts off -/

/-- All interrupt lines low. -/
def IrqLines.low : IrqLines := ⟨false, false, false⟩

theorem CsrState.irqPending_low {p : Params} (c : CsrState p) :
    c.irqPending .low = false := by
  simp [irqPending, meipOn, mtipOn, msipOn, irqOn, IrqLines.low]

theorem CsrState.irqCause_of_not_pending {p : Params} {c : CsrState p}
    {irq : IrqLines} (quiet : c.irqPending irq = false) :
    c.irqCause irq = 0 := by
  simp only [irqPending, Bool.or_eq_false_iff] at quiet
  simp [irqCause, quiet]

namespace Core

variable {p : Params} {s : Core p} {i : CoreIn} {c : CsrState p}

/-- While no interrupt is requested the lines may be low as well. -/
theorem readsSame_low
    (quiet : s.irqPending i = false) (reads : s.ReadsSame i c) :
    s.ReadsSame (i.withLines .low) c := by
  have lowQuiet : s.irqPending (i.withLines .low) = false :=
    s.csr.irqPending_low
  have goes : s.goesToVector (i.withLines .low) = s.goesToVector i := by
    simp only [goesToVector, quiet, lowQuiet]
    rfl
  exact {
    counters := reads.counters
    timeout := reads.timeout
    trigger := reads.trigger
    data := reads.data
    irq := fun _ _ _ => by
      have low : (i.withLines .low).irq = .low := rfl
      rw [low, s.csr.irqPending_low]
      exact ⟨c.irqPending_low, fun pending => absurd pending (by decide)⟩
    vector := fun leaves vector => reads.vector leaves (goes ▸ vector)
    mret := reads.mret }

theorem actsUnder_low
    (quiet : s.irqPending i = false) (reads : s.ReadsSame i c) :
    s.ActsUnder i (i.withLines .low) c := by
  obtain ⟨access, denied⟩ := access_of_reads reads
  have lowQuiet : s.irqPending (i.withLines .low) = false :=
    s.csr.irqPending_low
  exact {
    answer := fun _ => ⟨rfl, rfl, rfl⟩
    legal := legal_of_reads reads
    hits := hits_of_reads reads
    access := access
    denied := denied
    pending := fun _ => c.irqPending_low.trans quiet.symm
    cause := fun _ =>
      (CsrState.irqCause_of_not_pending c.irqPending_low).trans
        (CsrState.irqCause_of_not_pending quiet).symm
    target := fun leaves => by
      have low := target_of_reads (readsSame_low quiet reads) leaves
      rw [low]
      simp only [exPcNext, quiet, lowQuiet]
      rfl }

end Core

namespace Run

variable {p : Params} (r : Run p)

/-- No interrupt is requested, and what CSR instructions read changes with the
execution only: no counter, and `mip` while the lines have the given value. -/
structure Steady (lines : IrqLines) : Prop where
  noIrq : ∀ n, (r.state n).irqPending (r.inputs n) = false
  reads : ∀ n, (r.state n).ReadsSteady lines (r.inputs n).irq

end Run

namespace Arch

variable {p : Params} (env : Surroundings) (lines : IrqLines)

/-- An instruction with interrupts off and the given lines to read. -/
def plainExec (m : Arch p) : Arch p := m.exec env ⟨.low, lines, .zero⟩

/-- The state after `k` such instructions from reset. -/
def after (regs : BitVec 5 → BitVec 32) (k : ℕ) : Arch p :=
  (plainExec env lines)^[k] (Arch.reset p regs)

end Arch

namespace Run

variable {p : Params} {r : Run p} {env : Surroundings} {lines : IrqLines}

theorem actsBehind_of_apart
    (bus : r.InstrBus)
    (apart : ∀ n, (r.state n).csrWenW = true → r.WriteApart n) {n : ℕ}
    (quiet : (r.state n).irqPending (r.inputs n) = false)
    (valid : (r.state n).ex.valid = true) :
    r.ActsBehind (fun _ => .low) n where
  acts := Core.actsUnder_low quiet (reads_of_apart apart valid)
  verdicts := executable_of_apart apart valid bus

/-- The instruction in WB is the one that the serial machine has entered
last. -/
theorem wb_of_entered
    {m m' : Arch p} {n : ℕ} (before : r.Tracks env m n)
    (after : r.Tracks env m' (n + 1)) {w : WbRegs}
    (enters : m'.entered = m.entered ++ [w]) : (r.state (n + 1)).wb = w := by
  rw [← before.entered, ← after.entered] at enters
  have grows : r.entered (n + 1) = r.entered n ++
      (if (r.state n).exToWbFire (r.inputs n) then
        some (r.state (n + 1)).wb else none).toList := rfl
  rw [grows] at enters
  have tail := List.append_cancel_left enters
  split_ifs at tail
  · simpa using tail
  · simp at tail

/-- Cycle `n` stands in the instruction with the number of those completed. -/
theorem tracks_after
    (within : r.RunsIn env) (steady : r.Steady lines)
    (apart : ∀ n, (r.state n).csrWenW = true → r.WriteApart n) (n : ℕ) :
    r.Tracks env
      (Arch.after env lines r.power.regs (occurrences r.completes n)) n := by
  have tracks : ∀ n, r.Tracks env (r.serial env (fun _ => .low) n) n :=
    tracks_serial within.toFreeRuns fun n valid =>
      ⟨actsBehind_of_apart within.bus apart (steady.noIrq n) valid,
        within.served n valid⟩
  have step : ∀ n, r.serial env (fun _ => .low) (n + 1) =
      if r.completes n then
        (r.serial env (fun _ => .low) n).plainExec env lines
      else r.serial env (fun _ => .low) n := by
    intro n
    by_cases done : r.completes n = true
    · rw [if_pos done, serial, if_pos done]
      have after := tracks (n + 1)
      rw [serial, if_pos done] at after
      refine Arch.exec_steady rfl fun t enters => ?_
      exact Core.readsSteady_congr (wb_of_entered (tracks n) after enters).symm
        (steady.reads (n + 1))
    · rw [if_neg done, serial, if_neg done]
  have here := tracks n
  rw [iterate_of_stutter (r.serial env fun _ => .low) step n] at here
  exact here

/-- The requests made are some of those up to the next instruction. -/
theorem Tracks.asked_within
    {m : Arch p} {n : ℕ} (tracks : r.Tracks env m n) (o : Moment) :
    m.asked <+: r.asked n ∧ r.asked n <+: (m.exec env o).asked := by
  have reads : m.asked <+: m.readAsked env := List.prefix_append _ _
  cases tracks.phase with
  | idle _ _ asks | first _ _ asks | request _ _ _ asks =>
      rw [asks]
      exact ⟨List.prefix_refl _, m.asked_exec env o⟩
  | wait _ access _ asks =>
      rw [asks]
      refine ⟨reads, ?_⟩
      by_cases amo : (m.begun env.mem).exIsAmoOp = true
      · by_cases fails : (env.answer (m.readAsked env)).2 = true
        · rw [Arch.exec_of_drop access amo fails]
        · rw [Arch.exec_of_amo access amo (by simpa using fails)]
          exact List.prefix_append _ _
      · rw [Arch.exec_of_access access (by simpa using amo)]
        exact List.prefix_refl _
  | amoRequest _ access amo ok _ asks =>
      rw [asks, Arch.exec_of_amo access amo ok]
      exact ⟨reads, List.prefix_append _ _⟩
  | amoWait _ access amo ok _ asks =>
      rw [asks, Arch.exec_of_amo access amo ok]
      exact ⟨reads.trans (List.prefix_append _ _), List.prefix_refl _⟩

end Run

end SisRv
