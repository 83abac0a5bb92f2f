import SisRv.Core.Chain
import SisRv.Csr.PrivilegeStack

/-!
# From a trap to its return

In every run of the core the privilege stack holds implemented modes, and MRET
gives back what the trap found: the modes, and the PC the trap recorded.
-/

namespace SisRv

open Sync

namespace Core

variable {p : Params} {s : Core p} {i : CoreIn}

/-! ## The target of an MRET -/

/-- An MRET that leaves EX with no interrupt pending sends the front end to
`mepc`. -/
theorem flushTarget_of_mret
    (sound : s.ExSound) (commits : (s.step i).mretExec = true)
    (noTrap : (s.step i).trapEnter = false)
    (noIrq : s.irqPending i = false) :
    s.flush i = true ∧ s.exPcNext i = s.csr.mepc ∧
      s.flushTarget i = s.csr.mepc := by
  have redirect := redirect_of_commit (Or.inr commits)
  have leaves := toWb_of_redirect redirect
  have goes := not_stop_of_redirect redirect
  have agrees := (pcNext_eq_decidedPc_iff leaves goes sound).mpr
    (by simp [irqDisplaces, noIrq])
  have decision : (s.step i).wbDecision = .mret := by
    simp [wbDecision, noTrap, commits]
  rw [decision] at agrees
  refine ⟨by simp [flush, redirect], agrees, ?_⟩
  rw [flushTarget, goes]
  exact agrees

/-- An empty pipeline behind WB is flushed by a single-step stop only. -/
theorem not_redirect_of_empty (empty : s.ex.valid = false) :
    s.exRedirect i = false := by
  by_contra redirect
  have leaves := toWb_of_redirect (by simpa using redirect)
  rw [valid_of_leave leaves] at empty
  exact absurd empty (by decide)

/-- Nothing in EX and WB, and `pc` at the front. -/
structure Waits (s : Core p) (pc : BitVec 32) : Prop where
  ex : s.ex.valid = false
  wb : s.wb.valid = false
  front : s.frontPc = pc

theorem waits_step
    {pc : BitVec 32} (waits : s.Waits pc) (feSound : s.FeSound)
    (noIssue : s.idToExFire i = false) : (s.step i).Waits pc := by
  have kept : s.flush i = false := by
    simp [flush, not_redirect_of_empty waits.ex, wbSingleStepStop, waits.wb]
  have stays : s.exToWbFire i = false := by
    by_contra leaves
    have valid := valid_of_leave (by simpa using leaves)
    rw [waits.ex] at valid
    exact absurd valid (by decide)
  refine ⟨?_, ?_, ?_⟩
  · by_contra valid
    have before := valid_of_exNext noIssue (by simpa using valid)
    rw [waits.ex] at before
    exact absurd before (by decide)
  · rw [step_wb]
    exact wb_of_stay stays
  · rw [frontPc_step feSound kept, noIssue]
    exact waits.front

/-- A drained pipeline waits for the instruction its flush is directed to,
once WB has committed. -/
theorem waits_of_drained
    (drained : s.Drained) (feSound : s.FeSound)
    (next : s.wb.valid = true → s.wb.pcNext = s.frontPc) :
    (s.step i).Waits s.frontPc := by
  have noIssue : s.idToExFire i = false := by
    by_contra issue
    have valid := ifIdValid_of_issue (by simpa using issue)
    rw [drained.ifId] at valid
    exact absurd valid (by decide)
  have stays : s.exToWbFire i = false := by
    by_contra leaves
    have valid := valid_of_leave (by simpa using leaves)
    rw [drained.ex] at valid
    exact absurd valid (by decide)
  refine ⟨?_, ?_, ?_⟩
  · by_contra valid
    have before := valid_of_exNext noIssue (by simpa using valid)
    rw [drained.ex] at before
    exact absurd before (by decide)
  · rw [step_wb]
    exact wb_of_stay stays
  · by_cases stop : s.wbSingleStepStop = true
    · have valid : s.wb.valid = true := by
        simp only [wbSingleStepStop, Bool.and_eq_true] at stop
        exact stop.1.2
      rw [frontPc_of_flush (by simp [flush, stop]), flushTarget, if_pos stop]
      exact next valid
    · have kept : s.flush i = false := by
        simp [flush, not_redirect_of_empty drained.ex, stop]
      rw [frontPc_step feSound kept, noIssue]
      rfl

end Core

/-! ## Runs -/

namespace Run

variable {p : Params} (r : Run p)

/-- From cycle `n` on, the first instruction to be issued is the one at
`pc`. -/
def ResumesAt (n : ℕ) (pc : BitVec 32) : Prop :=
  ∀ e, n ≤ e → (r.state e).idToExFire (r.inputs e) = true →
    (∀ k, n ≤ k → k < e → (r.state k).idToExFire (r.inputs k) = false) →
    (r.state (e + 1)).ex.pc = pc

variable {r}

theorem resumesAt_of_waits
    {n : ℕ} {pc : BitVec 32} (waits : (r.state n).Waits pc) :
    r.ResumesAt n pc := by
  intro e above issue quiet
  have still : (r.state e).Waits pc := by
    clear issue
    induction e, above using Nat.le_induction with
    | base =>
        exact waits
    | succ e above inductionHypothesis =>
        rw [r.state_succ]
        exact Core.waits_step
          (inductionHypothesis fun k low high => quiet k low (by omega))
          (r.feSound e) (quiet e above (by omega))
  have front := still.front
  rw [Core.frontPc, if_pos (Core.ifIdValid_of_issue issue)] at front
  rw [r.state_succ, Core.step_ex, Core.exNext_of_issue _ _ issue]
  exact front

theorem machine_of_writes
    (enableU : p.enableU = true) {n : ℕ}
    (writes : r.csrRun.Writes csrMstatus n) :
    (r.csrRun.state n).priv = privM := by
  rw [r.csrRun_state]
  by_contra below
  obtain ⟨-, -, write, named⟩ := writes
  have low :=
    (Core.commits_below_machine (r.privSound n) enableU below).2 write
  have same : (r.state n).csrAddrW = csrMstatus := named
  rw [same] at low
  exact absurd low (by decide)

/-- After the MRET of a handler the program goes on at the recorded PC. -/
theorem resumesAt_of_handles
    {n m : ℕ} (handles : r.csrRun.Handles n m) (later : n < m)
    (returns : r.csrRun.Returns m) :
    r.ResumesAt (m + 1) (r.csrRun.inputs n).trapEpc := by
  -- the MRET was in EX in the cycle before it commits
  obtain ⟨x, rfl⟩ : ∃ x, m = x + 1 := ⟨m - 1, by omega⟩
  have commits : ((r.state x).step (r.inputs x)).mretExec = true :=
    returns.2
  have noTrap : ((r.state x).step (r.inputs x)).trapEnter = false :=
    returns.1
  have redirect := Core.redirect_of_commit (Or.inr commits)
  have drainedAt : (r.state n).Drained :=
    (r.privSound n).drained (Or.inl handles.1)
  have after : n < x := by
    rcases Nat.lt_or_ge n x with before | same
    · exact before
    · obtain rfl : x = n := by omega
      have valid := Core.valid_of_leave (Core.toWb_of_redirect redirect)
      rw [drainedAt.ex] at valid
      exact absurd valid (by decide)
  have masked := CsrRun.mie_of_handles handles after (by omega)
  rw [r.csrRun_state] at masked
  have noIrq : (r.state x).irqPending (r.inputs x) = false := by
    rw [CsrState.mieBit] at masked
    simp only [Core.irqPending, CsrState.irqPending, CsrState.meipOn,
      CsrState.mtipOn, CsrState.msipOn, CsrState.irqOn, masked,
      Bool.false_and, Bool.or_false]
  obtain ⟨flushed, pcNext, target⟩ :=
    Core.flushTarget_of_mret (r.exSound x) commits noTrap noIrq
  have front : (r.state (x + 1)).frontPc = (r.csrRun.inputs n).trapEpc := by
    rw [r.state_succ, Core.frontPc_of_flush flushed, target,
      ← r.csrRun_state]
    exact (CsrRun.stack_of_handles handles after (by omega)).2
  have drained : (r.state (x + 1)).Drained :=
    Core.drained_of_flush flushed
  rw [← front]
  apply resumesAt_of_waits
  rw [r.state_succ (x + 1)]
  apply Core.waits_of_drained drained (r.feSound (x + 1))
  intro _
  rw [r.state_succ, Core.frontPc_of_flush flushed, target,
    Core.step_wb_of_leave (Core.toWb_of_redirect redirect)
      (Core.not_stop_of_redirect redirect)]
  exact pcNext

end Run

/-- With ENABLE_U every state has an implemented mode and stack, user mode has
MPRV clear, and a handler ends with the modes of its trap restored at the
recorded PC. -/
theorem privilege_stack
    {p : Params} (r : Run p) (enableU : p.enableU = true) :
    (∀ n, (r.state n).csr.ModesOnly ∧
      ((r.state n).csr.priv = privU →
        (r.state n).csr.mprvBit = false)) ∧
    ∀ n m, n < m → r.csrRun.Handles n m → r.csrRun.Returns m →
      (r.state (m + 1)).csr.priv = (r.state n).csr.priv ∧
      (r.state (m + 1)).csr.mieBit = (r.state n).csr.mieBit ∧
      (r.state (m + 1)).csr.mprvBit = (r.state n).csr.mprvBit ∧
      r.ResumesAt (m + 1) (r.csrRun.inputs n).trapEpc := by
  have modes : ∀ n, (r.csrRun.state n).ModesOnly :=
    fun n => CsrRun.modesOnly enableU n
  have mprv : ∀ n, (r.csrRun.state n).priv = privU →
      (r.csrRun.state n).mprvBit = false :=
    fun n => CsrRun.mprv_of_user
      (fun n writes => Run.machine_of_writes enableU writes) n
  constructor
  · intro n
    rw [← r.csrRun_state]
    exact ⟨modes n, mprv n⟩
  · intro n m later handles returns
    have restored :=
      CsrRun.restored_of_handles handles (modes n) (mprv n) later returns
    rw [r.csrRun_state, r.csrRun_state] at restored
    exact ⟨restored.1, restored.2.1, restored.2.2,
      Run.resumesAt_of_handles handles later returns⟩

/-- The software interrupt arrives while `addi x0, x0, 0` at address 12 is in
EX; the handler at address 28 is MRET, and so is the next instruction. -/
def returnsTwice : Run {} :=
  Run.script _
    (CoreIn.fetch [0x305E5073, 0x30445073, 0x30045073, 0x00000013] ++
      [.accept, { CoreIn.answer 0x30200073 with extMsip := true }] ++
      CoreIn.fetch [0x30200073, 0x00000013, 0x30200073, 0x00000013])

theorem returnsTwice_handles : returnsTwice.csrRun.Handles 10 14 := by
  refine ⟨by decide, ?_⟩
  intro k above below
  interval_cases k <;> decide

theorem privilege_stack_returnsTwice :
    (returnsTwice.state 15).csr.priv = privM ∧
      returnsTwice.ResumesAt 15 16 := by
  obtain ⟨priv, -, -, resumes⟩ := (privilege_stack returnsTwice rfl).2 10 14
    (by decide) returnsTwice_handles (by decide +kernel)
  have recorded : (returnsTwice.csrRun.inputs 10).trapEpc = 16 := by
    decide
  rw [recorded] at resumes
  refine ⟨?_, resumes⟩
  rw [priv]
  decide

/-- A second MRET, with no trap or write since the interrupt, leaves the
machine mode the interrupt was taken in. -/
theorem not_privilege_restored :
    ¬ ∀ (p : Params) (r : Run p), p.enableU = true → ∀ n m, n < m →
      r.csrRun.Traps n → r.csrRun.Returns m →
      (∀ k, n < k → k < m → ¬ r.csrRun.Traps k ∧
        ¬ r.csrRun.Writes csrMstatus k ∧ ¬ r.csrRun.Writes csrMepc k) →
      (r.state (m + 1)).csr.priv = (r.state n).csr.priv := by
  intro restored
  have same := restored {} returnsTwice rfl 10 18 (by decide)
    (by decide) (by decide) (by
      intro k above below
      interval_cases k <;> decide)
  exact absurd same (by decide)

end SisRv
