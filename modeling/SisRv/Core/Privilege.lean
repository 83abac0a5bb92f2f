import SisRv.Core.CsrFrame
import SisRv.Core.Forwarding
import SisRv.Core.Redirect
import SisRv.Lib.AddressMatch

/-!
# Privilege along the pipeline

A trap or a return in WB finds the pipeline behind it flushed, so that the
privilege an instruction was issued with is the privilege of the CSR unit until
it leaves WB.  User mode therefore commits no effective CSR write.
-/

namespace SisRv

open Sync

/-! ## The privilege in the CSR unit -/

namespace CsrState

variable {p : Params} (c : CsrState p) (irq : IrqLines) (x : CsrIn p)

theorem writeIndexed_priv
    (n : CsrState p) (addr : BitVec 12) (val : BitVec 32) :
    (c.writeIndexed n addr val).priv = n.priv := by
  unfold writeIndexed
  repeat' split
  all_goals rfl

theorem writeCsr_priv (n : CsrState p) (addr : BitVec 12) (val : BitVec 32) :
    (c.writeCsr n addr val).priv = n.priv := by
  simp only [writeCsr, apply_ite CsrState.priv, writeIndexed_priv, ite_self]

theorem next_priv
    (noTrap : x.trapEnter = false) (noMret : x.mretExec = false) :
    (c.next irq x).priv = c.priv := by
  have same : (c.commit irq x (c.tickCounters x)).priv = c.priv := by
    simp only [commit, noTrap, noMret, Bool.false_eq_true, if_false,
      apply_ite CsrState.priv, writeCsr_priv, ite_self]
    rfl
  exact same

/-! ## Writes to addresses user mode may name -/

theorem hpmSlot_of_user
    {base addr : BitVec 12} (user : addr.toNat / 256 % 4 = 0)
    (high : base.toNat / 256 % 4 = 3) (room : base.toNat % 256 + 31 < 256) :
    hpmSlot base addr = none := by
  unfold hpmSlot
  rw [dif_neg]
  omega

theorem csrIsPmpcfg_of_user
    {entries : ℕ} (small : entries ≤ 80) {addr : BitVec 12}
    (user : addr.toNat / 256 % 4 = 0) : csrIsPmpcfg entries addr = none := by
  unfold csrIsPmpcfg
  rw [if_neg]
  rintro ⟨low, -, within⟩
  have low : 0x3A0 ≤ addr.toNat := low
  unfold pmpcfgCsrs at within
  omega

theorem csrIsPmpaddr_of_user
    {entries : ℕ} (small : entries ≤ 80) {addr : BitVec 12}
    (user : addr.toNat / 256 % 4 = 0) : csrIsPmpaddr entries addr = none := by
  unfold csrIsPmpaddr
  rw [dif_neg]
  rintro ⟨low, -, within⟩
  have low : 0x3B0 ≤ addr.toNat := low
  omega

/-- With at most 80 PMP entries every CSR the unit can write has privilege
bits 11 in its address. -/
theorem writeCsr_of_user
    (small : p.pmpEntries ≤ 80) {addr : BitVec 12}
    (user : addr.extractLsb' 8 2 = 0) (n : CsrState p) (val : BitVec 32) :
    c.writeCsr n addr val = n := by
  have unnamed : addr ∉ namedCsrs := by
    intro named
    have machine : ∀ other ∈ namedCsrs, other.extractLsb' 8 2 ≠ 0 := by
      simp only [namedCsrs, List.forall_mem_cons]
      decide
    exact machine addr named user
  have low : addr.toNat / 256 % 4 = 0 := by
    have bits := congrArg BitVec.toNat user
    simpa [BitVec.extractLsb', Nat.shiftRight_eq_div_pow] using bits
  rw [c.writeCsr_of_unnamed n addr val unnamed]
  simp only [writeIndexed, csrIsPmpcfg_of_user small low,
    csrIsPmpaddr_of_user small low, csrIsMhpmcounter, csrIsMhpmevent,
    hpmHalf, Option.filter_none]
  simp [hpmSlot_of_user low]

/-- A cycle in which at most an address of privilege 00 is written. -/
theorem next_of_low_write
    (small : p.pmpEntries ≤ 80)
    (noTrap : x.trapEnter = false) (noMret : x.mretExec = false)
    (low : x.csrWen = true → x.csrAddr.extractLsb' 8 2 = 0) :
    Quiet c (c.next irq x) := by
  by_cases writes : x.csrWen = true
  · have same : c.commit irq x (c.tickCounters x) = c.tickCounters x := by
      simp only [commit, noTrap, noMret, writes, Bool.false_eq_true,
        if_false, if_true]
      exact c.writeCsr_of_user small (low writes) _ _
    rw [next, same]
    exact quiet_tick c x
  · exact c.next_of_idle irq x noTrap noMret (by simpa using writes)

end CsrState

/-! ## Flushed pipelines -/

namespace Core

variable {p : Params} {s : Core p} {i : CoreIn}

/-- A trap or a return in WB was redirected in the cycle before. -/
theorem redirect_of_commit
    (commits : (s.step i).trapEnter = true ∨ (s.step i).mretExec = true) :
    s.exRedirect i = true := by
  by_contra straight
  have straight : s.exRedirect i = false := by simpa using straight
  by_cases valid : (s.step i).wb.valid = true
  · obtain ⟨leaves, goes⟩ := leave_of_wb_valid valid
    have completes :=
      (completes_of_no_redirect leaves goes straight).1
    unfold wbDecision at completes
    split_ifs at completes with trap mret
    rcases commits with isTrap | isMret
    · exact trap isTrap
    · exact mret isMret
  · have control := wbControl_of_empty (s := s.step i) (by simpa using valid)
    simp [trapEnter, mretExec, control] at commits

/-! ## The invariant -/

/-- What WB may do to the CSRs with ENABLE_U, by the privilege of its
instruction. -/
structure WbAllowed (s : Core p) : Prop where
  mret : s.wb.isMret = true → s.wb.priv = privM
  csrOp : s.wb.isCsrOp = true →
    s.csrAddrW.extractLsb' 8 2 = 0b11 ∧ s.wb.priv = privM ∨
      s.csrAddrW.extractLsb' 8 2 = 0b00

structure PrivSound (s : Core p) : Prop where
  ex : s.ex.valid = true → s.ex.priv = s.csr.priv
  wb : s.wb.valid = true → s.wb.priv = s.csr.priv
  drained : s.trapEnter = true ∨ s.mretExec = true → s.Drained
  allowed : p.enableU = true → s.wb.valid = true →
    s.wb.decIsLegalEff = true → s.WbAllowed

theorem privSound_reset (p : Params) (power : PowerOn) :
    (Core.reset p power).PrivSound := by
  have empty : (Core.reset p power).wb.valid = false := rfl
  have control := wbControl_of_empty empty
  constructor
  · simp [Core.reset, ExRegs.reset]
  · simp [Core.reset, WbRegs.reset]
  · intro commits
    simp [trapEnter, mretExec, control] at commits
  · intro _ valid
    rw [empty] at valid
    exact absurd valid (by decide)

/-- The privilege stays as long as the pipeline holds an instruction. -/
theorem priv_step
    (sound : s.PrivSound)
    (full : s.ex.valid = true ∨ s.fe.ifId.valid = true) :
    (s.step i).csr.priv = s.csr.priv := by
  have noCommit : ¬ (s.trapEnter = true ∨ s.mretExec = true) := by
    intro commits
    have drained := sound.drained commits
    rcases full with ex | ifId
    · rw [drained.ex] at ex
      exact absurd ex (by decide)
    · rw [drained.ifId] at ifId
      exact absurd ifId (by decide)
  rw [not_or, Bool.not_eq_true, Bool.not_eq_true] at noCommit
  exact s.csr.next_priv i.irq s.csrIn noCommit.1 noCommit.2

/-- A legal SYSTEM instruction is allowed to do what WB does for it. -/
theorem allowed_of_legal
    (enableU : p.enableU = true) (legal : s.exLegalEff = true) :
    (s.exIsMret = true → s.ex.priv = privM) ∧
      (s.exIsCsrOp = true →
        s.exCsrReqPriv = 0b11 ∧ s.ex.priv = privM ∨
          s.exCsrReqPriv = 0b00) := by
  have allowed : s.exPrivIllegal = false := by
    simp only [exLegalEff, Bool.and_eq_true, Bool.not_eq_true'] at legal
    exact legal.2
  simp only [exPrivIllegal, enableU, Bool.true_and,
    Bool.or_eq_false_iff] at allowed
  obtain ⟨⟨⟨⟨mret, -⟩, csr⟩, -⟩, -⟩ := allowed
  constructor
  · intro isMret
    simpa [isMret] using mret
  · intro isCsrOp
    simp only [exCsrPrivViol, enableU, isCsrOp, Bool.true_and,
      Bool.or_eq_false_iff, beq_eq_false_iff_ne] at csr
    obtain ⟨⟨machine, notSupervisor⟩, notHypervisor⟩ := csr
    have cases : ∀ bits : BitVec 2, bits ≠ 0b01 → bits ≠ 0b10 →
        bits = 0b11 ∨ bits = 0b00 := by decide
    rcases cases _ notSupervisor notHypervisor with high | low
    · exact Or.inl ⟨high, by simpa [high] using machine⟩
    · exact Or.inr low

theorem privSound_step (sound : s.PrivSound) : (s.step i).PrivSound where
  ex := by
    intro valid
    by_cases issue : s.idToExFire i = true
    · rw [priv_step sound (Or.inr (ifIdValid_of_issue issue)), step_ex,
        exNext_of_issue s i issue]
      rfl
    · have quiet : s.idToExFire i = false := by simpa using issue
      have before := valid_of_exNext quiet valid
      rw [priv_step sound (Or.inl before), step_ex,
        (exNext_sameInstr s i quiet).priv]
      exact sound.ex before
  wb := by
    intro valid
    obtain ⟨leaves, goes⟩ := leave_of_wb_valid valid
    have before := valid_of_leave leaves
    rw [priv_step sound (Or.inl before), step_wb_of_leave leaves goes]
    exact sound.ex before
  drained := fun commits =>
    drained_of_flush (by simp [flush, redirect_of_commit commits])
  allowed := by
    intro enableU valid legal
    obtain ⟨leaves, goes⟩ := leave_of_wb_valid valid
    rw [step_wb_of_leave leaves goes] at legal
    obtain ⟨mret, csrOp⟩ := allowed_of_legal enableU legal
    constructor
    · rw [step_wb_of_leave leaves goes]
      exact mret
    · rw [csrAddrW, step_wb_of_leave leaves goes]
      intro isCsrOp
      show (s.ex.instr.extractLsb' 20 12).extractLsb' 8 2 = 0b11 ∧ _ ∨
        (s.ex.instr.extractLsb' 20 12).extractLsb' 8 2 = 0b00
      rw [slice_of_slice (by decide)]
      exact csrOp isCsrOp

end Core

/-! ## User-mode CSR isolation -/

namespace Core

variable {p : Params} {s : Core p} {i : CoreIn}

theorem wbControl_commits (valid : s.wb.valid = true) :
    (s.csrWenW = true → s.wb.isCsrOp = true ∧ s.wb.decIsLegalEff = true) ∧
      (s.mretExec = true →
        s.wb.isMret = true ∧ s.wb.decIsLegalEff = true) := by
  by_cases fault : s.wbFault = true
  · obtain ⟨cause, val, -, control⟩ := wbControl_of_fault s valid fault
    simp [csrWenW, mretExec, control, wbTrap]
  have sane : s.wbFault = false := by simpa using fault
  simp only [wbFault, Bool.or_eq_false_iff, Bool.not_eq_false'] at sane
  simp only [csrWenW, mretExec, wbControl, valid, sane, Bool.not_true,
    Bool.false_eq_true, if_false]
  by_cases csrOp : s.wb.isCsrOp = true
  · simp [csrOp]
  by_cases ecall : s.wb.isEcall = true
  · simp [csrOp, ecall, wbTrap]
  by_cases ebreak : s.wb.isEbreak = true
  · simp [csrOp, ecall, ebreak, wbTrap]
  by_cases mret : s.wb.isMret = true
  · simp [csrOp, ecall, ebreak, mret]
  by_cases irq : s.wb.irqPending = true <;>
    simp [csrOp, ecall, ebreak, mret, irq, wbTrap]

/-- Below machine mode no return is executed, and a CSR write names an address
of privilege 00. -/
theorem commits_below_machine
    (sound : s.PrivSound) (enableU : p.enableU = true)
    (below : s.csr.priv ≠ privM) :
    s.mretExec = false ∧
      (s.csrWenW = true → s.csrAddrW.extractLsb' 8 2 = 0b00) := by
  by_cases valid : s.wb.valid = true
  · obtain ⟨csrOp, mret⟩ := wbControl_commits valid
    have notMachine : s.wb.priv ≠ privM := by
      rw [sound.wb valid]
      exact below
    constructor
    · by_contra executes
      obtain ⟨isMret, legal⟩ := mret (by simpa using executes)
      exact notMachine ((sound.allowed enableU valid legal).mret isMret)
    · intro writes
      obtain ⟨isCsrOp, legal⟩ := csrOp writes
      rcases (sound.allowed enableU valid legal).csrOp isCsrOp with
        ⟨-, machine⟩ | low
      · exact absurd machine notMachine
      · exact low
  · have control := wbControl_of_empty (s := s) (by simpa using valid)
    simp [mretExec, csrWenW, control]

/-- Without a trap entry every CSR besides the counters and the hit bits is
left alone. -/
theorem quiet_below_machine
    (sound : s.PrivSound) (enableU : p.enableU = true)
    (small : p.pmpEntries ≤ 80) (below : s.csr.priv ≠ privM)
    (noTrap : s.trapEnter = false) :
    CsrState.Quiet s.csr (s.csr.next i.irq s.csrIn) := by
  obtain ⟨noMret, low⟩ := commits_below_machine sound enableU below
  exact CsrState.next_of_low_write _ _ _ small noTrap noMret low

end Core

theorem Run.privSound {p : Params} (r : Run p) (n : ℕ) :
    (r.state n).PrivSound :=
  trajectory_invariant Core.PrivSound (fun _ _ => True)
    (Core.privSound_reset p r.power)
    (fun _ _ sound _ => Core.privSound_step sound) (fun _ => trivial) n

/-- M-mode gives user mode all permissions in the first 16 KiB and returns to
address 24, where a word is loaded. -/
def userLoad : Run {} :=
  Run.script _
    (CoreIn.fetch
        [0x7FF00093, 0x3B009073, 0x3A0FD073, 0x341C5073, 0x30200073] ++
      [.idle, .idle, .idle] ++ CoreIn.fetch [0x00002103])

/-- With ENABLE_U and at most 80 PMP entries, a user-mode cycle without a trap
entry leaves every CSR alone besides the counters and the hit bits. -/
theorem user_csr_isolation
    {p : Params} (r : Run p) (enableU : p.enableU = true)
    (small : p.pmpEntries ≤ 80) (n : ℕ)
    (user : (r.state n).csr.priv = privU)
    (noTrap : (r.state n).trapEnter = false) :
    CsrState.Quiet (r.state n).csr (r.state (n + 1)).csr :=
  Core.quiet_below_machine (r.privSound n) enableU small
    (by rw [user]; decide) noTrap

/-- M-mode sets `x1` to all ones, writes it to a `pmpaddr` register, gives
that entry all permissions and returns to address 24 in user mode; there
`csrrw x0, 0x400, x1` is executed. -/
def userWrite0x400 (p : Params) (writeAddr writeCfg : BitVec 32) : Run p :=
  Run.script p
    (CoreIn.fetch
        [0xFFF00093, writeAddr, writeCfg, 0x341C5073, 0x30200073] ++
      [.idle, .idle, .idle] ++ CoreIn.fetch [0x40009073])

theorem user_csr_isolation_userWrite0x400 :
    CsrState.Quiet
      ((userWrite0x400 {} 0x3B009073 0x3A0FD073).state 17).csr
      ((userWrite0x400 {} 0x3B009073 0x3A0FD073).state 18).csr :=
  user_csr_isolation (userWrite0x400 {} 0x3B009073 0x3A0FD073) rfl
    (by decide) 17 (by decide +kernel) (by decide +kernel)

/-- With 81 entries the address of `pmpaddr80` is 0x400, and user mode writes
it. -/
theorem not_user_csr_isolation :
    ¬ ∀ (p : Params) (r : Run p), p.enableU = true → ∀ n,
      (r.state n).csr.priv = privU → (r.state n).trapEnter = false →
        CsrState.Quiet (r.state n).csr (r.state (n + 1)).csr := by
  intro isolated
  let r : Run { pmpEntries := 81 } :=
    userWrite0x400 { pmpEntries := 81 } 0x3B809073 0x3A2FD073
  obtain ⟨user, noTrap, written⟩ : (r.state 17).csr.priv = privU ∧
      (r.state 17).trapEnter = false ∧
      (r.state 18).csr.pmpaddr ⟨80, by decide⟩ ≠
        (r.state 17).csr.pmpaddr ⟨80, by decide⟩ := by decide +kernel
  have quiet := isolated { pmpEntries := 81 } r rfl 17 user noTrap
  exact written (congrFun quiet.pmpaddr ⟨80, by decide⟩)

end SisRv
