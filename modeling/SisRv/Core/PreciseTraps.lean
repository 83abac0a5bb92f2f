import SisRv.Core.CsrFrame
import SisRv.Core.Forwarding
import SisRv.Core.Redirect

/-!
# Precise synchronous traps

An instruction that traps in WB wrote no register and changed no CSR besides
the trap registers.  It made no data request either, unless EX had started the
access of an instruction that is illegal or has a fetch fault.
-/

namespace SisRv

namespace Core

variable {p : Params} (s : Core p) (i : CoreIn)

/-- EX starts an access although the instruction is illegal or was fetched
with a fault: the request is not gated by either. -/
def rogueAccess : Bool :=
  s.exMemAccess && (s.ex.fetchErr || !s.exLegalEff)

/-- The reasons for a synchronous trap, other than a bus error. -/
def exAbnormal : Bool :=
  s.ex.fetchErr || s.exTriggerHit || !s.exLegalEff ||
    s.exCompleteMemMisaligned || s.exInstrAddrMisaligned ||
    (s.exExecToWb && s.exPmpDFault) || s.exIsEcall || s.exIsEbreak

section Facts

variable {s i}

theorem not_system_of_access
    (coherent : s.ex.toDecoded.Coherent) (access : s.ex.isAccess = true) :
    s.ex.isSystem = false :=
  (coherent.of_access access).2.2.2.2.2.2.2

/-- An access that has left its first cycle traps for a bus error at most. -/
theorem not_abnormal_of_launched
    (sound : s.ExSound) (valid : s.ex.valid = true)
    (later : s.ex.state ≠ .exExec) (fetched : s.ex.fetchErr = false)
    (legal : s.exDecIsLegalEff = true) :
    s.exAbnormal = false := by
  have access := (sound.launched valid later).access
  have coherent := sound.coherent valid
  have other := not_system_of_access coherent access
  have flags := coherent.of_access access
  have noTrigger : s.exTriggerHit = false := by
    simp [exTriggerHit, trigHitSet, later]
  have legalEff : s.exLegalEff = true := by
    simp [exLegalEff, legal, not_privIllegal_of_not_system other]
  have noExit : s.exExecToWb = false := by
    simp [exExecToWb, later]
  simp [exAbnormal, fetched, noTrigger, legalEff, noExit,
    exCompleteMemMisaligned, sound.memMisaligned valid,
    exInstrAddrMisaligned, flags, exIsEcall, exIsEbreak, exIsSystemImm]

/-- An abnormal instruction is a fault of WB, an ECALL or an EBREAK. -/
theorem fault_or_call_of_abnormal (abnormal : s.exAbnormal = true) :
    s.exException i = true ∨ s.exIsEcall = true ∨ s.exIsEbreak = true := by
  by_cases denied : (s.exExecToWb && s.exPmpDFault) = true
  · left
    have memErr : s.exCompleteMemErr i = true := by
      simp only [exCompleteMemErr, if_pos denied]
    simp [exException, memErr]
  · simp only [exAbnormal, denied, Bool.or_false, Bool.or_eq_true] at abnormal
    simp only [exException, Bool.or_eq_true]
    tauto

theorem not_writes_of_fault (fault : s.wbFault = true) :
    s.wbWritesRd = false := by
  by_contra writes
  simp only [wbWritesRd, Bool.not_eq_false, Bool.and_eq_true,
    Bool.not_eq_true'] at writes
  simp [wbFault, writes] at fault

section Leaving

variable (leaves : s.exToWbFire i = true)
  (goes : s.wbSingleStepStop = false) (abnormal : s.exAbnormal = true)
include leaves goes abnormal

theorem trapEnter_of_abnormal : (s.step i).trapEnter = true := by
  have traps : ∃ cause, (s.step i).wbDecision = .trap cause := by
    by_cases exception : s.exException i = true
    · obtain ⟨cause, -, decision⟩ :=
        decision_of_exception leaves goes exception
      exact ⟨cause, decision⟩
    · have call :=
        (fault_or_call_of_abnormal (i := i) abnormal).resolve_left exception
      rw [decision_of_no_exception leaves goes (by simpa using exception)]
      rcases call with ecall | ebreak
      · exact ⟨if s.ex.priv = privM then 11 else 8, by
          simp [not_csrOp_of_imm ecall, ecall]⟩
      · have noEcall : s.exIsEcall = false := imm_unique (by decide) ebreak
        exact ⟨3, by simp [not_csrOp_of_imm ebreak, noEcall, ebreak]⟩
  obtain ⟨cause, decision⟩ := traps
  by_contra quiet
  unfold wbDecision at decision
  rw [if_neg quiet] at decision
  split_ifs at decision

theorem not_writes_of_abnormal (sound : s.ExSound) :
    (s.step i).wbWritesRd = false := by
  rcases fault_or_call_of_abnormal (i := i) abnormal with fault | call
  · apply not_writes_of_fault
    rw [wbFault, step_wb_of_leave leaves goes]
    exact fault
  · have facts : s.ex.isSystem = true ∧ s.exIsCsrOp = false := by
      rcases call with ecall | ebreak
      · exact ⟨(system_of_imm ecall).1, not_csrOp_of_imm ecall⟩
      · exact ⟨(system_of_imm ebreak).1, not_csrOp_of_imm ebreak⟩
    have flags :=
      (sound.coherent (valid_of_leave leaves)).of_system facts.1
    simp [wbWritesRd, wb_of_leave leaves goes, completedWb, flags, facts.2,
      exIsLr, exIsSc, exIsAmoOp]

end Leaving

end Facts

end Core

/-! ## Traps along a run -/

namespace Run

variable {p : Params} (r : Run p)

/-- The instruction that leaves EX in cycle `x` reaches WB with a fetch fault,
a trigger hit, an illegal encoding, a misaligned address or a PMP denial, or
is ECALL or EBREAK. -/
def abnormal (x : ℕ) : Bool :=
  let wb := (r.state (x + 1)).wb
  wb.fetchErr || wb.triggerHit || !wb.decIsLegalEff ||
    wb.memMisaligned || wb.instrAddrMisaligned ||
    ((r.state x).exExecToWb && (r.state x).exPmpDFault) ||
    wb.isEcall || wb.isEbreak

/-- The effects of an instruction issued in cycle `e` that leaves EX in cycle
`x`: no request, no register write, and of the CSRs the trap registers, the
hit bits and the counters only.  In cycle `e + 1` WB still holds the
instruction before it. -/
structure Precise (e x : ℕ) : Prop where
  noRequest : ∀ m, e < m → m ≤ x → (r.state m).dReqValid = false
  noWrite : ∀ m, e + 1 < m → m ≤ x + 1 → (r.state m).wbWritesRd = false
  noCsrWrite : ∀ m, e + 1 < m → m ≤ x →
    CsrState.Quiet (r.state m).csr (r.state (m + 1)).csr
  traps : (r.state (x + 1)).trapEnter = true
  trapCsrs : CsrState.Quiet
    ((r.state (x + 1)).csr.trapEntered (r.state (x + 1)).csrIn)
    (r.state (x + 2)).csr

variable {r}

theorem abnormal_eq
    {x : ℕ} (goes : (r.state x).wbSingleStepStop = false)
    (leaves : (r.state x).exToWbFire (r.inputs x) = true) :
    r.abnormal x = (r.state x).exAbnormal := by
  rw [abnormal, wb_of_leave leaves goes]
  rfl

section Stay

variable {e x : ℕ}
  (issue : (r.state e).idToExFire (r.inputs e) = true)
include issue

theorem first_of_issue :
    (r.state (e + 1)).ex.valid = true ∧
      (r.state (e + 1)).ex.state = .exExec := by
  have latched :
      (r.state (e + 1)).ex = (r.state e).issuedEx (r.inputs e) :=
    Core.exNext_of_issue _ _ issue
  rw [latched]
  exact ⟨rfl, rfl⟩

theorem not_request_of_no_access
    (noAccess : (r.state (e + 1)).exMemAccess = false) :
    (r.state (e + 1)).dReqValid = false := by
  obtain ⟨-, first⟩ := first_of_issue issue
  simp [Core.dReqValid, Core.exMemRequesting, first, noAccess]

variable (stay : r.LeavesAt (e + 1) x)
include stay

theorem leaves_at_once
    (noAccess : (r.state (e + 1)).exMemAccess = false) : x = e + 1 := by
  obtain ⟨valid, first⟩ := first_of_issue issue
  have leaves :
      (r.state (e + 1)).exToWbFire (r.inputs (e + 1)) = true := by
    simp [Core.leave_of_exec first, valid, noAccess]
  by_contra other
  have below : e + 1 < x := by
    have := stay.le
    omega
  rw [(stay.quiet le_rfl below).1] at leaves
  exact Bool.false_ne_true leaves

/-- A started access that is legal and was fetched without a fault does not
become abnormal. -/
theorem not_abnormal_of_access
    (access : (r.state (e + 1)).exMemAccess = true)
    (clean : (r.state (e + 1)).rogueAccess = false) :
    (r.state x).exAbnormal = false := by
  obtain ⟨valid, first⟩ := first_of_issue issue
  have below : e + 1 < x := by
    have le := stay.le
    have different : x ≠ e + 1 := by
      intro same
      have leaves := stay.leaves
      rw [same, Core.not_leave_of_access first access] at leaves
      exact Bool.false_ne_true leaves
    omega
  simp only [Core.rogueAccess, access, Bool.true_and, Bool.or_eq_false_iff,
    Bool.not_eq_false'] at clean
  have legal : (r.state (e + 1)).exDecIsLegalEff = true := by
    have eff := clean.2
    simp only [Core.exLegalEff, Bool.and_eq_true] at eff
    exact eff.1
  refine Core.not_abnormal_of_launched (r.exSound x)
    (Core.valid_of_leave stay.leaves) (stay.later below le_rfl) ?_ ?_
  · rw [stay.same.fetchErr]
    exact clean.1
  · rw [stay.same.exDecIsLegalEff]
    exact legal

end Stay

/-- The registers and the CSRs are safe in any case. -/
theorem precise_of_no_request
    {e x : ℕ} (stay : r.LeavesAt (e + 1) x)
    (single : r.NoSingleStep) (abnormal : r.abnormal x = true)
    (noRequest : ∀ m, e < m → m ≤ x → (r.state m).dReqValid = false) :
    r.Precise e x := by
  have goes := r.not_stop_of_noSingleStep single x
  rw [abnormal_eq goes stay.leaves] at abnormal
  have traps : (r.state (x + 1)).trapEnter = true :=
    Core.trapEnter_of_abnormal stay.leaves goes abnormal
  exact {
    noRequest := noRequest
    noWrite := fun m above within => by
      rcases Nat.lt_or_ge x m with last | before
      · obtain rfl : m = x + 1 := by omega
        exact Core.not_writes_of_abnormal stay.leaves goes abnormal
          (r.exSound x)
      · simp [Core.wbWritesRd, stay.wb_empty above before]
    noCsrWrite := fun m above within =>
      Core.quiet_of_empty (stay.wb_empty above within)
    traps := traps
    trapCsrs := CsrState.next_of_trap _ _ _ traps }

end Run

/-- In a run without single-stepping, an instruction that reaches WB with a
reason to trap is precise if and only if EX did not start its access in spite
of an illegal encoding or a fetch fault. -/
theorem precise_iff
    {p : Params} (r : Run p) (single : r.NoSingleStep) (e x : ℕ)
    (issue : (r.state e).idToExFire (r.inputs e) = true)
    (stay : r.LeavesAt (e + 1) x) (abnormal : r.abnormal x = true) :
    r.Precise e x ↔ (r.state (e + 1)).rogueAccess = false := by
  constructor
  · intro precise
    by_contra rogue
    obtain ⟨valid, first⟩ := Run.first_of_issue issue
    have access : (r.state (e + 1)).exMemAccess = true := by
      simp only [Core.rogueAccess, Bool.not_eq_false,
        Bool.and_eq_true] at rogue
      exact rogue.1
    -- the access is presented in the first cycle in EX
    have request := precise.noRequest (e + 1) (by omega) stay.le
    simp [Core.dReqValid, Core.exMemRequesting, valid, first, access]
      at request
  · intro clean
    have noAccess : (r.state (e + 1)).exMemAccess = false := by
      by_contra access
      have goes := r.not_stop_of_noSingleStep single x
      rw [Run.abnormal_eq goes stay.leaves,
        Run.not_abnormal_of_access issue stay (by simpa using access)
          clean] at abnormal
      exact Bool.false_ne_true abnormal
    have atOnce := Run.leaves_at_once issue stay noAccess
    refine Run.precise_of_no_request stay single abnormal
      fun m above within => ?_
    obtain rfl : m = e + 1 := by omega
    exact Run.not_request_of_no_access issue noAccess

/-- An ECALL. -/
def firstEcall : Run {} :=
  Run.script {} (CoreIn.fetch [0x00000073])

theorem firstEcall_leavesAt : firstEcall.LeavesAt 3 3 where
  le := le_rfl
  leaves := by decide
  stays := fun m above below => absurd below (by omega)
  same := by constructor <;> rfl

theorem precise_iff_firstEcall : firstEcall.Precise 2 3 :=
  (precise_iff firstEcall (Run.noSingleStep_script (by decide)) 2 3
    (by decide) firstEcall_leavesAt (by decide)).mpr (by decide)

/-- A store with the reserved `funct3` 4, whose write the bus takes. -/
def reservedStore : Run {} :=
  Run.script {}
    (CoreIn.fetch [0x00004023] ++
      [.idle, { dReqReady := true }, { dRspValid := true }])

theorem reservedStore_noSingleStep : reservedStore.NoSingleStep :=
  Run.noSingleStep_script (by decide)

theorem reservedStore_leavesAt : reservedStore.LeavesAt 3 4 where
  le := by decide
  leaves := by decide
  stays := fun m above below => by
    obtain rfl : m = 3 := by omega
    decide
  same := by constructor <;> decide

/-- The store has written a byte before it traps as illegal. -/
theorem not_precise :
    ¬ ∀ (p : Params) (r : Run p), r.NoSingleStep → ∀ e x,
      (r.state e).idToExFire (r.inputs e) = true →
        r.LeavesAt (e + 1) x → r.abnormal x = true → r.Precise e x := by
  intro precise
  have silent :=
    (precise {} reservedStore reservedStore_noSingleStep 2 4
      (by decide) reservedStore_leavesAt (by decide)).noRequest
      3 (by decide) (by decide)
  exact absurd silent (by decide)

end SisRv
