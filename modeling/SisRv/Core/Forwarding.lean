import SisRv.Core.Execute

/-!
# Operands

An operand latched at issue is the architectural value of its register after
the older instructions: those that have written back, the one in WB and the
one that leaves EX in the same cycle.
-/

namespace SisRv

namespace Core

variable {p : Params} {s : Core p} {i j : CoreIn}

/-! ## The write of the instruction in WB -/

/-- A register file after the write of the instruction in WB. -/
def wbWrite (s : Core p) (i : CoreIn) (rf : BitVec 5 → BitVec 32) :
    BitVec 5 → BitVec 32 :=
  if s.wbWritesRd && s.wb.rd != 0 then
    Function.update rf s.wb.rd (s.wbResult i)
  else rf

theorem wbWrite_of_hit
    {rf : BitVec 5 → BitVec 32} {rs : BitVec 5}
    (writes : s.wbWritesRd = true) (nonzero : s.wb.rd ≠ 0)
    (hit : s.wb.rd = rs) :
    s.wbWrite i rf rs = s.wbResult i := by
  subst hit
  rw [wbWrite, if_pos (by simpa [writes] using nonzero),
    Function.update_self]

theorem wbWrite_of_miss
    {rf : BitVec 5 → BitVec 32} {rs : BitVec 5}
    (miss : s.wbWritesRd = true → s.wb.rd ≠ 0 → s.wb.rd ≠ rs) :
    s.wbWrite i rf rs = rf rs := by
  unfold wbWrite
  split_ifs with writes
  · simp only [Bool.and_eq_true, bne_iff_ne] at writes
    exact Function.update_of_ne (miss writes.1 writes.2).symm _ _
  · rfl

/-- While the core runs, the pipeline is the only writer of the registers. -/
theorem regsNext_of_running (running : s.halted = false) :
    s.regsNext i = s.wbWrite i s.regs := by
  simp [regsNext, wbWrite, running]

/-! ## Forwarding from EX -/

/-- The classes whose result is forwarded. -/
def exForwards (s : Core p) : Bool :=
  s.ex.isAluReg || s.ex.isAluImm || s.ex.isLui || s.ex.isAuipc ||
    s.ex.isJal || s.ex.isJalr

theorem not_system_of_forwards
    (coherent : s.ex.toDecoded.Coherent) (forwards : s.exForwards = true) :
    s.ex.isSystem = false := by
  by_contra system
  have flags := coherent.of_system (by simpa using system)
  simp [exForwards, flags] at forwards

theorem not_privIllegal_of_not_system (other : s.ex.isSystem = false) :
    s.exPrivIllegal = false := by
  simp [exPrivIllegal, exIsMret, exIsWfi, exIsSystemImm, exCsrPrivViol,
    exCsrRoViol, exMcounterenBlock, exIsCsrOp, other]

/-- What EX forwards is what the instruction writes in the next cycle. -/
theorem forward_eq_wbResult
    (sound : s.ExSound) (forward : s.exForwardValid = true)
    (goes : s.wbSingleStepStop = false) :
    (s.step i).wbWritesRd = true ∧ (s.step i).wb.rd = s.ex.rd ∧
      (s.step i).wbResult j = s.exForwardResult := by
  simp only [exForwardValid, Bool.and_eq_true, Bool.not_eq_true',
    beq_iff_eq] at forward
  obtain ⟨⟨⟨⟨⟨⟨⟨⟨⟨⟨valid, first⟩, noTrigger⟩, noFault⟩, aligned⟩, legal⟩,
    noLoad⟩, noStore⟩, noAtomic⟩, noCsr⟩, forwards⟩ := forward
  have noRaw : s.exDAccessRaw = false := by
    simp [exDAccessRaw, exIsLr, exIsSc, exIsAmoOp, noLoad, noStore,
      noAtomic]
  have noSystem := not_system_of_forwards (sound.coherent valid) forwards
  have legalEff : s.exLegalEff = true := by
    simp [exLegalEff, legal, not_privIllegal_of_not_system noSystem]
  have exits : s.exExecToWb = true := by
    simp [exExecToWb, valid, first, exMemAccess, noRaw]
  have leaves : s.exToWbFire i = true := by
    simp [exToWbFire, exits]
  have noError : s.exCompleteMemErr i = false := by
    simp [exCompleteMemErr, exPmpDFault, noRaw, exMemToWb, exAmoStoreToWb,
      first, sound.memErr valid]
  have noMisaligned : s.exCompleteMemMisaligned = false := by
    simp [exCompleteMemMisaligned, exits, noLoad, noStore, noAtomic]
  have completed := wb_of_leave leaves goes
  refine ⟨?_, ?_, ?_⟩
  · simp only [wbWritesRd, step_wb, completed, completedWb, noTrigger,
      noFault, noError, noMisaligned, aligned, legalEff, noLoad, noCsr]
    simp only [Bool.or_eq_true] at forwards
    simp only [Bool.not_false, Bool.true_and, Bool.or_eq_true]
    tauto
  · rw [step_wb, completed]
    rfl
  · simp [wbResult, completed, completedWb, noLoad, noCsr, exIsLr, exIsSc,
      exIsAmoOp, noAtomic, exCompleteAluResult, exits, exForwardResult]

/-- A register that EX writes and cannot forward holds back its readers. -/
theorem no_dependence_of_issue
    {rs : BitVec 5} (operand : rs = s.dec.rs1 ∨ rs = s.dec.rs2)
    (issue : s.idToExFire i = true) (valid : s.ex.valid = true)
    (nonzero : s.ex.rd ≠ 0) (same : s.ex.rd = rs) :
    s.exForwardValid = true := by
  simp only [idToExFire, Bool.and_eq_true, Bool.not_eq_true'] at issue
  by_contra stuck
  have depends : s.idDependsExRd = true := by
    simp only [idDependsExRd, Bool.and_eq_true, Bool.or_eq_true, bne_iff_ne,
      beq_iff_eq]
    exact ⟨⟨⟨issue.1.1.1.1.1.1.1, valid⟩, nonzero⟩,
      operand.imp same.trans same.trans⟩
  have hazard : s.idExHazard = true := by
    simpa [idExHazard, depends] using stuck
  rw [issue.1.1.1.1.2] at hazard
  exact Bool.false_ne_true hazard

theorem wbWrite_leaving_of_not_forward
    {rf : BitVec 5 → BitVec 32} {rs : BitVec 5}
    (operand : rs = s.dec.rs1 ∨ rs = s.dec.rs2)
    (issue : s.idToExFire i = true)
    (silent : ¬ (s.exForwardValid = true ∧ s.ex.rd ≠ 0 ∧ s.ex.rd = rs)) :
    (s.step i).wbWrite j rf rs = rf rs := by
  refine wbWrite_of_miss (fun writes writesNonzero hit => silent ?_)
  have leaves : s.exToWbFire i = true := by
    by_contra stays
    have empty := wb_of_stay (s := s) (i := i) (by simpa using stays)
    simp [wbWritesRd, empty] at writes
  rw [step_wb_of_leave leaves (not_stop_of_issue issue)]
    at writesNonzero hit
  have nonzero : s.ex.rd ≠ 0 := writesNonzero
  have same : s.ex.rd = rs := hit
  exact ⟨no_dependence_of_issue operand issue (valid_of_leave leaves)
    nonzero same, nonzero, same⟩

/-- One operand: the bypasses give the register after both writes. -/
theorem idOperand_eq
    (sound : s.ExSound) (issue : s.idToExFire i = true) {rs : BitVec 5}
    (operand : rs = s.dec.rs1 ∨ rs = s.dec.rs2) (nonzero : rs ≠ 0) :
    s.idOperand i rs =
      (s.step i).wbWrite j (s.wbWrite i s.regs) rs := by
  simp only [idOperand, Bool.and_eq_true, bne_iff_ne, beq_iff_eq, and_assoc]
  split_ifs with fromEx fromWb
  · obtain ⟨forward, exNonzero, hit⟩ := fromEx
    obtain ⟨writes, rd, result⟩ :=
      forward_eq_wbResult (i := i) (j := j) sound forward
        (not_stop_of_issue issue)
    rw [wbWrite_of_hit writes (by rwa [rd]) (by rw [rd, hit]), result]
  · rw [wbWrite_leaving_of_not_forward operand issue fromEx,
      wbWrite_of_hit fromWb.1 fromWb.2.1 fromWb.2.2]
  · rw [wbWrite_leaving_of_not_forward operand issue fromEx,
      wbWrite_of_miss fun writes writesNonzero hit =>
        fromWb ⟨writes, writesNonzero, hit⟩,
      rfData, if_neg nonzero]

end Core

/-! ## The operands of every issue -/

/-- The registers after the instructions older than the one issued in cycle
`n`: the file, the write of WB, the write of the instruction leaving EX. -/
def Run.olderRegs {p : Params} (r : Run p) (n : ℕ) (rs : BitVec 5) :
    BitVec 32 :=
  if rs = 0 then 0
  else
    (r.state (n + 1)).wbWrite (r.inputs (n + 1))
      ((r.state n).wbWrite (r.inputs n) (r.state n).regs) rs

/-- The register file holds these values once both writes are done. -/
theorem Run.olderRegs_eq_regs
    {p : Params} (r : Run p) {n : ℕ}
    (issue : (r.state n).idToExFire (r.inputs n) = true)
    {rs : BitVec 5} (nonzero : rs ≠ 0) :
    r.olderRegs n rs = (r.state (n + 2)).regs rs := by
  have running : (r.state (n + 1)).halted = false :=
    Core.running_after_issue issue
  rw [r.state_succ (n + 1), Core.step_regs,
    Core.regsNext_of_running running, r.state_succ n, Core.step_regs,
    Core.regsNext_of_running (Core.running_of_issue issue).1]
  rw [olderRegs, if_neg nonzero, r.state_succ n]

/-- The operand multiplexer of ID reads the older registers. -/
theorem Run.idOperand_eq_olderRegs
    {p : Params} (r : Run p) {n : ℕ}
    (issue : (r.state n).idToExFire (r.inputs n) = true)
    {rs : BitVec 5}
    (operand : rs = (r.state n).dec.rs1 ∨ rs = (r.state n).dec.rs2) :
    (r.state n).idOperand (r.inputs n) rs = r.olderRegs n rs := by
  by_cases zero : rs = 0
  · subst zero
    have noEx : ∀ rd : BitVec 5, (rd != 0 && rd == 0) = false := by decide
    simp only [Core.idOperand, Bool.and_assoc, noEx]
    simp [Core.rfData, olderRegs]
  · rw [Core.idOperand_eq (r.exSound n) issue operand zero]
    simp only [olderRegs, zero, if_false]
    rfl

/-- The operands latched into EX are the architectural register values. -/
theorem operands_architectural
    {p : Params} (r : Run p) (n : ℕ)
    (issue : (r.state n).idToExFire (r.inputs n) = true) :
    (r.state (n + 1)).ex.rs1Val = r.olderRegs n (r.state n).dec.rs1 ∧
      (r.state (n + 1)).ex.rs2Val = r.olderRegs n (r.state n).dec.rs2 ∧
      ∀ rs, rs ≠ 0 → r.olderRegs n rs = (r.state (n + 2)).regs rs := by
  have latched :
      (r.state (n + 1)).ex = (r.state n).issuedEx (r.inputs n) := by
    rw [r.state_succ, Core.step_ex, Core.exNext_of_issue _ _ issue]
  refine ⟨?_, ?_, fun rs nonzero => r.olderRegs_eq_regs issue nonzero⟩
  · rw [latched]
    exact r.idOperand_eq_olderRegs issue (Or.inl rfl)
  · rw [latched]
    exact r.idOperand_eq_olderRegs issue (Or.inr rfl)

/-- `c.li x1, 5; c.mv x2, x1` in one word. -/
def mvAfterLi : Run {} :=
  Run.script {} [.accept, .answer 0x81064095]

/-- The second instruction issues while the first leaves EX. -/
theorem operands_architectural_mvAfterLi :
    (mvAfterLi.state 4).ex.rs2Val = 5 ∧
      (mvAfterLi.state 4).ex.rs1Val =
          mvAfterLi.olderRegs 3 (mvAfterLi.state 3).dec.rs1 ∧
        (mvAfterLi.state 4).ex.rs2Val =
          mvAfterLi.olderRegs 3 (mvAfterLi.state 3).dec.rs2 ∧
        ∀ rs, rs ≠ 0 →
          mvAfterLi.olderRegs 3 rs = (mvAfterLi.state 5).regs rs :=
  ⟨by decide,
    operands_architectural mvAfterLi 3 (by decide)⟩

end SisRv
