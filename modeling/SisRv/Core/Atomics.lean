import SisRv.Core.Stay
import SisRv.Isa.Datapath

/-!
# Atomic accesses

What an LR, an SC and an AMO put on the data port, and the read-modify-write
of an AMO as a whole.
-/

namespace SisRv

open Riscv

namespace Core

variable {p : Params} {s : Core p} {i : CoreIn}

/-! ## Accesses in their first cycle -/

/-- An access is refused with an exception only. -/
theorem access_of_normal
    (valid : s.ex.valid = true) (first : s.ex.state = .exExec)
    (raw : s.exDAccessRaw = true) (normal : s.exException i = false) :
    s.exMemAccess = true := by
  by_contra denied
  have refused : s.exMemAccess = false := by simpa using denied
  have exits : s.exExecToWb = true := by
    simp [exExecToWb, valid, first, refused]
  have isAccess : (s.ex.isLoad || s.ex.isStore || s.ex.isAtomic) = true := by
    simp only [exDAccessRaw, exIsLr, exIsSc, exIsAmoOp, Bool.or_eq_true,
      Bool.and_eq_true] at raw
    simp only [Bool.or_eq_true]
    tauto
  simp only [exException, Bool.or_eq_false_iff] at normal
  obtain ⟨⟨⟨⟨⟨trigger, -⟩, noErr⟩, aligned⟩, -⟩, -⟩ := normal
  have memAligned : s.exMemAligned = true := by
    simpa [exCompleteMemMisaligned, exits, isAccess, exMemAligned]
      using aligned
  have allowed : s.pmpDAllow = true := by
    by_contra blocked
    simp [exCompleteMemErr, exits, exPmpDFault, raw, memAligned, blocked]
      at noErr
  exact denied (by simp [exMemAccess, raw, trigger, memAligned, allowed])

section Atomic

variable (coherent : s.ex.toDecoded.Coherent) (atomic : s.ex.isAtomic = true)
include coherent atomic

/-- An atomic access has no offset. -/
theorem aluResult_of_atomic : s.aluResult = s.ex.rs1Val := by
  have opcode : s.ex.opcode = opAmo := by
    simpa [coherent.isAtomic] using atomic
  have flags := coherent.flags_of_opcode opcode
  simp +decide [aluResult, aluA, aluB, aluOp, flags]

theorem dReq_of_atomic
    (first : s.ex.state = .exExec) (access : s.exMemAccess = true) :
    s.dReq =
      ⟨s.ex.rs1Val, s.exIsSc, s.ex.rs2Val, if s.exIsSc then 0b1111 else 0⟩ := by
  simp [dReq, dReqAddr, exMemReqAddr, first, access,
    aluResult_of_atomic coherent atomic, dReqWe, dReqWdata, dReqWstrb,
    atomic, amoStorePhase]

/-- The write of an AMO, before its operation is looked at. -/
theorem amoWrite_of_atomic (access : s.exMemAccess = true)
    (old : BitVec 32) :
    s.amoWrite old =
      ⟨s.ex.rs1Val, true, { s with amoOldVal := old }.amoNewVal, 0b1111⟩ := by
  have address := exExecResult_of_access coherent
    (isAccess_of_exMemAccess access)
  simp [amoWrite, dReq, dReqAddr, exMemReqAddr, amoRead, launched, address,
    aluResult_of_atomic coherent atomic, dReqWe, dReqWdata, dReqWstrb,
    atomic, amoStorePhase, amoNewVal]

end Atomic

/-! ## The operation of an AMO -/

/-- The decoder on an AMO. -/
theorem atomic_of_word {op : AmoOp} {aq rl : Bool} {rd rs1 rs2 : BitVec 5}
    (decoded : s.ex.toDecoded = sisDecode p.enableM p.enableA
      (Instr.amo op aq rl rd rs1 rs2).encode) :
    s.ex.isAtomic = true ∧ s.ex.atomicFunct5 = op.funct5 ∧
      s.ex.rd = rd := by
  rw [decoded]
  refine ⟨?_, ?_, ?_⟩
  · simp [sisDecode, Instr.encode, opAmo]
  · simp only [sisDecode, Instr.encode, rType_funct5, atomicFunct7]
    simp (disch := omega) only [BitVec.extractLsb'_append_eq_of_le]
    simp
  · simp [sisDecode, Instr.encode]

section Leaving

variable (leaves : s.exToWbFire i = true) (normal : s.exException i = false)
include leaves normal

/-- The last answer of an AMO that ends without an exception. -/
theorem ok_of_amoStoreWait (state : s.ex.state = .exAmoStoreWait) :
    i.dRspErr = false := by
  have fires : s.exAmoStoreToWb i = true := by
    rw [leave_of_amoStoreWait state] at leaves
    simpa [exAmoStoreToWb, state] using leaves
  simp only [exException, Bool.or_eq_false_iff] at normal
  simpa [exCompleteMemErr, exExecToWb, exMemToWb, state, fires]
    using normal.1.1.1.2

/-- WB hands the verdict of an SC or the word read by an AMO to its
register. -/
theorem wbWrite_of_atomic
    (coherent : s.ex.toDecoded.Coherent) (goes : s.wbSingleStepStop = false)
    (atomic : s.ex.isAtomic = true) (notLr : s.exIsLr = false) (j : CoreIn)
    (rf : BitVec 5 → BitVec 32) :
    (s.step i).wbWrite j rf =
      if s.ex.rd = 0 then rf
      else Function.update rf s.ex.rd
        (if s.exIsSc then if s.exScSucceeds then 0 else 1
        else s.amoOldVal) := by
  obtain ⟨writes, rd⟩ := wbWritesRd_of_leave leaves goes
  obtain ⟨-, -, -, -, -, -, -, noSystem⟩ :=
    coherent.of_access (by simp [Decoded.isAccess, atomic])
  have noLoad : s.ex.isLoad = false := by
    have opcode : s.ex.opcode = opAmo := by
      simpa [coherent.isAtomic] using atomic
    exact (coherent.flags_of_opcode opcode).2.2.2.2.2.1.trans (by decide)
  have written : s.exWritesRd i = true := by
    cases sc : s.exIsSc <;>
      simp [exWritesRd, normal, exIsAmoOp, atomic, notLr, sc]
  have result : (s.step i).wbResult j =
      if s.exIsSc then if s.exScSucceeds then 0 else 1
      else s.amoOldVal := by
    rw [wbResult, step_wb_of_leave leaves goes]
    cases sc : s.exIsSc <;>
      simp [completedWb, noLoad, notLr, exIsCsrOp, noSystem, exIsAmoOp,
        atomic, sc]
  rw [Core.wbWrite, writes, written, rd, result]
  by_cases zero : s.ex.rd = 0 <;> simp [zero]

end Leaving

theorem amoNewVal_of_op {op : AmoOp} (atomic : s.ex.isAtomic = true)
    (funct5 : s.ex.atomicFunct5 = op.funct5) :
    s.amoNewVal = op.apply s.amoOldVal s.ex.rs2Val := by
  rw [amoNewVal, atomic, funct5]
  cases op <;>
    simp +decide [AmoOp.apply, ofInt_min, ofInt_max, ofNat_min, ofNat_max,
      BitVec.ofInt_add]

end Core

/-! ## The read-modify-write -/

namespace Run

variable {p : Params} {r : Run p} {n x : ℕ}

/-- After the first cycle nothing stops the instruction from filling WB. -/
theorem LeavesAt.goes (stay : r.LeavesAt n x) (later : n < x) :
    (r.state x).wbSingleStepStop = false := by
  simp [Core.wbSingleStepStop, stay.wb_empty later le_rfl]

/-- An instruction that ends without an exception has made its access. -/
theorem LeavesAt.access_of_normal (stay : r.LeavesAt n x)
    (first : (r.state n).ex.state = .exExec)
    (raw : (r.state n).exDAccessRaw = true)
    (normal : (r.state x).exException (r.inputs x) = false) :
    (r.state n).exMemAccess = true := by
  by_contra refused
  obtain ⟨rfl, -⟩ := stay.of_plain first (by simpa using refused)
  exact refused (Core.access_of_normal (stay.valid le_rfl le_rfl) first raw
    normal)

/-- An AMO that ends without an exception reads the word at its address once,
then writes it once with the result of its operation on the word read, and
hands the word read to its register. -/
theorem amo_exact
    {op : AmoOp} {aq rl : Bool} {rd rs1 rs2 : BitVec 5}
    (word : (r.state n).ex.instr = (Instr.amo op aq rl rd rs1 rs2).encode)
    (first : (r.state n).ex.state = .exExec) (stay : r.LeavesAt n x)
    (normal : (r.state x).exException (r.inputs x) = false) :
    ∃ old last,
      r.asked (x + 1) = r.asked n ++
        [⟨(r.state n).ex.rs1Val, false, (r.state n).ex.rs2Val, 0⟩,
          ⟨(r.state n).ex.rs1Val, true,
            op.apply old (r.state n).ex.rs2Val, 0b1111⟩] ∧
      r.heard (x + 1) = r.heard n ++ [(old, false), (last, false)] ∧
      (∀ rf, (r.state (x + 1)).wbWrite (r.inputs (x + 1)) rf =
        if rd = 0 then rf else Function.update rf rd old) ∧
      (((r.inputs (x + 1)).dbgAbsValid && (r.inputs (x + 1)).dbgAbsWrite) =
          false →
        (r.state (x + 2)).regs =
          if rd = 0 then (r.state (x + 1)).regs
          else Function.update (r.state (x + 1)).regs rd old) := by
  have valid := stay.valid le_rfl stay.le
  have coherent := (r.exSound n).coherent valid
  have decoded := (r.exSound n).decoded valid
  rw [word] at decoded
  obtain ⟨atomic, funct5, dest⟩ := Core.atomic_of_word decoded
  have amo : (r.state n).exIsAmoOp = true := by
    rw [Core.exIsAmoOp, Core.exIsLr, Core.exIsSc, atomic, funct5]
    cases op <;> rfl
  have notSc := ((r.state n).atomic_of_amo amo).2.2
  have access := stay.access_of_normal first (by simp [Core.exDAccessRaw, amo])
    normal
  obtain ⟨old, later, ex, latched, asks, hears⟩ :=
    stay.of_amo first access amo
  have written (rf : BitVec 5 → BitVec 32) :
      (r.state (x + 1)).wbWrite (r.inputs (x + 1)) rf =
        if rd = 0 then rf else Function.update rf rd old := by
    obtain ⟨isAtomic, notLr, noSc⟩ :=
      (r.state x).atomic_of_amo (stay.same.exIsAmoOp.trans amo)
    rw [r.state_succ, Core.wbWrite_of_atomic stay.leaves normal
      ((r.exSound x).coherent (Core.valid_of_leave stay.leaves))
      (stay.goes later) isAtomic notLr, noSc, latched, stay.same.toDecoded,
      dest]
    simp
  refine ⟨old, (r.inputs x).dRspRdata, ?_, ?_, written, fun silent => ?_⟩
  · rw [asks, Core.dReq_of_atomic coherent atomic first access,
      Core.amoWrite_of_atomic coherent atomic access,
      Core.amoNewVal_of_op (s := { r.state n with amoOldVal := old }) atomic
        funct5, notSc]
    rfl
  · have state : (r.state x).ex.state = .exAmoStoreWait := by rw [ex]; rfl
    rw [hears, Core.ok_of_amoStoreWait stay.leaves normal state]
  · rw [← written, r.state_succ, Core.step_regs,
      Core.regsNext_of_noWrite silent]

end Run

/-- `addi x1, x0, 4` and `amoadd.w x1, x1, (x1)` over a word 7, each answer
of the data bus a cycle late. -/
def addsToItself : Run {} :=
  Run.script {}
    (CoreIn.fetch [(Base.opImm .addi 1 0 4).encode,
        (Instr.amo .add false false 1 1 1).encode] ++
      [.idle, .idle, { dReqReady := true }, .idle,
        { dRspValid := true, dRspRdata := 7 }, { dReqReady := true }, .idle,
        { dRspValid := true }])

theorem addsToItself_leavesAt : addsToItself.LeavesAt 5 11 where
  le := by decide
  leaves := by decide
  stays := fun m above below => by
    interval_cases m <;> decide
  same := by constructor <;> decide

theorem amo_exact_addsToItself :
    ∃ old last,
      addsToItself.asked 12 = addsToItself.asked 5 ++
        [⟨4, false, 4, 0⟩, ⟨4, true, AmoOp.add.apply old 4, 0b1111⟩] ∧
      addsToItself.heard 12 =
        addsToItself.heard 5 ++ [(old, false), (last, false)] ∧
      (addsToItself.state 13).regs =
        Function.update (addsToItself.state 12).regs 1 old := by
  have word : (addsToItself.state 5).ex.instr =
      (Instr.amo .add false false 1 1 1).encode := by decide
  have rs1 : (addsToItself.state 5).ex.rs1Val = 4 := by decide
  have rs2 : (addsToItself.state 5).ex.rs2Val = 4 := by decide
  obtain ⟨old, last, asks, hears, -, regs⟩ :=
    Run.amo_exact word (by decide) addsToItself_leavesAt
      (by decide)
  rw [rs1, rs2] at asks
  exact ⟨old, last, asks, hears, regs rfl⟩

end SisRv
