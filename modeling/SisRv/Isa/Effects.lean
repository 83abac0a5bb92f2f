import SisRv.Fabric.RamBytes
import SisRv.Lib.Riscv.Compressed

/-!
# The effect of one instruction

From its first cycle in EX to the cycle in which it leaves: what the
instruction asks on the data port, what it writes and where it goes.
-/

namespace SisRv

open Riscv

namespace Core

variable {p : Params} {s t : Core p} {i : CoreIn} {x : BitVec 5 → BitVec 32}

/-- The instruction of the first cycle `s` leaves EX in `t`, without an
exception. -/
structure Ends (s t : Core p) (i : CoreIn) : Prop where
  first : s.ex.state = .exExec
  ex : t.ex = if s.exMemAccess then s.launched.ex else s.ex
  leaves : t.exToWbFire i = true
  goes : t.wbSingleStepStop = false
  normal : t.exException i = false

/-- The data access of an effect, made unless it is refused. -/
def Requests (s : Core p) : Effect → Prop
  | .loads op _ a =>
      s.exDAccessRaw = true ∧ s.ex.funct3 = op.funct3 ∧
        (s.ex.state = .exExec → s.exMemAccess = true →
          s.dReq.addr = a ∧ s.dReq.we = false)
  | .stores op a v =>
      s.exDAccessRaw = true ∧ s.ex.funct3 = op.funct3 ∧
        (s.ex.state = .exExec → s.exMemAccess = true →
          s.dReq.addr = a ∧ s.dReq.we = true ∧
            ∀ b, s.dReq.stored b = (op.bytes v)[(b - a).toNat]?)
  | _ => s.exDAccessRaw = false

/-- The instruction in EX has an outcome; a load is of a word. -/
structure Performs (s : Core p) (o : Outcome) : Prop where
  requests : s.Requests o.effect
  breaks : s.exIsEbreak = true ↔ o.effect = .breaks
  next : ∀ {t i}, s.Ends t i → t.irqPending i = false →
    t.exPcNext i = if o.effect = .breaks then t.mtvecBase else o.next
  regs : ∀ {t i}, s.Ends t i → ∀ j rf,
    (t.step i).wbWrite j rf = o.effect.regs i.dRspRdata rf

/-- A write to x0 is none. -/
theorem performs_kept_iff {o : Outcome} :
    s.Performs o.kept ↔ s.Performs o := by
  have requests : s.Requests o.effect.kept ↔ s.Requests o.effect := by
    cases o.effect with
    | writes rd value =>
        rw [Effect.kept]
        split_ifs <;> exact Iff.rfl
    | _ => exact Iff.rfl
  have breaks : o.effect.kept = .breaks ↔ o.effect = .breaks := by
    cases o.effect with
    | writes rd value =>
        rw [Effect.kept]
        split_ifs <;> simp
    | _ => exact Iff.rfl
  constructor
  · intro performs
    refine ⟨requests.mp performs.requests, performs.breaks.trans breaks,
      fun ends idle => ?_, fun ends j rf => ?_⟩
    · simpa only [Outcome.kept, breaks] using performs.next ends idle
    · simpa only [Outcome.kept, Effect.regs_kept] using
        performs.regs ends j rf
  · intro performs
    refine ⟨requests.mpr performs.requests,
      performs.breaks.trans breaks.symm, fun ends idle => ?_,
      fun ends j rf => ?_⟩
    · simpa only [Outcome.kept, breaks] using performs.next ends idle
    · simpa only [Outcome.kept, Effect.regs_kept] using
        performs.regs ends j rf

/-! ## The last cycle -/

namespace Ends

variable (ends : s.Ends t i)
include ends

theorem same : SameInstr t.ex s.ex := by
  rw [ends.ex]
  split_ifs <;> constructor <;> rfl

theorem executes {instr : BitVec 32} (executes : s.Executes instr x) :
    t.Executes instr x where
  decoded := by rw [ends.same.toDecoded, executes.decoded]
  rs1 := by rw [ends.same.rs1Val, executes.rs1]
  rs2 := by rw [ends.same.rs2Val, executes.rs2]

theorem length : t.exLength = s.exLength := by
  rw [exLength, exLength, ends.same.len]

theorem ex_of_plain (plain : s.exDAccessRaw = false) : t.ex = s.ex := by
  have quiet : s.exMemAccess = false := by simp [exMemAccess, plain]
  rw [ends.ex, quiet]
  rfl

/-- An access that leaves without an exception has been made. -/
theorem access (raw : s.exDAccessRaw = true)
    (other : s.ex.isAtomic = false) : s.exMemAccess = true := by
  by_contra denied
  have refused : s.exMemAccess = false := by simpa using denied
  have kept : t.ex = s.ex := by
    rw [ends.ex, refused]
    rfl
  have state : t.ex.state = .exExec := by rw [kept, ends.first]
  have again : t.exDAccessRaw = true := by
    rw [← raw]
    simp [exDAccessRaw, exIsLr, exIsSc, exIsAmoOp, kept, other]
  have made := access_of_normal (valid_of_leave ends.leaves) state again
    ends.normal
  have leaves := ends.leaves
  rw [leave_of_exec state, made] at leaves
  simp at leaves

theorem wbWrite_of_silent (noWrite : t.exWritesRd i = false) (j : CoreIn)
    (rf : BitVec 5 → BitVec 32) : (t.step i).wbWrite j rf = rf := by
  rw [wbWrite, (wbWritesRd_of_leave ends.leaves ends.goes).1, noWrite]
  rfl

end Ends

/-! ## The classes -/

theorem performs_of_computes {b : Base} (computes : b.computes = true)
    (executes : s.Executes b.encode x) :
    s.Performs (b.outcome x s.ex.pc s.exLength) := by
  obtain ⟨noLoad, noStore, noAtomic, noSystem, -⟩ :=
    classes_of_computes computes executes
  have plain : s.exDAccessRaw = false := by
    simp [exDAccessRaw, exIsLr, exIsSc, exIsAmoOp, noLoad, noStore, noAtomic]
  have continues : (b.outcome x s.ex.pc s.exLength).effect ≠ .breaks := by
    cases b <;> simp [Base.outcome]
  refine ⟨?_, ?_, fun {t i} ends idle => ?_, fun {t i} ends j rf => ?_⟩
  · rw [← computed_of_word computes executes, computed]
    cases s.ex.isBranch
    · exact plain
    · exact plain
  · simp [exIsEbreak, exIsSystemImm, noSystem, continues]
  · have value := computed_of_word computes (ends.executes executes)
    have target : t.exNextPcTarget =
        (b.outcome x t.ex.pc t.exLength).next := by
      rw [← value]
      rfl
    rw [if_neg continues, exPcNext_of_not_system ends.normal
      (by rw [ends.same.toDecoded, noSystem]), idle, target, ends.same.pc,
      ends.length]
    rfl
  · have kept := ends.ex_of_plain plain
    have value := computed_of_word computes (ends.executes executes)
    rw [wbWrite_of_computes computes (ends.executes executes)
      ⟨by rw [kept, ends.first], ends.leaves, ends.goes, ends.normal⟩ j
      i.dRspRdata rf, value, ends.same.pc, ends.length]

/-- Loads and stores go on. -/
theorem next_of_straight {opcode : BitVec 7} {instr : BitVec 32}
    (executes : s.Executes instr x) (same : instr.extractLsb' 0 7 = opcode)
    (other : opcode ≠ opJal ∧ opcode ≠ opJalr ∧ opcode ≠ opBranch ∧
      opcode ≠ opSystem)
    (ends : s.Ends t i) (idle : t.irqPending i = false) :
    t.exPcNext i = moved s.ex.pc s.exLength := by
  have flags := (ends.executes executes).flags opcode same
  rw [exPcNext_of_not_system ends.normal (by simp [flags, other]), idle,
    exNextPcTarget, exPcSequential_eq, ends.same.pc, ends.length]
  simp [flags, other]

theorem performs_of_lw {rd rs1 : BitVec 5} {imm : BitVec 12}
    (executes : s.Executes (Base.load .lw rd rs1 imm).encode x) :
    s.Performs
      ((Base.load .lw rd rs1 imm).outcome x s.ex.pc s.exLength) := by
  obtain ⟨load, noStore, noAtomic, noSystem, funct3, dest, address⟩ :=
    load_of_word executes.decoded
  have base := executes.rs1
  simp only [Base.encode, iType_fields] at base
  have raw : s.exDAccessRaw = true := by simp [exDAccessRaw, load]
  refine ⟨⟨raw, funct3, fun first access => ⟨?_, ?_⟩⟩, ?_,
    fun {t i} ends idle => ?_, fun {t i} ends j rf => ?_⟩
  · rw [← base, ← address, dReq, dReqAddr, exMemReqAddr,
      if_pos ⟨first, access⟩]
  · simp [dReq, dReqWe, noAtomic, noStore]
  · simp [exIsEbreak, exIsSystemImm, noSystem, Base.outcome]
  · rw [next_of_straight executes
      (show _ = opLoad by simp [Base.encode, opLoad]) (by decide) ends idle]
    rfl
  · have access := ends.access raw noAtomic
    have state : t.ex.state = .exMemWait := by
      rw [ends.ex, access]
      rfl
    have answers : t.exMemToWb i = true := by
      have leaves := ends.leaves
      rw [leave_of_memWait state] at leaves
      simpa [exMemToWb, state, and_assoc] using leaves
    have loaded : (t.step i).wbLoadResult = i.dRspRdata := by
      have wb := step_wb_of_leave ends.leaves ends.goes
      have word : (t.step i).wb.funct3 = 0b010 := by
        rw [wb]
        show t.ex.funct3 = _
        rw [ends.same.toDecoded, funct3]
        rfl
      have data : (t.step i).wb.memRdata = i.dRspRdata := by
        rw [wb]
        simp [completedWb, exCompleteMemRdata, answers]
      simp only [wbLoadResult, word, data]
      rfl
    rw [wbWrite_of_load ends.leaves ends.goes ends.normal
      (by rw [ends.same.toDecoded, load]), ends.same.toDecoded, dest, loaded]
    rfl

theorem performs_of_sw {rs1 rs2 : BitVec 5} {imm : BitVec 12}
    (executes : s.Executes (Base.store .sw rs1 rs2 imm).encode x) :
    s.Performs
      ((Base.store .sw rs1 rs2 imm).outcome x s.ex.pc s.exLength) := by
  obtain ⟨store, noAtomic, funct3, address⟩ := store_of_word executes.decoded
  have flags := executes.flags opStore (by simp [Base.encode, opStore])
  have base := executes.rs1
  have data := executes.rs2
  simp only [Base.encode, sType_fields] at base data
  have raw : s.exDAccessRaw = true := by simp [exDAccessRaw, store]
  refine ⟨⟨raw, funct3, fun first access => ?_⟩, ?_,
    fun {t i} ends idle => ?_, fun {t i} ends j rf => ?_⟩
  · have target : s.exMemReqAddr = moved (x rs1) imm.toInt := by
      rw [exMemReqAddr, if_pos ⟨first, access⟩, address, base]
    have aligned := aligned_of_exMemAccess access
    rw [exMemAligned, Bool.not_eq_true', address, base, ← target] at aligned
    refine ⟨target, by simp [dReq, dReqWe, noAtomic, store], fun b => ?_⟩
    rw [stored_of_store aligned store noAtomic, target, data, funct3]
    rfl
  · simp +decide [exIsEbreak, exIsSystemImm, flags, Base.outcome]
  · rw [next_of_straight executes
      (show _ = opStore by simp [Base.encode, opStore]) (by decide) ends idle]
    rfl
  · refine ends.wbWrite_of_silent ?_ j rf
    have later := (ends.executes executes).flags opStore
      (by simp [Base.encode, opStore])
    simp +decide [exWritesRd, exIsCsrOp, exIsLr, exIsSc, exIsAmoOp, later]

theorem performs_of_ebreak {next : BitVec 32}
    (executes : s.Executes Instr.ebreak.encode x)
    (instr : s.ex.instr = Instr.ebreak.encode) :
    s.Performs ⟨.breaks, next⟩ := by
  have flags := executes.flags opSystem (by decide)
  have fields := executes.fields
  have breaks (u : Core p) (same : SameInstr u.ex s.ex) :
      u.exIsEbreak = true := by
    simp +decide [exIsEbreak, exIsSystemImm, same.toDecoded, same.instr,
      flags, fields, instr]
  have plain : s.exDAccessRaw = false := by
    simp +decide [exDAccessRaw, exIsLr, exIsSc, exIsAmoOp, flags]
  refine ⟨plain, ?_, fun {t i} ends idle => ?_, fun {t i} ends j rf => ?_⟩
  · simp [breaks s (by constructor <;> rfl)]
  · have coherent := (ends.executes executes).coherent
    rw [if_pos rfl, exPcNext_of_system coherent ends.normal
      (by rw [ends.same.toDecoded]; simp [flags]), idle,
      breaks t ends.same]
    simp
  · refine ends.wbWrite_of_silent ?_ j rf
    have later := (ends.executes executes).flags opSystem (by decide)
    have code := (ends.executes executes).fields
    simp +decide [exWritesRd, exIsCsrOp, exIsLr, exIsSc, exIsAmoOp, later,
      code]

end Core

/-- In a run the last cycle is the one in which EX is left. -/
theorem Run.LeavesAt.ends {p : Params} {r : Run p} {n x : ℕ}
    (stay : r.LeavesAt n x) (first : (r.state n).ex.state = .exExec)
    (single : (r.state n).exIsAmoOp = false)
    (goes : (r.state x).wbSingleStepStop = false)
    (normal : (r.state x).exException (r.inputs x) = false) :
    (r.state n).Ends (r.state x) (r.inputs x) := by
  refine ⟨first, ?_, stay.leaves, goes, normal⟩
  cases access : (r.state n).exMemAccess with
  | false => rw [(stay.of_plain first access).1, if_neg Bool.false_ne_true]
  | true =>
      rw [if_pos rfl]
      exact (stay.of_single first access single).2.1

end SisRv
