import SisRv.Core.FrontEnd

/-!
# The EX stage over a clock edge

What a cycle can do to EX is said once, by `Core.exCycle`; the invariants of
the stage are derived from it.
-/

namespace SisRv

open Sync

/-! ## Instruction classes -/

/-- The class flags are the twelve comparisons of one opcode, so that at most
one of them is set. -/
structure Decoded.Coherent (d : Decoded) : Prop where
  isLui : d.isLui = (d.opcode == opLui)
  isAuipc : d.isAuipc = (d.opcode == opAuipc)
  isJal : d.isJal = (d.opcode == opJal)
  isJalr : d.isJalr = (d.opcode == opJalr)
  isBranch : d.isBranch = (d.opcode == opBranch)
  isLoad : d.isLoad = (d.opcode == opLoad)
  isStore : d.isStore = (d.opcode == opStore)
  isAluImm : d.isAluImm = (d.opcode == opAluImm)
  isAluReg : d.isAluReg = (d.opcode == opAluReg)
  isSystem : d.isSystem = (d.opcode == opSystem)
  isFence : d.isFence = (d.opcode == opFence)
  isAtomic : d.isAtomic = (d.opcode == opAmo)

theorem sisDecode_coherent (enableM enableA : Bool) (instr : BitVec 32) :
    (sisDecode enableM enableA instr).Coherent := by
  constructor <;> rfl

namespace Decoded

variable {d : Decoded}

theorem Coherent.flags_of_opcode
    (coherent : d.Coherent) {opcode : BitVec 7} (same : d.opcode = opcode) :
    d.isLui = (opcode == opLui) ∧ d.isAuipc = (opcode == opAuipc) ∧
      d.isJal = (opcode == opJal) ∧ d.isJalr = (opcode == opJalr) ∧
      d.isBranch = (opcode == opBranch) ∧ d.isLoad = (opcode == opLoad) ∧
      d.isStore = (opcode == opStore) ∧
      d.isAluImm = (opcode == opAluImm) ∧
      d.isAluReg = (opcode == opAluReg) ∧
      d.isSystem = (opcode == opSystem) ∧
      d.isFence = (opcode == opFence) ∧ d.isAtomic = (opcode == opAmo) := by
  subst same
  exact ⟨coherent.isLui, coherent.isAuipc, coherent.isJal, coherent.isJalr,
    coherent.isBranch, coherent.isLoad, coherent.isStore, coherent.isAluImm,
    coherent.isAluReg, coherent.isSystem, coherent.isFence,
    coherent.isAtomic⟩

/-- LOAD, STORE or AMO: the classes with a bus side effect. -/
def isAccess (d : Decoded) : Bool := d.isLoad || d.isStore || d.isAtomic

/-- A data access is in no other class. -/
theorem Coherent.of_access
    (coherent : d.Coherent) (access : d.isAccess = true) :
    d.isLui = false ∧ d.isAuipc = false ∧ d.isJal = false ∧
      d.isJalr = false ∧ d.isBranch = false ∧ d.isAluImm = false ∧
      d.isAluReg = false ∧ d.isSystem = false := by
  simp only [isAccess, Bool.or_eq_true, coherent.isLoad, coherent.isStore,
    coherent.isAtomic, beq_iff_eq] at access
  rcases access with (load | store) | atomic
  · have flags := coherent.flags_of_opcode load
    simp only [flags]
    decide
  · have flags := coherent.flags_of_opcode store
    simp only [flags]
    decide
  · have flags := coherent.flags_of_opcode atomic
    simp only [flags]
    decide

theorem Coherent.of_system
    (coherent : d.Coherent) (system : d.isSystem = true) :
    d.isLui = false ∧ d.isAuipc = false ∧ d.isJal = false ∧
      d.isJalr = false ∧ d.isBranch = false ∧ d.isAluImm = false ∧
      d.isAluReg = false ∧ d.isLoad = false ∧ d.isStore = false ∧
      d.isAtomic = false := by
  rw [coherent.isSystem, beq_iff_eq] at system
  have flags := coherent.flags_of_opcode system
  simp only [flags]
  decide

end Decoded

/-! ## The instruction in EX -/

/-- Two contents of EX are the same instruction with the same operands. -/
structure SameInstr (a b : ExRegs) : Prop where
  toDecoded : a.toDecoded = b.toDecoded
  pc : a.pc = b.pc
  instr : a.instr = b.instr
  raw : a.raw = b.raw
  len : a.len = b.len
  isCompressed : a.isCompressed = b.isCompressed
  fetchErr : a.fetchErr = b.fetchErr
  illegalCompressed : a.illegalCompressed = b.illegalCompressed
  priv : a.priv = b.priv
  rs1Val : a.rs1Val = b.rs1Val
  rs2Val : a.rs2Val = b.rs2Val

theorem SameInstr.trans {a b c : ExRegs}
    (first : SameInstr a b) (second : SameInstr b c) : SameInstr a c where
  toDecoded := first.toDecoded.trans second.toDecoded
  pc := first.pc.trans second.pc
  instr := first.instr.trans second.instr
  raw := first.raw.trans second.raw
  len := first.len.trans second.len
  isCompressed := first.isCompressed.trans second.isCompressed
  fetchErr := first.fetchErr.trans second.fetchErr
  illegalCompressed :=
    first.illegalCompressed.trans second.illegalCompressed
  priv := first.priv.trans second.priv
  rs1Val := first.rs1Val.trans second.rs1Val
  rs2Val := first.rs2Val.trans second.rs2Val

theorem SameInstr.refl (a : ExRegs) : SameInstr a a :=
  ⟨rfl, rfl, rfl, rfl, rfl, rfl, rfl, rfl, rfl, rfl, rfl⟩

namespace Core

variable {p : Params} (s : Core p) (i : CoreIn)

/-- The read phase of an AMO ends with a bus error. -/
def exDropsAmo : Bool :=
  s.ex.valid && s.ex.state == .exMemWait && s.dataRspFire i &&
    s.exIsAmoOp && i.dRspErr

theorem exNext_of_issue (issue : s.idToExFire i = true) :
    s.exNext i = s.issuedEx i := by
  simp [exNext, issue]

theorem exNext_of_quiet (quiet : s.idToExFire i = false) :
    s.exNext i = s.flushEx i (s.exStateStep i s.ex) := by
  simp [exNext, quiet]

theorem exNext_sameInstr (quiet : s.idToExFire i = false) :
    SameInstr (s.exNext i) s.ex := by
  rw [exNext_of_quiet s i quiet]
  unfold flushEx exStateStep exExecStep exMemWaitStep
  cases s.ex.state <;> dsimp only <;> split_ifs <;>
    exact ⟨rfl, rfl, rfl, rfl, rfl, rfl, rfl, rfl, rfl, rfl, rfl⟩

section Leaving

variable {s : Core p} {i : CoreIn}

/-! ### `ex_to_wb_fire` in each state -/

theorem leave_of_exec (first : s.ex.state = .exExec) :
    s.exToWbFire i = (s.ex.valid && !s.exMemAccess) := by
  rw [Bool.eq_iff_iff]
  simp [exToWbFire, exExecToWb, exMemToWb, exAmoStoreToWb, first]

theorem leave_of_memWait (waiting : s.ex.state = .exMemWait) :
    s.exToWbFire i =
      (s.ex.valid && s.dataRspFire i && !s.exIsAmoOp) := by
  rw [Bool.eq_iff_iff]
  simp [exToWbFire, exExecToWb, exMemToWb, exAmoStoreToWb, waiting]

theorem leave_of_amoStoreWait (storing : s.ex.state = .exAmoStoreWait) :
    s.exToWbFire i = (s.ex.valid && s.dataRspFire i) := by
  rw [Bool.eq_iff_iff]
  simp [exToWbFire, exExecToWb, exMemToWb, exAmoStoreToWb, storing]

theorem not_leave_of_request
    (requesting : s.ex.state = .exMemReq ∨ s.ex.state = .exAmoStoreReq) :
    s.exToWbFire i = false := by
  rcases requesting with read | store
  · simp [exToWbFire, exExecToWb, exMemToWb, exAmoStoreToWb, read]
  · simp [exToWbFire, exExecToWb, exMemToWb, exAmoStoreToWb, store]

theorem not_leave_of_access
    (first : s.ex.state = .exExec) (access : s.exMemAccess = true) :
    s.exToWbFire i = false := by
  rw [leave_of_exec first, access, Bool.not_true, Bool.and_false]

/-- After the first cycle EX is left with a response only. -/
theorem not_leave_of_silence
    (later : s.ex.state ≠ .exExec) (noRsp : s.dataRspFire i = false) :
    s.exToWbFire i = false := by
  simp [exToWbFire, exExecToWb, exMemToWb, exAmoStoreToWb, later, noRsp]

theorem valid_of_leave (leaves : s.exToWbFire i = true) :
    s.ex.valid = true := by
  simp only [exToWbFire, exExecToWb, exMemToWb, exAmoStoreToWb,
    Bool.or_eq_true, Bool.and_eq_true] at leaves
  tauto

/-- A trigger is hit in the cycle in which the instruction leaves EX. -/
theorem leave_of_trigger (hit : s.exTriggerHit = true) :
    s.exToWbFire i = true := by
  have noAccess : s.exMemAccess = false := by simp [exMemAccess, hit]
  simp only [exTriggerHit, List.any_eq_true, trigHitSet, Bool.and_eq_true,
    beq_iff_eq] at hit
  obtain ⟨trigger, -, ⟨⟨valid, first⟩, -⟩, -⟩ := hit
  simp [leave_of_exec first, valid, noAccess]

end Leaving

/-- The moves of an instruction that stays in EX after its first cycle. -/
inductive ExMove : ExState → Prop
  | stays
      (noReq : s.dataReqFire i = false) (noRsp : s.dataRspFire i = false) :
      ExMove s.ex.state
  | accepted
      (requesting : s.ex.state = .exMemReq) (fire : s.dataReqFire i = true) :
      ExMove .exMemWait
  | amoRead
      (waiting : s.ex.state = .exMemWait) (amo : s.exIsAmoOp = true)
      (fire : s.dataRspFire i = true) (ok : i.dRspErr = false) :
      ExMove .exAmoStoreReq
  | amoAccepted
      (requesting : s.ex.state = .exAmoStoreReq)
      (fire : s.dataReqFire i = true) :
      ExMove .exAmoStoreWait

/-- What a cycle can do to EX. -/
inductive ExCycle : Prop
  | issued
      (issue : s.idToExFire i = true) (next : s.exNext i = s.issuedEx i)
  | emptied
      (quiet : s.idToExFire i = false) (next : (s.exNext i).valid = false)
      (cause : s.ex.valid = true → s.ex.state ≠ .exWb →
        s.exToWbFire i = true ∨ s.exDropsAmo i = true ∨
          s.wbSingleStepStop = true)
  | accesses
      (quiet : s.idToExFire i = false) (kept : s.flush i = false)
      (valid : s.ex.valid = true) (first : s.ex.state = .exExec)
      (access : s.exMemAccess = true)
      (next : s.exNext i =
        { s.ex with
          state := if s.dataReqFire i then .exMemWait else .exMemReq
          aluResultReg := s.exExecResult
          memAddrReg := s.aluResult
          memMisaligned :=
            (s.ex.isLoad || s.ex.isStore) &&
              isMemMisaligned s.aluResult s.ex.funct3
          memErr := false })
  | waits
      (quiet : s.idToExFire i = false) (kept : s.flush i = false)
      (valid : s.ex.valid = true) (later : s.ex.state ≠ .exExec)
      (staysBusy : s.exToWbFire i = false)
      (state : ExState) (rdata : BitVec 32) (err : Bool)
      (next : s.exNext i =
        { s.ex with state := state, memRdataReg := rdata, memErr := err })
      (clean : err = true → s.ex.memErr = true)
      (move : s.ExMove i state)

theorem atomic_of_amo (amo : s.exIsAmoOp = true) :
    s.ex.isAtomic = true ∧ s.exIsLr = false ∧ s.exIsSc = false := by
  simp only [exIsAmoOp, Bool.and_eq_true, Bool.not_eq_true'] at amo
  exact ⟨amo.1.1, amo.1.2, amo.2⟩

theorem exCycle_of_exec
    (quiet : s.idToExFire i = false) (kept : s.flush i = false)
    (next : s.exNext i = s.exStateStep i s.ex)
    (valid : s.ex.valid = true) (first : s.ex.state = .exExec) :
    s.ExCycle i := by
  by_cases access : s.exMemAccess = true
  · apply ExCycle.accesses quiet kept valid first access
    rw [next]
    simp [exStateStep, valid, first, exExecStep, access]
  · have leaves : s.exToWbFire i = true := by
      simp [leave_of_exec first, valid, access]
    refine .emptied quiet ?_ (fun _ _ => Or.inl leaves)
    rw [next]
    simp [exStateStep, valid, first, exExecStep, access, leaves]

theorem exCycle_of_request
    (quiet : s.idToExFire i = false) (kept : s.flush i = false)
    (valid : s.ex.valid = true) {target : ExState}
    (later : s.ex.state ≠ .exExec) (busy : s.exToWbFire i = false)
    (noRsp : s.dataRspFire i = false)
    (next : s.exNext i =
      if s.dataReqFire i then { s.ex with state := target } else s.ex)
    (move : s.dataReqFire i = true → s.ExMove i target) :
    s.ExCycle i := by
  by_cases fire : s.dataReqFire i = true
  · rw [if_pos fire] at next
    exact .waits quiet kept valid later busy target s.ex.memRdataReg
      s.ex.memErr next id (move fire)
  · rw [if_neg fire] at next
    exact .waits quiet kept valid later busy s.ex.state s.ex.memRdataReg
      s.ex.memErr next id (.stays (by simpa using fire) noRsp)

theorem exCycle_of_memWait
    (quiet : s.idToExFire i = false) (kept : s.flush i = false)
    (next : s.exNext i = s.exStateStep i s.ex)
    (valid : s.ex.valid = true) (waiting : s.ex.state = .exMemWait) :
    s.ExCycle i := by
  have later : s.ex.state ≠ .exExec := by simp [waiting]
  by_cases fire : s.dataRspFire i = true
  · by_cases amo : s.exIsAmoOp = true
    · have busy : s.exToWbFire i = false := by
        simp [leave_of_memWait waiting, amo]
      obtain ⟨atomic, notLr, -⟩ := s.atomic_of_amo amo
      by_cases err : i.dRspErr = true
      · refine .emptied quiet ?_ (fun _ _ => Or.inr (Or.inl ?_))
        · rw [next]
          simp [exStateStep, valid, waiting, exMemWaitStep, fire, err]
        · simp [exDropsAmo, valid, waiting, fire, amo, err]
      · refine .waits quiet kept valid later busy .exAmoStoreReq
          i.dRspRdata i.dRspErr ?_ (fun bad => absurd bad err)
          (.amoRead waiting amo fire (by simpa using err))
        rw [next]
        simp [exStateStep, valid, waiting, exMemWaitStep, fire, err,
          atomic, notLr, amo]
    · have leaves : s.exToWbFire i = true := by
        simp [leave_of_memWait waiting, valid, fire, amo]
      refine .emptied quiet ?_ (fun _ _ => Or.inl leaves)
      rw [next]
      simp [exStateStep, valid, waiting, exMemWaitStep, fire, amo]
  · have busy : s.exToWbFire i = false := by
      simp [leave_of_memWait waiting, fire]
    have unchanged : s.exNext i = s.ex := by
      rw [next]
      simp only [exStateStep, exMemWaitStep, waiting, fire]
      simp
    have noReq : s.dataReqFire i = false := by
      simp [dataReqFire, exMemRequesting, waiting]
    exact .waits quiet kept valid later busy s.ex.state s.ex.memRdataReg
      s.ex.memErr unchanged id (.stays noReq (by simpa using fire))

/-- Every cycle is one of the four. -/
theorem exCycle : s.ExCycle i := by
  by_cases issue : s.idToExFire i = true
  · exact .issued issue (exNext_of_issue s i issue)
  have quiet : s.idToExFire i = false := by simpa using issue
  have next := exNext_of_quiet s i quiet
  by_cases flushed : s.flush i = true
  · refine .emptied quiet ?_ (fun _ _ => ?_)
    · rw [next]
      simp only [flush] at flushed
      simp [flushEx, flushed]
    · simp only [flush, Bool.or_eq_true] at flushed
      rcases flushed with redirect | stop
      · exact Or.inl (toWb_of_redirect redirect)
      · exact Or.inr (Or.inr stop)
  have kept : s.flush i = false := by simpa using flushed
  have unflushed :
      s.flushEx i (s.exStateStep i s.ex) = s.exStateStep i s.ex := by
    simp only [flush] at kept
    simp [flushEx, kept]
  rw [unflushed] at next
  by_cases valid : s.ex.valid = true
  · cases state : s.ex.state with
    | exExec =>
        exact exCycle_of_exec s i quiet kept next valid state
    | exMemReq =>
        refine exCycle_of_request s i quiet kept valid (by simp [state])
          (not_leave_of_request (Or.inl state)) ?_ ?_
          (fun fire => .accepted state fire)
        · simp [dataRspFire, dRspReady, state]
        · simpa [exStateStep, valid, state] using next
    | exMemWait =>
        exact exCycle_of_memWait s i quiet kept next valid state
    | exAmoStoreReq =>
        refine exCycle_of_request s i quiet kept valid (by simp [state])
          (not_leave_of_request (Or.inr state)) ?_ ?_
          (fun fire => .amoAccepted state fire)
        · simp [dataRspFire, dRspReady, state]
        · simpa [exStateStep, valid, state] using next
    | exAmoStoreWait =>
        have later : s.ex.state ≠ .exExec := by simp [state]
        by_cases fire : s.dataRspFire i = true
        · have leaves : s.exToWbFire i = true := by
            simp [leave_of_amoStoreWait state, valid, fire]
          refine .emptied quiet ?_ (fun _ _ => Or.inl leaves)
          rw [next]
          simp [exStateStep, valid, state, fire]
        · have busy : s.exToWbFire i = false := by
            simp [leave_of_amoStoreWait state, fire]
          have unchanged : s.exNext i = s.ex := by
            rw [next]
            simp only [exStateStep, state, fire]
            simp
          have noReq : s.dataReqFire i = false := by
            simp [dataReqFire, exMemRequesting, state]
          exact .waits quiet kept valid later busy s.ex.state
            s.ex.memRdataReg s.ex.memErr unchanged id
            (.stays noReq (by simpa using fire))
    | exWb =>
        refine .emptied quiet ?_ (fun _ other => absurd state other)
        rw [next]
        simp [exStateStep, valid, state]
  · refine .emptied quiet ?_ (fun holds => absurd holds valid)
    rw [next]
    simp [exStateStep, valid]

end Core

/-! ## What depends on the instruction only -/

namespace SameInstr

variable {p : Params} {s t : Core p} (same : SameInstr s.ex t.ex)
include same

theorem aluResult : s.aluResult = t.aluResult := by
  simp only [Core.aluResult, Core.aluA, Core.aluB, Core.aluOp,
    same.toDecoded, same.pc, same.len, same.rs1Val, same.rs2Val]

theorem exIsLr : s.exIsLr = t.exIsLr := by
  simp only [Core.exIsLr, same.toDecoded]

theorem exIsSc : s.exIsSc = t.exIsSc := by
  simp only [Core.exIsSc, same.toDecoded]

theorem exIsAmoOp : s.exIsAmoOp = t.exIsAmoOp := by
  simp only [Core.exIsAmoOp, same.toDecoded, same.exIsLr, same.exIsSc]

theorem exMemAligned : s.exMemAligned = t.exMemAligned := by
  simp only [Core.exMemAligned, same.toDecoded, same.aluResult]

theorem exDecIsLegalEff : s.exDecIsLegalEff = t.exDecIsLegalEff := by
  simp only [Core.exDecIsLegalEff, same.toDecoded, same.isCompressed,
    same.illegalCompressed]

theorem exPcSequential : s.exPcSequential = t.exPcSequential := by
  simp only [Core.exPcSequential, same.pc, same.len]

end SameInstr

/-! ## The invariant of EX -/

/-- A data access that has left its first cycle: it was aligned, and the
registers hold the address it presented. -/
structure Core.Launched {p : Params} (s : Core p) : Prop where
  access : s.ex.isAccess = true
  aligned : s.exMemAligned = true
  address : s.ex.aluResultReg = s.aluResult
  memAddr : s.ex.memAddrReg = s.aluResult

/-- What holds of EX in every reachable state. -/
structure Core.ExSound {p : Params} (s : Core p) : Prop where
  notWb : s.ex.state ≠ .exWb
  decoded : s.ex.valid = true →
    s.ex.toDecoded = sisDecode p.enableM p.enableA s.ex.instr
  memErr : s.ex.valid = true → s.ex.memErr = false
  memMisaligned : s.ex.valid = true → s.ex.memMisaligned = false
  launched : s.ex.valid = true → s.ex.state ≠ .exExec → s.Launched
  amo : s.ex.valid = true →
    s.ex.state = .exAmoStoreReq ∨ s.ex.state = .exAmoStoreWait →
    s.exIsAmoOp = true

namespace Core

section Sound

variable {p : Params} {s : Core p} {i : CoreIn}

theorem ExSound.coherent (sound : s.ExSound) (valid : s.ex.valid = true) :
    s.ex.toDecoded.Coherent := by
  rw [sound.decoded valid]
  exact sisDecode_coherent _ _ _

theorem exSound_of_empty
    (notWb : s.ex.state ≠ .exWb) (empty : s.ex.valid = false) :
    s.ExSound := by
  have absent : ¬ s.ex.valid = true := by simp [empty]
  exact {
    notWb := notWb
    decoded := fun valid => absurd valid absent
    memErr := fun valid => absurd valid absent
    memMisaligned := fun valid => absurd valid absent
    launched := fun valid => absurd valid absent
    amo := fun valid => absurd valid absent }

theorem exSound_reset (p : Params) (power : PowerOn) :
    (Core.reset p power).ExSound :=
  exSound_of_empty (by simp [Core.reset, ExRegs.reset]) rfl

theorem valid_of_exNext
    (quiet : s.idToExFire i = false) (valid : (s.exNext i).valid = true) :
    s.ex.valid = true := by
  rcases s.exCycle i with
    ⟨issue, -⟩ | ⟨-, empty, -⟩ | ⟨-, -, before, -⟩ | ⟨-, -, before, -⟩
  · rw [quiet] at issue
    exact absurd issue (by decide)
  · rw [empty] at valid
    exact absurd valid (by decide)
  · exact before
  · exact before

theorem exNext_state_ne_exWb (notWb : s.ex.state ≠ .exWb) :
    (s.exNext i).state ≠ .exWb := by
  unfold exNext issuedEx flushEx exStateStep exExecStep exMemWaitStep
  cases state : s.ex.state <;> dsimp only <;> split_ifs <;> simp_all

theorem isAccess_of_exMemAccess (access : s.exMemAccess = true) :
    s.ex.isAccess = true := by
  simp only [exMemAccess, exDAccessRaw, exIsLr, exIsSc, exIsAmoOp,
    Bool.and_eq_true, Bool.or_eq_true] at access
  simp only [Decoded.isAccess, Bool.or_eq_true]
  tauto

/-- The result of a data access in its first cycle is its address. -/
theorem exExecResult_of_access
    (coherent : s.ex.toDecoded.Coherent) (access : s.ex.isAccess = true) :
    s.exExecResult = s.aluResult := by
  have notReg := (coherent.of_access access).2.2.2.2.2.2.1
  simp [exExecResult, exIsMOp, notReg]

theorem aligned_of_exMemAccess (access : s.exMemAccess = true) :
    s.exMemAligned = true := by
  simp only [exMemAccess, Bool.and_eq_true] at access
  exact access.1.2

section Launch

variable (same : SameInstr (s.step i).ex s.ex)
include same

/-- A data access starts with its address. -/
theorem launched_of_access
    (coherent : s.ex.toDecoded.Coherent) (access : s.exMemAccess = true)
    (address : (s.step i).ex.aluResultReg = s.exExecResult)
    (memAddr : (s.step i).ex.memAddrReg = s.aluResult) :
    (s.step i).Launched where
  access := by
    rw [same.toDecoded]
    exact isAccess_of_exMemAccess access
  aligned := by
    rw [same.exMemAligned]
    exact aligned_of_exMemAccess access
  address := by
    rw [same.aluResult, address]
    exact exExecResult_of_access coherent (isAccess_of_exMemAccess access)
  memAddr := by rw [same.aluResult, memAddr]

/-- And it keeps its address. -/
theorem launched_of_wait
    (launched : s.Launched)
    (address : (s.step i).ex.aluResultReg = s.ex.aluResultReg)
    (memAddr : (s.step i).ex.memAddrReg = s.ex.memAddrReg) :
    (s.step i).Launched where
  access := by rw [same.toDecoded, launched.access]
  aligned := by rw [same.exMemAligned, launched.aligned]
  address := by rw [same.aluResult, address, launched.address]
  memAddr := by rw [same.aluResult, memAddr, launched.memAddr]

end Launch

/-- The store phase is entered by an AMO only. -/
theorem amo_of_move
    {state : ExState} (move : s.ExMove i state)
    (before : s.ex.state = .exAmoStoreReq ∨ s.ex.state = .exAmoStoreWait →
      s.exIsAmoOp = true)
    (phase : state = .exAmoStoreReq ∨ state = .exAmoStoreWait) :
    s.exIsAmoOp = true := by
  cases move with
  | stays => exact before phase
  | accepted => simp at phase
  | amoRead waiting amo => exact amo
  | amoAccepted requesting => exact before (Or.inl requesting)

theorem exSound_step (sound : s.ExSound) : (s.step i).ExSound := by
  have notWb : (s.step i).ex.state ≠ .exWb :=
    exNext_state_ne_exWb sound.notWb
  cases s.exCycle i with
  | issued issue next =>
      have fresh : (s.step i).ex = s.issuedEx i := next
      have first : (s.step i).ex.state = .exExec := by
        rw [fresh]
        rfl
      exact {
        notWb := notWb
        decoded := fun _ => by
          rw [fresh]
          rfl
        memErr := fun _ => by
          rw [fresh]
          rfl
        memMisaligned := fun _ => by
          rw [fresh]
          rfl
        launched := fun _ later => absurd first later
        amo := fun _ later => by
          rw [first] at later
          simp at later }
  | emptied quiet empty cause =>
      exact exSound_of_empty notWb empty
  | accesses quiet kept valid first access next =>
      have same : SameInstr (s.step i).ex s.ex :=
        exNext_sameInstr s i quiet
      have misaligned : isMemMisaligned s.aluResult s.ex.funct3 = false := by
        simpa [exMemAligned] using aligned_of_exMemAccess access
      exact {
        notWb := notWb
        decoded := fun _ => by
          rw [same.toDecoded, same.instr]
          exact sound.decoded valid
        memErr := fun _ => by rw [step_ex, next]
        memMisaligned := fun _ => by
          rw [step_ex, next]
          simp [misaligned]
        launched := fun _ _ =>
          launched_of_access same (sound.coherent valid) access
            (by rw [step_ex, next]) (by rw [step_ex, next])
        amo := fun _ later => by
          rw [step_ex, next] at later
          by_cases fire : s.dataReqFire i = true <;>
            simp [fire] at later }
  | waits quiet kept valid later busy state rdata err next clean move =>
      have same : SameInstr (s.step i).ex s.ex :=
        exNext_sameInstr s i quiet
      exact {
        notWb := notWb
        decoded := fun _ => by
          rw [same.toDecoded, same.instr]
          exact sound.decoded valid
        memErr := fun _ => by
          rw [step_ex, next]
          by_contra bad
          have before := clean (by simpa using bad)
          rw [sound.memErr valid] at before
          exact Bool.false_ne_true before
        memMisaligned := fun _ => by
          rw [step_ex, next]
          exact sound.memMisaligned valid
        launched := fun _ _ =>
          launched_of_wait same (sound.launched valid later)
            (by rw [step_ex, next]) (by rw [step_ex, next])
        amo := fun _ phase => by
          rw [same.exIsAmoOp]
          rw [step_ex, next] at phase
          exact amo_of_move move (sound.amo valid) phase }

end Sound

end Core

/-! ## Entering and leaving EX -/

namespace Core

variable {p : Params} {s : Core p} {i : CoreIn}

theorem running_of_issue (issue : s.idToExFire i = true) :
    s.halted = false ∧ i.dbgHaltReq = false := by
  simp only [idToExFire, Bool.and_eq_true, Bool.not_eq_true'] at issue
  exact ⟨issue.1.1.2, issue.1.2⟩

theorem not_stop_of_issue (issue : s.idToExFire i = true) :
    s.wbSingleStepStop = false := by
  simp only [idToExFire, Bool.and_eq_true, Bool.not_eq_true'] at issue
  exact issue.1.1.1.2

theorem running_after_issue (issue : s.idToExFire i = true) :
    (s.step i).halted = false := by
  have running := running_of_issue issue
  simp only [step_halted, haltedNext, running, not_stop_of_issue issue]
  simp

theorem leaves_of_issue
    (issue : s.idToExFire i = true) (valid : s.ex.valid = true) :
    s.exToWbFire i = true := by
  simp only [idToExFire, exCanAccept, Bool.and_eq_true, Bool.or_eq_true,
    Bool.not_eq_true'] at issue
  rcases issue.1.1.1.1.1.1.2 with empty | leaves
  · rw [empty] at valid
    exact absurd valid (by decide)
  · exact leaves

theorem quiet_of_busy
    (valid : s.ex.valid = true) (busy : s.exToWbFire i = false) :
    s.idToExFire i = false := by
  by_contra issue
  rw [leaves_of_issue (by simpa using issue) valid] at busy
  exact absurd busy (by decide)

theorem empty_of_leave
    (leaves : s.exToWbFire i = true) (quiet : s.idToExFire i = false) :
    (s.exNext i).valid = false := by
  cases s.exCycle i with
  | issued issue =>
      rw [quiet] at issue
      exact absurd issue (by decide)
  | emptied _ empty => exact empty
  | accesses _ kept valid first access =>
      rw [not_leave_of_access first access] at leaves
      exact absurd leaves (by decide)
  | waits _ kept valid later busy =>
      rw [busy] at leaves
      exact absurd leaves (by decide)

theorem wb_of_leave
    (leaves : s.exToWbFire i = true) (goes : s.wbSingleStepStop = false) :
    s.wbNext i = s.completedWb i := by
  simp [wbNext, leaves, goes]

theorem step_wb_of_leave
    (leaves : s.exToWbFire i = true) (goes : s.wbSingleStepStop = false) :
    (s.step i).wb = s.completedWb i := wb_of_leave leaves goes

theorem wb_of_stay (stays : s.exToWbFire i = false) :
    (s.wbNext i).valid = false := by
  simp only [wbNext, stays, Bool.false_eq_true, if_false]
  split_ifs <;> rfl

/-- WB is filled by an instruction that leaves EX. -/
theorem leave_of_wb_valid (valid : (s.step i).wb.valid = true) :
    s.exToWbFire i = true ∧ s.wbSingleStepStop = false := by
  constructor
  · by_contra stays
    rw [step_wb, wb_of_stay (by simpa using stays)] at valid
    exact Bool.false_ne_true valid
  · by_contra goes
    have stop : s.wbSingleStepStop = true := by simpa using goes
    simp only [step_wb, wbNext, stop, if_true] at valid
    exact Bool.false_ne_true valid

/-! ### Stalled requests -/

/-- A request that is not accepted stays presented. -/
structure Stalled (s : Core p) : Prop where
  valid : s.ex.valid = true
  requesting : s.ex.state = .exMemReq
  wbEmpty : s.wb.valid = false

theorem stalled_step (stalled : s.Stalled) (refused : i.dReqReady = false) :
    (s.step i).Stalled := by
  have busy : s.exToWbFire i = false :=
    not_leave_of_request (Or.inl stalled.requesting)
  have quiet := quiet_of_busy stalled.valid busy
  have noStop : s.wbSingleStepStop = false := by
    simp [wbSingleStepStop, stalled.wbEmpty]
  have kept : (s.step i).ex = s.ex := by
    rw [step_ex, exNext_of_quiet s i quiet]
    simp [flushEx, exRedirect, busy, noStop, exStateStep, stalled.valid,
      stalled.requesting, dataReqFire, refused]
  constructor
  · rw [kept, stalled.valid]
  · rw [kept, stalled.requesting]
  · exact wb_of_stay busy

/-! ### Flushed pipelines -/

/-- Nothing of the flushed path is left: EX, IF/ID and both buffers are empty
and the responses on their way are going to be dropped. -/
structure Drained (s : Core p) : Prop where
  ex : s.ex.valid = false
  ifId : s.fe.ifId.valid = false
  fbuf : s.fe.fbufValid = false
  pf : s.fe.pfValid = false
  discard : s.ifWaiting = true → s.fe.ifDiscardRsp = true
  pfDiscard : s.fe.pfInflight = true → s.fe.pfDiscard = true

theorem drained_of_flush (flushed : s.flush i = true) :
    (s.step i).Drained where
  ex := by
    have quiet := not_issue_of_flush flushed
    simp only [flush] at flushed
    rw [step_ex, exNext_of_quiet s i quiet, flushEx, if_pos flushed]
  ifId := by simp [fe_ifId_valid, flushed]
  fbuf := by simp [fe_fbufValid, flushed]
  pf := by simp [fe_pfValid, flushed]
  discard := by
    intro waiting
    simp only [ifWaiting, step_fe, fe_ifState, if_pos flushed] at waiting
    rw [step_fe, fe_ifDiscardRsp, if_pos flushed]
    by_contra still
    simp [still] at waiting
  pfDiscard := by
    intro inflight
    rw [step_fe, fe_pfInflight, pfReqFire_of_flush flushed] at inflight
    rw [step_fe, fe_pfDiscard, flushed]
    simp only [Bool.false_or, Bool.and_eq_true, Bool.not_eq_true']
      at inflight
    simp [inflight]

end Core

theorem Run.exSound {p : Params} (r : Run p) (n : ℕ) :
    (r.state n).ExSound :=
  trajectory_invariant Core.ExSound (fun _ _ => True)
    (Core.exSound_reset p r.power)
    (fun _ _ sound _ => Core.exSound_step sound) (fun _ => trivial) n

/-- After its prescribed cycles a run keeps presenting its request. -/
theorem Run.stalled_script
    {p : Params} {inputs : List CoreIn} {b : ℕ} (beyond : inputs.length ≤ b)
    (stalled : ((script p inputs).state b).Stalled) (n : ℕ) (late : b ≤ n) :
    ((script p inputs).state n).Stalled := by
  induction n, late using Nat.le_induction with
  | base => exact stalled
  | succ n late inductionHypothesis =>
      have idle : (script p inputs).inputs n = {} :=
        List.getD_eq_default _ _ (beyond.trans late)
      exact Core.stalled_step inductionHypothesis (by rw [idle])

/-! ## The stay of an instruction in EX -/

namespace Core

variable {p : Params} {s : Core p} {i : CoreIn}

theorem not_atomicRspOk_of_state (other : s.ex.state ≠ .exMemWait) :
    s.atomicRspOk i = false := by
  simp [atomicRspOk, other]

/-- The old value of an AMO changes with an atomic answer only. -/
theorem amoOldVal_of_silent (silent : s.atomicRspOk i = false) :
    (s.step i).amoOldVal = s.amoOldVal := by
  show s.amoOldValNext i = s.amoOldVal
  simp [amoOldValNext, silent]

/-- The first state is left for good. -/
theorem later_of_stay
    (quiet : s.idToExFire i = false) (still : (s.step i).ex.valid = true) :
    (s.step i).ex.state ≠ .exExec := by
  cases s.exCycle i with
  | issued issue next =>
      rw [quiet] at issue
      exact absurd issue (by decide)
  | emptied _ empty =>
      rw [step_ex, empty] at still
      exact absurd still (by decide)
  | accesses _ kept valid first access next =>
      by_cases fire : s.dataReqFire i = true <;> simp [next, fire]
  | waits _ kept valid later busy state rdata err next clean move =>
      have moved : (s.step i).ex.state = state := by rw [step_ex, next]
      rw [moved]
      cases move with
      | stays => exact later
      | accepted => simp
      | amoRead => simp
      | amoAccepted => simp

end Core

namespace Run

variable {p : Params} {r : Run p}

theorem wb_of_leave {n : ℕ}
    (leaves : (r.state n).exToWbFire (r.inputs n) = true)
    (goes : (r.state n).wbSingleStepStop = false) :
    (r.state (n + 1)).wb = (r.state n).completedWb (r.inputs n) :=
  Core.wb_of_leave leaves goes

/-- Cycle `x` is the first from cycle `n` on in which EX is left, and the
instruction is the same until then. -/
structure LeavesAt (r : Run p) (n x : ℕ) : Prop where
  le : n ≤ x
  leaves : (r.state x).exToWbFire (r.inputs x) = true
  stays : ∀ m, n ≤ m → m < x →
    (r.state m).exToWbFire (r.inputs m) = false ∧
      (r.state m).idToExFire (r.inputs m) = false
  same : SameInstr (r.state x).ex (r.state n).ex

variable {n x : ℕ} (stay : r.LeavesAt n x)
include stay

theorem LeavesAt.quiet
    {m : ℕ} (above : n ≤ m) (below : m < x) :
    (r.state m).exToWbFire (r.inputs m) = false ∧
      (r.state m).idToExFire (r.inputs m) = false :=
  stay.stays m above below

theorem LeavesAt.valid {m : ℕ} (above : n ≤ m) (within : m ≤ x) :
    (r.state m).ex.valid = true := by
  induction within using Nat.decreasingInduction with
  | self => exact Core.valid_of_leave stay.leaves
  | of_succ m below inductionHypothesis =>
      have still := inductionHypothesis (by omega)
      exact Core.valid_of_exNext (stay.quiet above below).2 still

theorem LeavesAt.later {m : ℕ} (above : n < m) (within : m ≤ x) :
    (r.state m).ex.state ≠ .exExec := by
  obtain ⟨before, rfl⟩ : ∃ before, m = before + 1 := ⟨m - 1, by omega⟩
  exact Core.later_of_stay (stay.quiet (by omega) (by omega)).2
    (stay.valid (m := before + 1) (by omega) within)

/-- WB is empty from the second cycle on. -/
theorem LeavesAt.wb_empty {m : ℕ} (above : n < m) (within : m ≤ x) :
    (r.state m).wb.valid = false := by
  obtain ⟨before, rfl⟩ : ∃ before, m = before + 1 := ⟨m - 1, by omega⟩
  exact Core.wb_of_stay (stay.quiet (by omega) (by omega)).1

end Run

end SisRv
