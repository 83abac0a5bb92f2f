import SisRv.Core.PreciseTraps
import SisRv.Core.Privilege

/-!
# The cause of a synchronous trap

Several abnormal conditions of an instruction can hold together.  One order
says which of them is reported, and what `mcause`, `mtval` and `mepc` show for
it.  WB departs from it in two ways: it looks at the data access before the
encoding, and it takes a misaligned SC or AMO for a load.
-/

namespace SisRv

/-- The abnormal conditions of an instruction. -/
inductive Abnormal where
  | fetchFault
  | trigger
  | illegal
  | misalignedTarget
  | misalignedData
  | dataFault
  | ecall
  | ebreak
  deriving DecidableEq, Repr

/-- The first one that applies is reported. -/
def Abnormal.order : List Abnormal :=
  [.fetchFault, .trigger, .illegal, .misalignedTarget, .misalignedData,
    .dataFault, .ecall, .ebreak]

namespace Core

variable {p : Params} (s : Core p) (i : CoreIn)

/-- The address of a data access. -/
def dataAddr : BitVec 32 :=
  if s.ex.isAtomic then s.ex.rs1Val
  else if s.ex.isStore then s.ex.rs1Val + s.ex.immS
  else s.ex.rs1Val + s.ex.immI

def misalignedData : Bool :=
  s.ex.isAccess && isMemMisaligned s.dataAddr s.ex.funct3

/-- The PMP refuses the access or the bus answers it with an error. -/
def dataFault : Bool :=
  s.exExecToWb && s.exPmpDFault ||
    (s.exMemToWb i || s.exAmoStoreToWb i) && i.dRspErr

/-- The bits of the instruction. -/
def instrBits : BitVec 32 :=
  if s.ex.isCompressed then (s.ex.raw.extractLsb' 0 16).setWidth 32
  else s.ex.raw

/-- A condition of the instruction that leaves EX.  A trigger applies when it
fires, and on a word that the decoder rejects none does, as section 4 of
`DEBUG_TRIGGERS_PLAN.md` has it. -/
def applies : Abnormal → Bool
  | .fetchFault => s.ex.fetchErr
  | .trigger => s.exTriggerHit
  | .illegal => !s.exLegalEff
  | .misalignedTarget => s.exInstrAddrMisaligned
  | .misalignedData => s.misalignedData
  | .dataFault => s.dataFault i
  | .ecall => s.exIsEcall
  | .ebreak => s.exIsEbreak

def firstAbnormal : Option Abnormal :=
  Abnormal.order.find? (s.applies i)

def abnormalCause : Abnormal → BitVec 32
  | .fetchFault => 1
  | .trigger => 3
  | .illegal => 2
  | .misalignedTarget => 0
  | .misalignedData => if s.ex.isStore || s.exIsSc || s.exIsAmoOp then 6 else 4
  | .dataFault => if s.ex.isStore || s.exIsSc || s.exIsAmoOp then 7 else 5
  | .ecall => if s.privO = privM then 11 else 8
  | .ebreak => 3

/-- The value that goes with a cause, if it has one. -/
def abnormalValue : Abnormal → Option (BitVec 32)
  | .fetchFault => some s.ex.pc
  | .trigger => some 0
  | .illegal => some s.instrBits
  | .misalignedTarget => some s.exNextPcTarget
  | .misalignedData => some s.dataAddr
  | .dataFault => some s.dataAddr
  | .ecall => none
  | .ebreak => none

/-- The two departures of WB, when neither a fetch fault nor a trigger hides
them: an illegal instruction whose access is misaligned or refused, and a
misaligned SC or AMO. -/
def causeSlips : Bool :=
  !s.ex.fetchErr && !s.exTriggerHit &&
    (!s.exLegalEff && (s.misalignedData || s.dataFault i) ||
      s.misalignedData && (s.exIsSc || s.exIsAmoOp))

/-- The cause and the value of the synchronous trap that the chain of WB takes
for the instruction. -/
def reported : Option (BitVec 32 × BitVec 32) :=
  if s.ex.fetchErr then some (1, s.ex.pc)
  else if s.exTriggerHit then some (3, 0)
  else if s.misalignedData then
    some (if s.ex.isStore then 6 else 4, s.dataAddr)
  else if s.dataFault i then
    some (if s.ex.isStore || s.exIsAmoOp || s.exIsSc then 7 else 5,
      s.dataAddr)
  else if s.exInstrAddrMisaligned then some (0, s.exNextPcTarget)
  else if !s.exLegalEff then some (2, s.instrBits)
  else if s.exIsEcall then some (if s.ex.priv = privM then 11 else 8, 0)
  else if s.exIsEbreak then some (3, 0)
  else none

/-- WB reports the condition it should. -/
def Reports : Option Abnormal → Prop
  | some x => ∃ val, s.reported i = some (s.abnormalCause x, val) ∧
      ∀ v ∈ s.abnormalValue x, val = v
  | none => s.reported i = none

section Access

variable {s i}

theorem abnormalCause_sync (x : Abnormal) :
    (s.abnormalCause x).getLsbD 31 = false := by
  unfold abnormalCause
  split
  case h_5 | h_6 | h_7 => split_ifs <;> decide
  all_goals decide

theorem reported_sync {cause val : BitVec 32}
    (reports : s.reported i = some (cause, val)) :
    cause.getLsbD 31 = false := by
  unfold reported at reports
  split_ifs at reports <;>
    (simp only [Option.some.injEq, Prod.mk.injEq] at reports
     rw [← reports.1]
     decide)

/-- The ALU adds up the address of an access. -/
theorem aluResult_of_access
    (coherent : s.ex.toDecoded.Coherent) (access : s.ex.isAccess = true) :
    s.aluResult = s.dataAddr := by
  have other := coherent.of_access access
  by_cases atomic : s.ex.isAtomic = true
  · have opcode : s.ex.opcode = opAmo := by
      simpa [coherent.isAtomic] using atomic
    have flags := coherent.flags_of_opcode opcode
    have noLoad : s.ex.isLoad = false := flags.2.2.2.2.2.1.trans (by decide)
    have noStore : s.ex.isStore = false :=
      flags.2.2.2.2.2.2.1.trans (by decide)
    simp [aluResult, aluA, aluB, aluOp, dataAddr, other, atomic, noLoad,
      noStore, sisAlu_add]
  · by_cases store : s.ex.isStore = true
    · simp [aluResult, aluA, aluB, aluOp, dataAddr, other, atomic, store,
        sisAlu_add]
    · have load : s.ex.isLoad = true := by
        simpa [Decoded.isAccess, atomic, store] using access
      simp [aluResult, aluA, aluB, aluOp, dataAddr, other, atomic, store,
        load, sisAlu_add]

/-- An instruction leaves in its first cycle or with a response. -/
theorem exit_cases (leaves : s.exToWbFire i = true) :
    s.exExecToWb = true ∧ s.exMemToWb i = false ∧
        s.exAmoStoreToWb i = false ∨
      s.exExecToWb = false ∧ s.ex.state ≠ .exExec ∧
        (s.exMemToWb i || s.exAmoStoreToWb i) = true := by
  by_cases first : s.ex.state = .exExec
  · have noMem : s.exMemToWb i = false := by simp [exMemToWb, first]
    have noStore : s.exAmoStoreToWb i = false := by
      simp [exAmoStoreToWb, first]
    exact Or.inl
      ⟨by simpa [exToWbFire, noMem, noStore] using leaves, noMem, noStore⟩
  · have noExec : s.exExecToWb = false := by simp [exExecToWb, first]
    exact Or.inr
      ⟨noExec, first, by simpa [exToWbFire, noExec] using leaves⟩

variable (sound : s.ExSound) (leaves : s.exToWbFire i = true)
include sound leaves

theorem completeMemMisaligned_eq :
    s.exCompleteMemMisaligned = s.misalignedData := by
  have valid := valid_of_leave leaves
  have coherent := sound.coherent valid
  rcases exit_cases leaves with ⟨exits, _⟩ | ⟨stayed, later, _⟩
  · by_cases access : s.ex.isAccess = true
    · rw [misalignedData, ← aluResult_of_access coherent access]
      simp [exCompleteMemMisaligned, exits, Decoded.isAccess]
    · have other : s.ex.isAccess = false := by simpa using access
      have flags : (s.ex.isLoad || s.ex.isStore || s.ex.isAtomic) = false :=
        other
      simp [exCompleteMemMisaligned, exits, misalignedData, other, flags]
  · have launched := sound.launched valid later
    have aligned : isMemMisaligned s.aluResult s.ex.funct3 = false := by
      simpa [exMemAligned] using launched.aligned
    rw [misalignedData, ← aluResult_of_access coherent launched.access,
      aligned, Bool.and_false]
    simp [exCompleteMemMisaligned, stayed, sound.memMisaligned valid]

theorem completeMemErr_eq : s.exCompleteMemErr i = s.dataFault i := by
  have clean := sound.memErr (valid_of_leave leaves)
  rcases exit_cases leaves with
    ⟨exits, noMem, noStore⟩ | ⟨stayed, _, answer⟩
  · by_cases refused : s.exPmpDFault = true <;>
      simp [exCompleteMemErr, dataFault, exits, noMem, noStore, refused, clean]
  · by_cases read : s.exMemToWb i = true
    · simp [exCompleteMemErr, dataFault, stayed, read]
    · have store : s.exAmoStoreToWb i = true := by simpa [read] using answer
      simp [exCompleteMemErr, dataFault, stayed, read, store]

theorem completeMemAddr_eq (access : s.ex.isAccess = true) :
    s.exCompleteMemAddr = s.dataAddr := by
  have valid := valid_of_leave leaves
  rw [← aluResult_of_access (sound.coherent valid) access]
  rcases exit_cases leaves with ⟨exits, _⟩ | ⟨stayed, later, _⟩
  · simp [exCompleteMemAddr, exits]
  · simp [exCompleteMemAddr, stayed, (sound.launched valid later).memAddr]

/-- Only a data access has a fault of its own. -/
theorem access_of_dataFault (fault : s.dataFault i = true) :
    s.ex.isAccess = true := by
  rcases exit_cases leaves with ⟨exits, noMem, noStore⟩ | ⟨_, later, _⟩
  · have refused : s.exPmpDFault = true := by
      simpa [dataFault, exits, noMem, noStore] using fault
    simp only [exPmpDFault, exDAccessRaw, exIsLr, exIsSc, exIsAmoOp,
      Bool.and_eq_true, Bool.or_eq_true] at refused
    simp only [Decoded.isAccess, Bool.or_eq_true]
    tauto
  · exact (sound.launched (valid_of_leave leaves) later).access

end Access

/-! ## The two chains -/

section Chains

variable {s i}

theorem not_target_of_access
    (coherent : s.ex.toDecoded.Coherent) (access : s.ex.isAccess = true) :
    s.exInstrAddrMisaligned = false := by
  have flags := coherent.of_access access
  simp [exInstrAddrMisaligned, flags]

theorem not_store_of_atomic
    (coherent : s.ex.toDecoded.Coherent)
    (atomic : s.exIsSc = true ∨ s.exIsAmoOp = true) :
    s.ex.isStore = false := by
  have isAtomic : s.ex.isAtomic = true := by
    simp only [exIsSc, exIsAmoOp, Bool.and_eq_true] at atomic
    exact atomic.elim (fun sc => sc.1) (fun amo => amo.1.1)
  have opcode : s.ex.opcode = opAmo := by
    simpa [coherent.isAtomic] using isAtomic
  exact (coherent.flags_of_opcode opcode).2.2.2.2.2.2.1.trans (by decide)

section First

variable (fetch : s.ex.fetchErr = false) (trigger : s.exTriggerHit = false)
include fetch trigger

/-- The encoding is tested last. -/
theorem reports_iff_of_illegal (illegal : s.exLegalEff = false) :
    s.Reports i (s.firstAbnormal i) ↔ s.causeSlips i = false := by
  have first : s.firstAbnormal i = some .illegal := by
    simp [firstAbnormal, Abnormal.order, applies, fetch, trigger, illegal]
  have noTarget : s.exInstrAddrMisaligned = false := by
    simp [exInstrAddrMisaligned, illegal]
  rw [first]
  by_cases access : s.misalignedData = true ∨ s.dataFault i = true
  · obtain ⟨cause, other, reports⟩ :
        ∃ cause : BitVec 32, cause ≠ 2 ∧
          s.reported i = some (cause, s.dataAddr) := by
      by_cases misaligned : s.misalignedData = true
      · exact ⟨if s.ex.isStore then 6 else 4, by split_ifs <;> decide,
          by simp [reported, fetch, trigger, misaligned]⟩
      · have fault := access.resolve_left misaligned
        exact ⟨if s.ex.isStore || s.exIsAmoOp || s.exIsSc then 7 else 5,
          by split_ifs <;> decide,
          by simp [reported, fetch, trigger, misaligned, fault]⟩
    refine iff_of_false ?_ ?_
    · rintro ⟨val, same, _⟩
      rw [reports, Option.some.injEq, Prod.mk.injEq] at same
      exact other same.1
    · rcases access with misaligned | fault
      · simp [causeSlips, fetch, trigger, illegal, misaligned]
      · simp [causeSlips, fetch, trigger, illegal, fault]
  · obtain ⟨misaligned, fault⟩ := not_or.mp access
    simp [causeSlips, Reports, reported, fetch, trigger, illegal, misaligned,
      fault, noTarget, abnormalCause, abnormalValue]

theorem reports_iff_of_legal
    (sound : s.ExSound) (leaves : s.exToWbFire i = true)
    (legal : s.exLegalEff = true) (privSound : s.PrivSound) :
    s.Reports i (s.firstAbnormal i) ↔ s.causeSlips i = false := by
  have valid := valid_of_leave leaves
  have coherent := sound.coherent valid
  simp only [firstAbnormal, Abnormal.order, causeSlips]
  by_cases target : s.exInstrAddrMisaligned = true
  · have noAccess : s.ex.isAccess = false := by
      by_contra access
      rw [not_target_of_access coherent (by simpa using access)] at target
      exact Bool.false_ne_true target
    have aligned : s.misalignedData = false := by
      simp [misalignedData, noAccess]
    have clean : s.dataFault i = false := by
      by_contra fault
      rw [access_of_dataFault sound leaves (by simpa using fault)]
        at noAccess
      exact absurd noAccess (by decide)
    simp [applies, fetch, trigger, legal, target, aligned, clean, Reports,
      reported, abnormalCause, abnormalValue]
  by_cases misaligned : s.misalignedData = true
  · by_cases sc : s.exIsSc = true
    · have noStore := not_store_of_atomic coherent (Or.inl sc)
      simp [applies, fetch, trigger, legal, target, misaligned, sc, noStore,
        Reports, reported, abnormalCause, abnormalValue]
    by_cases amo : s.exIsAmoOp = true
    · have noStore := not_store_of_atomic coherent (Or.inr amo)
      simp [applies, fetch, trigger, legal, target, misaligned, amo, noStore,
        Reports, reported, abnormalCause, abnormalValue]
    simp [applies, fetch, trigger, legal, target, misaligned, sc, amo,
      Reports, reported, abnormalCause, abnormalValue]
  by_cases fault : s.dataFault i = true
  · simp [applies, fetch, trigger, legal, target, misaligned, fault, Reports,
      reported, abnormalCause, abnormalValue, or_right_comm]
  by_cases ecall : s.exIsEcall = true
  · have priv : s.ex.priv = s.privO := privSound.ex valid
    simp [applies, fetch, trigger, legal, target, misaligned, fault, ecall,
      priv, Reports, reported, abnormalCause, abnormalValue]
  by_cases ebreak : s.exIsEbreak = true <;>
    simp [applies, fetch, trigger, legal, target, misaligned, fault, ecall,
      ebreak, Reports, reported, abnormalCause, abnormalValue]

end First

variable (sound : s.ExSound) (leaves : s.exToWbFire i = true)
include sound leaves

/-- The chain of WB reports the first condition exactly when it does not
slip. -/
theorem reports_first_iff (privSound : s.PrivSound) :
    s.Reports i (s.firstAbnormal i) ↔ s.causeSlips i = false := by
  by_cases fetch : s.ex.fetchErr = true
  · simp [firstAbnormal, Abnormal.order, applies, causeSlips, fetch, Reports,
      reported, abnormalCause, abnormalValue]
  by_cases trigger : s.exTriggerHit = true
  · simp [firstAbnormal, Abnormal.order, applies, causeSlips, fetch, trigger,
      Reports, reported, abnormalCause, abnormalValue]
  have fetch : s.ex.fetchErr = false := by simpa using fetch
  have trigger : s.exTriggerHit = false := by simpa using trigger
  by_cases legal : s.exLegalEff = true
  · exact reports_iff_of_legal fetch trigger sound leaves legal privSound
  · exact reports_iff_of_illegal fetch trigger (by simpa using legal)

variable (goes : s.wbSingleStepStop = false)
include goes

/-- WB traps for what the chain reports and returns to the instruction; the
other exits of WB do not trap or take an interrupt. -/
theorem control_of_leave :
    (s.step i).wbControl =
      match s.reported i with
      | some (cause, val) => wbTrap cause val s.ex.pc
      | none =>
          if s.exIsCsrOp then
            { csrWen := true, trapEpc := s.ex.pc
              instrRetire := (s.step i).wbRetires }
          else if s.exIsMret then
            { mretExec := true, trapEpc := s.ex.pc
              instrRetire := (s.step i).wbRetires }
          else if s.irqPending i then
            wbTrap (s.irqCause i) 0 s.exNextPcTarget
          else
            { trapEpc := s.ex.pc, instrRetire := (s.step i).wbRetires } := by
  have held := step_wb_of_leave leaves goes
  have address (access : s.ex.isAccess = true) :=
    completeMemAddr_eq sound leaves access
  simp only [wbControl, held, completedWb, reported,
    completeMemMisaligned_eq sound leaves, completeMemErr_eq sound leaves]
  by_cases fetch : s.ex.fetchErr = true
  · simp [fetch]
  by_cases trigger : s.exTriggerHit = true
  · simp [fetch, trigger]
  by_cases misaligned : s.misalignedData = true
  · have access : s.ex.isAccess = true := by
      simp only [misalignedData, Bool.and_eq_true] at misaligned
      exact misaligned.1
    simp [fetch, trigger, misaligned, address access]
  by_cases fault : s.dataFault i = true
  · simp [fetch, trigger, misaligned, fault,
      address (access_of_dataFault sound leaves fault)]
  by_cases target : s.exInstrAddrMisaligned = true
  · simp [fetch, trigger, misaligned, fault, target]
  by_cases legal : s.exLegalEff = true
  · by_cases ecall : s.exIsEcall = true
    · simp [fetch, trigger, misaligned, fault, target, legal, ecall,
        not_csrOp_of_imm ecall]
    by_cases ebreak : s.exIsEbreak = true
    · simp [fetch, trigger, misaligned, fault, target, legal, ecall, ebreak,
        not_csrOp_of_imm ebreak]
    simp [fetch, trigger, misaligned, fault, target, legal, ecall, ebreak]
  · simp [fetch, trigger, misaligned, fault, target, legal, instrBits]

/-- Without a report only an interrupt makes WB trap. -/
theorem interrupt_of_not_reported (silent : s.reported i = none)
    {cause : BitVec 32} (trap : (s.step i).wbDecision = .trap cause) :
    cause.getLsbD 31 = true := by
  have control := control_of_leave sound leaves goes
  simp only [wbDecision, trapEnter, trapCause, mretExec, control, silent]
    at trap
  by_cases csrOp : s.exIsCsrOp = true
  · simp [csrOp] at trap
  by_cases mret : s.exIsMret = true
  · simp [csrOp, mret] at trap
  by_cases pending : s.irqPending i = true
  · have same : s.irqCause i = cause := by
      simpa [csrOp, mret, pending, wbTrap] using trap
    rw [← same]
    rcases irqCause_of_pending pending with is | is | is <;> rw [is] <;>
      decide
  · simp [csrOp, mret, pending] at trap

end Chains

end Core

namespace Run

variable {p : Params} (r : Run p)

/-- The trap of the instruction that leaves EX in cycle `n` is recorded with
the cause, the value and the PC of a condition. -/
structure Records (n : ℕ) (x : Abnormal) : Prop where
  taken : (r.state (n + 1)).wbDecision =
    .trap ((r.state n).abnormalCause x)
  mcause : (r.state (n + 2)).csr.mcause = (r.state n).abnormalCause x
  mtval : ∀ v ∈ (r.state n).abnormalValue x,
    (r.state (n + 2)).csr.mtval = v
  mepc : (r.state (n + 2)).csr.mepc = (r.state n).ex.pc

/-- What is recorded for the instruction is the first condition that applies;
without one it has no synchronous trap. -/
def RecordsFirst (n : ℕ) : Prop :=
  match (r.state n).firstAbnormal (r.inputs n) with
  | some x => r.Records n x
  | none => ∀ cause, (r.state (n + 1)).wbDecision = .trap cause →
      cause.getLsbD 31 = true

variable {r} {n : ℕ}

theorem recorded_of_control {cause val epc : BitVec 32}
    (control : (r.state n).wbControl = Core.wbTrap cause val epc) :
    (r.state n).wbDecision = .trap cause ∧
      (r.state (n + 1)).csr.mcause = cause ∧
      (r.state (n + 1)).csr.mtval = val ∧
      (r.state (n + 1)).csr.mepc = epc := by
  have decision : (r.state n).wbDecision = .trap cause := by
    simp [Core.wbDecision, Core.trapEnter, Core.trapCause, control,
      Core.wbTrap]
  obtain ⟨mcause, mepc, _⟩ := r.recorded_of_trap n decision
  refine ⟨decision, mcause, ?_, by rw [mepc, control]; rfl⟩
  simp [r.state_succ n, CsrState.next, CsrState.latchHits, CsrState.commit,
    Core.csrIn, Core.trapEnter, control, Core.wbTrap]

end Run

/-- For every instruction that reaches WB, the first condition that applies is
recorded exactly when the chain of WB does not slip. -/
theorem records_first_iff {p : Params} (r : Run p) (n : ℕ)
    (reaches : (r.state (n + 1)).wb.valid = true) :
    r.RecordsFirst n ↔ (r.state n).causeSlips (r.inputs n) = false := by
  have sound := r.exSound n
  rw [r.state_succ] at reaches
  obtain ⟨leaves, goes⟩ := Core.leave_of_wb_valid reaches
  have control := Core.control_of_leave sound leaves goes
  have interrupt (silent : (r.state n).reported (r.inputs n) = none) (cause)
      (trap : (r.state (n + 1)).wbDecision = .trap cause) :
      cause.getLsbD 31 = true := by
    rw [r.state_succ] at trap
    exact Core.interrupt_of_not_reported sound leaves goes silent trap
  rw [← r.state_succ] at control
  rw [← Core.reports_first_iff sound leaves (r.privSound n),
    Run.RecordsFirst]
  cases reports : (r.state n).reported (r.inputs n) with
  | some told =>
      obtain ⟨cause, val⟩ := told
      rw [reports] at control
      obtain ⟨taken, mcause, mtval, mepc⟩ := Run.recorded_of_control control
      cases (r.state n).firstAbnormal (r.inputs n) with
      | some x =>
          constructor
          · intro records
            have same := taken.symm.trans records.taken
            simp only [WbDecision.trap.injEq] at same
            exact ⟨val, by rw [reports, same], fun v is =>
              mtval.symm.trans (records.mtval v is)⟩
          · rintro ⟨told, same, value⟩
            rw [reports, Option.some.injEq, Prod.mk.injEq] at same
            obtain ⟨rfl, rfl⟩ := same
            exact
              ⟨taken, mcause, fun v is => mtval.trans (value v is), mepc⟩
      | none =>
          have sync := Core.reported_sync reports
          refine iff_of_false (fun silent => ?_)
            (by simp [Core.Reports, reports])
          rw [silent cause taken] at sync
          exact absurd sync (by decide)
  | none =>
      cases (r.state n).firstAbnormal (r.inputs n) with
      | some x =>
          refine iff_of_false (fun records => ?_)
            (by simp [Core.Reports, reports])
          have sync := (r.state n).abnormalCause_sync x
          rw [interrupt reports _ records.taken] at sync
          exact absurd sync (by decide)
      | none => exact iff_of_true (interrupt reports) reports

/-- An instruction with a data address of one. -/
def misalignedAccess (instr : BitVec 32) : Run {} :=
  Run.script {} (CoreIn.fetch [0x00100093, instr])

/-- A word load. -/
theorem records_first_iff_misalignedLoad :
    (misalignedAccess 0x0000A103).RecordsFirst 5 :=
  (records_first_iff (misalignedAccess 0x0000A103) 5 (by decide)).mpr
    (by decide)

/-- AMOSWAP at a misaligned address is recorded as a misaligned load. -/
theorem not_records_first :
    ¬ ∀ (p : Params) (r : Run p) (n : ℕ),
      (r.state (n + 1)).wb.valid = true → r.RecordsFirst n := by
  intro all
  have records :
      (misalignedAccess 0x0830A12F).Records 5 .misalignedData :=
    all {} (misalignedAccess 0x0830A12F) 5 (by decide)
  exact absurd records.mcause (by decide)

end SisRv
