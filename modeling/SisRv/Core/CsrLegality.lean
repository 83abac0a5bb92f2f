import SisRv.Core.TrapCause
import SisRv.Lib.BitField

/-!
# Legality of CSR accesses

The rule of the privileged architecture for a CSR instruction, as a function of
its word, the privilege and `mcounteren`, and what EX makes of it.
-/

namespace SisRv

/-- A CSR instruction: its CSR, whether it is one of CSRRW and CSRRWI, and its
field `rs1` or `uimm`. -/
structure CsrAccess where
  addr : BitVec 12
  swaps : Bool
  field : BitVec 5
  deriving DecidableEq, Repr

namespace CsrAccess

def ofInstr (instr : BitVec 32) : CsrAccess :=
  { addr := instr.extractLsb' 20 12
    swaps := instr.extractLsb' 12 2 == 0b01
    field := instr.extractLsb' 15 5 }

variable (a : CsrAccess)

def readOnly : Bool := a.addr.extractLsb' 10 2 == 0b11

/-- A swap writes whatever its field; to set and to clear bits writes if the
field is not zero. -/
def writes : Bool := a.swaps || a.field != 0

/-- The lowest privilege that may name the CSR. -/
def level : BitVec 2 := a.addr.extractLsb' 8 2

/-- The privilege is too low, or the level is S or H. -/
def levelDenied (priv : BitVec 2) : Bool :=
  a.level == 0b01 || a.level == 0b10 || priv.ult a.level

/-- The user shadow of counter `n`, low or high half; there is no shadow of
counter 1, which would be TIME. -/
def shadow : Option (BitVec 5) :=
  if (a.addr.extractLsb' 5 7 = 0b1100000 ∨
        a.addr.extractLsb' 5 7 = 0b1100100) ∧
      a.addr.extractLsb' 0 5 ≠ 1 then
    some (a.addr.extractLsb' 0 5)
  else none

def counterDenied (priv : BitVec 2) (mcounteren : BitVec 32) : Bool :=
  priv == privU &&
    a.shadow.any fun n => !mcounteren.getLsbD n.toNat

/-- The instruction must trap as illegal. -/
def denied (priv : BitVec 2) (mcounteren : BitVec 32) : Bool :=
  a.levelDenied priv || a.readOnly && a.writes ||
    a.counterDenied priv mcounteren

/-- A swap with a zero field to a read-only CSR. -/
def zeroSwap : Bool := a.readOnly && a.swaps && a.field == 0

/-- Every other access writes a read-only CSR with its field only. -/
theorem writes_of_plain (plain : a.zeroSwap = false) :
    (a.readOnly && a.writes) = (a.readOnly && a.field != 0) := by
  simp only [zeroSwap, writes, bne] at plain ⊢
  cases readOnly : a.readOnly <;> cases swaps : a.swaps <;>
    simp_all

/-! ### The shadows by address -/

theorem shadow_page_iff (addr : BitVec 12) :
    addr.extractLsb' 5 7 = 0b1100000 ∨ addr.extractLsb' 5 7 = 0b1100100 ↔
      addr.toNat / 32 = 96 ∨ addr.toNat / 32 = 100 := by
  have bound := addr.isLt
  simp only [← BitVec.toNat_inj, BitVec.extractLsb'_toNat,
    Nat.shiftRight_eq_div_pow, BitVec.reduceToNat]
  omega

/-- The two shadows with a name and the two ranges of the others. -/
theorem shadow_any (permits : ℕ → Bool) :
    (a.shadow.any fun n => permits n.toNat) =
      ((a.addr == 0xC00 || a.addr == 0xC80) && permits 0 ||
        (a.addr == 0xC02 || a.addr == 0xC82) && permits 2 ||
        (decide (0xC03 ≤ a.addr) && decide (a.addr ≤ 0xC1F) ||
            decide (0xC83 ≤ a.addr) && decide (a.addr ≤ 0xC9F)) &&
          permits (a.addr.extractLsb' 0 5).toNat) := by
  have index : (a.addr.extractLsb' 0 5).toNat = a.addr.toNat % 32 := by
    simp
  have shadowed : (a.shadow.any fun n => permits n.toNat) = true ↔
      (a.addr.toNat / 32 = 96 ∨ a.addr.toNat / 32 = 100) ∧
        a.addr.toNat % 32 ≠ 1 ∧ permits (a.addr.toNat % 32) = true := by
    have other : a.addr.extractLsb' 0 5 ≠ 1 ↔ a.addr.toNat % 32 ≠ 1 := by
      rw [ne_eq, ← BitVec.toNat_inj, index]
      rfl
    simp only [shadow, shadow_page_iff, other]
    split_ifs with inside
    · simp [index, inside]
    · simp only [Option.any_none, Bool.false_eq_true, false_iff]
      exact fun all => inside ⟨all.1, all.2.1⟩
  rw [Bool.eq_iff_iff, shadowed]
  simp only [← BitVec.toNat_inj, Bool.or_eq_true, Bool.and_eq_true,
    beq_iff_eq, decide_eq_true_eq, BitVec.le_def, index,
    BitVec.reduceToNat]
  constructor
  · rintro ⟨inside, other, set⟩
    have split : a.addr.toNat % 32 = 0 ∨ a.addr.toNat % 32 = 2 ∨
        3 ≤ a.addr.toNat % 32 := by omega
    rcases split with cycle | instret | hpm
    · rw [cycle] at set
      exact Or.inl (Or.inl ⟨by omega, set⟩)
    · rw [instret] at set
      exact Or.inl (Or.inr ⟨by omega, set⟩)
    · exact Or.inr ⟨by omega, set⟩
  · rintro ((⟨named, set⟩ | ⟨named, set⟩) | ⟨named, set⟩)
    · have cycle : a.addr.toNat % 32 = 0 := by omega
      rw [cycle]
      exact ⟨by omega, by omega, set⟩
    · have instret : a.addr.toNat % 32 = 2 := by omega
      rw [instret]
      exact ⟨by omega, by omega, set⟩
    · exact ⟨by omega, by omega, set⟩

end CsrAccess

/-- The word is one of the six CSR instructions. -/
def IsCsrInstr (instr : BitVec 32) : Prop :=
  instr.extractLsb' 0 7 = opSystem ∧ instr.extractLsb' 12 2 ≠ 0

instance (instr : BitVec 32) : Decidable (IsCsrInstr instr) :=
  inferInstanceAs (Decidable (_ ∧ _))

namespace Core

variable {p : Params} (s : Core p) (i : CoreIn)

/-- The CSR access of the instruction in EX. -/
def csrAccess : CsrAccess := CsrAccess.ofInstr s.ex.instr

/-- A CSR instruction that was fetched without a fault, and that no trigger
stops, goes from EX to WB. -/
structure JudgesCsr : Prop where
  leaves : s.exToWbFire i = true
  goes : s.wbSingleStepStop = false
  csr : IsCsrInstr s.ex.instr
  whole : s.ex.isCompressed = false ∧ s.ex.illegalCompressed = false
  fetched : s.ex.fetchErr = false
  noTrigger : s.exTriggerHit = false

/-- WB takes the illegal-instruction trap in the next cycle. -/
def TrapsIllegal : Prop := (s.step i).wbDecision = .trap 2

instance : Decidable (s.TrapsIllegal i) :=
  inferInstanceAs (Decidable (_ = _))

section Csr

variable {s i} (sound : s.ExSound) (valid : s.ex.valid = true)
  (csr : IsCsrInstr s.ex.instr)
include sound valid csr

theorem isSystem_of_csr : s.ex.isSystem = true := by
  rw [sound.decoded valid]
  simp [sisDecode, csr.1]

theorem exIsCsrOp_of_csr : s.exIsCsrOp = true := by
  have funct3 : s.ex.funct3 = s.ex.instr.extractLsb' 12 3 := by
    rw [sound.decoded valid]
    rfl
  have op := csr.2
  simp only [exIsCsrOp, isSystem_of_csr sound valid csr, Bool.true_and,
    funct3, bne_iff_ne, ne_eq]
  intro zero
  have low := congrArg (BitVec.extractLsb' 0 2) zero
  rw [BitField.extract_extract _ (by decide)] at low
  exact op low

theorem not_systemImm (imm12 : BitVec 12) :
    s.exIsSystemImm imm12 = false := by
  by_contra named
  have other := not_csrOp_of_imm (by simpa using named)
  rw [exIsCsrOp_of_csr sound valid csr] at other
  exact absurd other (by decide)

theorem exDecIsLegalEff_of_csr
    (whole : s.ex.isCompressed = false ∧ s.ex.illegalCompressed = false) :
    s.exDecIsLegalEff = true := by
  have op : (s.ex.instr.extractLsb' 12 3).extractLsb' 0 2 ≠ 0 := by
    rw [BitField.extract_extract _ (by decide)]
    exact csr.2
  have code : ∀ funct3 : BitVec 3, funct3.extractLsb' 0 2 ≠ 0 →
      (funct3 == 0b001 || funct3 == 0b010 || funct3 == 0b011 ||
        funct3 == 0b101 || funct3 == 0b110 || funct3 == 0b111) = true := by
    decide
  have system (funct3 : BitVec 3) (other : funct3.extractLsb' 0 2 ≠ 0)
      (imm12 : BitVec 12) : legalSystem funct3 imm12 = true := by
    have codes := code funct3 other
    simp only [Bool.or_assoc] at codes
    simp only [legalSystem, Bool.or_assoc, codes, Bool.or_true]
  have legal : s.ex.isLegal = true := by
    rw [sound.decoded valid]
    simp [sisDecode, csr.1, system _ op]
  simp [exDecIsLegalEff, legal, whole]

theorem exCsrPrivViol_eq :
    s.exCsrPrivViol = (p.enableU && s.csrAccess.levelDenied s.ex.priv) := by
  have level : s.csrAccess.level = s.exCsrReqPriv := by
    simp only [csrAccess, CsrAccess.ofInstr, CsrAccess.level]
    exact BitField.extract_extract _ (by decide)
  simp only [exCsrPrivViol, exIsCsrOp_of_csr sound valid csr, Bool.and_true,
    CsrAccess.levelDenied, level]
  generalize s.exCsrReqPriv = level
  generalize s.ex.priv = priv
  congr 1
  revert level priv
  decide

theorem exCsrRoViol_eq :
    s.exCsrRoViol = (s.csrAccess.readOnly && s.csrAccess.field != 0) := by
  have readOnly :
      s.csrAccess.readOnly = (s.ex.instr.extractLsb' 30 2 == 0b11) := by
    simp only [csrAccess, CsrAccess.ofInstr, CsrAccess.readOnly]
    rw [BitField.extract_extract _ (by decide)]
  have field : s.ex.rs1 = s.csrAccess.field := by
    rw [sound.decoded valid]
    rfl
  simp only [exCsrRoViol, exCsrWrites, exIsCsrOp_of_csr sound valid csr,
    Bool.true_and, readOnly, field]
  generalize s.ex.instr.extractLsb' 30 2 = bits
  generalize (s.csrAccess.field != 0) = written
  revert bits written
  decide

theorem exMcounterenBlock_eq :
    s.exMcounterenBlock =
      (p.enableU &&
        s.csrAccess.counterDenied s.ex.priv s.csr.mcounteren) := by
  have shadows := s.csrAccess.shadow_any fun n => !s.csr.mcounteren.getLsbD n
  simp only [exMcounterenBlock, exIsCsrOp_of_csr sound valid csr,
    Bool.and_true, CsrAccess.counterDenied, shadows]
  rw [Bool.and_assoc]
  rfl

/-- What makes a CSR instruction illegal, in the terms of its access. -/
theorem exPrivIllegal_of_csr :
    s.exPrivIllegal =
      (p.enableU &&
        (s.csrAccess.levelDenied s.ex.priv ||
          s.csrAccess.readOnly && s.csrAccess.field != 0 ||
          s.csrAccess.counterDenied s.ex.priv s.csr.mcounteren)) := by
  have notMret : s.exIsMret = false := not_systemImm sound valid csr _
  have notWfi : s.exIsWfi = false := not_systemImm sound valid csr _
  rw [exPrivIllegal, notMret, notWfi, exCsrPrivViol_eq sound valid csr,
    exCsrRoViol_eq sound valid csr, exMcounterenBlock_eq sound valid csr]
  cases p.enableU <;> simp

end Csr

section Trap

variable {s i} (sound : s.ExSound) (judged : s.JudgesCsr i)
include sound judged

/-- A CSR instruction has no other trap than that of its legality. -/
theorem trapsIllegal_iff : s.TrapsIllegal i ↔ s.exPrivIllegal = true := by
  obtain ⟨leaves, goes, csr, whole, fetched, noTrigger⟩ := judged
  have valid := valid_of_leave leaves
  have other := (sound.coherent valid).of_system
    (isSystem_of_csr sound valid csr)
  have noAccess : s.ex.isAccess = false := by simp [Decoded.isAccess, other]
  have noMisaligned : s.misalignedData = false := by
    simp [misalignedData, noAccess]
  have noFault : s.dataFault i = false := by
    by_contra fault
    rw [access_of_dataFault sound leaves (by simpa using fault)] at noAccess
    exact absurd noAccess (by decide)
  have noTarget : s.exInstrAddrMisaligned = false := by
    simp [exInstrAddrMisaligned, other]
  have csrOp := exIsCsrOp_of_csr sound valid csr
  have notEcall : s.exIsEcall = false := not_systemImm sound valid csr _
  have notEbreak : s.exIsEbreak = false := not_systemImm sound valid csr _
  have control := control_of_leave sound leaves goes
  have legal : s.exLegalEff = !s.exPrivIllegal := by
    simp [exLegalEff, exDecIsLegalEff_of_csr sound valid csr whole]
  simp only [TrapsIllegal, wbDecision, trapEnter, trapCause, mretExec,
    control, reported, fetched, noTrigger, noMisaligned, noFault, noTarget,
    legal]
  by_cases illegal : s.exPrivIllegal = true
  · simp [illegal, wbTrap]
  · simp [illegal, csrOp, notEcall, notEbreak]

/-- EX takes the operation bits from the address, so that a swap with a zero
field is no write to it. -/
theorem trapsIllegal_iff_access :
    s.TrapsIllegal i ↔
      p.enableU = true ∧
        (s.csrAccess.levelDenied s.ex.priv = true ∨
          s.csrAccess.readOnly = true ∧ s.csrAccess.field ≠ 0 ∨
          s.csrAccess.counterDenied s.ex.priv s.csr.mcounteren = true) := by
  have valid := valid_of_leave judged.leaves
  rw [trapsIllegal_iff sound judged,
    exPrivIllegal_of_csr sound valid judged.csr]
  simp [or_assoc]

end Trap

end Core

/-- With ENABLE_U a CSR instruction traps as illegal exactly when the rule
denies it, a swap with a zero field to a read-only CSR aside; such a swap traps
when it is denied for its level or its counter.  Without ENABLE_U there is no
rule. -/
theorem csr_illegal_iff {p : Params} {s : Core p} {i : CoreIn}
    (sound : s.ExSound) (judged : s.JudgesCsr i) :
    (p.enableU = false → ¬ s.TrapsIllegal i) ∧
      (p.enableU = true → s.csrAccess.zeroSwap = false →
        (s.TrapsIllegal i ↔
          s.csrAccess.denied s.ex.priv s.csr.mcounteren = true)) ∧
      (p.enableU = true → s.csrAccess.zeroSwap = true →
        s.csrAccess.levelDenied s.ex.priv = true ∨
          s.csrAccess.counterDenied s.ex.priv s.csr.mcounteren = true →
        s.TrapsIllegal i) := by
  have access := Core.trapsIllegal_iff_access sound judged
  refine ⟨fun noU traps => ?_, fun withU plain => ?_, fun withU _ denied => ?_⟩
  · rw [(access.mp traps).1] at noU
    exact absurd noU (by decide)
  · rw [access, CsrAccess.denied, CsrAccess.writes_of_plain _ plain]
    simp only [Bool.or_eq_true, Bool.and_eq_true, bne_iff_ne, withU,
      true_and, or_assoc]
  · rw [access]
    exact ⟨withU, denied.imp_right Or.inr⟩

/-- One SYSTEM instruction from reset, in EX in cycle 3. -/
def fetchesSystem (p : Params) (instr : BitVec 32) : Core p :=
  (Run.script p (CoreIn.fetch [instr])).state 3

theorem fetchesSystem_sound (p : Params) (instr : BitVec 32) :
    (fetchesSystem p instr).ExSound := Run.exSound _ 3

/-- CSRRS with `x1` writes `mvendorid`, which is read-only. -/
theorem csr_illegal_iff_mvendorid :
    (fetchesSystem {} 0xF110A073).TrapsIllegal {} :=
  ((csr_illegal_iff (fetchesSystem_sound {} 0xF110A073)
    (i := {}) (by constructor <;> decide)).2.1 rfl (by decide)).mpr (by decide)

/-- Without ENABLE_U the write does not trap. -/
theorem not_csr_illegal_iff :
    ¬ ∀ (p : Params) (s : Core p) (i : CoreIn), s.ExSound → s.JudgesCsr i →
      (s.TrapsIllegal i ↔
        s.csrAccess.denied s.ex.priv s.csr.mcounteren = true) := by
  intro all
  have trap := (all { enableU := false }
    (fetchesSystem { enableU := false } 0xF110A073) {}
    (fetchesSystem_sound _ _) (by constructor <;> decide)).mpr (by decide)
  revert trap
  decide

end SisRv
