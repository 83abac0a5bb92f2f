import SisRv.Core.Steady
import SisRv.Isa.Outcomes

/-!
# Ordinary instructions

A program of instructions that neither trap nor access a CSR leaves the CSR
state as it is at reset, up to the counters: machine mode, no interrupt, no
trigger, and a PMP that allows everything.
-/

namespace SisRv

open Riscv Sync

/-! ## The CSR state of reset -/

/-- The CSR state is that of reset, up to the counters. -/
def CsrState.Untouched {p : Params} (c : CsrState p) : Prop :=
  c.uncounted = CsrState.reset p

namespace CsrState.Untouched

variable {p : Params} {c n : CsrState p}

section Fields

variable (untouched : c.Untouched)
include untouched

theorem fields :
    c.mstatus = 0 ∧ c.priv = privM ∧ (c.pmpcfg = fun _ => 0) ∧
      c.tdata1 = fun _ => 0 :=
  ⟨congrArg mstatus untouched, congrArg priv untouched,
    congrArg pmpcfg untouched, congrArg tdata1 untouched⟩

theorem irqPending (lines : IrqLines) : c.irqPending lines = false := by
  simp [CsrState.irqPending, meipOn, mtipOn, msipOn, irqOn, untouched.fields]

/-- Without an entry the PMP allows everything in machine mode. -/
theorem allows (addr : BitVec 32) (reqR reqW reqX : Bool) :
    sisPmp c.pmpcfg c.pmpaddr addr privM reqR reqW reqX = true := by
  have unmatched : pmpWinner c.pmpcfg c.pmpaddr addr = none := by
    rw [pmpWinner, List.find?_eq_none]
    intro entry member
    simp [pmpMatch, entryMatches, untouched.fields]
  simp [sisPmp, unmatched]

theorem alike (other : n.Untouched) : Alike c n := by
  let quiet : CsrIn p :=
    ⟨0, 0, 0, false, false, 0, 0, 0, false, false, 0, fun _ => false⟩
  have uncounted : c.uncounted = n.uncounted := Eq.trans untouched other.symm
  have same := alike_of_uncounted (x := quiet) uncounted
  rwa [latchHits_of_none rfl] at same

end Fields

theorem reset : (CsrState.reset p).Untouched := rfl

end CsrState.Untouched

namespace Core

variable {p : Params} {s t : Core p} {i : CoreIn}

section Untouched

variable (untouched : s.csr.Untouched)
include untouched

theorem no_hits_of_untouched : s.trigHitSet = fun _ => false := by
  funext slot
  simp [trigHitSet, triggerMatches, untouched.fields]

theorem no_trigger_of_untouched : s.exTriggerHit = false := by
  simp [exTriggerHit, no_hits_of_untouched untouched]

theorem idle_of_untouched (i : CoreIn) : s.irqPending i = false :=
  untouched.irqPending i.irq

theorem allowed_of_untouched : s.pmpDAllow = true := by
  have priv : s.dPmpPriv = privM := by
    simp [dPmpPriv, privO, mstatusMprv, untouched.fields]
  rw [pmpDAllow, priv]
  exact untouched.allows _ _ _ _

/-- An aligned access is made. -/
theorem access_of_untouched :
    s.exMemAccess = (s.exDAccessRaw && s.exMemAligned) := by
  simp [exMemAccess, no_trigger_of_untouched untouched,
    allowed_of_untouched untouched]

end Untouched

/-! ## No exception -/

/-- Targets of jumps and branches are even. -/
theorem even_target {w : BitVec 32} {x : BitVec 5 → BitVec 32}
    (executes : s.Executes w x) (even : s.ex.pc.getLsbD 0 = false)
    (jumps : (s.ex.isJal || s.ex.isJalr ||
      (s.ex.isBranch && s.exBranchTaken)) = true) :
    s.exNextPcTarget.getLsbD 0 = false := by
  have lowest (a b : BitVec 32) (left : a.getLsbD 0 = false)
      (right : b.getLsbD 0 = false) : (a + b).getLsbD 0 = false := by
    rw [← BitVec.testBit_toNat, Nat.testBit_zero, decide_eq_false_iff_not]
      at left right ⊢
    rw [BitVec.toNat_add]
    omega
  have extended {k : ℕ} (v : BitVec k) :
      ((v ++ 0#1).signExtend 32).getLsbD 0 = false := by
    rw [BitVec.getLsbD_signExtend, BitVec.getLsbD_append]
    simp
  rw [exNextPcTarget]
  by_cases jal : s.ex.isJal = true
  · rw [if_pos jal]
    refine lowest _ _ even ?_
    rw [executes.decoded]
    exact extended _
  rw [if_neg jal]
  by_cases jalr : s.ex.isJalr = true
  · rw [if_pos jalr]
    simp [exJalrTarget]
  rw [if_neg jalr]
  have taken : (s.ex.isBranch && s.exBranchTaken) = true := by
    simpa [jal, jalr] using jumps
  rw [if_pos taken]
  refine lowest _ _ even ?_
  rw [executes.decoded]
  exact extended _

/-- EX holds an ordinary instruction that has been fetched without an error
from an even address, and an access of it is aligned. -/
structure Sane (s : Core p) : Prop where
  executes : ∃ w x, s.Executes w x
  even : s.ex.pc.getLsbD 0 = false
  legal : s.ex.isLegal = true
  expanded : s.ex.illegalCompressed = false
  fetched : s.ex.fetchErr = false
  notAtomic : s.ex.isAtomic = false
  notSystem : s.ex.isSystem = false
  aligned : s.exDAccessRaw = true → s.exMemAligned = true

namespace Sane

variable (sane : s.Sane)
include sane

theorem exLegalEff (enableC : p.enableC = true) : s.exLegalEff = true := by
  have expanded : s.exDecIsLegalEff = true := by
    simp [exDecIsLegalEff, enableC, sane.legal, sane.expanded]
  simp [Core.exLegalEff, expanded, exPrivIllegal, exIsMret, exIsWfi,
    exIsSystemImm, exCsrPrivViol, exCsrRoViol, exMcounterenBlock, exIsCsrOp,
    sane.notSystem]

theorem exInstrAddrMisaligned (enableC : p.enableC = true) :
    s.exInstrAddrMisaligned = false := by
  obtain ⟨w, x, executes⟩ := sane.executes
  simp only [Core.exInstrAddrMisaligned, enableC, Bool.true_or, if_true]
  by_cases jumps : (s.ex.isJal || s.ex.isJalr ||
      (s.ex.isBranch && s.exBranchTaken)) = true
  · rw [even_target executes sane.even jumps, Bool.and_false]
  · simp [jumps]

/-- The checks of the last cycle depend on the instruction, and on what its
access found. -/
theorem of_same (same : SameInstr t.ex s.ex) : t.Sane where
  executes := by
    obtain ⟨w, x, decoded, rs1, rs2⟩ := sane.executes
    exact ⟨w, x, by rw [same.toDecoded, decoded],
      by rw [same.rs1Val, rs1], by rw [same.rs2Val, rs2]⟩
  even := by rw [same.pc, sane.even]
  legal := by rw [same.toDecoded, sane.legal]
  expanded := by rw [same.illegalCompressed, sane.expanded]
  fetched := by rw [same.fetchErr, sane.fetched]
  notAtomic := by rw [same.toDecoded, sane.notAtomic]
  notSystem := by rw [same.toDecoded, sane.notSystem]
  aligned := by
    have raw : t.exDAccessRaw = s.exDAccessRaw := by
      simp [exDAccessRaw, exIsLr, exIsSc, exIsAmoOp, same.toDecoded,
        sane.notAtomic]
    rw [raw, same.exMemAligned]
    exact sane.aligned

end Sane

/-- The instruction that is in its first cycle in `s` leaves EX in `t`. -/
structure LeavesFrom (s t : Core p) (i : CoreIn) : Prop where
  first : s.ex.state = .exExec
  clean : s.ex.memErr = false
  ex : t.ex = if s.exMemAccess then s.launched.ex else s.ex
  leaves : t.exToWbFire i = true

namespace LeavesFrom

variable (leaving : s.LeavesFrom t i)
include leaving

theorem same : SameInstr t.ex s.ex := by
  rw [leaving.ex]
  split_ifs <;> constructor <;> rfl

/-- Without an access there is nothing for the memory to refuse. -/
theorem of_plain (sane : s.Sane) (untouched : s.csr.Untouched)
    (plain : s.exMemAccess = false) :
    t.exCompleteMemErr i = false ∧ t.exCompleteMemMisaligned = false := by
  have kept : t.ex = s.ex := by rw [leaving.ex, plain, if_neg Bool.false_ne_true]
  have raw : s.exDAccessRaw = false := by
    rw [access_of_untouched untouched] at plain
    by_contra made
    have raw : s.exDAccessRaw = true := by simpa using made
    rw [raw, sane.aligned raw] at plain
    exact absurd plain (by decide)
  have none : t.exPmpDFault = false := by
    rw [exPmpDFault, show t.exDAccessRaw = s.exDAccessRaw by
      simp [exDAccessRaw, exIsLr, exIsSc, exIsAmoOp, kept, sane.notAtomic],
      raw]
    rfl
  have state : t.ex.state = .exExec := by rw [kept, leaving.first]
  have exits : t.exExecToWb = true := by
    have leaves := leaving.leaves
    rw [leave_of_exec state] at leaves
    simpa [exExecToWb, state] using leaves
  constructor
  · simp [exCompleteMemErr, exits, none, exMemToWb, exAmoStoreToWb, kept,
      leaving.first, leaving.clean]
  · simp only [exDAccessRaw, Bool.or_eq_false_iff] at raw
    rw [exCompleteMemMisaligned, if_pos exits, kept, raw.1.1.1.1,
      raw.1.1.1.2, sane.notAtomic]
    rfl

/-- An access that has been made is aligned, and its answer decides. -/
theorem of_access (access : s.exMemAccess = true) (ok : i.dRspErr = false) :
    t.exCompleteMemErr i = false ∧ t.exCompleteMemMisaligned = false := by
  have launched : t.ex = s.launched.ex := by
    rw [leaving.ex, access, if_pos rfl]
  have state : t.ex.state = .exMemWait := by
    rw [launched]
    rfl
  have later : t.exExecToWb = false := by simp [exExecToWb, state]
  have answers : t.exMemToWb i = true := by
    have leaves := leaving.leaves
    rw [leave_of_memWait state] at leaves
    simpa [exMemToWb, state, and_assoc] using leaves
  have aligned := aligned_of_exMemAccess access
  rw [exMemAligned, Bool.not_eq_true'] at aligned
  constructor
  · simp [exCompleteMemErr, later, answers, ok]
  · rw [exCompleteMemMisaligned, later, if_neg Bool.false_ne_true, launched]
    show ((s.ex.isLoad || s.ex.isStore) &&
      isMemMisaligned s.aluResult s.ex.funct3) = false
    rw [aligned, Bool.and_false]

/-- An ordinary instruction leaves EX without an exception. -/
theorem ends (enableC : p.enableC = true) (sane : s.Sane)
    (untouched : s.csr.Untouched) (later : t.csr.Untouched)
    (goes : t.wbSingleStepStop = false)
    (ok : s.exMemAccess = true → i.dRspErr = false) : s.Ends t i where
  first := leaving.first
  ex := leaving.ex
  leaves := leaving.leaves
  goes := goes
  normal := by
    have tame := sane.of_same leaving.same
    obtain ⟨err, misaligned⟩ : t.exCompleteMemErr i = false ∧
        t.exCompleteMemMisaligned = false := by
      cases access : s.exMemAccess with
      | false => exact leaving.of_plain sane untouched access
      | true => exact leaving.of_access access (ok access)
    simp [exException, no_trigger_of_untouched later, tame.fetched, err,
      misaligned, tame.exInstrAddrMisaligned enableC,
      tame.exLegalEff enableC]

end LeavesFrom

/-- In WB it neither traps nor accesses a CSR. -/
theorem wbControl_of_ends (ends : s.Ends t i) (sane : s.Sane)
    (idle : t.irqPending i = false) :
    (t.step i).wbControl =
      { trapEpc := t.ex.pc, instrRetire := (t.step i).wbRetires } := by
  have normal := ends.normal
  simp only [exException, Bool.or_eq_false_iff, Bool.not_eq_false'] at normal
  obtain ⟨⟨⟨⟨⟨trigger, fetchErr⟩, memErr⟩, misaligned⟩, target⟩, legal⟩ :=
    normal
  have notSystem : t.ex.isSystem = false := by
    rw [ends.same.toDecoded, sane.notSystem]
  have wb := step_wb_of_leave ends.leaves ends.goes
  simp only [wbControl, wb]
  simp [completedWb, trigger, fetchErr, memErr, misaligned, target, legal,
    exIsCsrOp, exIsEcall, exIsEbreak, exIsMret, exIsSystemImm, notSystem,
    idle]

end Core

namespace Run

variable {p : Params} {r : Run p} {n : ℕ}

/-! ## The CSR state of a run -/

/-- Nothing but the counters changes behind an instruction that neither traps
nor accesses a CSR. -/
theorem csrBehind_of_plain (csrWen : (r.state n).csrWenW = false)
    (trap : (r.state n).trapEnter = false)
    (mret : (r.state n).mretExec = false) :
    (r.csrBehind n).uncounted = (r.state n).csr.uncounted := by
  have idle : r.csrBehind n =
      (r.state n).csr.tickCounters (r.state n).csrIn := by
    simp [csrBehind, CsrState.commit, Core.csrIn, csrWen, trap, mret]
  rw [idle, CsrState.uncounted_tickCounters]

/-- The X verdict on any word. -/
theorem executable_of_untouched (untouched : (r.state n).csr.Untouched)
    (addr : BitVec 30) : r.executable n addr = true := by
  rw [executable, untouched.fields.2.1]
  exact untouched.allows _ _ _ _

theorem untouched_zero : (r.state 0).csr.Untouched := rfl

theorem untouched_succ (untouched : (r.state n).csr.Untouched)
    (behind : (r.csrBehind n).Untouched) :
    (r.state (n + 1)).csr.Untouched := by
  have none : (r.state n).csrIn.trigHitSet = fun _ => false :=
    Core.no_hits_of_untouched untouched
  rw [csr_succ, CsrState.latchHits_of_none none]
  exact behind

/-- An instruction in EX acts as it would behind WB, with low lines. -/
theorem actsBehind_of_untouched
    (until_ : ∀ k ≤ n + 1, (r.state k).csr.Untouched) (bus : r.InstrBus)
    (valid : (r.state n).ex.valid = true) :
    r.ActsBehind (fun _ => .low) n where
  acts := Core.actsUnder_low
    (Core.idle_of_untouched (until_ n (Nat.le_succ n)) _)
    (Core.readsSame_of_alike
      ((until_ n (Nat.le_succ n)).alike (until_ (n + 1) le_rfl)))
  verdicts := by
    intro w member
    have past : w.answered < n :=
      (((r.provSound bus n).ex valid).live w member).past
    rw [executable_of_untouched (until_ _ (by omega)),
      executable_of_untouched (until_ _ le_rfl)]

end Run

end SisRv
