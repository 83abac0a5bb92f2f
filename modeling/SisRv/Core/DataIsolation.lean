import SisRv.Core.Privilege
import SisRv.Pmp.Reference

/-!
# User-mode data isolation

The PMP verdict is taken in the first EX cycle and then trusted.  WB is empty
from the second cycle on, so that the CSR state of the first cycle, changed at
most by the instruction in WB in that cycle, is the state of the whole access.
-/

namespace SisRv

open Sync

namespace Core

variable {p : Params} (s : Core p) (i : CoreIn)

/-- The access in EX is allowed in user mode: R for a load, LR or AMO, W for a
store, SC or AMO. -/
structure DataGranted (addr : BitVec 32) : Prop where
  read : s.ex.isLoad = true ∨ s.exIsLr = true ∨ s.exIsAmoOp = true →
    sisPmp s.csr.pmpcfg s.csr.pmpaddr addr privU true false false = true
  write : s.ex.isStore = true ∨ s.exIsSc = true ∨ s.exIsAmoOp = true →
    sisPmp s.csr.pmpcfg s.csr.pmpaddr addr privU false true false = true

/-- The user-mode verdict on the instruction in EX under a CSR state. -/
def grantsUnder (c : CsrState p) (addr : BitVec 32) : Bool :=
  sisPmp c.pmpcfg c.pmpaddr addr privU s.exReqR s.exReqW false

/-- The access presented in EX goes on after this cycle. -/
def accessGoesOn : Bool := s.exIsAmoOp || !i.dReqReady

/-- The CSR write in WB takes the permission of the user-mode access that EX
presents in the same cycle and that goes on afterwards. -/
def revokesAccess : Bool :=
  s.csrWenW && s.dReqValid && s.csr.priv == privU && s.accessGoesOn i &&
    !s.grantsUnder (s.csr.next i.irq s.csrIn) s.dReqAddr

/-- Some entry that the matcher reaches has lost the last byte. -/
def LosesLastByte (addr : BitVec 32) : Prop :=
  ∃ e, (∀ j, j < e → pmpMatch s.csr.pmpcfg s.csr.pmpaddr addr j = false) ∧
    LastByteLost (pmpMode (s.csr.pmpcfg e)) (s.csr.pmpaddr e) addr

section Facts

variable {s i}

theorem dataGranted_of_grants
    {addr : BitVec 32} (grants : s.grantsUnder s.csr addr = true) :
    s.DataGranted addr where
  read := by
    intro reads
    refine sisPmp_of_fewer grants (fun _ => ?_) (by simp) (by simp)
    simp only [exReqR, Bool.or_eq_true]
    tauto
  write := by
    intro writes
    refine sisPmp_of_fewer grants (by simp) (fun _ => ?_) (by simp)
    simp only [exReqW, Bool.or_eq_true]
    tauto

/-- The verdict on a byte is the verdict on its word. -/
theorem grantsUnder_wordBase
    {addr : BitVec 32} (intact : ¬ s.LosesLastByte addr) :
    s.grantsUnder s.csr (wordBase addr) = s.grantsUnder s.csr addr := by
  have base : (wordBase addr).toNat = addr.toNat / 4 * 4 := by
    have small := addr.isLt
    simp only [wordBase, BitVec.toNat_append, BitVec.extractLsb'_toNat,
      Nat.shiftRight_eq_div_pow, BitVec.toNat_ofNat]
    rw [Nat.shiftLeft_eq, Nat.zero_mod, Nat.or_zero]
    omega
  refine (sisPmp_of_same_word (by omega) (fun e reached lost => ?_)
    (fun e lost => ?_) _ _ _).symm
  · exact intact ⟨e, reached, lost⟩
  · have last := congrArg BitVec.toNat lost.2.2
    rw [base] at last
    simp at last
    omega

theorem grants_of_exMemAccess
    (valid : s.ex.valid = true) (first : s.ex.state = .exExec)
    (access : s.exMemAccess = true) (user : s.csr.priv = privU) :
    s.grantsUnder s.csr s.aluResult = true := by
  simp only [exMemAccess, Bool.and_eq_true] at access
  have allow := access.2
  have priv : s.dPmpPriv = privU := by
    rw [dPmpPriv, privO, user, if_neg (by decide)]
  rw [pmpDAllow, pmpDAddr, if_pos ⟨first, valid⟩, priv] at allow
  exact allow

theorem grantsUnder_congr
    {t : Core p} {c d : CsrState p} (same : SameInstr s.ex t.ex)
    (pmp : c.pmpcfg = d.pmpcfg ∧ c.pmpaddr = d.pmpaddr) (addr : BitVec 32) :
    s.grantsUnder c addr = t.grantsUnder d addr := by
  simp only [grantsUnder, exReqR, exReqW, same.toDecoded, same.exIsLr,
    same.exIsSc, same.exIsAmoOp, pmp]

end Facts

/-! ## The invariant -/

/-- What holds of a data access after its first cycle. -/
structure DataSound : Prop where
  wbEmpty : s.ex.valid = true → s.ex.state ≠ .exExec → s.wb.valid = false
  granted : s.ex.valid = true → s.ex.state ≠ .exExec → s.csr.priv = privU →
    s.exIsAmoOp = true ∨ s.ex.state = .exMemReq →
    s.grantsUnder s.csr s.ex.aluResultReg = true

section Sound

variable {s i}

theorem grants_of_access
    (privSound : s.PrivSound) (kept : s.revokesAccess i = false)
    (valid : s.ex.valid = true) (first : s.ex.state = .exExec)
    (access : s.exMemAccess = true)
    (user : (s.step i).csr.priv = privU) (goesOn : s.accessGoesOn i = true) :
    s.grantsUnder (s.csr.next i.irq s.csrIn) s.aluResult = true := by
  have before : s.csr.priv = privU :=
    (priv_step privSound (Or.inl valid)).symm.trans user
  have address : s.dReqAddr = s.aluResult := by
    rw [dReqAddr, exMemReqAddr, if_pos ⟨first, access⟩]
  by_cases writes : s.csrWenW = true
  · have presents : s.dReqValid = true := by
      simp [dReqValid, exMemRequesting, valid, first, access]
    simpa [revokesAccess, writes, presents, before, goesOn, address]
      using kept
  · have noWrite : s.csrIn.csrWen = false := by
      show s.csrWenW = false
      simpa using writes
    have pmp := s.csr.next_pmp i.irq s.csrIn noWrite
    rw [grantsUnder_congr (SameInstr.refl s.ex) pmp]
    exact grants_of_exMemAccess valid first access before

theorem goesOn_of_move
    {state : ExState} (move : s.ExMove i state)
    (goesOn : s.exIsAmoOp = true ∨ state = .exMemReq) :
    s.exIsAmoOp = true ∨ s.ex.state = .exMemReq := by
  rcases goesOn with amo | requests
  · exact Or.inl amo
  · cases move with
    | stays => exact Or.inr requests
    | accepted => simp at requests
    | amoRead => simp at requests
    | amoAccepted => simp at requests

theorem dataSound_step
    (exSound : s.ExSound) (privSound : s.PrivSound)
    (kept : s.revokesAccess i = false) (sound : s.DataSound) :
    (s.step i).DataSound := by
  cases s.exCycle i with
  | issued issue next =>
      have first : (s.step i).ex.state = .exExec := by
        rw [step_ex, next]
        rfl
      exact ⟨fun _ later => absurd first later,
        fun _ later => absurd first later⟩
  | emptied quiet empty cause =>
      have absent : (s.step i).ex.valid = true → False := fun valid => by
        rw [step_ex, empty] at valid
        exact Bool.false_ne_true valid
      exact ⟨fun valid => (absent valid).elim,
        fun valid => (absent valid).elim⟩
  | accesses quiet notFlushed valid first access next =>
      have same : SameInstr (s.step i).ex s.ex := exNext_sameInstr s i quiet
      have coherent := exSound.coherent valid
      have address : (s.step i).ex.aluResultReg = s.aluResult := by
        rw [step_ex, next]
        exact exExecResult_of_access coherent (isAccess_of_exMemAccess access)
      constructor
      · intro _ _
        exact wb_of_stay (not_leave_of_access first access)
      · intro _ _ user pending
        -- the PMP may change in this cycle, and `kept` is about that
        rw [grantsUnder_congr same ⟨rfl, rfl⟩, address]
        apply grants_of_access privSound kept valid first access user
        rw [accessGoesOn, Bool.or_eq_true]
        rcases pending with amo | waiting
        · exact Or.inl (same.exIsAmoOp.symm.trans amo)
        · right
          rw [step_ex, next] at waiting
          by_contra accepted
          have fire : s.dataReqFire i = true := by
            simp only [dataReqFire, exMemRequesting, valid, first, access]
            simpa using accepted
          simp [fire] at waiting
  | waits quiet notFlushed valid later busy state rdata err next clean move =>
      have same : SameInstr (s.step i).ex s.ex := exNext_sameInstr s i quiet
      have frame := quiet_of_empty (i := i) (sound.wbEmpty valid later)
      constructor
      · intro _ _
        exact wb_of_stay busy
      · intro _ _ user pending
        have address : (s.step i).ex.aluResultReg = s.ex.aluResultReg := by
          rw [step_ex, next]
        rw [step_csr, address,
          grantsUnder_congr same ⟨frame.pmpcfg, frame.pmpaddr⟩]
        refine sound.granted valid later ?_ (goesOn_of_move move ?_)
        · rw [← priv_step privSound (Or.inl valid)]
          exact user
        · rw [← same.exIsAmoOp]
          rw [step_ex, next] at pending
          exact pending

/-- A request is granted in the cycle in which it is presented. -/
theorem grants_of_request
    (exSound : s.ExSound) (sound : s.DataSound)
    (requests : s.dReqValid = true) (user : s.csr.priv = privU) :
    s.grantsUnder s.csr s.dReqAddr = true := by
  simp only [dReqValid, exMemRequesting, Bool.and_eq_true, Bool.or_eq_true,
    beq_iff_eq] at requests
  obtain ⟨valid, (⟨first, access⟩ | requesting) | storing⟩ := requests
  · rw [dReqAddr, exMemReqAddr, if_pos ⟨first, access⟩]
    exact grants_of_exMemAccess valid first access user
  · have later : s.ex.state ≠ .exExec := by simp [requesting]
    rw [dReqAddr, exMemReqAddr, if_neg (fun both => later both.1)]
    exact sound.granted valid later user (Or.inr requesting)
  · have later : s.ex.state ≠ .exExec := by simp [storing]
    rw [dReqAddr, exMemReqAddr, if_neg (fun both => later both.1)]
    exact sound.granted valid later user
      (Or.inl (exSound.amo valid (Or.inl storing)))

/-- With ENABLE_U and at most 80 PMP entries user mode writes no PMP register,
and nothing is revoked. -/
theorem not_revokes_of_enableU
    (enableU : p.enableU = true) (small : p.pmpEntries ≤ 80)
    (exSound : s.ExSound) (privSound : s.PrivSound) (sound : s.DataSound) :
    s.revokesAccess i = false := by
  by_contra revokes
  simp only [revokesAccess, Bool.not_eq_false, Bool.and_eq_true, beq_iff_eq,
    Bool.not_eq_true'] at revokes
  obtain ⟨⟨⟨⟨-, requests⟩, user⟩, -⟩, denied⟩ := revokes
  have grants := grants_of_request exSound sound requests user
  have noTrap : s.trapEnter = false := by
    by_contra enters
    have drained := privSound.drained (Or.inl (by simpa using enters))
    simp [dReqValid, exMemRequesting, drained.ex] at requests
  have quiet := quiet_below_machine (i := i) privSound enableU small
    (by rw [user]; decide) noTrap
  rw [grantsUnder_congr (SameInstr.refl s.ex) ⟨quiet.pmpcfg, quiet.pmpaddr⟩,
    grants] at denied
  exact Bool.false_ne_true denied.symm

end Sound

end Core

/-! ## Data requests of a run -/

namespace Run

variable {p : Params} (r : Run p)

theorem dataSound_zero : (r.state 0).DataSound := by
  constructor <;> simp [state_zero, Core.reset, ExRegs.reset]

theorem dataSound
    (kept : ∀ n, (r.state n).revokesAccess (r.inputs n) = false) (n : ℕ) :
    (r.state n).DataSound := by
  induction n with
  | zero =>
      exact r.dataSound_zero
  | succ n inductionHypothesis =>
      exact Core.dataSound_step (r.exSound n) (r.privSound n) (kept n)
        inductionHypothesis

theorem dataSound_of_enableU
    (enableU : p.enableU = true) (small : p.pmpEntries ≤ 80) (n : ℕ) :
    (r.state n).DataSound := by
  induction n with
  | zero =>
      exact r.dataSound_zero
  | succ n inductionHypothesis =>
      have exSound := r.exSound n
      have privSound := r.privSound n
      exact Core.dataSound_step exSound privSound
        (Core.not_revokes_of_enableU enableU small exSound privSound
          inductionHypothesis)
        inductionHypothesis

/-- With ENABLE_U and at most 80 PMP entries every user-mode request is
granted at its address. -/
theorem dataGranted_of_enableU
    (enableU : p.enableU = true) (small : p.pmpEntries ≤ 80) (n : ℕ)
    (requests : (r.state n).dReqValid = true)
    (user : (r.state n).csr.priv = privU) :
    (r.state n).DataGranted (r.state n).dReqAddr :=
  Core.dataGranted_of_grants
    (Core.grants_of_request (r.exSound n)
      (r.dataSound_of_enableU enableU small n) requests user)

end Run

/-- In a run in which no CSR write revokes the user-mode access presented in
the same cycle, every user-mode request is granted at its address, and at its
word unless a reached entry has lost the last byte. -/
theorem data_isolation
    {p : Params} (r : Run p)
    (kept : ∀ n, (r.state n).revokesAccess (r.inputs n) = false)
    (intact : ∀ n, (r.state n).dReqValid = true →
      (r.state n).csr.priv = privU →
      ¬ (r.state n).LosesLastByte (r.state n).dReqAddr)
    (n : ℕ) (requests : (r.state n).dReqValid = true)
    (user : (r.state n).csr.priv = privU) :
    (r.state n).DataGranted (r.state n).dReqAddr ∧
      (r.state n).DataGranted (wordBase (r.state n).dReqAddr) := by
  have grants :=
    Core.grants_of_request (r.exSound n) (r.dataSound kept n) requests user
  refine ⟨Core.dataGranted_of_grants grants,
    Core.dataGranted_of_grants ?_⟩
  rw [Core.grantsUnder_wordBase (intact n requests user)]
  exact grants

theorem pmpaddr_userLoad (n : ℕ) (e : Fin 8) :
    (userLoad.state n).csr.pmpaddr e ≠ 0xFFFFFFFF := by
  rcases Nat.lt_or_ge n 20 with early | late
  · have checked : ∀ m < 20, ∀ e,
        (userLoad.state m).csr.pmpaddr e ≠ 0xFFFFFFFF := by decide
    exact checked n early e
  · have stays : (userLoad.state n).Stalled ∧
        ∀ e, (userLoad.state n).csr.pmpaddr e ≠ 0xFFFFFFFF := by
      induction n, late using Nat.le_induction with
      | base => exact ⟨by constructor <;> decide, by decide⟩
      | succ n late inductionHypothesis =>
          obtain ⟨stalled, other⟩ := inductionHypothesis
          have idle : userLoad.inputs n = {} :=
            List.getD_eq_default _ _ (le_trans (by decide) late)
          have quiet := Core.quiet_of_empty (i := userLoad.inputs n)
            stalled.wbEmpty
          rw [Run.state_succ]
          refine ⟨Core.stalled_step stalled (by rw [idle]), ?_⟩
          rw [Core.step_csr, quiet.pmpaddr]
          exact other
    exact stays.2 e

theorem data_isolation_userLoad :
    (userLoad.state 16).DataGranted (userLoad.state 16).dReqAddr ∧
      (userLoad.state 16).DataGranted
        (wordBase (userLoad.state 16).dReqAddr) :=
  data_isolation userLoad
    (fun n => Core.not_revokes_of_enableU rfl (by decide)
      (userLoad.exSound n) (userLoad.privSound n)
      (userLoad.dataSound_of_enableU rfl (by decide) n))
    (fun n _ _ lost => by
      obtain ⟨e, -, lost⟩ := lost
      exact pmpaddr_userLoad n e lost.2.1)
    16 (by decide +kernel) (by decide +kernel)

/-- M-mode gives user mode the word at 0 to execute and the last word of the
address space to read, but puts an entry without permissions for the whole
space before the latter; in user mode the last byte is loaded. -/
def loadLastByte : Run { resetVector := 0x100 } :=
  Run.script _
    (CoreIn.fetch
        [0xFFF00093, 0x3B109073, 0x3B209073, 0x001121B7, 0x81418193,
          0x3A019073, 0x30200073] ++
      [.idle, .idle, .idle] ++ CoreIn.fetch [0xFFF00103])

/-- Without ENABLE_U: M-mode grants everything and returns to user mode, where
a load, a CSR write that withdraws the grant and a second load follow one
another without a bubble.  The second load is not accepted at once. -/
def revokedLoad : Run { enableU := false } :=
  Run.script _
    (CoreIn.fetch
        [0xFFF00093, 0x3B009073, 0x3A0FD073, 0x341C5073, 0x30200073] ++
      [.idle, .idle, .idle, .accept, .answer 0x00002103, .accept,
        { CoreIn.answer 0x3A005073 with iReqReady := true, dReqReady := true },
        .answer 0x00002103, { dRspValid := true }])

/-- Neither the byte nor the word presented is granted in general. -/
theorem not_data_isolation :
    (¬ ∀ (p : Params) (r : Run p), r.NoSingleStep → ∀ n,
      (r.state n).dReqValid = true → (r.state n).csr.priv = privU →
        (r.state n).DataGranted (wordBase (r.state n).dReqAddr)) ∧
      ¬ ∀ (p : Params) (r : Run p), r.NoSingleStep → ∀ n,
        (r.state n).dReqValid = true → (r.state n).csr.priv = privU →
          (r.state n).DataGranted (r.state n).dReqAddr := by
  constructor
  · intro isolated
    have granted := isolated _ loadLastByte
      (Run.noSingleStep_script (by decide +kernel)) 20 (by decide +kernel)
      (by decide +kernel)
    exact absurd (granted.read (Or.inl (by decide +kernel)))
      (by decide +kernel)
  · intro isolated
    have granted := isolated _ revokedLoad
      (Run.noSingleStep_script (by decide +kernel)) 21 (by decide +kernel)
      (by decide +kernel)
    exact absurd (granted.read (Or.inl (by decide +kernel)))
      (by decide +kernel)

end SisRv
