import SisRv.Core.Privilege
import SisRv.Csr.Run
import Mathlib.Tactic.IntervalCases

/-!
# The privilege stack

`priv` and `mstatus` change by a trap entry, an MRET and a write to `mstatus`
only.  With ENABLE_U the stack holds the modes M and U; without it MRET stays
in M-mode as long as it returns from a trap or follows another MRET.
-/

namespace SisRv

namespace CsrState

variable {p : Params} (c : CsrState p) (irq : IrqLines) (x : CsrIn p)

/-- The MPP field. -/
def mpp : BitVec 2 := c.mstatus.extractLsb' 11 2

/-- The bits MIE and MPRV. -/
def mieBit : Bool := c.mstatus.getLsbD 3
def mprvBit : Bool := c.mstatus.getLsbD 17

/-! ## What a step can do -/

section Steps

theorem writeIndexed_trap
    (n : CsrState p) (addr : BitVec 12) (val : BitVec 32) :
    (c.writeIndexed n addr val).mstatus = n.mstatus ∧
      (c.writeIndexed n addr val).mepc = n.mepc := by
  unfold writeIndexed
  split
  · exact ⟨rfl, rfl⟩
  · split
    · exact ⟨rfl, rfl⟩
    · split
      · exact ⟨rfl, rfl⟩
      · split <;> exact ⟨rfl, rfl⟩

theorem writeCsr_mstatus
    (n : CsrState p) (addr : BitVec 12) (val : BitVec 32) :
    (c.writeCsr n addr val).mstatus =
      if addr = csrMstatus then applyMstatusWarl p.enableU c.mstatus val
      else n.mstatus := by
  simp only [writeCsr, apply_ite CsrState.mstatus, ite_self,
    (c.writeIndexed_trap n addr val).1]

theorem writeCsr_mepc_of_ne
    (n : CsrState p) (addr : BitVec 12) (val : BitVec 32)
    (other : addr ≠ csrMepc) :
    (c.writeCsr n addr val).mepc = n.mepc := by
  simp only [writeCsr, apply_ite CsrState.mepc, if_neg other, ite_self,
    (c.writeIndexed_trap n addr val).2]

end Steps

end CsrState

/-! ## What a cycle of a run can do -/

namespace CsrRun

open CsrState

variable {p : Params} (r : CsrRun p) (n : ℕ)

/-- Nothing that changes `priv` or `mstatus` happens in cycle `n`. -/
def Undisturbed : Prop :=
  ¬ r.Traps n ∧ ¬ r.Returns n ∧ ¬ r.Writes csrMstatus n

variable {r n}

theorem next_of_traps (traps : r.Traps n) :
    (r.state (n + 1)).priv = privM ∧
      (r.state (n + 1)).mstatus = (r.state n).mstatusTrap ∧
      (r.state (n + 1)).mepc = (r.inputs n).trapEpc := by
  have quiet := (r.state n).next_of_trap (r.irq n) (r.inputs n) traps
  rw [r.state_succ]
  exact ⟨quiet.priv, quiet.mstatus, quiet.mepc⟩

theorem next_of_returns (returns : r.Returns n) :
    (r.state (n + 1)).priv = (r.state n).mpp ∧
      (r.state (n + 1)).mstatus = (r.state n).mstatusMret ∧
      (r.state (n + 1)).mepc = (r.state n).mepc := by
  obtain ⟨noTrap, mret⟩ := returns
  rw [r.state_succ]
  simp only [next, latchHits, commit, noTrap, mret, if_true,
    Bool.false_eq_true, if_false]
  exact ⟨rfl, trivial, rfl⟩

theorem next_of_writes (writes : r.Writes csrMstatus n) :
    (r.state (n + 1)).priv = (r.state n).priv ∧
      (r.state (n + 1)).mstatus =
        applyMstatusWarl p.enableU (r.state n).mstatus (r.written n) := by
  obtain ⟨noTrap, noMret, write, named⟩ := writes
  rw [r.state_succ]
  refine ⟨(r.state n).next_priv _ _ noTrap noMret, ?_⟩
  simp only [next, latchHits, commit, noTrap, noMret, write, if_true,
    Bool.false_eq_true, if_false, named, writeCsr_mstatus, written]

theorem writes_of_csrWen
    (noTrap : ¬ r.Traps n) (noReturn : ¬ r.Returns n)
    (write : (r.inputs n).csrWen = true) :
    r.Writes (r.inputs n).csrAddr n := by
  have enter : (r.inputs n).trapEnter = false := by
    simpa [Traps] using noTrap
  have mret : (r.inputs n).mretExec = false := by
    simpa [Returns, enter] using noReturn
  exact ⟨enter, mret, write, rfl⟩

theorem next_of_undisturbed (undisturbed : r.Undisturbed n) :
    (r.state (n + 1)).priv = (r.state n).priv ∧
      (r.state (n + 1)).mstatus = (r.state n).mstatus := by
  obtain ⟨noTrap, noReturn, noWrite⟩ := undisturbed
  have enter : (r.inputs n).trapEnter = false := by
    simpa [Traps] using noTrap
  have mret : (r.inputs n).mretExec = false := by
    simpa [Returns, enter] using noReturn
  rw [r.state_succ]
  refine ⟨(r.state n).next_priv _ _ enter mret, ?_⟩
  by_cases write : (r.inputs n).csrWen = true
  · have other : (r.inputs n).csrAddr ≠ csrMstatus := by
      intro named
      exact noWrite (named ▸ writes_of_csrWen noTrap noReturn write)
    simp only [next, latchHits, commit, enter, mret, write, if_true,
      Bool.false_eq_true, if_false, writeCsr_mstatus, if_neg other]
    rfl
  · simp only [next, latchHits, commit, enter, mret, write,
      Bool.false_eq_true, if_false]
    rfl

theorem mepc_of_kept
    (noTrap : ¬ r.Traps n) (noReturn : ¬ r.Returns n)
    (noWrite : ¬ r.Writes csrMepc n) :
    (r.state (n + 1)).mepc = (r.state n).mepc := by
  have enter : (r.inputs n).trapEnter = false := by
    simpa [Traps] using noTrap
  have mret : (r.inputs n).mretExec = false := by
    simpa [Returns, enter] using noReturn
  rw [r.state_succ]
  by_cases write : (r.inputs n).csrWen = true
  · have other : (r.inputs n).csrAddr ≠ csrMepc := by
      intro named
      exact noWrite (named ▸ writes_of_csrWen noTrap noReturn write)
    simp only [next, latchHits, commit, enter, mret, write, if_true,
      Bool.false_eq_true, if_false, writeCsr_mepc_of_ne _ _ _ _ other]
    rfl
  · simp only [next, latchHits, commit, enter, mret, write,
      Bool.false_eq_true, if_false]
    rfl

end CsrRun

/-! ## The fields of `mstatus` -/

namespace CsrState

variable {p : Params} (c : CsrState p)

/-- Only the implemented fields of a status word are set. -/
def OnlyFields (word : BitVec 32) : Prop := word &&& ~~~mstatusWmask = 0

theorem onlyFields_iff (word : BitVec 32) :
    OnlyFields word ↔
      ∀ i, i < 32 → mstatusWmask.getLsbD i = false →
        word.getLsbD i = false := by
  constructor
  · intro only i within outside
    have bit := congrArg (fun w => BitVec.getLsbD w i) only
    simpa only [BitVec.getLsbD_and, BitVec.getLsbD_not, within, decide_true,
      outside, Bool.not_false, Bool.and_true, BitVec.ofNat_eq_ofNat,
      BitVec.getLsbD_zero] using bit
  · intro outside
    apply BitVec.eq_of_getLsbD_eq
    intro i within
    by_cases inside : mstatusWmask.getLsbD i = true
    · simp [inside]
    · simp [outside i within (by simpa using inside)]

theorem mstatusTrap_mpp : c.mstatusTrap.extractLsb' 11 2 = c.priv := by
  apply BitVec.eq_of_getLsbD_eq
  intro i within
  simp only [mstatusTrap, BitVec.getLsbD_append, BitVec.getLsbD_extractLsb']
  interval_cases i <;> simp

theorem mstatusTrap_bits :
    c.mstatusTrap.getLsbD 7 = c.mstatus.getLsbD 3 ∧
      c.mstatusTrap.getLsbD 3 = false ∧
      c.mstatusTrap.getLsbD 17 = c.mstatus.getLsbD 17 := by
  simp only [mstatusTrap, BitVec.getLsbD_append, BitVec.getLsbD_extractLsb']
  simp

theorem onlyFields_mstatusTrap (only : OnlyFields c.mstatus) :
    OnlyFields c.mstatusTrap := by
  rw [onlyFields_iff] at only ⊢
  intro i within outside
  have kept := only i within outside
  simp only [mstatusTrap, BitVec.getLsbD_append, BitVec.getLsbD_extractLsb']
  interval_cases i <;>
    first
      | exact absurd outside (by decide)
      | simpa using kept

theorem mstatusMret_mpp :
    c.mstatusMret.extractLsb' 11 2 =
      if p.enableU then privU else privM := by
  apply BitVec.eq_of_getLsbD_eq
  intro i within
  simp only [mstatusMret, BitVec.getLsbD_append, BitVec.getLsbD_extractLsb']
  interval_cases i <;> simp

theorem mstatusMret_bits :
    c.mstatusMret.getLsbD 3 = c.mstatus.getLsbD 7 ∧
      c.mstatusMret.getLsbD 17 =
        if c.mpp = privM then c.mstatus.getLsbD 17 else false := by
  simp only [mstatusMret, BitVec.getLsbD_append, BitVec.getLsbD_extractLsb',
    mretNextPriv, mpp]
  constructor
  · simp
  · by_cases machine : c.mstatus.extractLsb' 11 2 = privM <;> simp [machine]

theorem onlyFields_mstatusMret (only : OnlyFields c.mstatus) :
    OnlyFields c.mstatusMret := by
  rw [onlyFields_iff] at only ⊢
  intro i within outside
  have kept := only i within outside
  simp only [mstatusMret, BitVec.getLsbD_append, BitVec.getLsbD_extractLsb']
  interval_cases i <;>
    first
      | exact absurd outside (by decide)
      | simpa using kept

end CsrState

/-! ## The WARL rule of `mstatus` -/

section Warl

variable (oldVal newVal : BitVec 32)

theorem setField_getLsbD
    {w : ℕ} (word : BitVec 32) (lo : ℕ) (field : BitVec w) (i : ℕ) :
    (setField word lo field).getLsbD i =
      if lo ≤ i ∧ i < lo + w ∧ i < 32 then field.getLsbD (i - lo)
      else word.getLsbD i := by
  simp only [setField, BitVec.getLsbD_or, BitVec.getLsbD_and,
    BitVec.getLsbD_not, BitVec.getLsbD_shiftLeft, BitVec.getLsbD_setWidth,
    BitVec.getLsbD_allOnes]
  by_cases word32 : i < 32
  · by_cases above : lo ≤ i
    · have low : ¬ i < lo := by omega
      have shifted : i - lo < 32 := by omega
      by_cases below : i < lo + w
      · have inside : i - lo < w := by omega
        simp [word32, above, below, low, shifted, inside]
      · have outside : ¬ i - lo < w := by omega
        simp [word32, below, low, shifted, outside,
          BitVec.getLsbD_of_ge field (i - lo) (by omega)]
    · simp [word32, above, Nat.lt_of_not_le above]
  · simp [word32, BitVec.getLsbD_of_ge word i (by omega)]

theorem merged_outside
    {i : ℕ} (within : i < 32) (outside : mstatusWmask.getLsbD i = false) :
    ((oldVal &&& ~~~mstatusWmask) ||| (newVal &&& mstatusWmask)).getLsbD i =
      oldVal.getLsbD i := by
  simp only [BitVec.getLsbD_or, BitVec.getLsbD_and, BitVec.getLsbD_not,
    outside, within, decide_true, Bool.not_false, Bool.and_true,
    Bool.and_false, Bool.or_false]

/-- The WARL rule touches the implemented fields only. -/
theorem onlyFields_applyMstatusWarl
    (enableU : Bool) (only : CsrState.OnlyFields oldVal) :
    CsrState.OnlyFields (applyMstatusWarl enableU oldVal newVal) := by
  rw [CsrState.onlyFields_iff] at only ⊢
  intro i within outside
  have kept := merged_outside oldVal newVal within outside
  rw [only i within outside] at kept
  have notMpp : ¬ (11 ≤ i ∧ i < 11 + 2 ∧ i < 32) := by
    rintro ⟨low, high, -⟩
    interval_cases i <;> exact absurd outside (by decide)
  have notMprv : ¬ (17 ≤ i ∧ i < 17 + 1 ∧ i < 32) := by
    rintro ⟨low, high, -⟩
    interval_cases i
    exact absurd outside (by decide)
  have notTw : ¬ (21 ≤ i ∧ i < 21 + 1 ∧ i < 32) := by
    rintro ⟨low, high, -⟩
    interval_cases i
    exact absurd outside (by decide)
  cases enableU with
  | true =>
      simp only [applyMstatusWarl, if_true, setField_getLsbD, if_neg notMpp,
        kept]
  | false =>
      simp only [applyMstatusWarl, Bool.false_eq_true, if_false,
        setField_getLsbD, if_neg notMpp, if_neg notMprv, if_neg notTw, kept]

theorem setField_mpp (word : BitVec 32) (field : BitVec 2) :
    (setField word 11 field).extractLsb' 11 2 = field := by
  apply BitVec.eq_of_getLsbD_eq
  intro i within
  have inside : 11 ≤ 11 + i ∧ 11 + i < 11 + 2 ∧ 11 + i < 32 := by omega
  rw [BitVec.getLsbD_extractLsb', setField_getLsbD, if_pos inside]
  simp [within]

/-- With ENABLE_U a write leaves M or U in MPP. -/
theorem applyMstatusWarl_mpp_of_user :
    (applyMstatusWarl true oldVal newVal).extractLsb' 11 2 = privM ∨
      (applyMstatusWarl true oldVal newVal).extractLsb' 11 2 = privU := by
  simp only [applyMstatusWarl, if_true, setField_mpp]
  generalize ((oldVal &&& ~~~mstatusWmask) |||
    (newVal &&& mstatusWmask)).extractLsb' 11 2 = mppIn
  revert mppIn
  decide

/-- Without ENABLE_U a write clears MPP. -/
theorem applyMstatusWarl_mpp_of_no_user :
    (applyMstatusWarl false oldVal newVal).extractLsb' 11 2 = privU := by
  apply BitVec.eq_of_getLsbD_eq
  intro i within
  simp only [applyMstatusWarl, Bool.false_eq_true, if_false,
    BitVec.getLsbD_extractLsb', setField_getLsbD]
  interval_cases i <;> simp [privU]

end Warl

/-! ## With user mode -/

namespace CsrState

/-- The stack holds implemented modes, and `mstatus` implemented fields. -/
structure ModesOnly {p : Params} (c : CsrState p) : Prop where
  priv : c.priv = privM ∨ c.priv = privU
  mpp : c.mpp = privM ∨ c.mpp = privU
  fields : OnlyFields c.mstatus

end CsrState

namespace CsrRun

open CsrState

variable {p : Params} {r : CsrRun p}

section User

variable (enableU : p.enableU = true)
include enableU

theorem modesOnly (n : ℕ) : (r.state n).ModesOnly := by
  induction n with
  | zero =>
      refine ⟨Or.inl rfl, Or.inr ?_, ?_⟩
      · show (0 : BitVec 32).extractLsb' 11 2 = privU
        decide
      · show (0 : BitVec 32) &&& ~~~mstatusWmask = 0
        decide
  | succ n inductionHypothesis =>
      by_cases traps : r.Traps n
      · obtain ⟨priv, mstatus, -⟩ := next_of_traps traps
        refine ⟨Or.inl priv, ?_, ?_⟩
        · rw [mpp, mstatus, mstatusTrap_mpp]
          exact inductionHypothesis.priv
        · rw [mstatus]
          exact onlyFields_mstatusTrap _ inductionHypothesis.fields
      by_cases returns : r.Returns n
      · obtain ⟨priv, mstatus, -⟩ := next_of_returns returns
        refine ⟨?_, Or.inr ?_, ?_⟩
        · rw [priv]
          exact inductionHypothesis.mpp
        · rw [mpp, mstatus, mstatusMret_mpp, if_pos enableU]
        · rw [mstatus]
          exact onlyFields_mstatusMret _ inductionHypothesis.fields
      by_cases writes : r.Writes csrMstatus n
      · obtain ⟨priv, mstatus⟩ := next_of_writes writes
        refine ⟨?_, ?_, ?_⟩
        · rw [priv]
          exact inductionHypothesis.priv
        · rw [mpp, mstatus, enableU]
          exact applyMstatusWarl_mpp_of_user _ _
        · rw [mstatus]
          exact onlyFields_applyMstatusWarl _ _ _ inductionHypothesis.fields
      · obtain ⟨priv, mstatus⟩ :=
          next_of_undisturbed ⟨traps, returns, writes⟩
        refine ⟨?_, ?_, ?_⟩
        · rw [priv]
          exact inductionHypothesis.priv
        · rw [mpp, mstatus]
          exact inductionHypothesis.mpp
        · rw [mstatus]
          exact inductionHypothesis.fields

end User

/-- When only machine mode writes `mstatus`, MPRV is clear in user mode. -/
theorem mprv_of_user
    (machineWrites : ∀ n, r.Writes csrMstatus n → (r.state n).priv = privM)
    (n : ℕ) (user : (r.state n).priv = privU) :
    (r.state n).mprvBit = false := by
  induction n with
  | zero =>
      have machine : (r.state 0).priv = privM := rfl
      rw [machine] at user
      exact absurd user (by decide)
  | succ n inductionHypothesis =>
      have notMachine : privU ≠ privM := by decide
      by_cases traps : r.Traps n
      · rw [(next_of_traps traps).1] at user
        exact absurd user.symm notMachine
      by_cases returns : r.Returns n
      · obtain ⟨priv, mstatus, -⟩ := next_of_returns returns
        have toUser : (r.state n).mpp ≠ privM := by
          rw [← priv, user]
          exact notMachine
        rw [mprvBit, mstatus, (mstatusMret_bits _).2, if_neg toUser]
      by_cases writes : r.Writes csrMstatus n
      · rw [(next_of_writes writes).1, machineWrites n writes] at user
        exact absurd user.symm notMachine
      · obtain ⟨priv, mstatus⟩ :=
          next_of_undisturbed ⟨traps, returns, writes⟩
        rw [priv] at user
        rw [mprvBit, mstatus]
        exact inductionHypothesis user

/-! ### From a trap to its return -/

/-- The handler of the trap entered in cycle `n`, up to cycle `m`: no other
trap, no MRET and no write to `mstatus` or `mepc`. -/
def Handles (r : CsrRun p) (n m : ℕ) : Prop :=
  r.Traps n ∧ ∀ k, n < k → k < m → ¬ r.Traps k ∧ ¬ r.Returns k ∧
    ¬ r.Writes csrMstatus k ∧ ¬ r.Writes csrMepc k

section Handling

variable {n m : ℕ} (handles : r.Handles n m)
include handles

/-- The handler runs on the stack the trap left. -/
theorem stack_of_handles
    {k : ℕ} (above : n < k) (within : k ≤ m) :
    (r.state k).mstatus = (r.state n).mstatusTrap ∧
      (r.state k).mepc = (r.inputs n).trapEpc := by
  induction k, above using Nat.le_induction with
  | base =>
      exact (next_of_traps handles.1).2
  | succ k above inductionHypothesis =>
      obtain ⟨mstatus, mepc⟩ := inductionHypothesis (by omega)
      obtain ⟨noTrap, noReturn, noStatus, noEpc⟩ :=
        handles.2 k above (by omega)
      rw [(next_of_undisturbed ⟨noTrap, noReturn, noStatus⟩).2,
        mepc_of_kept noTrap noReturn noEpc]
      exact ⟨mstatus, mepc⟩

theorem mie_of_handles
    {k : ℕ} (above : n < k) (within : k ≤ m) :
    (r.state k).mieBit = false := by
  rw [mieBit, (stack_of_handles handles above within).1]
  exact (mstatusTrap_bits _).2.1

/-- The MRET that ends the handler restores the modes of the trap. -/
theorem restored_of_handles
    (modes : (r.state n).ModesOnly)
    (userMprv : (r.state n).priv = privU → (r.state n).mprvBit = false)
    (later : n < m) (returns : r.Returns m) :
    (r.state (m + 1)).priv = (r.state n).priv ∧
      (r.state (m + 1)).mieBit = (r.state n).mieBit ∧
      (r.state (m + 1)).mprvBit = (r.state n).mprvBit := by
  obtain ⟨stacked, -⟩ := stack_of_handles handles later le_rfl
  obtain ⟨priv, mstatus, -⟩ := next_of_returns returns
  obtain ⟨mpie, -, mprv⟩ := (r.state n).mstatusTrap_bits
  have saved : (r.state m).mpp = (r.state n).priv := by
    rw [mpp, stacked, mstatusTrap_mpp]
  refine ⟨priv.trans saved, ?_, ?_⟩
  · rw [mieBit, mstatus, (mstatusMret_bits _).1, stacked, mpie, mieBit]
  · rw [mprvBit, mstatus, (mstatusMret_bits _).2, saved, stacked, mprv,
      mprvBit]
    rcases modes.priv with machine | user
    · rw [if_pos machine]
    · have clear := userMprv user
      rw [mprvBit] at clear
      rw [clear, ite_self]

end Handling

end CsrRun

/-! ## Without user mode -/

namespace CsrRun

open CsrState

variable {p : Params} (r : CsrRun p)

/-- A trap or an MRET before cycle `n` has set MPP, and `mstatus` was not
written since. -/
def Stacked (n : ℕ) : Prop :=
  ∃ k, k < n ∧ (r.Traps k ∨ r.Returns k) ∧
    ∀ j, k < j → j < n → ¬ r.Writes csrMstatus j

variable {r} {n : ℕ}

theorem stacked_of_commit (commits : r.Traps n ∨ r.Returns n) :
    r.Stacked (n + 1) :=
  ⟨n, by omega, commits, fun j above below => by omega⟩

theorem stacked_succ_iff (quiet : ¬ (r.Traps n ∨ r.Returns n)) :
    r.Stacked (n + 1) ↔ r.Stacked n ∧ ¬ r.Writes csrMstatus n := by
  constructor
  · rintro ⟨k, before, commits, since⟩
    have different : k ≠ n := by
      rintro rfl
      exact quiet commits
    exact ⟨⟨k, by omega, commits, fun j above below =>
      since j above (by omega)⟩, since n (by omega) (by omega)⟩
  · rintro ⟨⟨k, before, commits, since⟩, noWrite⟩
    refine ⟨k, by omega, commits, fun j above below => ?_⟩
    rcases Nat.lt_or_ge j n with earlier | last
    · exact since j above earlier
    · obtain rfl : j = n := by omega
      exact noWrite

section NoUser

variable (noUser : p.enableU = false)
include noUser

/-- Reset and a write to `mstatus` leave MPP at 00. -/
theorem mpp_of_not_stacked (n : ℕ) (bare : ¬ r.Stacked n) :
    (r.state n).mpp = privU := by
  induction n with
  | zero =>
      show (0 : BitVec 32).extractLsb' 11 2 = privU
      decide
  | succ n inductionHypothesis =>
      have quiet : ¬ (r.Traps n ∨ r.Returns n) :=
        fun commits => bare (stacked_of_commit commits)
      rw [stacked_succ_iff quiet] at bare
      by_cases writes : r.Writes csrMstatus n
      · rw [mpp, (next_of_writes writes).2, noUser]
        exact applyMstatusWarl_mpp_of_no_user _ _
      · have before : ¬ r.Stacked n := fun stacked => bare ⟨stacked, writes⟩
        rw [not_or] at quiet
        rw [mpp, (next_of_undisturbed ⟨quiet.1, quiet.2, writes⟩).2]
        exact inductionHypothesis before

theorem machine_of_stacked_returns
    (stacked : ∀ m, r.Returns m → r.Stacked m) (n : ℕ) :
    (r.state n).priv = privM ∧ (r.Stacked n → (r.state n).mpp = privM) := by
  induction n with
  | zero =>
      refine ⟨rfl, ?_⟩
      rintro ⟨k, before, -⟩
      exact absurd before (Nat.not_lt_zero k)
  | succ n inductionHypothesis =>
      obtain ⟨machine, saved⟩ := inductionHypothesis
      by_cases traps : r.Traps n
      · obtain ⟨priv, mstatus, -⟩ := next_of_traps traps
        exact ⟨priv, fun _ => by
          rw [mpp, mstatus, mstatusTrap_mpp, machine]⟩
      by_cases returns : r.Returns n
      · obtain ⟨priv, mstatus, -⟩ := next_of_returns returns
        refine ⟨priv.trans (saved (stacked n returns)), fun _ => ?_⟩
        rw [mpp, mstatus, mstatusMret_mpp, noUser]
        rfl
      have quiet : ¬ (r.Traps n ∨ r.Returns n) := by
        rintro (isTrap | isReturn)
        · exact traps isTrap
        · exact returns isReturn
      rw [stacked_succ_iff quiet]
      by_cases writes : r.Writes csrMstatus n
      · exact ⟨(next_of_writes writes).1.trans machine,
          fun still => absurd writes still.2⟩
      · obtain ⟨priv, mstatus⟩ :=
          next_of_undisturbed ⟨traps, returns, writes⟩
        refine ⟨priv.trans machine, fun still => ?_⟩
        rw [mpp, mstatus]
        exact saved still.1

end NoUser

/-- Without ENABLE_U the unit stays in M-mode if and only if every MRET is
preceded by a trap or an MRET with no write to `mstatus` in between. -/
theorem machine_only_iff
    {p : Params} (r : CsrRun p) (noUser : p.enableU = false) :
    (∀ n, (r.state n).priv = privM) ↔ ∀ m, r.Returns m → r.Stacked m := by
  constructor
  · intro machine m returns
    by_contra bare
    have leaves := (next_of_returns returns).1
    rw [machine (m + 1), mpp_of_not_stacked noUser m bare] at leaves
    exact absurd leaves (by decide)
  · intro stacked n
    exact (machine_of_stacked_returns noUser stacked n).1

/-- A trap and its return. -/
def trapAndMret : CsrRun { enableU := false } :=
  script [{ idle with trapEnter := true }, mret]

theorem machine_only_iff_trapAndMret :
    (trapAndMret.state 2).priv = privM := by
  refine (machine_only_iff trapAndMret rfl).mpr (fun m returns => ?_) 2
  match m with
  | 0 => exact absurd returns.1 (by decide)
  | 1 => exact stacked_of_commit (Or.inl rfl)
  | _ + 2 => exact absurd returns.2 Bool.false_ne_true

/-- The first operation after reset is an MRET. -/
def firstMret : CsrRun { enableU := false } := script [mret]

theorem not_machine_only :
    ¬ ∀ (p : Params) (r : CsrRun p), p.enableU = false →
      ∀ n, (r.state n).priv = privM := by
  intro machine
  exact absurd (machine _ firstMret rfl 1) (by decide)

end CsrRun

end SisRv
