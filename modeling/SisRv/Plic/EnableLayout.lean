import SisRv.Plic.Protocol

/-!
# The layout of the enable and pending registers

A write takes the bit of a source from its own place in the bus word, a read
puts the first source into bit 0.  The module says when the two views agree.
-/

namespace SisRv

open Plic

namespace PlicState

variable {n : ℕ}

/-! ## Words of source bits -/

/-- The bits of a bus word, bit `i` for source `i`. -/
def sourceBits (word : BitVec 32) : Fin n → Bool := fun e =>
  word.getLsbD (e.val + 1)

/-- Bit `i` of a word stands for source `i`, and no other bit is set. -/
def Shows (word : BitVec 32) (bits : Fin n → Bool) : Prop :=
  ∀ j, word.getLsbD j = true ↔ ∃ e : Fin n, e.val + 1 = j ∧ bits e = true

/-- The bit of the source with the next number. -/
def following (bits : Fin n → Bool) : Fin n → Bool := fun e =>
  if h : e.val + 1 < n then bits ⟨e.val + 1, h⟩ else false

section Pack

variable (small : n ≤ 15) (bits : Fin n → Bool)
include small

theorem getLsbD_packSources (j : ℕ) :
    (packSources bits).getLsbD j =
      if h : j < n then bits ⟨j, h⟩ else false := by
  have scan : ∀ (sources : List (Fin n)) (word : BitVec 32),
      (sources.foldl (fun word e =>
        if bits e then word ||| BitVec.twoPow 32 e.val else word)
        word).getLsbD j = true ↔
      word.getLsbD j = true ∨ ∃ e ∈ sources, e.val = j ∧ bits e = true := by
    intro sources
    induction sources with
    | nil => simp
    | cons first rest inductionHypothesis =>
        intro word
        have bound := first.isLt
        rw [List.foldl_cons, inductionHypothesis]
        by_cases set : bits first = true
        · have inside : first.val < 32 := by omega
          simp only [set, if_true, BitVec.getLsbD_or, BitVec.getLsbD_twoPow,
            List.mem_cons, exists_eq_or_imp, Bool.or_eq_true,
            Bool.and_eq_true, decide_eq_true_eq, inside, true_and, and_true]
          tauto
        · simp [set]
  have all := scan (List.finRange n) 0
  rw [Bool.eq_iff_iff]
  refine all.trans ?_
  by_cases inside : j < n
  · rw [dif_pos inside]
    constructor
    · rintro (zero | ⟨e, -, rfl, set⟩)
      · simp at zero
      · exact set
    · exact fun set => Or.inr ⟨⟨j, inside⟩, by simp, rfl, set⟩
  · rw [dif_neg inside]
    constructor
    · rintro (zero | ⟨e, -, rfl, -⟩)
      · simp at zero
      · exact absurd e.isLt inside
    · exact fun bad => absurd bad Bool.false_ne_true

theorem sourceBits_packSources :
    sourceBits (packSources bits) = following bits := by
  funext e
  exact getLsbD_packSources small bits (e.val + 1)

/-- The packed word has every source one place too low. -/
theorem shows_packSources_iff :
    Shows (packSources bits) bits ↔ ∀ e, bits e = false := by
  constructor
  · intro shows_
    have clear : ∀ j (h : j < n), bits ⟨j, h⟩ = false := by
      intro j
      induction j with
      | zero =>
          intro inside
          by_contra set
          have bit := getLsbD_packSources small bits 0
          rw [dif_pos inside, Bool.eq_true_of_not_eq_false set] at bit
          obtain ⟨e, none, -⟩ := (shows_ 0).mp bit
          omega
      | succ j inductionHypothesis =>
          intro inside
          by_contra set
          have bit := getLsbD_packSources small bits (j + 1)
          rw [dif_pos inside, Bool.eq_true_of_not_eq_false set] at bit
          obtain ⟨e, next, other⟩ := (shows_ (j + 1)).mp bit
          have below : e.val = j := Nat.succ.inj next
          rw [show e = ⟨j, by omega⟩ from Fin.ext below,
            inductionHypothesis] at other
          exact Bool.false_ne_true other
    exact fun e => clear e.val e.isLt
  · intro clear j
    rw [getLsbD_packSources small]
    constructor
    · intro bit
      split_ifs at bit with inside
      rw [clear] at bit
      exact absurd bit Bool.false_ne_true
    · rintro ⟨e, -, set⟩
      rw [clear] at set
      exact absurd set Bool.false_ne_true

end Pack

end PlicState

/-! ## Runs -/

namespace PlicRun

open PlicState

variable {n : ℕ} (r : PlicRun n)

/-- The enable register is not written between two cycles. -/
def Undisturbed (a b : ℕ) : Prop :=
  a < b ∧ ∀ c, a < c → c < b → ¬ r.Accesses c offEnable true

/-- The register at an offset is written with a whole word. -/
def WritesWord (k : ℕ) (offset v : BitVec 32) : Prop :=
  r.Accesses k offset true ∧ (r.inputs k).req.wstrb = 0xF ∧
    (r.inputs k).req.wdata = v

/-- The registers have one layout, bit `i` for source `i`. -/
structure OneLayout : Prop where
  readBack : ∀ a b v, r.WritesWord a offEnable v → r.Undisturbed a b →
    r.Accesses b offEnable false →
    Shows (n := n) (r.state (b + 1)).rdataReg (sourceBits v)
  pending : ∀ k, r.Accesses k offPending false →
    Shows (r.state (k + 1)).rdataReg (r.state k).gatewayPending
  setOne : ∀ a b s, r.Accesses a offEnable false → r.Undisturbed a b →
    r.WritesWord b offEnable
      ((r.state (a + 1)).rdataReg ||| BitVec.twoPow 32 (s.val + 1)) →
    (r.state (b + 1)).enabled = Function.update (r.state b).enabled s true

variable {r} {a b k : ℕ}

theorem rel_of_access {offset : BitVec 32} {we : Bool}
    (accesses : r.Accesses k offset we) :
    rel baseAddr (r.inputs k).req = offset := by
  rw [rel, accesses.2.2, BitVec.add_comm, BitVec.add_sub_cancel]

theorem addrMatch_of_access {offset : BitVec 32} {we : Bool}
    (near : offset = offEnable ∨ offset = offPending)
    (accesses : r.Accesses k offset we) :
    addrMatch baseAddr (r.inputs k).req = true := by
  rw [addrMatch, accesses.2.2]
  rcases near with rfl | rfl <;> decide

theorem enabled_of_write (writes : r.Accesses k offEnable true) :
    (r.state (k + 1)).enabled = sourceBits (r.inputs k).req.wdata := by
  have match_ := addrMatch_of_access (Or.inl rfl) writes
  have offset := rel_of_access writes
  obtain ⟨fire, we, -⟩ := writes
  rw [r.state_succ]
  simp only [next, access, fire, match_, we, offset, writeReg, if_true,
    Bool.and_self]
  rfl

theorem enabled_writeReg_of_ne {s t : PlicState n} {offset : BitVec 32}
    (other : offset ≠ offEnable) (req : BusReq) :
    (s.writeReg offset req t).enabled = t.enabled := by
  unfold writeReg
  rw [if_neg other]
  cases prioIndex n offset <;> split_ifs <;> rfl

theorem enabled_readReg (s t : PlicState n) (offset : BitVec 32) :
    (s.readReg offset t).enabled = t.enabled := by
  unfold readReg
  cases prioIndex n offset <;> split_ifs <;> rfl

theorem enabled_of_quiet (quiet : ¬ r.Accesses k offEnable true) :
    (r.state (k + 1)).enabled = (r.state k).enabled := by
  rw [r.state_succ]
  change ((r.state k).access baseAddr (r.inputs k) (r.state k)).enabled = _
  unfold access
  by_cases fire : (r.state k).reqFire (r.inputs k) = true
  · rw [if_pos fire]
    dsimp only
    split_ifs with write read
    · rw [Bool.and_eq_true] at write
      refine enabled_writeReg_of_ne (fun offset => quiet ?_) _
      refine ⟨fire, write.2, ?_⟩
      rw [← offset, rel, BitVec.add_comm, BitVec.sub_add_cancel]
    · exact enabled_readReg _ _ _
    · rfl
  · rw [if_neg fire]
    split_ifs <;> rfl

theorem Undisturbed.enabled (quiet : r.Undisturbed a b) :
    (r.state b).enabled = (r.state (a + 1)).enabled := by
  obtain ⟨before, silent⟩ := quiet
  induction b, before using Nat.le_induction with
  | base => rfl
  | succ b above inductionHypothesis =>
      rw [enabled_of_quiet (silent b above (Nat.lt_succ_self b))]
      exact inductionHypothesis fun c after below =>
        silent c after (Nat.lt_succ_of_lt below)

theorem rdataReg_of_enable (reads : r.Accesses k offEnable false) :
    (r.state (k + 1)).rdataReg = packSources (r.state k).enabled := by
  have match_ := addrMatch_of_access (Or.inl rfl) reads
  have offset := rel_of_access reads
  obtain ⟨fire, we, -⟩ := reads
  have different : offEnable ≠ offPending := by decide
  rw [r.state_succ]
  simp [next, access, fire, match_, we, offset, readReg, different]

theorem rdataReg_of_pending (reads : r.Accesses k offPending false) :
    (r.state (k + 1)).rdataReg = packSources (r.state k).gatewayPending := by
  have match_ := addrMatch_of_access (Or.inr rfl) reads
  have offset := rel_of_access reads
  obtain ⟨fire, we, -⟩ := reads
  rw [r.state_succ]
  simp [next, access, fire, match_, we, offset, readReg]

theorem enabled_of_read (reads : r.Accesses k offEnable false) :
    (r.state (k + 1)).enabled = (r.state k).enabled := by
  refine enabled_of_quiet fun writes => ?_
  have both := reads.2.1.symm.trans writes.2.1
  exact Bool.false_ne_true both

section Events

variable (small : n ≤ 15)
include small

/-- A word that is written comes back if it enables no source. -/
theorem readBack_iff {v : BitVec 32} (writes : r.WritesWord a offEnable v)
    (quiet : r.Undisturbed a b) (reads : r.Accesses b offEnable false) :
    Shows (n := n) (r.state (b + 1)).rdataReg (sourceBits v) ↔
      ∀ e : Fin n, v.getLsbD (e.val + 1) = false := by
  obtain ⟨write, -, rfl⟩ := writes
  rw [rdataReg_of_enable reads, quiet.enabled, enabled_of_write write,
    shows_packSources_iff small]
  rfl

theorem pending_iff (reads : r.Accesses k offPending false) :
    Shows (r.state (k + 1)).rdataReg (r.state k).gatewayPending ↔
      ∀ e, (r.state k).gatewayPending e = false := by
  rw [rdataReg_of_pending reads, shows_packSources_iff small]

/-- Setting one bit of what was read moves every other source down. -/
theorem setOne_iff {s : Fin n} (reads : r.Accesses a offEnable false)
    (quiet : r.Undisturbed a b)
    (writes : r.WritesWord b offEnable
      ((r.state (a + 1)).rdataReg ||| BitVec.twoPow 32 (s.val + 1))) :
    (r.state (b + 1)).enabled = Function.update (r.state b).enabled s true ↔
      ∀ e, e ≠ s →
        (r.state b).enabled e = following (r.state b).enabled e := by
  obtain ⟨write, -, word⟩ := writes
  have before : (r.state b).enabled = (r.state a).enabled := by
    rw [quiet.enabled, enabled_of_read reads]
  have bound := s.isLt
  have written : ∀ e, (r.state (b + 1)).enabled e =
      (following (r.state b).enabled e || decide (s = e)) := by
    intro e
    have packed := congrFun
      (sourceBits_packSources small (r.state a).enabled) e
    have inside : s.val + 1 < 32 := by omega
    rw [enabled_of_write write, word, rdataReg_of_enable reads, before,
      ← packed]
    simp [sourceBits, inside, Fin.ext_iff]
  rw [funext_iff]
  constructor
  · intro same e other
    have now := same e
    rw [written, Function.update_of_ne other, decide_eq_false other.symm,
      Bool.or_false] at now
    exact now.symm
  · intro same e
    rw [written]
    by_cases set : s = e
    · subst set
      simp
    · rw [Function.update_of_ne (Ne.symm set), decide_eq_false set,
        Bool.or_false, same e (Ne.symm set)]

end Events

end PlicRun

/-- The registers have one layout if and only if no written word that is read
back enables a source, no source is pending when the pending register is read,
and before a read-modify-write of one source every other source is enabled
exactly if the next one is. -/
theorem oneLayout_iff {n : ℕ} (small : n ≤ 15) (r : PlicRun n) :
    r.OneLayout ↔
      (∀ a b v, r.WritesWord a offEnable v → r.Undisturbed a b →
        r.Accesses b offEnable false →
        ∀ e : Fin n, v.getLsbD (e.val + 1) = false) ∧
      (∀ k, r.Accesses k offPending false →
        ∀ e, (r.state k).gatewayPending e = false) ∧
      ∀ a b s, r.Accesses a offEnable false → r.Undisturbed a b →
        r.WritesWord b offEnable
          ((r.state (a + 1)).rdataReg ||| BitVec.twoPow 32 (s.val + 1)) →
        ∀ e, e ≠ s → (r.state b).enabled e =
          PlicState.following (r.state b).enabled e := by
  constructor
  · rintro ⟨readBack, pending, setOne⟩
    refine ⟨fun a b v writes quiet reads => ?_, fun k reads => ?_,
      fun a b s reads quiet writes => ?_⟩
    · exact (PlicRun.readBack_iff small writes quiet reads).mp
        (readBack a b v writes quiet reads)
    · exact (PlicRun.pending_iff small reads).mp (pending k reads)
    · exact (PlicRun.setOne_iff small reads quiet writes).mp
        (setOne a b s reads quiet writes)
  · rintro ⟨readBack, pending, setOne⟩
    constructor
    · intro a b v writes quiet reads
      exact (PlicRun.readBack_iff small writes quiet reads).mpr
        (readBack a b v writes quiet reads)
    · intro k reads
      exact (PlicRun.pending_iff small reads).mpr (pending k reads)
    · intro a b s reads quiet writes
      exact (PlicRun.setOne_iff small reads quiet writes).mpr
        (setOne a b s reads quiet writes)

/-- The enable register is cleared and read. -/
def enableNone : PlicRun 1 where
  inputs := fun k =>
    { reqValid := k == 0 || k == 2
      req := ⟨0x0C002000, k == 0, 0, 0xF⟩
      rspReady := true
      irqSrc := fun _ => false }

theorem oneLayout_iff_enableNone : enableNone.OneLayout := by
  refine (oneLayout_iff (by decide) enableNone).mpr ⟨?_, ?_, ?_⟩
  · rintro a b v ⟨-, -, rfl⟩ - - e
    exact BitVec.getLsbD_zero
  · rintro k ⟨-, -, named⟩
    have named : (0x0C002000 : BitVec 32) = baseAddr + offPending := named
    exact absurd named (by decide)
  · intro a b s _ _ _ e other
    exact absurd (Subsingleton.elim e s) other

/-- Source 1 is enabled, then the enable register is read. -/
def enableOne : PlicRun 1 where
  inputs := fun k =>
    { reqValid := k == 0 || k == 2
      req := ⟨0x0C002000, k == 0, 0x2, 0xF⟩
      rspReady := true
      irqSrc := fun _ => false }

/-- The read returns 1 where 2 was written. -/
theorem not_oneLayout :
    ¬ ∀ (n : ℕ) (r : PlicRun n), n ≤ 15 → r.OneLayout := by
  intro layout
  have writes : enableOne.WritesWord 0 offEnable 2 := by
    refine ⟨⟨?_, rfl, rfl⟩, rfl, rfl⟩
    decide
  have quiet : enableOne.Undisturbed 0 2 := by
    refine ⟨by decide, fun c after below writes => ?_⟩
    obtain rfl : c = 1 := by omega
    exact Bool.false_ne_true writes.2.1
  have reads : enableOne.Accesses 2 offEnable false := by
    refine ⟨?_, rfl, rfl⟩
    decide
  have bit := ((layout 1 enableOne (by decide)).readBack 0 2 2 writes quiet
    reads 1).mpr ⟨0, rfl, rfl⟩
  exact absurd bit (by decide)

end SisRv
