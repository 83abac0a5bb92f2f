import SisRv.Csr.Run

/-!
# PMP locks

A locked entry keeps its configuration and address until reset, and a locked
TOR entry keeps the address below it, whatever is executed.
-/

namespace SisRv

namespace CsrState

variable {p : Params} (c : CsrState p) (irq : IrqLines) (x : CsrIn p)

/-- Bit L of an entry. -/
def Locked (e : Fin p.pmpEntries) : Prop := (c.pmpcfg e).getLsbD 7 = true

/-- The A field of an entry is TOR. -/
def TopOfRange (e : Fin p.pmpEntries) : Prop :=
  (c.pmpcfg e).extractLsb' 3 2 = 0b01

instance (e : Fin p.pmpEntries) : Decidable (c.Locked e) :=
  inferInstanceAs (Decidable (_ = _))

instance (e : Fin p.pmpEntries) : Decidable (c.TopOfRange e) :=
  inferInstanceAs (Decidable (_ = _))

theorem pmpcfgLocked_iff (e : Fin p.pmpEntries) :
    c.pmpcfgLocked e.val = true ↔ c.Locked e := by
  simp [pmpcfgLocked, Locked]

/-! ## What a step can do -/

section Steps

theorem writeIndexed_pmp_cases
    (n : CsrState p) (addr : BitVec 12) (val : BitVec 32) :
    ((c.writeIndexed n addr val).pmpcfg = n.pmpcfg ∧
        (c.writeIndexed n addr val).pmpaddr = n.pmpaddr) ∨
      (∃ slot,
        (c.writeIndexed n addr val).pmpcfg = c.writePmpcfg slot val ∧
          (c.writeIndexed n addr val).pmpaddr = n.pmpaddr) ∨
      ∃ idx : Fin p.pmpEntries, c.pmpaddrWriteBlocked idx.val = false ∧
        (c.writeIndexed n addr val).pmpcfg = n.pmpcfg ∧
        (c.writeIndexed n addr val).pmpaddr =
          fun e => if e = idx then val else n.pmpaddr e := by
  unfold writeIndexed
  cases csrIsPmpcfg p.pmpEntries addr with
  | some slot =>
      exact Or.inr (Or.inl ⟨slot, rfl, rfl⟩)
  | none =>
      cases writable : (csrIsPmpaddr p.pmpEntries addr).filter
          (fun idx => !c.pmpaddrWriteBlocked idx.val) with
      | some idx =>
          have allowed := (Option.filter_eq_some_iff.mp writable).2
          exact Or.inr (Or.inr ⟨idx, by simpa using allowed, rfl, rfl⟩)
      | none =>
          apply Or.inl
          dsimp only
          split
          · exact ⟨rfl, rfl⟩
          · split <;> exact ⟨rfl, rfl⟩

/-- A step keeps the PMP, writes one slot of unlocked bytes or one unblocked
address. -/
theorem next_pmp_cases :
    ((c.next irq x).pmpcfg = c.pmpcfg ∧
        (c.next irq x).pmpaddr = c.pmpaddr) ∨
      (∃ slot val, (c.next irq x).pmpcfg = c.writePmpcfg slot val ∧
        (c.next irq x).pmpaddr = c.pmpaddr) ∨
      ∃ (idx : Fin p.pmpEntries) (val : BitVec 32),
        c.pmpaddrWriteBlocked idx.val = false ∧
        (c.next irq x).pmpcfg = c.pmpcfg ∧
        (c.next irq x).pmpaddr =
          fun e => if e = idx then val else c.pmpaddr e := by
  by_cases write : x.csrWen = true
  · by_cases enter : x.trapEnter = true
    · exact Or.inl (by simp [next, latchHits, commit, enter, tickCounters])
    by_cases mret : x.mretExec = true
    · exact Or.inl (by
        simp [next, latchHits, commit, enter, mret, tickCounters])
    have written : (c.next irq x).pmpcfg =
          (c.writeCsr (c.tickCounters x) x.csrAddr
            (c.csrNewVal irq x)).pmpcfg ∧
        (c.next irq x).pmpaddr =
          (c.writeCsr (c.tickCounters x) x.csrAddr
            (c.csrNewVal irq x)).pmpaddr := by
      constructor <;>
        simp only [next, latchHits, commit, if_neg enter, if_neg mret,
          if_pos write]
    rw [written.1, written.2, writeCsr_pmpcfg, writeCsr_pmpaddr]
    by_cases named : x.csrAddr ∈ namedCsrs
    · rw [if_pos named, if_pos named]
      exact Or.inl ⟨rfl, rfl⟩
    · rw [if_neg named, if_neg named]
      rcases c.writeIndexed_pmp_cases (c.tickCounters x) x.csrAddr
          (c.csrNewVal irq x) with kept | config | address
      · exact Or.inl kept
      · obtain ⟨slot, pmpcfg, pmpaddr⟩ := config
        exact Or.inr (Or.inl ⟨slot, _, pmpcfg, pmpaddr⟩)
      · obtain ⟨idx, free, pmpcfg, pmpaddr⟩ := address
        exact Or.inr (Or.inr ⟨idx, _, free, pmpcfg, pmpaddr⟩)
  · exact Or.inl (c.next_pmp irq x (by simpa using write))

end Steps

/-! ## What a lock keeps -/

section Kept

variable {c} {e : Fin p.pmpEntries}

theorem writePmpcfg_of_locked
    (locked : c.Locked e) (slot : ℕ) (val : BitVec 32) :
    c.writePmpcfg slot val e = c.pmpcfg e := by
  have blocked := (c.pmpcfgLocked_iff e).mpr locked
  simp [writePmpcfg, blocked]

theorem pmpaddrWriteBlocked_of_locked (locked : c.Locked e) :
    c.pmpaddrWriteBlocked e.val = true := by
  have blocked := (c.pmpcfgLocked_iff e).mpr locked
  simp [pmpaddrWriteBlocked, blocked]

theorem pmpaddrWriteBlocked_below
    (locked : c.Locked e) (tor : c.TopOfRange e)
    {below : Fin p.pmpEntries} (adjacent : below.val + 1 = e.val) :
    c.pmpaddrWriteBlocked below.val = true := by
  have within : below.val + 1 < p.pmpEntries := adjacent ▸ e.isLt
  have same : (⟨below.val + 1, within⟩ : Fin p.pmpEntries) = e :=
    Fin.ext adjacent
  simp only [Locked] at locked
  simp only [TopOfRange] at tor
  simp only [pmpaddrWriteBlocked, dif_pos within, same, tor, locked]
  simp [Nat.not_le.mpr below.isLt]

theorem next_pmpcfg_of_locked (locked : c.Locked e) :
    (c.next irq x).pmpcfg e = c.pmpcfg e := by
  rcases c.next_pmp_cases irq x with kept | config | address
  · rw [kept.1]
  · obtain ⟨slot, val, pmpcfg, -⟩ := config
    rw [pmpcfg]
    exact writePmpcfg_of_locked locked slot val
  · obtain ⟨idx, val, -, pmpcfg, -⟩ := address
    rw [pmpcfg]

theorem next_pmpaddr_of_blocked
    (blocked : c.pmpaddrWriteBlocked e.val = true) :
    (c.next irq x).pmpaddr e = c.pmpaddr e := by
  rcases c.next_pmp_cases irq x with kept | config | address
  · rw [kept.2]
  · obtain ⟨slot, val, -, pmpaddr⟩ := config
    rw [pmpaddr]
  · obtain ⟨idx, val, free, -, pmpaddr⟩ := address
    have different : e ≠ idx := by
      rintro rfl
      rw [blocked] at free
      exact Bool.false_ne_true free.symm
    rw [pmpaddr]
    exact if_neg different

end Kept

/-! ## Unlocked entries of a written slot -/

/-- A write to a slot sets every byte of it that is not locked. -/
theorem next_pmpcfg_of_write
    {slot : ℕ} (noTrap : x.trapEnter = false) (noMret : x.mretExec = false)
    (write : x.csrWen = true)
    (unnamed : x.csrAddr ∉ namedCsrs)
    (decodes : csrIsPmpcfg p.pmpEntries x.csrAddr = some slot) :
    (c.next irq x).pmpcfg = c.writePmpcfg slot (c.csrNewVal irq x) := by
  have indexed := c.writeCsr_of_unnamed (c.tickCounters x) x.csrAddr
    (c.csrNewVal irq x) unnamed
  simp only [next, latchHits, commit, noTrap, noMret, write, if_true,
    Bool.false_eq_true, if_false, indexed, writeIndexed, decodes]

end CsrState

/-! ## Runs -/

namespace CsrRun

open CsrState

variable {p : Params} (r : CsrRun p) {e : Fin p.pmpEntries}

/-- From the cycle an entry is locked on, its configuration is constant. -/
theorem pmpcfg_of_locked
    {m n : ℕ} (locked : (r.state m).Locked e) (later : m ≤ n) :
    (r.state n).pmpcfg e = (r.state m).pmpcfg e := by
  induction n, later using Nat.le_induction with
  | base =>
      rfl
  | succ n later inductionHypothesis =>
      have still : (r.state n).Locked e := by
        rw [Locked, inductionHypothesis]
        exact locked
      rw [r.state_succ, next_pmpcfg_of_locked _ _ still,
        inductionHypothesis]

/-- An address that the locks of cycle `m` block stays, while these locks do
not change. -/
theorem pmpaddr_of_blocked
    {m n : ℕ} (later : m ≤ n)
    (blocked : ∀ k, m ≤ k → (r.state k).pmpaddrWriteBlocked e.val = true) :
    (r.state n).pmpaddr e = (r.state m).pmpaddr e := by
  induction n, later using Nat.le_induction with
  | base =>
      rfl
  | succ n later inductionHypothesis =>
      rw [r.state_succ, next_pmpaddr_of_blocked _ _ (blocked n later),
        inductionHypothesis]

/-- A locked entry is immutable until reset, and so is the address below a
locked TOR entry; a write to the slot of four entries still sets the bytes of
the unlocked ones. -/
theorem locked_entries_immutable :
    (∀ m n, m ≤ n → (r.state m).Locked e →
      (r.state n).pmpcfg e = (r.state m).pmpcfg e ∧
      (r.state n).pmpaddr e = (r.state m).pmpaddr e ∧
      ((r.state m).TopOfRange e →
        ∀ below : Fin p.pmpEntries, below.val + 1 = e.val →
          (r.state n).pmpaddr below = (r.state m).pmpaddr below)) ∧
    ∀ n addr slot, r.Writes addr n → addr ∉ namedCsrs →
      csrIsPmpcfg p.pmpEntries addr = some slot →
      slot * 4 ≤ e.val → e.val < slot * 4 + 4 → ¬ (r.state n).Locked e →
      (r.state (n + 1)).pmpcfg e =
        warlPmpcfgByte ((r.written n).extractLsb' (8 * (e.val - slot * 4)) 8)
      := by
  constructor
  · intro m n later locked
    have config : ∀ k, m ≤ k →
        (r.state k).pmpcfg e = (r.state m).pmpcfg e :=
      fun k within => r.pmpcfg_of_locked locked within
    have always : ∀ k, m ≤ k → (r.state k).Locked e := by
      intro k within
      rw [Locked, config k within]
      exact locked
    refine ⟨config n later, ?_, ?_⟩
    · apply r.pmpaddr_of_blocked later
      intro k within
      exact pmpaddrWriteBlocked_of_locked (always k within)
    · intro tor below adjacent
      apply r.pmpaddr_of_blocked later
      intro k within
      have still : (r.state k).TopOfRange e := by
        rw [TopOfRange, config k within]
        exact tor
      exact pmpaddrWriteBlocked_below (always k within) still adjacent
  · rintro n addr slot ⟨noTrap, noMret, write, rfl⟩ unnamed decodes first last
      unlocked
    have free : (r.state n).pmpcfgLocked e.val = false := by
      rw [← Bool.not_eq_true, pmpcfgLocked_iff]
      exact unlocked
    rw [r.state_succ,
      next_pmpcfg_of_write _ _ _ noTrap noMret write unnamed decodes]
    simp only [writePmpcfg, first, last, free, and_self, if_true, written]

/-- Entry 1 becomes a locked TOR entry; then its slot and the address below
it are written. -/
def lockedTor : CsrRun {} :=
  script [csrWrite 0x3B0 0x1000, csrWrite 0x3B1 0x2000,
    csrWrite 0x3A0 0x8F00, csrWrite 0x3B0 0x3000, csrWrite 0x3A0 0x1F1F1F1F]

theorem lockedTor_immutable :
    (lockedTor.state 5).pmpcfg 1 = (lockedTor.state 3).pmpcfg 1 ∧
      (lockedTor.state 5).pmpaddr 0 = (lockedTor.state 3).pmpaddr 0 ∧
      (lockedTor.state 5).pmpcfg 2 = 0x1F := by
  have kept := (lockedTor.locked_entries_immutable (e := 1)).1 3 5
    (by decide) (by decide)
  have taken := (lockedTor.locked_entries_immutable (e := 2)).2 4 0x3A0 0
    (by decide) (by decide) (by decide) (by decide)
    (by decide) (by decide)
  refine ⟨kept.1, kept.2.2 (by decide) 0 (by decide), ?_⟩
  rw [taken]
  decide

end CsrRun

end SisRv
