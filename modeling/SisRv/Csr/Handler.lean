import SisRv.Csr.PrivilegeStack

/-!
# The CSR state around a handler

A handler that leaves the trap, PMP and trigger registers alone and returns
with MRET leaves everything as it was that a program without SYSTEM
instructions reads, unless MPRV is set in M-mode and MRET changes MPP.
-/

namespace SisRv

namespace CsrState

variable {p : Params}

/-- The registers of traps, interrupts, PMP and triggers. -/
def guardsMain (pmpEntries : ℕ) (addr : BitVec 12) : Bool :=
  [csrMstatus, csrMie, csrMtvec, csrMepc, csrTselect, csrTdata1,
      csrTdata2].contains addr ||
    (csrIsPmpcfg pmpEntries addr).isSome ||
    (csrIsPmpaddr pmpEntries addr).isSome

/-- These registers are the same, apart from the hit bits. -/
structure Kept (c c' : CsrState p) : Prop where
  priv : c'.priv = c.priv
  mstatus : c'.mstatus = c.mstatus
  mie : c'.mie = c.mie
  mtvec : c'.mtvec = c.mtvec
  mepc : c'.mepc = c.mepc
  pmpcfg : c'.pmpcfg = c.pmpcfg
  pmpaddr : c'.pmpaddr = c.pmpaddr
  tdata2 : c'.tdata2 = c.tdata2
  tdata1 : ∀ t k, k < mcHit →
    (c'.tdata1 t).getLsbD k = (c.tdata1 t).getLsbD k

/-- The privilege of data accesses. -/
def dataPriv (c : CsrState p) : BitVec 2 :=
  if c.priv = privM then if c.mprvBit then c.mpp else privM else c.priv

/-- What an instruction other than SYSTEM reads in EX is the same. -/
structure SameAccess (c c' : CsrState p) : Prop where
  priv : c'.priv = c.priv
  pmpcfg : c'.pmpcfg = c.pmpcfg
  pmpaddr : c'.pmpaddr = c.pmpaddr
  dataPriv : c'.dataPriv = c.dataPriv
  tdata2 : c'.tdata2 = c.tdata2
  tdata1 : ∀ t k, k < mcHit →
    (c'.tdata1 t).getLsbD k = (c.tdata1 t).getLsbD k

/-- If MPRV is set in M-mode, MPP is what an MRET leaves there. -/
def MprvSettled (c : CsrState p) : Prop :=
  c.priv = privM → c.mprvBit = true →
    c.mpp = if p.enableU then privU else privM

/-- The state after an MRET. -/
def mretDone (c : CsrState p) : CsrState p :=
  { c with priv := c.mretNextPriv, mstatus := c.mstatusMret }

section Relations

variable {c c' c'' : CsrState p}

theorem Kept.trans (first : Kept c c') (second : Kept c' c'') :
    Kept c c'' where
  priv := second.priv.trans first.priv
  mstatus := second.mstatus.trans first.mstatus
  mie := second.mie.trans first.mie
  mtvec := second.mtvec.trans first.mtvec
  mepc := second.mepc.trans first.mepc
  pmpcfg := second.pmpcfg.trans first.pmpcfg
  pmpaddr := second.pmpaddr.trans first.pmpaddr
  tdata2 := second.tdata2.trans first.tdata2
  tdata1 := fun t k low =>
    (second.tdata1 t k low).trans (first.tdata1 t k low)

theorem Kept.symm (kept : Kept c c') : Kept c' c where
  priv := kept.priv.symm
  mstatus := kept.mstatus.symm
  mie := kept.mie.symm
  mtvec := kept.mtvec.symm
  mepc := kept.mepc.symm
  pmpcfg := kept.pmpcfg.symm
  pmpaddr := kept.pmpaddr.symm
  tdata2 := kept.tdata2.symm
  tdata1 := fun t k low => (kept.tdata1 t k low).symm

theorem Alike.kept (alike : Alike c c') : Kept c c' where
  priv := alike.priv
  mstatus := alike.mstatus
  mie := alike.mie
  mtvec := alike.mtvec
  mepc := alike.mepc
  pmpcfg := alike.pmpcfg
  pmpaddr := alike.pmpaddr
  tdata2 := alike.tdata2
  tdata1 := alike.tdata1

theorem Kept.dataPriv (kept : Kept c c') : c'.dataPriv = c.dataPriv := by
  simp only [CsrState.dataPriv, mprvBit, mpp, kept.priv, kept.mstatus]
  rfl

theorem Kept.sameAccess (kept : Kept c c') : SameAccess c c' where
  priv := kept.priv
  pmpcfg := kept.pmpcfg
  pmpaddr := kept.pmpaddr
  dataPriv := kept.dataPriv
  tdata2 := kept.tdata2
  tdata1 := kept.tdata1

theorem Kept.settled (kept : Kept c c') (settled : c.MprvSettled) :
    c'.MprvSettled := by
  simpa only [MprvSettled, mprvBit, mpp, kept.priv, kept.mstatus]
    using settled

theorem SameAccess.refl (c : CsrState p) : SameAccess c c where
  priv := rfl
  pmpcfg := rfl
  pmpaddr := rfl
  dataPriv := rfl
  tdata2 := rfl
  tdata1 := fun _ _ _ => rfl

theorem SameAccess.symm (same : SameAccess c c') : SameAccess c' c where
  priv := same.priv.symm
  pmpcfg := same.pmpcfg.symm
  pmpaddr := same.pmpaddr.symm
  dataPriv := same.dataPriv.symm
  tdata2 := same.tdata2.symm
  tdata1 := fun t k low => (same.tdata1 t k low).symm

theorem SameAccess.trans
    (first : SameAccess c c') (second : SameAccess c' c'') :
    SameAccess c c'' where
  priv := second.priv.trans first.priv
  pmpcfg := second.pmpcfg.trans first.pmpcfg
  pmpaddr := second.pmpaddr.trans first.pmpaddr
  dataPriv := second.dataPriv.trans first.dataPriv
  tdata2 := second.tdata2.trans first.tdata2
  tdata1 := fun t k low =>
    (second.tdata1 t k low).trans (first.tdata1 t k low)

end Relations

/-! ## What a commit does to them -/

section Commits

variable (c n : CsrState p) (irq : IrqLines) (x : CsrIn p)

theorem kept_tick : Kept c (c.tickCounters x) where
  priv := rfl
  mstatus := rfl
  mie := rfl
  mtvec := rfl
  mepc := rfl
  pmpcfg := rfl
  pmpaddr := rfl
  tdata2 := rfl
  tdata1 := fun _ _ _ => rfl

theorem kept_latchHits : Kept c (latchHits x c) where
  priv := rfl
  mstatus := rfl
  mie := rfl
  mtvec := rfl
  mepc := rfl
  pmpcfg := rfl
  pmpaddr := rfl
  tdata2 := rfl
  tdata1 := by
    intro t k low
    simp only [latchHits]
    split_ifs
    · exact getLsbD_of_hit _ low
    · rfl

/-- The `default` arm of the write case reaches the PMP and counters only. -/
theorem kept_writeIndexed
    {addr : BitVec 12} (val : BitVec 32)
    (cfg : (csrIsPmpcfg p.pmpEntries addr).isSome = false)
    (entry : (csrIsPmpaddr p.pmpEntries addr).isSome = false) :
    Kept n (c.writeIndexed n addr val) := by
  rw [Option.isSome_eq_false_iff, Option.isNone_iff_eq_none] at cfg entry
  simp only [writeIndexed, cfg, entry, Option.filter_none]
  cases csrIsMhpmcounter addr with
  | some counter =>
      exact ⟨rfl, rfl, rfl, rfl, rfl, rfl, rfl, rfl, fun _ _ _ => rfl⟩
  | none =>
      cases csrIsMhpmevent addr <;>
        exact ⟨rfl, rfl, rfl, rfl, rfl, rfl, rfl, rfl, fun _ _ _ => rfl⟩

theorem Kept.ite
    {named : Prop} [Decidable named] {c c' : CsrState p}
    (yes : named → Kept n c) (no : ¬ named → Kept n c') :
    Kept n (if named then c else c') := by
  split_ifs with holds
  · exact yes holds
  · exact no holds

theorem kept_writeCsr
    {addr : BitVec 12} (val : BitVec 32)
    (other : guardsMain p.pmpEntries addr = false) :
    Kept n (c.writeCsr n addr val) := by
  simp only [guardsMain, List.contains_cons, List.contains_nil,
    Bool.or_eq_false_iff, beq_eq_false_iff_ne] at other
  obtain ⟨⟨⟨mstatus, mie, mtvec, mepc, tselect, tdata1, tdata2, -⟩, cfg⟩,
    entry⟩ := other
  have indexed := c.kept_writeIndexed n val cfg entry
  have refl : ∀ mcounteren mcountinhibit mscratch mcause mtval mcycle
      minstret, Kept n { n with
        mcounteren := mcounteren
        mcountinhibit := mcountinhibit
        mscratch := mscratch
        mcause := mcause
        mtval := mtval
        mcycle := mcycle
        minstret := minstret } :=
    fun _ _ _ _ _ _ _ =>
      ⟨rfl, rfl, rfl, rfl, rfl, rfl, rfl, rfl, fun _ _ _ => rfl⟩
  unfold writeCsr
  refine .ite n (fun named => absurd named mstatus) fun _ => ?_
  refine .ite n (fun named => absurd named mie) fun _ => ?_
  refine .ite n (fun named => absurd named mtvec) fun _ => ?_
  refine .ite n (fun _ => refl _ _ _ _ _ _ _) fun _ => ?_
  refine .ite n (fun _ => refl _ _ _ _ _ _ _) fun _ => ?_
  refine .ite n (fun _ => refl _ _ _ _ _ _ _) fun _ => ?_
  refine .ite n (fun named => absurd named mepc) fun _ => ?_
  refine .ite n (fun _ => refl _ _ _ _ _ _ _) fun _ => ?_
  refine .ite n (fun _ => refl _ _ _ _ _ _ _) fun _ => ?_
  refine .ite n (fun _ => refl _ _ _ _ _ _ _) fun _ => ?_
  refine .ite n (fun _ => refl _ _ _ _ _ _ _) fun _ => ?_
  refine .ite n (fun _ => refl _ _ _ _ _ _ _) fun _ => ?_
  refine .ite n (fun _ => refl _ _ _ _ _ _ _) fun _ => ?_
  refine .ite n (fun named => absurd named tselect) fun _ => ?_
  refine .ite n (fun named => absurd named tdata1) fun _ => ?_
  exact .ite n (fun named => absurd named tdata2) fun _ => indexed

theorem kept_commit
    (noTrap : x.trapEnter = false) (noMret : x.mretExec = false)
    (other : x.csrWen = true → guardsMain p.pmpEntries x.csrAddr = false) :
    Kept c (c.commit irq x (c.tickCounters x)) := by
  rw [commit, if_neg (by simp [noTrap]), if_neg (by simp [noMret])]
  refine .ite c (fun writes => ?_) fun _ => c.kept_tick x
  exact (c.kept_tick x).trans (c.kept_writeCsr _ _ (other writes))

theorem kept_commit_of_trap (enter : x.trapEnter = true) :
    Kept (c.trapEntered x) (c.commit irq x (c.tickCounters x)) := by
  rw [commit, if_pos enter]
  exact (c.trapEntered x).kept_tick x

theorem kept_commit_of_mret
    (noTrap : x.trapEnter = false) (mret : x.mretExec = true) :
    Kept c.mretDone (c.commit irq x (c.tickCounters x)) := by
  rw [commit, if_neg (by simp [noTrap]), if_pos mret]
  exact c.mretDone.kept_tick x

end Commits

section Handling

variable {c c' : CsrState p} {x : CsrIn p}

theorem Kept.mretDone (kept : Kept c c') :
    Kept c.mretDone c'.mretDone where
  priv := by simp only [CsrState.mretDone, mretNextPriv, kept.mstatus]
  mstatus := by
    simp only [CsrState.mretDone, mstatusMret, mretNextPriv, kept.mstatus]
    rfl
  mie := kept.mie
  mtvec := kept.mtvec
  mepc := kept.mepc
  pmpcfg := kept.pmpcfg
  pmpaddr := kept.pmpaddr
  tdata2 := kept.tdata2
  tdata1 := kept.tdata1

theorem Kept.trapEntered (kept : Kept c c') :
    Kept (c.trapEntered x) (c'.trapEntered x) where
  priv := rfl
  mstatus := by
    simp only [CsrState.trapEntered, mstatusTrap, kept.mstatus, kept.priv]
  mie := kept.mie
  mtvec := kept.mtvec
  mepc := rfl
  pmpcfg := kept.pmpcfg
  pmpaddr := kept.pmpaddr
  tdata2 := kept.tdata2
  tdata1 := kept.tdata1

/-- The MRET of a handler restores what the interrupted program reads. -/
theorem sameAccess_mretDone
    (settled : c.MprvSettled) (kept : Kept (c.trapEntered x) c') :
    SameAccess c c'.mretDone ∧ c'.mretDone.MprvSettled := by
  have mstatus : c'.mstatus = c.mstatusTrap := kept.mstatus
  have saved : c'.mpp = c.priv := by rw [mpp, mstatus, mstatusTrap_mpp]
  have priv : c'.mretDone.priv = c.priv := saved
  have mpp : c'.mretDone.mpp = if p.enableU then privU else privM :=
    c'.mstatusMret_mpp
  have mprv : c'.mretDone.mprvBit =
      if c.priv = privM then c.mprvBit else false := by
    show c'.mstatusMret.getLsbD 17 = _
    rw [(mstatusMret_bits c').2, saved, mstatus, (mstatusTrap_bits c).2.2]
    rfl
  refine ⟨?_, fun _ _ => mpp⟩
  exact {
    priv := priv
    pmpcfg := kept.pmpcfg
    pmpaddr := kept.pmpaddr
    dataPriv := by
      by_cases machine : c.priv = privM
      · simp only [dataPriv, priv, mprv, mpp, machine, if_true]
        by_cases set : c.mprvBit = true
        · rw [if_pos set, if_pos set, settled machine set]
        · rw [if_neg set, if_neg set]
      · simp only [dataPriv, priv, if_neg machine]
    tdata2 := kept.tdata2
    tdata1 := kept.tdata1 }

/-- No interrupt is requested in the handler. -/
theorem irqPending_of_trapEntered
    (kept : Kept (c.trapEntered x) c') (irq : IrqLines) :
    c'.irqPending irq = false := by
  have mstatus : c'.mstatus = c.mstatusTrap := kept.mstatus
  have off : c'.mstatus.getLsbD 3 = false := by
    rw [mstatus, (mstatusTrap_bits c).2.1]
  simp only [irqPending, meipOn, mtipOn, msipOn, irqOn, off,
    Bool.false_and, Bool.or_false]

end Handling

end CsrState

end SisRv
