import SisRv.Rtl.Core.Step

/-!
# Frames of the CSR unit

A cycle without a trap, a return and an effective write changes only the
counters and the hit bits; a trap changes the trap registers besides.  A write
reaches the PMP only through the `default` arm of the write case.
-/

namespace SisRv

namespace CsrState

variable {p : Params}

/-- Only the counters tick and only hit bits are set. -/
structure Quiet (c c' : CsrState p) : Prop where
  priv : c'.priv = c.priv
  mstatus : c'.mstatus = c.mstatus
  mie : c'.mie = c.mie
  mtvec : c'.mtvec = c.mtvec
  mcounteren : c'.mcounteren = c.mcounteren
  mcountinhibit : c'.mcountinhibit = c.mcountinhibit
  mscratch : c'.mscratch = c.mscratch
  mepc : c'.mepc = c.mepc
  mcause : c'.mcause = c.mcause
  mtval : c'.mtval = c.mtval
  mip : c'.mip = c.mip
  pmpcfg : c'.pmpcfg = c.pmpcfg
  pmpaddr : c'.pmpaddr = c.pmpaddr
  mhpmevent : c'.mhpmevent = c.mhpmevent
  tselect : c'.tselect = c.tselect
  tdata2 : c'.tdata2 = c.tdata2
  tdata1 : ∀ t, c'.tdata1 t = c.tdata1 t ∨
    c'.tdata1 t = c.tdata1 t ||| BitVec.twoPow 32 mcHit
  mcycle : c'.mcycle = c.mcycle ∨ c'.mcycle = c.mcycle + 1
  minstret : c'.minstret = c.minstret ∨ c'.minstret = c.minstret + 1
  mhpmcounter : ∀ hi, c'.mhpmcounter hi = c.mhpmcounter hi ∨
    c'.mhpmcounter hi = c.mhpmcounter hi + 1

/-- The same registers where EX reads them, which is neither the counters nor
the hit bits. -/
structure Alike (c c' : CsrState p) : Prop where
  priv : c'.priv = c.priv
  mstatus : c'.mstatus = c.mstatus
  mie : c'.mie = c.mie
  mtvec : c'.mtvec = c.mtvec
  mcounteren : c'.mcounteren = c.mcounteren
  mepc : c'.mepc = c.mepc
  pmpcfg : c'.pmpcfg = c.pmpcfg
  pmpaddr : c'.pmpaddr = c.pmpaddr
  tdata2 : c'.tdata2 = c.tdata2
  tdata1 : ∀ t k, k < mcHit →
    (c'.tdata1 t).getLsbD k = (c.tdata1 t).getLsbD k

theorem getLsbD_of_hit (word : BitVec 32) {k : ℕ} (low : k < mcHit) :
    (word ||| BitVec.twoPow 32 mcHit).getLsbD k = word.getLsbD k := by
  rw [BitVec.getLsbD_or, BitVec.getLsbD_twoPow]
  simp [Nat.ne_of_gt low]

theorem Quiet.alike {c c' : CsrState p} (quiet : Quiet c c') :
    Alike c c' where
  priv := quiet.priv
  mstatus := quiet.mstatus
  mie := quiet.mie
  mtvec := quiet.mtvec
  mcounteren := quiet.mcounteren
  mepc := quiet.mepc
  pmpcfg := quiet.pmpcfg
  pmpaddr := quiet.pmpaddr
  tdata2 := quiet.tdata2
  tdata1 := by
    intro t k low
    rcases quiet.tdata1 t with same | hit
    · rw [same]
    · rw [hit, getLsbD_of_hit _ low]

/-- So are the interrupt requests. -/
theorem Alike.interrupts {c c' : CsrState p} (alike : Alike c c')
    (irq : IrqLines) :
    c'.irqPending irq = c.irqPending irq ∧
      c'.irqCause irq = c.irqCause irq := by
  have on : ∀ bit line, c'.irqOn bit line = c.irqOn bit line := by
    intro bit line
    simp only [irqOn, alike.mstatus, alike.mie]
  constructor
  · simp only [irqPending, meipOn, mtipOn, msipOn, on]
  · simp only [irqCause, meipOn, mtipOn, msipOn, on]
    rfl

/-- The trap registers after the entry of a trap. -/
def trapEntered (c : CsrState p) (x : CsrIn p) : CsrState p :=
  { c with
    mepc := x.trapEpc
    mcause := x.trapCause
    mtval := x.trapVal
    mstatus := c.mstatusTrap
    priv := privM }

variable (c : CsrState p) (irq : IrqLines) (x : CsrIn p)

theorem quiet_tick : Quiet c (latchHits x (c.tickCounters x)) := by
  constructor
  case tdata1 =>
    intro t
    by_cases hit : x.trigHitSet t = true
    · exact Or.inr (by simp [latchHits, tickCounters, hit])
    · exact Or.inl (by simp [latchHits, tickCounters, hit])
  case mcycle =>
    by_cases inhibited : c.mcountinhibit.getLsbD 0 = true
    · exact Or.inl (by simp only [latchHits, tickCounters, if_pos inhibited])
    · exact Or.inr (by simp only [latchHits, tickCounters, if_neg inhibited])
  case minstret =>
    by_cases retires :
        (x.instrRetire && !c.mcountinhibit.getLsbD 2) = true
    · exact Or.inr (by simp only [latchHits, tickCounters, if_pos retires])
    · exact Or.inl (by simp only [latchHits, tickCounters, if_neg retires])
  case mhpmcounter =>
    intro hi
    by_cases counts : (!c.mcountinhibit.getLsbD hi.val.val &&
        (c.mhpmevent hi &&& x.hpmEvents) != 0) = true
    · exact Or.inr (by simp only [latchHits, tickCounters, if_pos counts])
    · exact Or.inl (by simp only [latchHits, tickCounters, if_neg counts])
  all_goals rfl

theorem next_of_idle
    (noTrap : x.trapEnter = false) (noMret : x.mretExec = false)
    (noWrite : x.csrWen = false) :
    Quiet c (c.next irq x) := by
  have same : c.commit irq x (c.tickCounters x) = c.tickCounters x := by
    simp [commit, noTrap, noMret, noWrite]
  rw [next, same]
  exact quiet_tick c x

theorem next_of_trap (enter : x.trapEnter = true) :
    Quiet (c.trapEntered x) (c.next irq x) := by
  have same : c.next irq x =
      latchHits x ((c.trapEntered x).tickCounters x) := by
    simp [next, commit, enter, trapEntered, tickCounters]
  rw [same]
  exact quiet_tick (c.trapEntered x) x

/-! ## Addresses of the write case -/

/-- The labels of the write case; every other address goes to its `default`
arm. -/
def namedCsrs : List (BitVec 12) :=
  [csrMstatus, csrMie, csrMtvec, csrMcounteren, csrMcountinhibit, csrMscratch,
    csrMepc, csrMcause, csrMtval, csrMcycle, csrMcycleh, csrMinstret,
    csrMinstreth, csrTselect, csrTdata1, csrTdata2]

section Writes

variable (n : CsrState p) (addr : BitVec 12) (val : BitVec 32)

theorem writeCsr_of_unnamed (unnamed : addr ∉ namedCsrs) :
    c.writeCsr n addr val = c.writeIndexed n addr val := by
  have differs : ∀ other ∈ namedCsrs, addr ≠ other := by
    rintro other named rfl
    exact unnamed named
  simp only [namedCsrs, List.forall_mem_cons] at differs
  obtain ⟨h0, h1, h2, h3, h4, h5, h6, h7, h8, h9, h10, h11, h12, h13, h14,
    h15, -⟩ := differs
  unfold writeCsr
  rw [if_neg h0, if_neg h1, if_neg h2, if_neg h3, if_neg h4, if_neg h5,
    if_neg h6, if_neg h7, if_neg h8, if_neg h9, if_neg h10, if_neg h11,
    if_neg h12, if_neg h13, if_neg h14, if_neg h15]

theorem writeCsr_pmpcfg :
    (c.writeCsr n addr val).pmpcfg =
      if addr ∈ namedCsrs then n.pmpcfg
      else (c.writeIndexed n addr val).pmpcfg := by
  simp only [writeCsr, apply_ite CsrState.pmpcfg, namedCsrs, List.mem_cons,
    List.not_mem_nil, or_false, ite_or, ite_self]

theorem writeCsr_pmpaddr :
    (c.writeCsr n addr val).pmpaddr =
      if addr ∈ namedCsrs then n.pmpaddr
      else (c.writeIndexed n addr val).pmpaddr := by
  simp only [writeCsr, apply_ite CsrState.pmpaddr, namedCsrs, List.mem_cons,
    List.not_mem_nil, or_false, ite_or, ite_self]

end Writes

/-- A property of the state after a write is shown arm by arm. -/
theorem writeCsr_cases {c n : CsrState p}
    {P : BitVec 12 → CsrState p → Prop} {addr : BitVec 12} {val : BitVec 32}
    (mstatus : P csrMstatus
      { n with mstatus := applyMstatusWarl p.enableU c.mstatus val })
    (mie : P csrMie { n with mie := val })
    (mtvec : P csrMtvec { n with mtvec := val })
    (mcounteren : P csrMcounteren { n with mcounteren := val &&& 0xFFFFFFFD })
    (mcountinhibit : P csrMcountinhibit { n with mcountinhibit := val })
    (mscratch : P csrMscratch { n with mscratch := val })
    (mepc : P csrMepc { n with
      mepc := val &&& (if p.enableC then 0xFFFFFFFE else 0xFFFFFFFC) })
    (mcause : P csrMcause { n with mcause := val })
    (mtval : P csrMtval { n with mtval := val })
    (mcycle : ∀ high, P (if high then csrMcycleh else csrMcycle)
      { n with mcycle := setCounterHalf n.mcycle high val })
    (minstret : ∀ high, P (if high then csrMinstreth else csrMinstret)
      { n with minstret := setCounterHalf n.minstret high val })
    (tselect : P csrTselect
      (if val.toNat < p.nTrigger then
        { n with tselect := val.setWidth (tselW p.nTrigger) }
      else n))
    (tdata1 : P csrTdata1
      { n with tdata1 := c.setTrigSelected n.tdata1 (val &&& tdata1Wmask) })
    (tdata2 : P csrTdata2
      { n with tdata2 := c.setTrigSelected n.tdata2 val })
    (indexed : addr ∉ namedCsrs → P addr (c.writeIndexed n addr val)) :
    P addr (c.writeCsr n addr val) := by
  by_cases named : addr ∈ namedCsrs
  · simp only [namedCsrs, List.mem_cons, List.not_mem_nil, or_false] at named
    rcases named with rfl | rfl | rfl | rfl | rfl | rfl | rfl | rfl | rfl |
      rfl | rfl | rfl | rfl | rfl | rfl | rfl
    · exact mstatus
    · exact mie
    · exact mtvec
    · exact mcounteren
    · exact mcountinhibit
    · exact mscratch
    · exact mepc
    · exact mcause
    · exact mtval
    · exact mcycle false
    · exact mcycle true
    · exact minstret false
    · exact minstret true
    · exact tselect
    · exact tdata1
    · exact tdata2
  · rw [c.writeCsr_of_unnamed n addr val named]
    exact indexed named

/-- The PMP registers change by a CSR write only. -/
theorem next_pmp (noWrite : x.csrWen = false) :
    (c.next irq x).pmpcfg = c.pmpcfg ∧
      (c.next irq x).pmpaddr = c.pmpaddr := by
  simp only [next, latchHits, commit, noWrite, Bool.false_eq_true, if_false]
  split_ifs <;> exact ⟨rfl, rfl⟩

end CsrState

namespace Core

variable {p : Params} {s : Core p} {i : CoreIn}

theorem wbControl_of_empty (empty : s.wb.valid = false) :
    s.wbControl = { trapEpc := s.wb.pc } := by
  simp [wbControl, empty]

theorem quiet_of_empty (empty : s.wb.valid = false) :
    CsrState.Quiet s.csr (s.csr.next i.irq s.csrIn) := by
  have control := wbControl_of_empty empty
  exact s.csr.next_of_idle i.irq s.csrIn
    (by simp [csrIn, trapEnter, control])
    (by simp [csrIn, mretExec, control])
    (by simp [csrIn, csrWenW, control])

end Core

end SisRv
