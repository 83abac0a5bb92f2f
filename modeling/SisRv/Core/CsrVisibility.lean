import SisRv.Core.FetchIsolation

/-!
# Visibility of CSR writes

A CSR is written in WB while the next instruction may already be in EX and its
words were checked when they arrived.  Neither is held back, so that an
instruction acts on the CSR state behind it only if the write changes nothing
that EX reads in that cycle and no X verdict of a word that is held.
-/

namespace SisRv

open Sync

/-! ## What EX decides -/

/-- What the instruction in EX does in a cycle: whether it is legal, hits a
trigger, starts its data access or is denied it, and, when it leaves EX,
whether it redirects, where to, and for which interrupt. -/
structure ExDecision where
  legal : Bool
  trigger : Bool
  access : Bool
  denied : Bool
  leaves : Bool
  redirects : Bool
  target : Option (BitVec 32)
  interrupt : Option (BitVec 32)
  deriving DecidableEq, Repr

namespace Core

variable {p : Params} (s : Core p) (i : CoreIn)

/-- The same pipeline over another CSR state. -/
def withCsr (c : CsrState p) : Core p := { s with csr := c }

/-- An interrupt is taken on the instruction that leaves EX. -/
def takesInterrupt : Bool :=
  s.exToWbFire i && !s.exException i && !s.exIsCsrOp && s.irqPending i

def exDecision : ExDecision :=
  { legal := s.exLegalEff
    trigger := s.exTriggerHit
    access := s.exMemAccess
    denied := s.exPmpDFault
    leaves := s.exToWbFire i
    redirects := s.exRedirect i
    target := if s.exToWbFire i then some (s.exPcNext i) else none
    interrupt :=
      if s.takesInterrupt i then some (s.irqCause i) else none }

/-- The instruction that leaves EX goes to the trap vector. -/
def goesToVector : Bool :=
  s.exException i || (s.irqPending i && !s.exIsCsrOp) || s.exIsEcall ||
    s.exIsEbreak

/-- Another CSR state has the same values where the instruction in EX reads
them. -/
structure ReadsSame (c : CsrState p) : Prop where
  counters : s.exIsCsrOp = true → c.mcounteren = s.csr.mcounteren
  timeout : s.exIsWfi = true →
    c.mstatus.getLsbD 21 = s.csr.mstatus.getLsbD 21
  trigger : s.exDecIsLegalEff = true → ∀ t,
    (s.withCsr c).triggerMatches t = s.triggerMatches t
  data : s.exDAccessRaw = true → s.exMemAligned = true →
    (s.withCsr c).pmpDAllow = s.pmpDAllow
  irq : s.exToWbFire i = true → s.exException i = false →
    s.exIsCsrOp = false →
    c.irqPending i.irq = s.csr.irqPending i.irq ∧
      (s.csr.irqPending i.irq = true →
        c.irqCause i.irq = s.csr.irqCause i.irq)
  vector : s.exToWbFire i = true → s.goesToVector i = true →
    c.mtvec = s.csr.mtvec
  mret : s.exToWbFire i = true → s.exIsMret = true → c.mepc = s.csr.mepc

section Congruence

variable {s i} {c : CsrState p}

/-! What reads no CSR is the same over another CSR state. -/

@[simp] theorem withCsr_ex : (s.withCsr c).ex = s.ex := rfl
@[simp] theorem withCsr_csr : (s.withCsr c).csr = c := rfl

@[simp]
theorem withCsr_decode :
    (s.withCsr c).exDecIsLegalEff = s.exDecIsLegalEff ∧
      (s.withCsr c).exIsCsrOp = s.exIsCsrOp ∧
      (s.withCsr c).exIsWfi = s.exIsWfi ∧
      (s.withCsr c).exIsMret = s.exIsMret ∧
      (s.withCsr c).exIsEcall = s.exIsEcall ∧
      (s.withCsr c).exIsEbreak = s.exIsEbreak ∧
      (s.withCsr c).exCsrPrivViol = s.exCsrPrivViol ∧
      (s.withCsr c).exCsrRoViol = s.exCsrRoViol :=
  ⟨rfl, rfl, rfl, rfl, rfl, rfl, rfl, rfl⟩

@[simp]
theorem withCsr_access :
    (s.withCsr c).exDAccessRaw = s.exDAccessRaw ∧
      (s.withCsr c).exMemAligned = s.exMemAligned ∧
      (s.withCsr c).aluResult = s.aluResult ∧
      (s.withCsr c).wbSingleStepStop = s.wbSingleStepStop :=
  ⟨rfl, rfl, rfl, rfl⟩

@[simp]
theorem withCsr_response :
    (s.withCsr c).exMemToWb i = s.exMemToWb i ∧
      (s.withCsr c).exAmoStoreToWb i = s.exAmoStoreToWb i :=
  ⟨rfl, rfl⟩

@[simp]
theorem withCsr_targets :
    (s.withCsr c).exBranchTaken = s.exBranchTaken ∧
      (s.withCsr c).exNextPcTarget = s.exNextPcTarget ∧
      (s.withCsr c).exJalTarget = s.exJalTarget ∧
      (s.withCsr c).exJalrTarget = s.exJalrTarget ∧
      (s.withCsr c).exBranchTarget = s.exBranchTarget ∧
      (s.withCsr c).exPcSequential = s.exPcSequential :=
  ⟨rfl, rfl, rfl, rfl, rfl, rfl⟩

section Reads

variable (same : s.ReadsSame i c)
include same

theorem legal_of_reads : (s.withCsr c).exLegalEff = s.exLegalEff := by
  have block : (s.withCsr c).exMcounterenBlock = s.exMcounterenBlock := by
    by_cases csrOp : s.exIsCsrOp = true
    · have counters := same.counters csrOp
      simp only [exMcounterenBlock, withCsr_csr, counters]
      rfl
    · simp [exMcounterenBlock, csrOp]
  have wait : (s.exIsWfi && s.ex.priv != privM &&
      (s.withCsr c).mstatusTw) =
        (s.exIsWfi && s.ex.priv != privM && s.mstatusTw) := by
    by_cases wfi : s.exIsWfi = true
    · simp only [mstatusTw, withCsr_csr, same.timeout wfi]
    · simp [wfi]
  simp only [exLegalEff, exPrivIllegal, block, withCsr_decode, withCsr_ex,
    wait]

theorem hits_of_reads : (s.withCsr c).trigHitSet = s.trigHitSet := by
  funext t
  by_cases legal : s.exDecIsLegalEff = true
  · simp only [trigHitSet, withCsr_ex, withCsr_decode, same.trigger legal t]
  · simp [trigHitSet, legal]

theorem trigger_of_reads : (s.withCsr c).exTriggerHit = s.exTriggerHit := by
  simp only [exTriggerHit, hits_of_reads same]

/-- The PMP verdict is read for aligned accesses only. -/
theorem access_of_reads :
    (s.withCsr c).exMemAccess = s.exMemAccess ∧
      (s.withCsr c).exPmpDFault = s.exPmpDFault := by
  have trigger := trigger_of_reads same
  by_cases checked : s.exDAccessRaw = true ∧ s.exMemAligned = true
  · have verdict := same.data checked.1 checked.2
    simp only [exMemAccess, exPmpDFault, withCsr_access, trigger, verdict,
      and_self]
  · rw [not_and_or, Bool.not_eq_true, Bool.not_eq_true] at checked
    rcases checked with other | misaligned
    · simp [exMemAccess, exPmpDFault, other]
    · simp [exMemAccess, exPmpDFault, misaligned]

theorem leaves_of_reads :
    (s.withCsr c).exExecToWb = s.exExecToWb ∧
      (s.withCsr c).exToWbFire i = s.exToWbFire i := by
  have access := (access_of_reads same).1
  simp only [exExecToWb, exToWbFire, access, withCsr_ex, withCsr_response,
    and_self]

theorem exception_of_reads :
    (s.withCsr c).exException i = s.exException i := by
  have legal := legal_of_reads same
  have trigger := trigger_of_reads same
  have denied := (access_of_reads same).2
  have leaves := (leaves_of_reads same).1
  simp only [exException, exCompleteMemErr, exCompleteMemMisaligned,
    exInstrAddrMisaligned, legal, trigger, denied, leaves, withCsr_ex,
    withCsr_access, withCsr_response, withCsr_targets]

theorem interrupt_of_reads (leaves : s.exToWbFire i = true)
    (quiet : s.exException i = false) :
    ((s.withCsr c).irqPending i && !s.exIsCsrOp) =
        (s.irqPending i && !s.exIsCsrOp) ∧
      ((s.irqPending i && !s.exIsCsrOp) = true →
        (s.withCsr c).irqCause i = s.irqCause i) := by
  by_cases csrOp : s.exIsCsrOp = true
  · simp [csrOp]
  · have other : s.exIsCsrOp = false := by simpa using csrOp
    obtain ⟨pending, cause⟩ := same.irq leaves quiet other
    refine ⟨by simp only [irqPending, withCsr_csr, pending], fun taken => ?_⟩
    rw [Bool.and_eq_true] at taken
    exact cause taken.1

theorem target_of_reads (leaves : s.exToWbFire i = true) :
    (s.withCsr c).exPcNext i = s.exPcNext i := by
  have exception := exception_of_reads same
  have vector : s.goesToVector i = true →
      (s.withCsr c).mtvecBase = s.mtvecBase ∧
        (s.withCsr c).mtvecVectored = s.mtvecVectored := by
    intro goes
    have mtvec := same.vector leaves goes
    simp only [mtvecBase, mtvecVectored, mtvecOut, withCsr_csr, mtvec,
      and_self]
  unfold exPcNext
  rw [exception]
  by_cases faults : s.exException i = true
  · rw [if_pos faults, if_pos faults]
    exact (vector (by simp [goesToVector, faults])).1
  have quiet : s.exException i = false := by simpa using faults
  obtain ⟨pending, cause⟩ := interrupt_of_reads same leaves quiet
  simp only [withCsr_ex, withCsr_decode, withCsr_targets, pending]
  rw [if_neg faults, if_neg faults]
  by_cases irq : (s.irqPending i && !s.exIsCsrOp) = true
  · rw [if_pos irq, if_pos irq]
    obtain ⟨base, vectored⟩ := vector (by simp [goesToVector, irq])
    simp only [mtvecIrqVector, base, vectored, cause irq]
  rw [if_neg irq, if_neg irq]
  split_ifs with jal jalr branch call mret
  · rfl
  · rfl
  · rfl
  · refine (vector ?_).1
    simp only [goesToVector, Bool.or_eq_true] at call ⊢
    tauto
  · simp only [mepcOut, withCsr_csr, same.mret leaves mret]
  · rfl

theorem takesInterrupt_of_reads :
    (s.withCsr c).takesInterrupt i = s.takesInterrupt i ∧
      (s.takesInterrupt i = true →
        (s.withCsr c).irqCause i = s.irqCause i) := by
  have leaves := (leaves_of_reads same).2
  have exception := exception_of_reads same
  by_cases taken : (s.exToWbFire i && !s.exException i) = true
  · rw [Bool.and_eq_true, Bool.not_eq_true'] at taken
    obtain ⟨pending, cause⟩ := interrupt_of_reads same taken.1 taken.2
    simp only [takesInterrupt, leaves, exception, withCsr_decode, taken,
      Bool.not_false, Bool.true_and]
    rw [Bool.and_comm, pending, Bool.and_comm]
    refine ⟨rfl, fun irq => cause ?_⟩
    rw [Bool.and_comm]
    exact irq
  · have idle : (s.exToWbFire i && !s.exException i) = false := by
      simpa using taken
    simp only [takesInterrupt, leaves, exception, idle, Bool.false_and]
    simp

/-- EX goes elsewhere for a reason that it leaves EX with. -/
theorem redirects_of_reads :
    (s.withCsr c).exRedirect i = s.exRedirect i := by
  have leaves := (leaves_of_reads same).2
  have exception := exception_of_reads same
  by_cases leaving : s.exToWbFire i = true
  · by_cases faults : s.exException i = true
    · simp [exRedirect, leaves, exception, leaving, faults]
    · have pending := (interrupt_of_reads same leaving (by
        simpa using faults)).1
      simp only [exRedirect, leaves, exception, pending, withCsr_ex,
        withCsr_access, withCsr_decode, withCsr_targets]
  · simp [exRedirect, leaves, leaving]

theorem decision_of_reads :
    (s.withCsr c).exDecision i = s.exDecision i := by
  obtain ⟨access, denied⟩ := access_of_reads same
  have leaves := (leaves_of_reads same).2
  obtain ⟨interrupted, cause⟩ := takesInterrupt_of_reads same
  have target : (if s.exToWbFire i then some ((s.withCsr c).exPcNext i)
      else none) = if s.exToWbFire i then some (s.exPcNext i) else none := by
    split_ifs with leaving
    · rw [target_of_reads same leaving]
    · rfl
  have interrupt : (if s.takesInterrupt i then
      some ((s.withCsr c).irqCause i) else none) =
        if s.takesInterrupt i then some (s.irqCause i) else none := by
    split_ifs with taken
    · rw [cause taken]
    · rfl
  simp only [exDecision, legal_of_reads same, trigger_of_reads same, access,
    denied, leaves, redirects_of_reads same, target, interrupted, interrupt]

end Reads

/-- Counters and hit bits are not read. -/
theorem readsSame_of_alike (alike : CsrState.Alike s.csr c) :
    s.ReadsSame i c where
  counters := fun _ => alike.mcounteren
  timeout := fun _ => by rw [alike.mstatus]
  trigger := by
    intro _ t
    simp only [triggerMatches, withCsr_csr, alike.tdata2,
      alike.tdata1 t 0 (by decide), alike.tdata1 t 1 (by decide),
      alike.tdata1 t 2 (by decide), alike.tdata1 t 3 (by decide),
      alike.tdata1 t 6 (by decide)]
    rfl
  data := by
    intro _ _
    simp only [pmpDAllow, dPmpPriv, privO, mstatusMprv, mstatusMpp,
      withCsr_csr, alike.pmpcfg, alike.pmpaddr, alike.priv, alike.mstatus]
    rfl
  irq := by
    intro _ _ _
    obtain ⟨pending, cause⟩ := alike.interrupts i.irq
    exact ⟨pending, fun _ => cause⟩
  vector := fun _ _ => alike.mtvec
  mret := fun _ _ => alike.mepc

/-- Behind an instruction in EX only a CSR write is committed. -/
theorem quiet_of_no_write
    (sound : s.PrivSound) (valid : s.ex.valid = true)
    (noWrite : s.csrWenW = false) :
    CsrState.Quiet s.csr (s.csr.next i.irq s.csrIn) := by
  have noCommit : ¬ (s.trapEnter = true ∨ s.mretExec = true) := by
    intro commits
    rw [(sound.drained commits).ex] at valid
    exact absurd valid (by decide)
  rw [not_or, Bool.not_eq_true, Bool.not_eq_true] at noCommit
  exact s.csr.next_of_idle i.irq s.csrIn noCommit.1 noCommit.2 noWrite

end Congruence

/-! ## Words in use -/

instance : Decidable s.Straddling := by
  unfold Straddling
  infer_instance

/-- The fetches whose words a register in use holds. -/
def inUse (g : Sources) : List Fetch :=
  (if s.fe.fbufValid then g.fbuf else []) ++
    (if s.fe.pfValid then g.pf else []) ++
    (if s.Straddling then g.hold else []) ++
    (if s.fe.ifId.valid then g.ifId else []) ++
    (if s.ex.valid then g.ex else [])

/-- The fetch whose response is kept in this cycle. -/
def keeps (arriving : List Fetch) : List Fetch :=
  if s.ifRspTaken i || s.pfRspTaken i then arriving else []

section InUse

variable {s i} {arriving : List Fetch} {g : Sources}

theorem mem_inUse_iff {w : Fetch} :
    w ∈ s.inUse g ↔
      s.fe.fbufValid = true ∧ w ∈ g.fbuf ∨ s.fe.pfValid = true ∧ w ∈ g.pf ∨
        s.Straddling ∧ w ∈ g.hold ∨ s.fe.ifId.valid = true ∧ w ∈ g.ifId ∨
        s.ex.valid = true ∧ w ∈ g.ex := by
  have gate : ∀ (held : Prop) [Decidable held] (source : List Fetch),
      (w ∈ if held then source else []) ↔ held ∧ w ∈ source := by
    intro held _ source
    by_cases holds : held <;> simp [holds]
  simp only [inUse, List.mem_append, gate, or_assoc]

theorem mem_keeps
    {w : Fetch} (member : w ∈ arriving)
    (taken : s.ifRspTaken i = true ∨ s.pfRspTaken i = true) :
    w ∈ s.keeps i arriving := by
  rw [keeps, if_pos (by simpa using taken)]
  exact member

theorem mem_of_word
    {w : Fetch} (word : s.ifWordReady i = true)
    (member : w ∈ s.wordSource i arriving g) :
    w ∈ s.inUse g ∨ w ∈ s.keeps i arriving := by
  rcases source_of_word word with ⟨taken, -, noServe⟩ | serve
  · rw [wordSource, if_neg (by simp [noServe])] at member
    exact Or.inr (mem_keeps member (Or.inl taken))
  · left
    rw [wordSource, if_pos serve] at member
    rw [mem_inUse_iff]
    by_cases fbufHit : s.fbufHit = true
    · rw [if_pos fbufHit] at member
      simp only [Core.fbufHit, Bool.and_eq_true] at fbufHit
      exact Or.inl ⟨fbufHit.1, member⟩
    · rw [if_neg fbufHit] at member
      have pfHit : s.pfbufHit = true := by
        simp only [ifServeBuf, bufHit, Bool.and_eq_true,
          Bool.or_eq_true] at serve
        exact serve.2.resolve_left fbufHit
      simp only [pfbufHit, Bool.and_eq_true] at pfHit
      exact Or.inr (Or.inl ⟨pfHit.1, member⟩)

theorem mem_of_hold
    {w : Fetch} (straddling : (s.step i).Straddling)
    (member : w ∈ (s.trace i arriving g).hold) :
    w ∈ s.inUse g ∨ w ∈ s.keeps i arriving := by
  have held : s.Straddling → w ∈ g.hold →
      w ∈ s.inUse g ∨ w ∈ s.keeps i arriving := fun before here =>
    Or.inl (mem_inUse_iff.mpr (Or.inr (Or.inr (Or.inl ⟨before, here⟩))))
  by_cases splits : (s.ifWordReady i && !s.ifWordEmits i) = true
  · simp only [trace, if_pos splits] at member
    rw [Bool.and_eq_true] at splits
    exact mem_of_word splits.1 member
  · simp only [trace, if_neg splits] at member
    refine held ?_ member
    unfold Straddling at straddling ⊢
    rw [step_fe] at straddling
    cases s.demandCycle i with
    | flushed flush =>
        exact absurd straddling (not_straddling_of_flush flush)
    | delivers kept produces state => simp [state] at straddling
    | splits kept word straddles state =>
        simp [word, straddles] at splits
    | drops kept fire discard state => simp [state] at straddling
    | requests kept fire state =>
        rcases state_of_reqFire fire with idle | idle
        · simp [state, idle] at straddling
        · exact Or.inl idle
    | quiet kept noWord noRsp noReq state =>
        rw [state, fe_ifDiscardRsp, kept, noRsp] at straddling
        simpa using straddling

theorem mem_of_fbuf
    {w : Fetch} (valid : (s.step i).fe.fbufValid = true)
    (member : w ∈ (s.trace i arriving g).fbuf) :
    w ∈ s.inUse g ∨ w ∈ s.keeps i arriving := by
  rw [step_fe, fe_fbufValid] at valid
  simp only [trace] at member
  by_cases taken : s.ifRspTaken i = true
  · rw [if_pos taken] at member
    exact Or.inr (mem_keeps member (Or.inl taken))
  rw [if_neg taken] at member
  left
  rw [mem_inUse_iff]
  by_cases serve : s.ifServePf i = true
  · rw [if_pos serve] at member
    simp only [ifServePf, pfbufHit, Bool.and_eq_true] at serve
    exact Or.inr (Or.inl ⟨serve.2.1, member⟩)
  · rw [if_neg serve] at member
    simp only [taken, serve, Bool.false_or, Bool.and_eq_true] at valid
    exact Or.inl ⟨valid.2, member⟩

theorem mem_of_pf
    {w : Fetch} (valid : (s.step i).fe.pfValid = true)
    (member : w ∈ (s.trace i arriving g).pf) :
    w ∈ s.inUse g ∨ w ∈ s.keeps i arriving := by
  rw [step_fe, fe_pfValid] at valid
  simp only [trace] at member
  by_cases taken : s.pfRspTaken i = true
  · rw [if_pos taken] at member
    exact Or.inr (mem_keeps member (Or.inr taken))
  · rw [if_neg taken] at member
    simp only [taken, Bool.false_or, Bool.and_eq_true] at valid
    exact Or.inl (mem_inUse_iff.mpr (Or.inr (Or.inl ⟨valid.2, member⟩)))

theorem mem_of_ifId
    {w : Fetch} (valid : (s.step i).fe.ifId.valid = true)
    (member : w ∈ (s.trace i arriving g).ifId) :
    w ∈ s.inUse g ∨ w ∈ s.keeps i arriving := by
  rw [step_fe, fe_ifId_valid] at valid
  simp only [trace] at member
  by_cases second : s.ifSecondReady i = true
  · obtain ⟨taken, wait⟩ := secondWait_of_secondReady second
    rw [if_pos second, List.mem_append] at member
    rcases member with half | arrives
    · have straddling : s.Straddling :=
        Or.inr ⟨wait, (rspFire_of_taken taken).2⟩
      exact Or.inl (mem_inUse_iff.mpr
        (Or.inr (Or.inr (Or.inl ⟨straddling, half⟩))))
    · exact Or.inr (mem_keeps arrives (Or.inl taken))
  rw [if_neg second] at member
  by_cases emits : s.ifWordEmits i = true
  · rw [if_pos emits] at member
    exact mem_of_word (word_of_emits emits) member
  · rw [if_neg emits] at member
    simp only [ifProduces, emits, second, Bool.or_self, Bool.false_or,
      Bool.and_eq_true] at valid
    exact Or.inl (mem_inUse_iff.mpr
      (Or.inr (Or.inr (Or.inr (Or.inl ⟨valid.2.1, member⟩)))))

theorem mem_of_ex
    {w : Fetch} (valid : (s.step i).ex.valid = true)
    (member : w ∈ (s.trace i arriving g).ex) : w ∈ s.inUse g := by
  simp only [trace] at member
  rw [mem_inUse_iff]
  by_cases issue : s.idToExFire i = true
  · rw [if_pos issue] at member
    exact Or.inr (Or.inr (Or.inr (Or.inl
      ⟨ifIdValid_of_issue issue, member⟩)))
  · rw [if_neg issue] at member
    exact Or.inr (Or.inr (Or.inr (Or.inr
      ⟨valid_of_exNext (by simpa using issue) valid, member⟩)))

/-- A word that is in use after a cycle was in use before or arrived. -/
theorem mem_of_step
    {w : Fetch} (member : w ∈ (s.step i).inUse (s.trace i arriving g)) :
    w ∈ s.inUse g ∨ w ∈ s.keeps i arriving := by
  rw [mem_inUse_iff] at member
  rcases member with ⟨valid, here⟩ | ⟨valid, here⟩ | ⟨straddling, here⟩ |
    ⟨valid, here⟩ | ⟨valid, here⟩
  · exact mem_of_fbuf valid here
  · exact mem_of_pf valid here
  · exact mem_of_hold straddling here
  · exact mem_of_ifId valid here
  · exact Or.inl (mem_of_ex valid here)

end InUse

end Core

/-! ## Visibility along a run -/

namespace Run

variable {p : Params} (r : Run p)

/-- The words in use before cycle `n` or kept in it. -/
def held (n : ℕ) : List Fetch :=
  (r.state n).inUse (r.sources n) ++
    (r.state n).keeps (r.inputs n) (r.arriving n)

/-- The instruction in EX in cycle `n` acts on the CSR state behind WB: it
decides as it would under the state of the next cycle, and, fetched over a bus
with one outstanding request, the verdicts on its words are those of that
state. -/
structure SeesWrites (n : ℕ) : Prop where
  decision : ((r.state n).withCsr (r.state (n + 1)).csr).exDecision
    (r.inputs n) = (r.state n).exDecision (r.inputs n)
  assembled : r.InstrBus →
    r.Assembled n (r.sources n).ex (r.state n).ex.parcel
  executable : r.InstrBus → ∀ w ∈ (r.sources n).ex,
    r.executable w.answered w.addr = r.executable (n + 1) w.addr

/-- A CSR write in cycle `n` changes nothing that EX reads in that cycle and no
X verdict on a word that is held. -/
structure WriteApart (n : ℕ) : Prop where
  reads : (r.state n).ex.valid = true →
    (r.state n).ReadsSame (r.inputs n) (r.state (n + 1)).csr
  verdicts : ∀ w ∈ r.held n,
    r.executable (n + 1) w.addr = r.executable n w.addr

section Verdicts

variable {r} {n : ℕ}

theorem live_of_inUse (bus : r.InstrBus) {w : Fetch}
    (member : w ∈ (r.state n).inUse (r.sources n)) : r.Live n w := by
  have sound := r.provSound bus n
  have single : ∀ {source addr data err},
      r.Resident n source addr data err → w ∈ source → r.Live n w := by
    rintro source addr data err ⟨v, rfl, live, -⟩ here
    rw [List.mem_singleton] at here
    rw [here]
    exact live
  rw [Core.mem_inUse_iff] at member
  rcases member with ⟨valid, here⟩ | ⟨valid, here⟩ | ⟨straddling, here⟩ |
    ⟨valid, here⟩ | ⟨valid, here⟩
  · exact single (sound.fbuf valid) here
  · exact single (sound.pf valid) here
  · obtain ⟨v, only, live, -⟩ := sound.hold straddling
    rw [only, List.mem_singleton] at here
    rw [here]
    exact live
  · exact (sound.ifId valid).live w here
  · exact (sound.ex valid).live w here

/-- A path on which a word is held has begun before. -/
theorem pathStart_lt_of_held (bus : r.InstrBus) {w : Fetch}
    (member : w ∈ r.held n) : r.pathStart n < n := by
  rw [held, List.mem_append] at member
  rcases member with here | arrives
  · have live := live_of_inUse bus here
    have asked := asked_lt_of_outstanding live.fetched.1
    have fresh := live.fresh
    have past := live.past
    omega
  · rw [Core.keeps] at arrives
    split_ifs at arrives with taken
    · have sound := r.provSound bus n
      rw [Bool.or_eq_true] at taken
      rcases taken with taken | taken
      · obtain ⟨asked, out, fresh, -⟩ := request_of_taken bus sound taken
        exact lt_of_le_of_lt fresh (asked_lt_of_outstanding out)
      · obtain ⟨asked, out, fresh, -⟩ := request_of_pfTaken bus sound taken
        exact lt_of_le_of_lt fresh (asked_lt_of_outstanding out)
    · exact absurd arrives List.not_mem_nil

theorem executable_step (bus : r.InstrBus)
    (kept : (r.state n).csrWenW = true → ∀ w ∈ r.held n,
      r.executable (n + 1) w.addr = r.executable n w.addr)
    {w : Fetch} (member : w ∈ r.held n) :
    r.executable (n + 1) w.addr = r.executable n w.addr := by
  by_cases writes : (r.state n).csrWenW = true
  · exact kept writes w member
  have noCommit : ¬ ((r.state n).trapEnter = true ∨
      (r.state n).mretExec = true) := by
    intro commits
    obtain ⟨b, rfl, flushed⟩ := flush_before_commit n commits
    have started := pathStart_lt_of_held bus member
    rw [pathStart, since_of_mark flushed] at started
    exact absurd started (lt_irrefl _)
  rw [not_or, Bool.not_eq_true, Bool.not_eq_true] at noCommit
  have noWrite : (r.state n).csrIn.csrWen = false := by
    show (r.state n).csrWenW = false
    simpa using writes
  have priv := (r.state n).csr.next_priv (r.inputs n).irq (r.state n).csrIn
    noCommit.1 noCommit.2
  obtain ⟨cfg, addr⟩ := (r.state n).csr.next_pmp (r.inputs n).irq
    (r.state n).csrIn noWrite
  rw [executable, state_succ, Core.step_csr, priv, cfg, addr, executable]

/-- The verdicts taken on the words that are held are the current ones. -/
theorem executable_of_step (bus : r.InstrBus)
    (kept : (r.state n).csrWenW = true → ∀ w ∈ r.held n,
      r.executable (n + 1) w.addr = r.executable n w.addr)
    (current : ∀ w ∈ (r.state n).inUse (r.sources n),
      r.executable w.answered w.addr = r.executable n w.addr) :
    ∀ w ∈ (r.state (n + 1)).inUse (r.sources (n + 1)),
      r.executable w.answered w.addr = r.executable (n + 1) w.addr := by
  intro w member
  rcases Core.mem_of_step (i := r.inputs n) member with before | arrives
  · rw [executable_step bus kept (List.mem_append_left _ before)]
    exact current w before
  · rw [executable_step bus kept (List.mem_append_right _ arrives)]
    have now : w.answered = n := by
      rw [Core.keeps] at arrives
      split_ifs at arrives
      · simp only [arriving, List.mem_map] at arrives
        obtain ⟨request, -, rfl⟩ := arrives
        rfl
      · exact absurd arrives List.not_mem_nil
    rw [now]

theorem executable_of_held (bus : r.InstrBus)
    (apart : ∀ n, (r.state n).csrWenW = true → r.WriteApart n) (n : ℕ) :
    ∀ w ∈ (r.state n).inUse (r.sources n),
      r.executable w.answered w.addr = r.executable n w.addr := by
  induction n with
  | zero =>
      intro w member
      have live := live_of_inUse bus member
      exact absurd live.past (Nat.not_lt_zero _)
  | succ n inductionHypothesis =>
      exact executable_of_step bus (fun writes => (apart n writes).verdicts)
        inductionHypothesis

section Apart

variable (apart : ∀ n, (r.state n).csrWenW = true → r.WriteApart n)
  (valid : (r.state n).ex.valid = true)
include apart valid

theorem reads_of_apart :
    (r.state n).ReadsSame (r.inputs n) (r.state (n + 1)).csr := by
  by_cases writes : (r.state n).csrWenW = true
  · exact (apart n writes).reads valid
  · exact Core.readsSame_of_alike (Core.quiet_of_no_write (r.privSound n)
      valid (by simpa using writes)).alike

theorem executable_of_apart (bus : r.InstrBus) :
    ∀ w ∈ (r.sources n).ex,
      r.executable w.answered w.addr = r.executable (n + 1) w.addr := by
  intro w member
  have used : w ∈ (r.state n).inUse (r.sources n) :=
    Core.mem_inUse_iff.mpr
      (Or.inr (Or.inr (Or.inr (Or.inr ⟨valid, member⟩))))
  rw [executable_step bus (fun writes => (apart n writes).verdicts)
    (List.mem_append_left _ used)]
  exact executable_of_held bus apart n w used

end Apart

end Verdicts

end Run

/-- If no CSR write changes what the instruction in EX reads in that cycle or
the verdict on a word that is held, every instruction in EX acts on the CSR
state that the instructions before it leave. -/
theorem csr_writes_visible
    {p : Params} (r : Run p)
    (apart : ∀ n, (r.state n).csrWenW = true → r.WriteApart n) (n : ℕ)
    (valid : (r.state n).ex.valid = true) :
    r.SeesWrites n where
  decision := Core.decision_of_reads (Run.reads_of_apart apart valid)
  assembled := fun bus => (r.provSound bus n).ex valid
  executable := Run.executable_of_apart apart valid

/-- A load, a CSR instruction and the given instruction enter EX one after
another without a bubble, because the load waits until both have been fetched;
nothing is accepted or answered afterwards. -/
def backToBack (csr next : BitVec 32) : Run {} :=
  Run.script _
    [.accept, .answer 0x00002103, .accept,
      { CoreIn.answer csr with iReqReady := true, dReqReady := true },
      .answer next, { dRspValid := true }]

/-- The load after the CSR instruction is never accepted. -/
theorem backToBack_stalled (n : ℕ) (late : 8 ≤ n) :
    ((backToBack 0x34025073 0x00002103).state n).Stalled :=
  Run.stalled_script (by decide) (by constructor <;> decide) n late

/-- `csrrwi mscratch, 4` changes nothing that the load reads. -/
theorem backToBack_writeApart (n : ℕ)
    (writes : ((backToBack 0x34025073 0x00002103).state n).csrWenW = true) :
    (backToBack 0x34025073 0x00002103).WriteApart n := by
  rcases Nat.lt_or_ge n 8 with early | late
  · have last : ∀ m < 8,
        ((backToBack 0x34025073 0x00002103).state m).csrWenW = true →
          m = 7 := by decide
    obtain rfl := last n early writes
    refine ⟨fun _ => ?_, by decide⟩
    constructor <;> decide
  · have control := Core.wbControl_of_empty (backToBack_stalled n late).wbEmpty
    rw [Core.csrWenW, control] at writes
    exact absurd writes Bool.false_ne_true

theorem csr_writes_visible_backToBack :
    (backToBack 0x34025073 0x00002103).SeesWrites 7 :=
  csr_writes_visible _ backToBack_writeApart 7 (by decide)

/-- `csrrwi mepc, 4` before MRET: the redirect goes to the old `mepc`. -/
theorem not_csr_writes_visible :
    ¬ ∀ (p : Params) (r : Run p), r.InstrBus → ∀ n,
      (r.state n).csrWenW = true → (r.state n).ex.valid = true →
        r.SeesWrites n := by
  intro visible
  have sees := visible _ (backToBack 0x34125073 0x30200073)
    (Run.instrBus_script (by decide) (by decide)) 7
    (by decide) (by decide)
  exact absurd sees.decision (by decide)

end SisRv
