import SisRv.Core.Progress
import SisRv.Core.Steady

/-!
# Halting and resuming

Two runs of one program may differ in the timing of their buses and in the
episodes in which the core is halted.  As long as every CSR write is visible
to the next instruction, both commit the same instructions and make the same
data requests.
-/

namespace SisRv

open Sync

namespace Run

variable {p : Params} (r r' : Run p)

/-- Whatever one run has committed or requested, another one does as well. -/
structure CatchesUp : Prop where
  committed : ∀ n, ∃ n', r'.entered n' = r.entered n
  requests : ∀ n, ∃ n', r.asked n <+: r'.asked n'

/-- Two runs never disagree in the committed instructions and the data
requests, and after as many instructions they have the same registers and,
behind WB, the same CSRs except counters.  A run that is not halted for good
gets as far as the other one. -/
structure SameExecution : Prop where
  committed : ∀ n n', r.entered n <+: r'.entered n' ∨
    r'.entered n' <+: r.entered n
  requests : ∀ n n', r.asked n <+: r'.asked n' ∨ r'.asked n' <+: r.asked n
  registers : ∀ n n', (r.entered n).length = (r'.entered n').length →
    (r.state (n + 1)).regs = (r'.state (n' + 1)).regs
  csrs : ∀ n n', (r.entered n).length = (r'.entered n').length →
    (r.csrBehind n).uncounted = (r'.csrBehind n').uncounted
  follows : r'.Responsive → r.CatchesUp r'
  isFollowed : r.Responsive → r'.CatchesUp r

section After

variable {r r'} {env : Surroundings} {lines : IrqLines}
  {regs : BitVec 5 → BitVec 32}

theorem asked_after_le {k l : ℕ} (le : k ≤ l) :
    (Arch.after (p := p) env lines regs k).asked <+:
      (Arch.after (p := p) env lines regs l).asked :=
  log_iterate_grows (fun m => m.asked_exec env ⟨.low, lines, .zero⟩) le

/-- The requests up to cycle `n` end in the instruction it stands in. -/
theorem Tracks.asked_after
    {k n : ℕ} (tracks : r.Tracks env (Arch.after env lines regs k) n) :
    (Arch.after (p := p) env lines regs k).asked <+: r.asked n ∧
      r.asked n <+: (Arch.after (p := p) env lines regs (k + 1)).asked := by
  rw [Arch.after, Arch.after, Function.iterate_succ_apply']
  exact tracks.asked_within ⟨.low, lines, .zero⟩

/-- A run in which instructions complete again and again gets as far as
another one that executes the same. -/
theorem catchesUp_of_after
    (tracks : ∀ n, r.Tracks env
      (Arch.after env lines regs (occurrences r.completes n)) n)
    (tracks' : ∀ n, r'.Tracks env
      (Arch.after env lines regs (occurrences r'.completes n)) n)
    (often : ∀ n, ∃ m, n ≤ m ∧ r'.completes m = true) : r.CatchesUp r' where
  committed := fun n => by
    obtain ⟨n', same⟩ := exists_occurrences often (occurrences r.completes n)
    refine ⟨n', ?_⟩
    rw [(tracks' n').entered, (tracks n).entered, same]
  requests := fun n => by
    obtain ⟨n', next⟩ :=
      exists_occurrences often (occurrences r.completes n + 1)
    have reached := tracks' n'
    rw [next] at reached
    exact ⟨n', (tracks n).asked_after.2.trans reached.asked_after.1⟩

end After

end Run

/-- In runs over the same memories with interrupts off, halts are not seen if
no CSR write changes what the instruction in EX reads in that cycle or the
verdict on a word that is held. -/
theorem halting_transparent
    {p : Params} {env : Surroundings} {lines : IrqLines} {r r' : Run p}
    (power : r.power.regs = r'.power.regs)
    (within : r.RunsIn env) (within' : r'.RunsIn env)
    (steady : r.Steady lines) (steady' : r'.Steady lines)
    (apart : ∀ n, (r.state n).csrWenW = true → r.WriteApart n)
    (apart' : ∀ n, (r'.state n).csrWenW = true → r'.WriteApart n) :
    r.SameExecution r' := by
  have tracks := Run.tracks_after within steady apart
  have tracks' := Run.tracks_after within' steady' apart'
  rw [power] at tracks
  have observes : ∀ {Value : Type} (observe : Arch p → Value),
      (∀ m : Arch p, (m.plainExec env lines).entered = m.entered →
        observe (m.plainExec env lines) = observe m) →
      ∀ n n', (r.entered n).length = (r'.entered n').length →
        observe (Arch.after env lines r'.power.regs
            (occurrences r.completes n)) =
          observe (Arch.after env lines r'.power.regs
            (occurrences r'.completes n')) := by
    intro Value observe silent n n' same
    rw [(tracks n).entered, (tracks' n').entered] at same
    exact observe_of_log_length (fun m => m.entered_exec env _) silent same
  exact {
    committed := fun n n' => by
      rw [(tracks n).entered, (tracks' n').entered]
      exact log_comparable (fun m => m.entered_exec env _) _ _
    requests := fun n n' => by
      -- both are part of what the later of the two instructions ends with
      exact List.prefix_or_prefix_of_prefix
        ((tracks n).asked_after.2.trans
          (Run.asked_after_le (Nat.succ_le_succ (le_max_left _ _))))
        ((tracks' n').asked_after.2.trans
          (Run.asked_after_le (Nat.succ_le_succ (le_max_right _ _))))
    registers := fun n n' same => by
      rw [Run.regs_succ within.noWrite, Run.regs_succ within'.noWrite,
        (tracks n).regs, (tracks' n').regs]
      exact observes Arch.regs (fun _ silent => (Arch.exec_of_silent silent).1)
        n n' same
    csrs := fun n n' same => by
      rw [(tracks n).csr, (tracks' n').csr]
      exact observes Arch.csr (fun _ silent => (Arch.exec_of_silent silent).2)
        n n' same
    follows := fun responsive => Run.catchesUp_of_after tracks tracks'
      (Run.completes_often within'.single within'.bus responsive)
    isFollowed := fun responsive => Run.catchesUp_of_after tracks' tracks
      (Run.completes_often within.single within.bus responsive) }

/-! ## A halt between a CSR write and the next instruction -/

namespace Run

variable {p : Params} {inputs : List CoreIn}

/-- What the cycles of a prescribed run have to meet; it is idle after
them. -/
theorem runsIn_script
    {env : Surroundings}
    (single : ∀ i ∈ inputs, i.dbgSingleStep = false)
    (noWrite : ∀ i ∈ inputs, (i.dbgAbsValid && i.dbgAbsWrite) = false)
    (answers : ∀ n, n < inputs.length →
      ((script p inputs).inputs n).iRspValid = true →
        ((script p inputs).iOutstanding n).isSome = true)
    (accepts : ∀ n, n < inputs.length →
      ((script p inputs).iAccepts n).isSome = true →
        (script p inputs).iOutstanding n = none ∨
          (script p inputs).iHandsOver n = true)
    (reads : ∀ n, n < inputs.length →
      ((script p inputs).inputs n).iRspValid = true →
        ∀ request ∈ (script p inputs).iOutstanding n,
          ((script p inputs).inputs n).iRspRdata = env.mem.data request.1 ∧
            ((script p inputs).inputs n).iRspErr = env.mem.err request.1)
    (data : ∀ n, n < inputs.length →
      ((script p inputs).state n).dataRspFire ((script p inputs).inputs n) =
          true →
        env.answer ((script p inputs).asked n) =
          (((script p inputs).inputs n).dRspRdata,
            ((script p inputs).inputs n).dRspErr)) :
    (script p inputs).RunsIn env := by
  have idle : ∀ n, ¬ n < inputs.length → (script p inputs).inputs n = {} :=
    fun n beyond => List.getD_eq_default _ _ (Nat.not_lt.mp beyond)
  have bus := instrBus_script answers accepts
  have memory : (script p inputs).ReadsMemory env.mem := by
    intro n response
    by_cases within : n < inputs.length
    · exact reads n within response
    · simp [idle n within] at response
  exact {
    single := noSingleStep_script single
    noWrite := script_inputs_of_forall
      (P := fun i => (i.dbgAbsValid && i.dbgAbsWrite) = false) rfl noWrite
    bus := bus
    served := fun n valid => {
      words := fun w member =>
        readAs_of_fetch memory
          ((((script p inputs).provSound bus n).ex valid).live w
            member).fetched
      answer := fun fire => by
        by_cases within : n < inputs.length
        · exact data n within fire
        · simp [idle n within, Core.dataRspFire] at fire } }

/-- A prescribed run with all interrupt lines low, in which no CSR is read
before the cycle from which on WB stays empty. -/
theorem steady_script
    {lines : IrqLines} (low : ∀ i ∈ inputs, i.irq = .low) (b : ℕ)
    (early : ∀ n < b, ((script p inputs).state n).readsCsr = false)
    (late : ∀ n, b ≤ n → ((script p inputs).state n).wb.valid = false) :
    (script p inputs).Steady lines where
  noIrq := fun n => by
    have same : ((script p inputs).inputs n).irq = .low :=
      script_inputs_of_forall (P := fun i => i.irq = .low) rfl low n
    rw [Core.irqPending, same]
    exact CsrState.irqPending_low _
  reads := fun n csr => by
    rcases Nat.lt_or_ge n b with before | after
    · rw [early n before] at csr
      exact absurd csr Bool.false_ne_true
    · have control := Core.wbControl_of_empty (late n after)
      simp [Core.readsCsr, Core.csrWenW, control] at csr

end Run

namespace Core

/-- A flushed pipeline stays empty as long as no word arrives. -/
theorem drained_step
    {p : Params} {s : Core p} {i : CoreIn} (drained : s.Drained)
    (wbEmpty : s.wb.valid = false) (silent : i.iRspValid = false)
    (refuses : i.iReqReady = false) :
    (s.step i).Drained ∧ (s.step i).wb.valid = false := by
  have stays : s.exToWbFire i = false := by
    by_contra leaves
    have valid := valid_of_leave (by simpa using leaves)
    exact Bool.false_ne_true (drained.ex.symm.trans valid)
  have kept : s.flush i = false := by
    simp [flush, exRedirect, stays, wbSingleStepStop, wbEmpty]
  have noIssue : s.idToExFire i = false := by
    simp [idToExFire, drained.ifId]
  have noRsp : s.ifRspFire i = false ∧ s.pfRspFire i = false := by
    simp [ifRspFire, pfRspFire, silent]
  have noReq : s.ifReqFire i = false ∧ s.pfReqFire i = false := by
    simp [ifReqFire, pfReqFire, refuses]
  have noServe : s.ifServeBuf i = false := by
    simp [ifServeBuf, bufHit, fbufHit, pfbufHit, drained.fbuf, drained.pf]
  have noWord : s.ifWordReady i = false := by
    simp [ifWordReady, ifRspTaken, noRsp, noServe]
  refine ⟨?_, wb_of_stay stays⟩
  constructor
  · rw [step_ex, exNext_of_quiet s i noIssue]
    simp [flushEx, exRedirect, stays, wbSingleStepStop, wbEmpty, exStateStep,
      drained.ex]
  · simp [fe_ifId_valid, not_produces_of_quiet noWord noRsp.1, drained.ifId]
  · simp [fe_fbufValid, ifRspTaken, noRsp, ifServePf, noServe, drained.fbuf]
  · simp [fe_pfValid, pfRspTaken, noRsp, drained.pf]
  · rw [waiting_step]
    simpa [fe_ifDiscardRsp, kept, noRsp, noReq] using drained.discard
  · simpa [fe_pfInflight, fe_pfDiscard, kept, noRsp, noReq]
      using drained.pfDiscard

end Core

theorem Run.empty_script
    {p : Params} {inputs : List CoreIn} {b : ℕ} (beyond : inputs.length ≤ b)
    (drained : ((script p inputs).state b).Drained)
    (wbEmpty : ((script p inputs).state b).wb.valid = false) (n : ℕ)
    (late : b ≤ n) : ((script p inputs).state n).wb.valid = false := by
  have stays : ((script p inputs).state n).Drained ∧
      ((script p inputs).state n).wb.valid = false := by
    induction n, late using Nat.le_induction with
    | base => exact ⟨drained, wbEmpty⟩
    | succ n late inductionHypothesis =>
        have idle : (script p inputs).inputs n = {} :=
          List.getD_eq_default _ _ (beyond.trans late)
        exact Core.drained_step inductionHypothesis.1 inductionHypothesis.2
          (by rw [idle]) (by rw [idle])
  exact stays.2

/-- The words of `backToBack` and a data bus that answers every request. -/
def backToBackSurroundings (csr next : BitVec 32) : Surroundings where
  mem :=
    { data := fun addr =>
        if addr = 0 then 0x00002103 else if addr = 1 then csr else next
      err := fun _ => false }
  answer _ := (0, false)

/-- The same fetches and answers as in `backToBack`, but the core is halted
for three cycles when the CSR instruction is in EX. -/
def backToBackHalted (csr next : BitVec 32) : Run {} :=
  Run.script _
    [.accept, .answer 0x00002103, .accept,
      { CoreIn.answer csr with iReqReady := true, dReqReady := true },
      .answer next, { dRspValid := true }, { dbgHaltReq := true }, .idle,
      { dbgResumeReq := true }]

/-- `csrrwi mscratch, 4` and a load that is never accepted. -/
theorem backToBack_runsIn :
    (backToBack 0x34025073 0x00002103).RunsIn
      (backToBackSurroundings 0x34025073 0x00002103) :=
  Run.runsIn_script (by decide) (by decide) (by decide)
    (by decide) (by decide) (by decide)

theorem backToBackHalted_runsIn :
    (backToBackHalted 0x34025073 0x00002103).RunsIn
      (backToBackSurroundings 0x34025073 0x00002103) :=
  Run.runsIn_script (by decide) (by decide) (by decide)
    (by decide) (by decide) (by decide)

theorem backToBackHalted_stalled (n : ℕ) (late : 12 ≤ n) :
    ((backToBackHalted 0x34025073 0x00002103).state n).Stalled :=
  Run.stalled_script (by decide) (by constructor <;> decide) n late

/-- EX is empty while `csrrwi mscratch, 4` is in WB. -/
theorem backToBackHalted_writeApart (n : ℕ)
    (writes :
      ((backToBackHalted 0x34025073 0x00002103).state n).csrWenW = true) :
    (backToBackHalted 0x34025073 0x00002103).WriteApart n := by
  rcases Nat.lt_or_ge n 12 with early | late
  · have last : ∀ m < 12,
        ((backToBackHalted 0x34025073 0x00002103).state m).csrWenW = true →
          m = 7 := by decide
    obtain rfl := last n early writes
    exact ⟨fun valid => absurd valid (by decide), by decide⟩
  · have control :=
      Core.wbControl_of_empty (backToBackHalted_stalled n late).wbEmpty
    rw [Core.csrWenW, control] at writes
    exact absurd writes Bool.false_ne_true

theorem halting_transparent_backToBack :
    (backToBackHalted 0x34025073 0x00002103).SameExecution
      (backToBack 0x34025073 0x00002103) :=
  halting_transparent rfl backToBackHalted_runsIn backToBack_runsIn
    (show Run.Steady _ .low from
      Run.steady_script (by decide) 12 (by decide)
        fun n late => (backToBackHalted_stalled n late).wbEmpty)
    (Run.steady_script (by decide) 8 (by decide)
      fun n late => (backToBack_stalled n late).wbEmpty)
    backToBackHalted_writeApart backToBack_writeApart

/-- `csrrwi mepc, 4` before MRET: with the halt the redirect goes to the
written `mepc`, without it to the old one. -/
theorem not_halting_transparent :
    ¬ ∀ (p : Params) (env : Surroundings) (r r' : Run p),
      r.power.regs = r'.power.regs → r.RunsIn env → r'.RunsIn env →
      r.Steady .low → r'.Steady .low →
      (∀ n, (r'.inputs n).dbgHaltReq = false) → r.SameExecution r' := by
  intro transparent
  have same := transparent {}
    (backToBackSurroundings 0x34125073 0x30200073)
    (backToBackHalted 0x34125073 0x30200073)
    (backToBack 0x34125073 0x30200073) rfl
    (Run.runsIn_script (by decide) (by decide) (by decide)
      (by decide) (by decide) (by decide))
    (Run.runsIn_script (by decide) (by decide) (by decide)
      (by decide) (by decide) (by decide))
    (Run.steady_script (by decide) 12 (by decide)
      (Run.empty_script (by decide) (by constructor <;> decide)
        (by decide)))
    (Run.steady_script (by decide) 9 (by decide)
      (Run.empty_script (by decide) (by constructor <;> decide)
        (by decide)))
    (Run.script_inputs_of_forall (P := fun i => i.dbgHaltReq = false) rfl
      (by decide))
  exact absurd (same.committed 12 9) (by decide)

end SisRv
