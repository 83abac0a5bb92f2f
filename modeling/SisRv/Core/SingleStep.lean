import SisRv.Core.Chain
import SisRv.Core.CsrFrame
import SisRv.Core.Redirect
import SisRv.Lib.Channel
import SisRv.Rtl.Corebus
import Mathlib.Tactic.IntervalCases

/-!
# Single-stepping

A step runs from the resume request to the cycle at whose end `halted` is set
again, if there is one.  It executes one instruction as long as that
instruction retires and the one behind it neither starts an access nor hits a
trigger before the stop flushes it.
-/

namespace SisRv

open Sync

/-! ## The data port -/

namespace Core

variable {p : Params} (s : Core p)

/-- The request at the data port. -/
def dReq : BusReq := ⟨s.dReqAddr, s.dReqWe, s.dReqWdata, s.dReqWstrb⟩

variable {s} {t : Core p}

/-- The request is a function of the instruction in EX, the address it
presents and the phase. -/
theorem dReq_congr
    (same : SameInstr s.ex t.ex) (address : s.exMemReqAddr = t.exMemReqAddr)
    (phase : s.amoStorePhase = t.amoStorePhase)
    (old : s.amoOldVal = t.amoOldVal) : s.dReq = t.dReq := by
  simp only [dReq, dReqAddr, dReqWe, dReqWdata, dReqWstrb, storeData,
    storeStrb, amoNewVal, address, phase, old, same.toDecoded, same.rs2Val,
    same.exIsSc]

end Core

namespace Run

variable {p : Params} (r : Run p)

/-- The accepted data requests whose response is not consumed. -/
def dPending : ℕ → List BusReq :=
  pending
    (fun n =>
      if (r.state n).dataReqFire (r.inputs n) then some (r.state n).dReq
      else none)
    fun n => (r.state n).dataRspFire (r.inputs n)

/-- Every unanswered request is the one EX waits for. -/
def NoLeftover (n : ℕ) : Prop :=
  (r.dPending n).length = if (r.state n).dRspReady then 1 else 0

/-! ## Steps -/

/-- The halted core is told to make a single step. -/
structure StepBegins (h : ℕ) : Prop where
  halted : (r.state h).halted = true
  resume : (r.inputs h).dbgResumeReq = true
  single : (r.inputs h).dbgSingleStep = true

/-- The core runs from the resume request in cycle `h` to cycle `t`, without a
halt request. -/
structure SingleStep (h t : ℕ) : Prop extends r.StepBegins h where
  noHalt : ∀ k, h ≤ k → k ≤ t → (r.inputs k).dbgHaltReq = false
  later : h < t
  running : ∀ k, h < k → k ≤ t → (r.state k).halted = false

/-- The step executes one instruction, or makes one trap entry: the core stops
behind whatever commits first, which is the instruction at which it was halted.
Nothing else has an effect, no instruction is lost in EX, and the one behind
the first to leave it neither shows at the data port nor hits a trigger.  The
stop leaves the next PC, and no response to come. -/
structure StepsOnce (h t : ℕ) : Prop where
  stops : ∀ k, h < k → k ≤ t → (r.state k).wb.valid = true →
    (r.state (k + 1)).halted = true
  first : ∀ k, h < k → k ≤ t → (r.state k).wb.valid = true →
    (r.state k).wb.pc = (r.state h).oldestPc
  quiet : ∀ k, h < k → k ≤ t → (r.state k).wb.valid = false →
    (r.state (k + 1)).regs = (r.state k).regs ∧
      CsrState.Quiet (r.state k).csr (r.state (k + 1)).csr
  kept : ∀ k, h ≤ k → k < t → (r.state k).ex.valid = true →
    (r.state k).exToWbFire (r.inputs k) = true ∨
      (r.state (k + 1)).ex.valid = true
  behind : ∀ x k, h ≤ x → x < k → k ≤ t →
    (r.state x).exToWbFire (r.inputs x) = true →
      (r.state k).dReqValid = false ∧
        (r.state k).dataRspFire (r.inputs k) = false ∧
        (r.state k).exTriggerHit = false
  ended : (r.state (t + 1)).halted = true →
    (r.state t).wb.valid = true ∧
      (r.state (t + 1)).oldestPc = (r.state t).wb.pcNext ∧
      r.dPending (t + 1) = []

/-- No read phase of an AMO fails in the step, and when an instruction reaches
WB, it retires, no other resume request has come, the instruction in EX neither
accesses memory nor hits a trigger, and no response was left over when the step
began. -/
structure StepsClean (h t : ℕ) : Prop where
  noDrop : ∀ k, h ≤ k → k < t →
    (r.state k).exDropsAmo (r.inputs k) = false
  retires : ∀ k, h < k → k ≤ t → (r.state k).wb.valid = true →
    (r.state k).instrRetire = true ∧
      ∀ j, h < j → j ≤ k → (r.inputs j).dbgResumeReq = false
  behind : (r.state t).wb.valid = true → (r.state t).ex.valid = true →
    (r.state t).exMemAccess = false ∧ (r.state t).exTriggerHit = false
  noLeftover : (r.state t).wb.valid = true → r.NoLeftover h

end Run

/-! ## Requests and the wait for their response -/

namespace Core

variable {p : Params} {s : Core p} {i : CoreIn}

theorem not_reqFire_of_rspReady (waits : s.dRspReady = true) :
    s.dataReqFire i = false := by
  simp only [dRspReady, Bool.and_eq_true, Bool.or_eq_true, beq_iff_eq]
    at waits
  rcases waits.2 with wait | wait <;>
    simp [dataReqFire, exMemRequesting, wait]

theorem not_reqFire_of_leave (leaves : s.exToWbFire i = true) :
    s.dataReqFire i = false := by
  by_cases waits : s.dRspReady = true
  · exact not_reqFire_of_rspReady waits
  · have first : s.exExecToWb = true := by
      simp only [exToWbFire, exMemToWb, exAmoStoreToWb, dataRspFire, waits,
        Bool.and_false, Bool.false_and, Bool.or_false] at leaves
      exact leaves
    simp only [exExecToWb, Bool.and_eq_true, Bool.not_eq_true',
      beq_iff_eq] at first
    simp [dataReqFire, exMemRequesting, first]

theorem rspFire_of_leave
    (leaves : s.exToWbFire i = true) (waits : s.dRspReady = true) :
    s.dataRspFire i = true := by
  simp only [dRspReady, Bool.and_eq_true, Bool.or_eq_true, beq_iff_eq]
    at waits
  have notFirst : s.exExecToWb = false := by
    rcases waits.2 with wait | wait <;> simp [exExecToWb, wait]
  simp only [exToWbFire, notFirst, exMemToWb, exAmoStoreToWb, Bool.false_or,
    Bool.or_eq_true, Bool.and_eq_true] at leaves
  rcases leaves with read | store
  · exact read.1.2
  · exact store.2

/-- A wait for a response begins with an accepted request and ends with the
response, unless a stop flushes the instruction. -/
theorem dRspReady_step
    (sound : s.ExSound) (goes : s.wbSingleStepStop = false) :
    (s.step i).dRspReady =
      (s.dataReqFire i || s.dRspReady && !s.dataRspFire i) := by
  have leaver : s.ex.valid = true → s.exToWbFire i = true →
      (s.dataReqFire i || s.dRspReady && !s.dataRspFire i) = false := by
    intro _ leaves
    rw [not_reqFire_of_leave leaves, Bool.false_or]
    by_cases waits : s.dRspReady = true
    · simp [rspFire_of_leave leaves waits]
    · simp [waits]
  have empty : s.ex.valid = false →
      (s.dataReqFire i || s.dRspReady && !s.dataRspFire i) = false := by
    intro invalid
    simp [dataReqFire, exMemRequesting, dRspReady, invalid]
  cases s.exCycle i with
  | issued issue next =>
      have fresh : (s.step i).dRspReady = false := by
        simp [dRspReady, next, issuedEx]
      rw [fresh]
      by_cases valid : s.ex.valid = true
      · exact (leaver valid (leaves_of_issue issue valid)).symm
      · exact (empty (by simpa using valid)).symm
  | emptied quiet next cause =>
      have gone : (s.step i).dRspReady = false := by
        simp [dRspReady, next]
      rw [gone]
      by_cases valid : s.ex.valid = true
      · rcases cause valid sound.notWb with leaves | drops | stop
        · exact (leaver valid leaves).symm
        · simp only [exDropsAmo, Bool.and_eq_true, beq_iff_eq] at drops
          obtain ⟨⟨⟨⟨-, waiting⟩, fire⟩, -⟩, -⟩ := drops
          simp [dataReqFire, exMemRequesting, waiting, fire]
        · rw [goes] at stop
          exact absurd stop (by decide)
      · exact (empty (by simpa using valid)).symm
  | accesses quiet kept valid first access next =>
      by_cases fire : s.dataReqFire i = true
      · simp [dRspReady, next, valid, fire]
      · simp only [dRspReady, step_ex, next, valid, first, fire]
        rfl
  | waits quiet kept valid later busy state rdata err next clean move =>
      have after : (s.step i).dRspReady =
          (state == .exMemWait || state == .exAmoStoreWait) := by
        simp [dRspReady, next, valid]
      rw [after]
      cases move with
      | stays noReq noRsp => simp [noReq, noRsp, dRspReady, valid]
      | accepted requesting fire => simp [fire]
      | amoRead waiting amo fire =>
          simp only [fire, dataReqFire, exMemRequesting, waiting,
            Bool.not_true, Bool.and_false, Bool.or_false]
          have busy : (s.ex.valid && (ExState.exMemWait == .exExec &&
              s.exMemAccess || ExState.exMemWait == .exMemReq ||
              ExState.exMemWait == .exAmoStoreReq)) = false := by
            simp
          rw [busy]
          rfl
      | amoAccepted requesting fire => simp [fire]

theorem not_rspReady_of_flush (flushed : s.flush i = true) :
    (s.step i).dRspReady = false := by
  have empty := (drained_of_flush flushed).ex
  simp only [dRspReady, empty, Bool.false_and]

end Core

namespace Run

variable {p : Params} {r : Run p}

theorem dPending_succ (n : ℕ) :
    r.dPending (n + 1) =
      (if (r.state n).dataRspFire (r.inputs n) then (r.dPending n).tail
        else r.dPending n) ++
      (if (r.state n).dataReqFire (r.inputs n) then [(r.state n).dReq]
        else []) := by
  have grows : r.dPending (n + 1) =
      (if (r.state n).dataRspFire (r.inputs n) then (r.dPending n).tail
        else r.dPending n) ++
      (if (r.state n).dataReqFire (r.inputs n) then some (r.state n).dReq
        else none).toList := rfl
  rw [grows]
  split_ifs <;> rfl

theorem dPending_of_ready
    (n : ℕ) (waits : (r.state n).dRspReady = true) :
    0 < (r.dPending n).length := by
  induction n with
  | zero =>
      exact absurd waits (by simp [state_zero, Core.dRspReady, Core.reset,
        ExRegs.reset])
  | succ n inductionHypothesis =>
      by_cases stop : (r.state n).wbSingleStepStop = true
      · rw [r.state_succ,
          Core.not_rspReady_of_flush (by simp [Core.flush, stop])] at waits
        exact absurd waits (by decide)
      · rw [r.state_succ, Core.dRspReady_step (r.exSound n)
          (by simpa using stop), Bool.or_eq_true, Bool.and_eq_true,
          Bool.not_eq_true'] at waits
        rw [dPending_succ]
        rcases waits with fire | ⟨waited, noRsp⟩
        · simp [fire]
        · simp [noRsp, Nat.add_pos_left (inductionHypothesis waited)]

/-- A cycle without a stop keeps what is left over. -/
theorem noLeftover_succ
    (n : ℕ) (goes : (r.state n).wbSingleStepStop = false) :
    r.NoLeftover (n + 1) ↔ r.NoLeftover n := by
  rw [NoLeftover, NoLeftover, dPending_succ, r.state_succ,
    Core.dRspReady_step (r.exSound n) goes]
  by_cases waits : (r.state n).dRspReady = true
  · have noReq := Core.not_reqFire_of_rspReady (i := r.inputs n) waits
    by_cases fire : (r.state n).dataRspFire (r.inputs n) = true
    · have some := dPending_of_ready n waits
      simp only [waits, noReq, fire, if_true, List.append_nil,
        List.length_tail, Bool.false_eq_true, if_false, Bool.not_true,
        Bool.and_false, Bool.or_false]
      omega
    · simp [waits, noReq, fire]
  · have noRsp : (r.state n).dataRspFire (r.inputs n) = false := by
      simp [Core.dataRspFire, waits]
    by_cases fire : (r.state n).dataReqFire (r.inputs n) = true <;>
      simp [waits, noRsp, fire]

/-! ## The core through a step -/

theorem not_stepActive_of_halted (n : ℕ) :
    (r.state n).halted = true → (r.state n).stepActive = false := by
  induction n with
  | zero =>
      intro _
      rfl
  | succ n inductionHypothesis =>
      rw [r.state_succ, Core.step_halted, Core.step_stepActive]
      unfold Core.haltedNext Core.stepActiveNext
      intro halts
      split_ifs at halts ⊢
      · rfl
      · rfl
      · exact inductionHypothesis halts

/-- Once the step is over without a stop nothing but a halt request halts the
core. -/
theorem running_of_inactive
    {k t : ℕ} (within : k ≤ t)
    (noHalt : ∀ j, k ≤ j → j ≤ t → (r.inputs j).dbgHaltReq = false)
    (running : (r.state k).halted = false)
    (inactive : (r.state k).stepActive = false) :
    (r.state (t + 1)).halted = false := by
  have still : (r.state (t + 1)).halted = false ∧
      (r.state (t + 1)).stepActive = false := by
    induction t, within using Nat.le_induction with
    | base =>
        have quiet := noHalt k le_rfl le_rfl
        rw [r.state_succ, Core.step_halted, Core.step_stepActive]
        simp [Core.haltedNext, Core.stepActiveNext, quiet, running,
          Core.wbSingleStepStop, inactive]
    | succ t within inductionHypothesis =>
        obtain ⟨free, idle⟩ :=
          inductionHypothesis fun j low high => noHalt j low (by omega)
        have quiet := noHalt (t + 1) (by omega) le_rfl
        rw [r.state_succ (t + 1), Core.step_halted, Core.step_stepActive]
        simp [Core.haltedNext, Core.stepActiveNext, quiet, free,
          Core.wbSingleStepStop, idle]
  exact still.1

section Step

variable {h t : ℕ} (step : r.SingleStep h t)
include step

/-! ### The flags of the debugger -/

theorem stepActive_of_step {k : ℕ} (above : h < k) (within : k ≤ t) :
    (r.state k).stepActive = true ↔
      ∀ j, h < j → j < k → (r.inputs j).dbgResumeReq = false := by
  induction k, above using Nat.le_induction with
  | base =>
      have quiet := step.noHalt h le_rfl (by omega)
      have active : (r.state (h + 1)).stepActive = true := by
        rw [r.state_succ, Core.step_stepActive]
        simp [Core.stepActiveNext, quiet, step.resume, step.halted,
          step.single]
      exact iff_of_true active fun j low high => by omega
  | succ k above inductionHypothesis =>
      have before := inductionHypothesis (by omega)
      have quiet := step.noHalt k (by omega) (by omega)
      have running := step.running k above (by omega)
      have stays := step.running (k + 1) (by omega) within
      rw [r.state_succ, Core.step_halted] at stays
      rw [r.state_succ, Core.step_stepActive]
      cases resume : (r.inputs k).dbgResumeReq with
      | true =>
          have lost : (r.state k).stepActiveNext (r.inputs k) = false := by
            simp [Core.stepActiveNext, quiet, resume, running]
          rw [lost]
          refine iff_of_false Bool.false_ne_true fun none => ?_
          have down := none k above (Nat.lt_succ_self k)
          rw [resume] at down
          cases down
      | false =>
          have goes : (r.state k).wbSingleStepStop = false := by
            by_contra stop
            simp [Core.haltedNext, quiet, resume, stop] at stays
          have same : (r.state k).stepActiveNext (r.inputs k) =
              (r.state k).stepActive := by
            simp [Core.stepActiveNext, quiet, resume, goes]
          rw [same, before]
          constructor
          · intro none j low high
            rcases Nat.lt_succ_iff_lt_or_eq.mp high with earlier | rfl
            · exact none j low earlier
            · exact resume
          · exact fun none j low high => none j low (by omega)

/-- The core is halted behind an instruction that retires, if no other resume
request has come. -/
theorem halts_iff_of_step {k : ℕ} (above : h < k) (within : k ≤ t) :
    (r.state (k + 1)).halted = true ↔
      (r.state k).wb.valid = true ∧ (r.state k).instrRetire = true ∧
        ∀ j, h < j → j ≤ k → (r.inputs j).dbgResumeReq = false := by
  have quiet := step.noHalt k (by omega) within
  have running := step.running k above within
  have active := stepActive_of_step step above within
  have halts : (r.state (k + 1)).halted = true ↔
      (r.state k).wbSingleStepStop = true ∧
        (r.inputs k).dbgResumeReq = false := by
    rw [r.state_succ, Core.step_halted]
    cases resume : (r.inputs k).dbgResumeReq <;>
      cases stop : (r.state k).wbSingleStepStop <;>
      simp [Core.haltedNext, quiet, resume, stop, running]
  rw [halts, Core.wbSingleStepStop, Bool.and_eq_true, Bool.and_eq_true,
    active]
  constructor
  · rintro ⟨⟨⟨before, valid⟩, retires⟩, last⟩
    refine ⟨valid, retires, fun j low high => ?_⟩
    rcases Nat.lt_or_eq_of_le high with earlier | rfl
    · exact before j low earlier
    · exact last
  · rintro ⟨valid, retires, none⟩
    exact ⟨⟨⟨fun j low high => none j low high.le, valid⟩, retires⟩,
      none k above le_rfl⟩

theorem stop_of_halts (halts : (r.state (t + 1)).halted = true) :
    (r.state t).wbSingleStepStop = true := by
  obtain ⟨valid, retires, none⟩ :=
    (halts_iff_of_step step step.later le_rfl).mp halts
  have active := (stepActive_of_step step step.later le_rfl).mpr
    fun j low high => none j low high.le
  simp [Core.wbSingleStepStop, active, valid, retires]

/-- The stop flushes the pipeline to the next PC. -/
theorem next_of_halts (halts : (r.state (t + 1)).halted = true) :
    (r.state (t + 1)).oldestPc = (r.state t).wb.pcNext := by
  have stop := stop_of_halts step halts
  have flushed : (r.state t).flush (r.inputs t) = true := by
    simp [Core.flush, stop]
  have empty := (Core.drained_of_flush flushed).ex
  rw [r.state_succ, Core.oldestPc, empty, Core.frontPc_of_flush flushed,
    Core.flushTarget, if_pos stop]
  simp

theorem quiet_of_empty_wb {k : ℕ} (above : h < k) (within : k ≤ t)
    (empty : (r.state k).wb.valid = false) :
    (r.state (k + 1)).regs = (r.state k).regs ∧
      CsrState.Quiet (r.state k).csr (r.state (k + 1)).csr := by
  have running := step.running k above within
  constructor
  · rw [r.state_succ, Core.step_regs]
    simp [Core.regsNext, running, Core.wbWritesRd, empty]
  · exact Core.quiet_of_empty empty

/-! ### A step that stops behind the first instruction -/

section Stops

variable (stops : ∀ k, h < k → k ≤ t → (r.state k).wb.valid = true →
  (r.state (k + 1)).halted = true)
include stops

theorem last_of_valid {k : ℕ} (above : h < k) (within : k ≤ t)
    (valid : (r.state k).wb.valid = true) : k = t := by
  by_contra earlier
  have running := step.running (k + 1) (by omega) (by omega)
  rw [stops k above within valid] at running
  cases running

theorem goes_of_stops {k : ℕ} (above : h ≤ k) (below : k < t) :
    (r.state k).wbSingleStepStop = false := by
  rcases Nat.eq_or_lt_of_le above with rfl | inside
  · simp [Core.wbSingleStepStop, not_stepActive_of_halted h step.halted]
  · by_contra stop
    simp only [Core.wbSingleStepStop, Bool.not_eq_false, Bool.and_eq_true]
      at stop
    have last := last_of_valid step stops inside below.le stop.1.2
    omega

/-- EX is left in the cycle before the stop only. -/
theorem last_of_leave {x : ℕ} (above : h ≤ x) (below : x < t)
    (leaves : (r.state x).exToWbFire (r.inputs x) = true) : x + 1 = t := by
  have valid : (r.state (x + 1)).wb.valid = true := by
    rw [wb_of_leave leaves (goes_of_stops step stops above below)]
    rfl
  exact last_of_valid step stops (by omega) below valid

/-- An instruction stays in EX unless it is an AMO whose read fails. -/
theorem kept_iff_of_stops {k : ℕ} (above : h ≤ k) (below : k < t) :
    ((r.state k).ex.valid = true →
      (r.state k).exToWbFire (r.inputs k) = true ∨
        (r.state (k + 1)).ex.valid = true) ↔
      (r.state k).exDropsAmo (r.inputs k) = false := by
  constructor
  · intro kept
    by_contra drops
    obtain ⟨valid, stays, -, empty⟩ :=
      Core.facts_of_drop (by simpa using drops)
    rcases kept valid with leaves | still
    · rw [stays] at leaves
      cases leaves
    · rw [r.state_succ, Core.step_ex, empty] at still
      cases still
  · intro noDrop valid
    by_cases leaves : (r.state k).exToWbFire (r.inputs k) = true
    · exact Or.inl leaves
    · exact Or.inr (Core.stays_of_busy (goes_of_stops step stops above below)
        (r.exSound k) noDrop valid (by simpa using leaves)).2.1

/-- The first instruction to commit is the one at which the core was
halted. -/
theorem first_of_stops
    (noDrop : ∀ k, h ≤ k → k < t →
      (r.state k).exDropsAmo (r.inputs k) = false)
    {k : ℕ} (above : h < k) (within : k ≤ t)
    (valid : (r.state k).wb.valid = true) :
    (r.state k).wb.pc = (r.state h).oldestPc := by
  obtain ⟨x, rfl⟩ : ∃ x, k = x + 1 := ⟨k - 1, by omega⟩
  have leaves : (r.state x).exToWbFire (r.inputs x) = true :=
    (Core.leave_of_wb_valid valid).1
  have still : ∀ m, h ≤ m → m ≤ x →
      (r.state m).oldestPc = (r.state h).oldestPc := by
    intro m low
    induction m, low using Nat.le_induction with
    | base => exact fun _ => rfl
    | succ m low inductionHypothesis =>
        intro high
        have stays : (r.state m).exToWbFire (r.inputs m) = false := by
          by_contra left
          have last := last_of_leave step stops low (by omega)
            (by simpa using left)
          omega
        rw [r.state_succ, Core.oldestPc_step
          (goes_of_stops step stops low (by omega)) (r.exSound m)
          (noDrop m low (by omega)) (r.feSound m) (r.exFollowed m), stays,
          inductionHypothesis (by omega)]
        rfl
  have latched :
      (r.state (x + 1)).wb = (r.state x).completedWb (r.inputs x) :=
    wb_of_leave leaves (goes_of_stops step stops (by omega) (by omega))
  have oldest : (r.state x).oldestPc = (r.state x).ex.pc := by
    rw [Core.oldestPc, if_pos (Core.valid_of_leave leaves)]
  rw [latched, ← still x (by omega) le_rfl, oldest]
  rfl

/-- What a step keeps until its last cycle: nothing is left over that was not
left over before. -/
theorem noLeftover_of_step {k : ℕ} (above : h ≤ k) (within : k ≤ t) :
    r.NoLeftover k ↔ r.NoLeftover h := by
  induction k, above using Nat.le_induction with
  | base =>
      exact Iff.rfl
  | succ k above inductionHypothesis =>
      rw [noLeftover_succ k (goes_of_stops step stops above (by omega))]
      exact inductionHypothesis (by omega)

end Stops

/-! ### The instruction behind the first one -/

section Last

variable (valid : (r.state t).wb.valid = true)
include valid

/-- The instruction in WB left EX in the cycle before. -/
theorem leaves_of_last :
    (r.state (t - 1)).exToWbFire (r.inputs (t - 1)) = true := by
  have later := step.later
  obtain ⟨x, rfl⟩ : ∃ x, t = x + 1 := ⟨t - 1, by omega⟩
  exact (Core.leave_of_wb_valid valid).1

/-- Behind it EX is empty or in its first state. -/
theorem first_of_last (occupied : (r.state t).ex.valid = true) :
    (r.state t).ex.state = .exExec := by
  have later := step.later
  have leaves := leaves_of_last step valid
  obtain ⟨x, rfl⟩ : ∃ x, t = x + 1 := ⟨t - 1, by omega⟩
  have leaves : (r.state x).exToWbFire (r.inputs x) = true := leaves
  rw [r.state_succ, Core.step_ex] at occupied ⊢
  cases (r.state x).exCycle (r.inputs x) with
  | issued issue next => rw [next]; rfl
  | emptied quiet next =>
      rw [next] at occupied
      exact absurd occupied (by decide)
  | accesses quiet kept before first access =>
      rw [Core.not_leave_of_access first access] at leaves
      exact absurd leaves (by decide)
  | waits quiet kept before notFirst busy =>
      rw [busy] at leaves
      exact absurd leaves (by decide)

theorem notReady_of_last : (r.state t).dRspReady = false := by
  by_contra ready
  simp only [Core.dRspReady, Bool.not_eq_false, Bool.and_eq_true,
    Bool.or_eq_true, beq_iff_eq] at ready
  have first := first_of_last step valid ready.1
  rcases ready.2 with wait | wait <;> simp [first] at wait

theorem noRsp_of_last : (r.state t).dataRspFire (r.inputs t) = false := by
  simp [Core.dataRspFire, notReady_of_last step valid]

theorem dReqValid_of_last :
    (r.state t).dReqValid =
      ((r.state t).ex.valid && (r.state t).exMemAccess) := by
  by_cases occupied : (r.state t).ex.valid = true
  · have first := first_of_last step valid occupied
    simp only [Core.dReqValid, Core.exMemRequesting, occupied, first]
    cases (r.state t).exMemAccess <;> rfl
  · simp [Core.dReqValid, Core.exMemRequesting, occupied]

/-- Nothing is left to be answered after the stop if nothing was left over
before the step and the last cycle makes no request. -/
theorem answered_iff_of_last
    (stops : ∀ k, h < k → k ≤ t → (r.state k).wb.valid = true →
      (r.state (k + 1)).halted = true)
    (noRequest : (r.state t).dReqValid = false) :
    r.dPending (t + 1) = [] ↔ r.NoLeftover h := by
  have noReq : (r.state t).dataReqFire (r.inputs t) = false := by
    rw [Core.dReqValid] at noRequest
    simp [Core.dataReqFire, noRequest]
  rw [← noLeftover_of_step step stops step.later.le le_rfl, NoLeftover,
    notReady_of_last step valid, dPending_succ, noReq,
    noRsp_of_last step valid]
  simp

end Last

/-! ### Clean steps -/

theorem clean_of_stepsOnce (once : r.StepsOnce h t) : r.StepsClean h t := by
  have behind (valid : (r.state t).wb.valid = true) :=
    once.behind (t - 1) t (by have := step.later; omega)
      (by have := step.later; omega) le_rfl (leaves_of_last step valid)
  refine ⟨fun k above below => ?_, fun k above within valid => ?_,
    fun valid occupied => ?_, fun valid => ?_⟩
  · exact (kept_iff_of_stops step once.stops above below).mp
      (once.kept k above below)
  · exact ((halts_iff_of_step step above within).mp
      (once.stops k above within valid)).2
  · obtain ⟨noRequest, -, noHit⟩ := behind valid
    rw [dReqValid_of_last step valid, occupied, Bool.true_and] at noRequest
    exact ⟨noRequest, noHit⟩
  · exact (answered_iff_of_last step valid once.stops (behind valid).1).mp
      (once.ended (once.stops t step.later le_rfl valid)).2.2

theorem stepsOnce_of_clean (clean : r.StepsClean h t) : r.StepsOnce h t := by
  have stops (k : ℕ) (above : h < k) (within : k ≤ t)
      (valid : (r.state k).wb.valid = true) :
      (r.state (k + 1)).halted = true :=
    (halts_iff_of_step step above within).mpr
      ⟨valid, clean.retires k above within valid⟩
  have noRequest (valid : (r.state t).wb.valid = true) :
      (r.state t).dReqValid = false := by
    rw [dReqValid_of_last step valid]
    by_cases occupied : (r.state t).ex.valid = true
    · simp [(clean.behind valid occupied).1]
    · simp [occupied]
  exact {
    stops := stops
    first := fun k above within =>
      first_of_stops step stops clean.noDrop above within
    quiet := fun k above within => quiet_of_empty_wb step above within
    kept := fun k above below =>
      (kept_iff_of_stops step stops above below).mpr
        (clean.noDrop k above below)
    behind := fun x k above below within leaves => by
      obtain rfl : x + 1 = t :=
        last_of_leave step stops above (by omega) leaves
      obtain rfl : k = x + 1 := by omega
      have valid : (r.state (x + 1)).wb.valid = true := by
        rw [wb_of_leave leaves (goes_of_stops step stops above (by omega))]
        rfl
      refine ⟨noRequest valid, noRsp_of_last step valid, ?_⟩
      by_cases occupied : (r.state (x + 1)).ex.valid = true
      · exact (clean.behind valid occupied).2
      · simp [Core.exTriggerHit, Core.trigHitSet, occupied]
    ended := fun halts => by
      have valid := ((halts_iff_of_step step step.later le_rfl).mp halts).1
      exact ⟨valid, next_of_halts step halts,
        (answered_iff_of_last step valid stops (noRequest valid)).mpr
          (clean.noLeftover valid)⟩ }

end Step

end Run

end SisRv
