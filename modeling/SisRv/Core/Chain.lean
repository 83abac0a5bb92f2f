import SisRv.Core.Execute
import SisRv.Core.Sequencing

/-!
# Instructions from EX to WB

The instructions that enter WB form one chain from the reset vector, and every
instruction that enters EX enters WB exactly once, unless the read phase of an
AMO ends with a bus error.
-/

namespace SisRv

open Sync

/-! ## What is followed from EX to WB -/

/-- What ID fixes of an instruction and EX and WB both hold. -/
structure Fetched where
  pc : BitVec 32
  instr : BitVec 32
  raw : BitVec 32
  len : BitVec 2
  isCompressed : Bool
  fetchErr : Bool
  illegalCompressed : Bool
  priv : BitVec 2
  deriving DecidableEq, Repr

def ExRegs.fetched (e : ExRegs) : Fetched :=
  ⟨e.pc, e.instr, e.raw, e.len, e.isCompressed, e.fetchErr,
    e.illegalCompressed, e.priv⟩

def WbRegs.fetched (w : WbRegs) : Fetched :=
  ⟨w.pc, w.instr, w.raw, w.len, w.isCompressed, w.fetchErr,
    w.illegalCompressed, w.priv⟩

namespace Core

variable {p : Params} (s : Core p) (i : CoreIn)

/-- The instruction in EX, if any. -/
def resident : List Fetched := if s.ex.valid then [s.ex.fetched] else []

/-- The address of the oldest instruction that has not been issued. -/
def frontPc : BitVec 32 :=
  if s.fe.ifId.valid then s.fe.ifId.pc else s.fe.fetchPc

/-- The address of the oldest instruction that has not left EX. -/
def oldestPc : BitVec 32 := if s.ex.valid then s.ex.pc else s.frontPc

/-- The instruction in IF/ID or about to be fetched follows the one in EX. -/
def ExFollowed : Prop := s.ex.valid = true → s.frontPc = s.exPcSequential

end Core

namespace Run

variable {p : Params} (r : Run p)

/-- The instructions that enter EX before cycle `n`. -/
def issued : ℕ → List Fetched :=
  emitted fun n =>
    if (r.state n).idToExFire (r.inputs n) then
      some ((r.state n).issuedEx (r.inputs n)).fetched
    else none

/-- The instructions that leave EX before cycle `n`, as they stand in WB. -/
def entered : ℕ → List WbRegs :=
  emitted fun n =>
    if (r.state n).exToWbFire (r.inputs n) then
      some (r.state (n + 1)).wb
    else none

/-- The data bus accepts a request that is kept up and answers a wait that
goes on. -/
structure DataBusAnswers : Prop where
  accepts : ∀ n, (∀ m, n ≤ m → (r.state m).dReqValid = true) →
    ∃ m, n ≤ m ∧ (r.inputs m).dReqReady = true
  answers : ∀ n, (∀ m, n ≤ m → (r.state m).dRspReady = true) →
    ∃ m, n ≤ m ∧ (r.inputs m).dRspValid = true

/-- Nothing is lost, duplicated or reordered between EX and WB. -/
structure KeepsOrder : Prop where
  chain : ∀ n, Linked WbRegs.pc WbRegs.pcNext p.resetVector (r.entered n)
  once : ∀ n,
    r.issued n = (r.entered n).map WbRegs.fetched ++ (r.state n).resident
  arrives : r.DataBusAnswers → ∀ n,
    (r.state n).idToExFire (r.inputs n) = true → ∃ x, r.LeavesAt (n + 1) x

/-- No read phase of an AMO ends with a bus error. -/
def NoAmoReadError : Prop :=
  ∀ n, (r.state n).exDropsAmo (r.inputs n) = false

end Run

/-! ## The chain -/

namespace Core

section Chain

variable {p : Params} {s : Core p} {i : CoreIn}

theorem exPcNext_of_no_redirect
    (leaves : s.exToWbFire i = true) (goes : s.wbSingleStepStop = false)
    (straight : s.exRedirect i = false) :
    s.exPcNext i = s.exPcSequential := by
  simp only [exRedirect, leaves, goes, Bool.not_false, Bool.true_and,
    Bool.or_eq_false_iff] at straight
  obtain ⟨⟨⟨⟨⟨⟨⟨quiet, noJal⟩, noJalr⟩, noBranch⟩, noEcall⟩, noEbreak⟩,
    noMret⟩, noIrq⟩ := straight
  simp [exPcNext, quiet, noJal, noJalr, noBranch, noEcall, noEbreak, noMret,
    noIrq]

/-- The address at the front of the pipeline changes by an issue or by a
flush only. -/
theorem frontPc_step (sound : s.FeSound) (kept : s.flush i = false) :
    (s.step i).frontPc =
      if s.idToExFire i then s.fe.ifId.nextPc else s.frontPc := by
  unfold frontPc
  by_cases produces : s.ifProduces i = true
  · have valid : (s.step i).fe.ifId.valid = true := by
      simp [fe_ifId_valid, kept, produces]
    rw [if_pos valid, step_fe, fe_ifId s i kept valid, if_pos produces,
      delivered_pc sound produces]
    rcases free_of_produces sound produces with empty | issue
    · have noIssue : s.idToExFire i = false := by simp [idToExFire, empty]
      simp [empty, noIssue]
    · have taken : s.fe.ifId.valid = true := ifIdValid_of_issue issue
      simp [issue, sound.nextPc taken]
  · have sameFetch : (s.step i).fe.fetchPc = s.fe.fetchPc := by
      rw [step_fe, fe_fetchPc]
      simp [kept, produces]
    by_cases issue : s.idToExFire i = true
    · have empty : (s.step i).fe.ifId.valid = false := by
        simp [fe_ifId_valid, produces, issue]
      have taken : s.fe.ifId.valid = true := ifIdValid_of_issue issue
      simp only [empty, issue, sameFetch, sound.nextPc taken]
      simp
    · have sameValid : (s.step i).fe.ifId.valid = s.fe.ifId.valid := by
        simp [fe_ifId_valid, kept, produces, issue]
      by_cases valid : s.fe.ifId.valid = true
      · have sameIfId : (s.step i).fe.ifId = s.fe.ifId := by
          rw [step_fe, fe_ifId s i kept (by
            rw [← step_fe, sameValid, valid]), if_neg produces]
        simp only [sameIfId, valid, issue]
        simp
      · simp only [sameValid, valid, issue, sameFetch]
        simp

theorem frontPc_of_flush (flushed : s.flush i = true) :
    (s.step i).frontPc = s.flushTarget i := by
  simp [frontPc, fe_ifId_valid, flushed, fe_fetchPc]

theorem exFollowed_reset (p : Params) (power : PowerOn) :
    (Core.reset p power).ExFollowed := by
  simp [ExFollowed, Core.reset, ExRegs.reset]

theorem exFollowed_step
    (sound : s.FeSound) (followed : s.ExFollowed) :
    (s.step i).ExFollowed := by
  intro valid
  cases s.exCycle i with
  | issued issue next =>
      rw [frontPc_step sound (not_flush_of_issue issue), if_pos issue]
      simp [exPcSequential, next, issuedEx, IfId.nextPc]
  | emptied quiet empty =>
      rw [step_ex, empty] at valid
      exact absurd valid (by decide)
  | accesses quiet kept before =>
      rw [frontPc_step sound kept, quiet]
      exact (followed before).trans
        (exNext_sameInstr s i quiet).exPcSequential.symm
  | waits quiet kept before =>
      rw [frontPc_step sound kept, quiet]
      exact (followed before).trans
        (exNext_sameInstr s i quiet).exPcSequential.symm

theorem issue_and_stay_empty
    (issue : s.idToExFire i = true) (stays : s.exToWbFire i = false) :
    s.ex.valid = false := by
  by_contra valid
  rw [leaves_of_issue issue (by simpa using valid)] at stays
  exact Bool.false_ne_true stays.symm

section Step

variable (goes : s.wbSingleStepStop = false)
  (sound : s.ExSound) (noDrop : s.exDropsAmo i = false)
include goes sound noDrop

theorem leaves_of_emptied
    (valid : s.ex.valid = true)
    (cause : s.ex.valid = true → s.ex.state ≠ .exWb →
      s.exToWbFire i = true ∨ s.exDropsAmo i = true ∨
        s.wbSingleStepStop = true) :
    s.exToWbFire i = true := by
  rcases cause valid sound.notWb with leaves | drops | stop
  · exact leaves
  · rw [noDrop] at drops
    exact absurd drops (by decide)
  · rw [goes] at stop
    exact absurd stop (by decide)

/-- The oldest instruction changes by leaving EX only, and then to the next
PC. -/
theorem oldestPc_step (feSound : s.FeSound) (followed : s.ExFollowed) :
    (s.step i).oldestPc =
      if s.exToWbFire i then s.exPcNext i else s.oldestPc := by
  cases s.exCycle i with
  | issued issue next =>
      have front : (s.step i).oldestPc = s.frontPc := by
        simp [oldestPc, next, issuedEx, frontPc, ifIdValid_of_issue issue]
      rw [front]
      have straight : s.exRedirect i = false := by
        have kept := not_flush_of_issue issue
        simp only [flush, Bool.or_eq_false_iff] at kept
        exact kept.1
      by_cases leaves : s.exToWbFire i = true
      · rw [if_pos leaves, exPcNext_of_no_redirect leaves goes straight]
        exact followed (valid_of_leave leaves)
      · have empty := issue_and_stay_empty issue (by simpa using leaves)
        simp [leaves, oldestPc, empty]
  | emptied quiet empty cause =>
      have front : (s.step i).oldestPc = (s.step i).frontPc := by
        simp only [oldestPc, step_ex, empty, Bool.false_eq_true, if_false]
      rw [front]
      by_cases flushed : s.flush i = true
      · have redirect : s.exRedirect i = true := by
          simpa [flush, goes] using flushed
        -- a flush restarts the front end at the next PC of the leaver
        rw [frontPc_of_flush flushed, if_pos (toWb_of_redirect redirect)]
        simp [flushTarget, goes]
      · have kept : s.flush i = false := by simpa using flushed
        have straight : s.exRedirect i = false := by
          simp only [flush, Bool.or_eq_false_iff] at kept
          exact kept.1
        rw [frontPc_step feSound kept, quiet]
        -- otherwise the next instruction waits behind EX already
        by_cases valid : s.ex.valid = true
        · have leaves := leaves_of_emptied goes sound noDrop valid cause
          rw [if_pos leaves, exPcNext_of_no_redirect leaves goes straight]
          exact followed valid
        · have stays : s.exToWbFire i = false := by
            by_contra leaves
            exact valid (valid_of_leave (by simpa using leaves))
          simp [stays, oldestPc, valid]
  | accesses quiet kept valid first access next =>
      rw [not_leave_of_access first access]
      simp [oldestPc, next, valid]
  | waits quiet kept valid later busy state rdata err next =>
      rw [busy]
      simp [oldestPc, next, valid]

/-- What is in EX and what is issued is what leaves and what stays. -/
theorem resident_step :
    s.resident ++
        (if s.idToExFire i then [(s.issuedEx i).fetched] else []) =
      (if s.exToWbFire i then [s.ex.fetched] else []) ++
        (s.step i).resident := by
  cases s.exCycle i with
  | issued issue next =>
      have after : (s.step i).resident = [(s.issuedEx i).fetched] := by
        simp only [resident, step_ex, next]
        rfl
      rw [if_pos issue, after]
      by_cases leaves : s.exToWbFire i = true
      · simp [leaves, resident, valid_of_leave leaves]
      · have empty := issue_and_stay_empty issue (by simpa using leaves)
        simp [leaves, resident, empty]
  | emptied quiet empty cause =>
      have after : (s.step i).resident = [] := by
        simp only [resident, step_ex, empty, Bool.false_eq_true, if_false]
      rw [after]
      by_cases valid : s.ex.valid = true
      · have leaves := leaves_of_emptied goes sound noDrop valid cause
        simp [quiet, leaves, resident, valid]
      · have stays : s.exToWbFire i = false := by
          by_contra leaves
          exact valid (valid_of_leave (by simpa using leaves))
        simp [quiet, stays, resident, valid]
  | accesses quiet kept valid first access next =>
      have after : (s.step i).resident = s.resident := by
        simp [resident, next, valid, ExRegs.fetched]
      simp [after, quiet, not_leave_of_access first access]
  | waits quiet kept valid later busy state rdata err next =>
      have after : (s.step i).resident = s.resident := by
        simp [resident, next, valid, ExRegs.fetched]
      simp [after, quiet, busy]

/-- An instruction that does not leave EX stays, in a state its access moves
to. -/
theorem stays_of_busy
    (valid : s.ex.valid = true) (busy : s.exToWbFire i = false) :
    s.idToExFire i = false ∧ (s.step i).ex.valid = true ∧
      (s.ex.state = .exExec →
        (s.step i).ex.state = .exMemReq ∨
          (s.step i).ex.state = .exMemWait) ∧
      (s.ex.state ≠ .exExec → s.ExMove i (s.step i).ex.state) := by
  cases s.exCycle i with
  | issued issue next =>
      rw [leaves_of_issue issue valid] at busy
      exact absurd busy (by decide)
  | emptied quiet empty cause =>
      rw [leaves_of_emptied goes sound noDrop valid cause] at busy
      exact absurd busy (by decide)
  | accesses quiet kept before first access next =>
      refine ⟨quiet, by simp [next, valid], fun _ => ?_,
        fun later => absurd first later⟩
      by_cases fire : s.dataReqFire i = true <;> simp [next, fire]
  | waits quiet kept before later _ state rdata err next clean move =>
      refine ⟨quiet, by simp [next, valid], fun first => absurd first later,
        fun _ => ?_⟩
      rw [step_ex, next]
      exact move

end Step

theorem facts_of_drop (drops : s.exDropsAmo i = true) :
    s.ex.valid = true ∧ s.exToWbFire i = false ∧
      s.idToExFire i = false ∧ (s.exNext i).valid = false := by
  simp only [exDropsAmo, Bool.and_eq_true, beq_iff_eq] at drops
  obtain ⟨⟨⟨⟨valid, waiting⟩, fire⟩, amo⟩, err⟩ := drops
  have stays : s.exToWbFire i = false := by
    simp [leave_of_memWait waiting, amo]
  have quiet := quiet_of_busy valid stays
  refine ⟨valid, stays, quiet, ?_⟩
  rw [exNext_of_quiet s i quiet]
  unfold flushEx
  split_ifs
  · rfl
  · simp [exStateStep, valid, waiting, exMemWaitStep, fire, err]

end Chain

end Core

/-! ## Order along a run -/

namespace Run

variable {p : Params} (r : Run p)

theorem exFollowed (n : ℕ) : (r.state n).ExFollowed := by
  induction n with
  | zero => exact Core.exFollowed_reset p r.power
  | succ n inductionHypothesis =>
      exact Core.exFollowed_step (r.feSound n) inductionHypothesis

section Keeps

variable {r} (single : r.NoSingleStep) (noDrop : r.NoAmoReadError)
include single noDrop

/-- The WB entries are linked and end at the oldest instruction. -/
theorem linked_entered (n : ℕ) :
    Linked WbRegs.pc WbRegs.pcNext p.resetVector (r.entered n) ∧
      endPlace WbRegs.pcNext p.resetVector (r.entered n) =
        (r.state n).oldestPc := by
  induction n with
  | zero =>
      exact ⟨trivial, rfl⟩
  | succ n inductionHypothesis =>
      obtain ⟨linked, ends⟩ := inductionHypothesis
      have goes := r.not_stop_of_noSingleStep single n
      have oldest := Core.oldestPc_step goes (r.exSound n) (noDrop n)
        (r.feSound n) (r.exFollowed n)
      rw [r.state_succ, oldest]
      by_cases leaves : (r.state n).exToWbFire (r.inputs n) = true
      · have grows : r.entered (n + 1) =
            r.entered n ++ [(r.state n).completedWb (r.inputs n)] := by
          apply emitted_succ_of_some
          rw [if_pos leaves, wb_of_leave leaves goes]
        rw [grows, linked_concat_iff, endPlace_concat, if_pos leaves]
        refine ⟨⟨linked, ?_⟩, rfl⟩
        rw [ends, Core.oldestPc, if_pos (Core.valid_of_leave leaves)]
        rfl
      · have still : r.entered (n + 1) = r.entered n :=
          emitted_succ_of_none (by rw [if_neg leaves])
        rw [still, if_neg leaves]
        exact ⟨linked, ends⟩

/-- What was issued has entered WB or is in EX. -/
theorem issued_eq (n : ℕ) :
    r.issued n =
      (r.entered n).map WbRegs.fetched ++ (r.state n).resident := by
  induction n with
  | zero =>
      rfl
  | succ n inductionHypothesis =>
      have goes := r.not_stop_of_noSingleStep single n
      have flow := Core.resident_step goes (r.exSound n) (noDrop n)
      have issuedStep : r.issued (n + 1) = r.issued n ++
          (if (r.state n).idToExFire (r.inputs n) then
            [((r.state n).issuedEx (r.inputs n)).fetched] else []) := by
        simp only [issued, emitted]
        split_ifs <;> rfl
      have enteredStep :
          (r.entered (n + 1)).map WbRegs.fetched =
            (r.entered n).map WbRegs.fetched ++
              (if (r.state n).exToWbFire (r.inputs n) then
                [(r.state n).ex.fetched] else []) := by
        simp only [entered, emitted, List.map_append]
        split_ifs with leaves
        · rw [wb_of_leave leaves goes]
          rfl
        · rfl
      rw [issuedStep, inductionHypothesis, enteredStep, List.append_assoc,
        flow, ← List.append_assoc, r.state_succ]

end Keeps

/-! ### Arrival -/

section Arrival

variable {r} {b : ℕ}
  (goes : ∀ m, b ≤ m → (r.state m).wbSingleStepStop = false)
  (noDrop : ∀ m, b ≤ m → (r.state m).exDropsAmo (r.inputs m) = false)
include goes noDrop

theorem stays
    {n : ℕ} (late : b ≤ n) (valid : (r.state n).ex.valid = true)
    (busy : (r.state n).exToWbFire (r.inputs n) = false) :
    (r.state n).idToExFire (r.inputs n) = false ∧
      (r.state (n + 1)).ex.valid = true ∧
      ((r.state n).ex.state = .exExec →
        (r.state (n + 1)).ex.state = .exMemReq ∨
          (r.state (n + 1)).ex.state = .exMemWait) ∧
      ((r.state n).ex.state ≠ .exExec →
        (r.state n).ExMove (r.inputs n) (r.state (n + 1)).ex.state) :=
  Core.stays_of_busy (goes n late) (r.exSound n)
    (noDrop n late) valid busy

theorem leavesAt_of_leaves
    {n x : ℕ} (late : b ≤ n) (valid : (r.state n).ex.valid = true)
    (le : n ≤ x)
    (leaves : (r.state x).exToWbFire (r.inputs x) = true) :
    ∃ y, r.LeavesAt n y := by
  obtain ⟨y, above, ⟨-, same⟩, left, before⟩ := exists_first_event
    (P := fun m => (r.state m).ex.valid = true ∧
      SameInstr (r.state m).ex (r.state n).ex)
    (Q := fun m => (r.state m).exToWbFire (r.inputs m) = true)
    ⟨valid, .refl _⟩
    (fun m above ⟨here, same⟩ busy => by
      obtain ⟨quiet, still, -⟩ :=
        stays goes noDrop (late.trans above) here (by simpa using busy)
      exact ⟨still, (Core.exNext_sameInstr _ _ quiet).trans same⟩)
    (fun _ => ⟨x, le, leaves⟩)
  refine ⟨y, above, left, fun m within below => ?_, same⟩
  obtain ⟨⟨here, -⟩, busy⟩ := before m within below
  have busy : (r.state m).exToWbFire (r.inputs m) = false := by
    simpa using busy
  exact ⟨busy, (stays goes noDrop (late.trans within) here busy).1⟩

/-- An access keeps its state in a cycle without a handshake. -/
theorem state_of_no_handshake
    {n : ℕ} (late : b ≤ n) (valid : (r.state n).ex.valid = true)
    (later : (r.state n).ex.state ≠ .exExec)
    (noReq : (r.state n).dataReqFire (r.inputs n) = false)
    (noRsp : (r.state n).dataRspFire (r.inputs n) = false) :
    (r.state (n + 1)).ex.valid = true ∧
      (r.state (n + 1)).ex.state = (r.state n).ex.state := by
  have busy := Core.not_leave_of_silence later noRsp
  obtain ⟨-, still, -, move⟩ := stays goes noDrop late valid busy
  refine ⟨still, ?_⟩
  generalize (r.state (n + 1)).ex.state = next at move
  cases move later with
  | stays => rfl
  | accepted requesting fire => simp [noReq] at fire
  | amoRead waiting amo fire => simp [noRsp] at fire
  | amoAccepted requesting fire => simp [noReq] at fire

theorem answered_of_waiting
    (bus : r.DataBusAnswers) {state : ExState} {n : ℕ} (late : b ≤ n)
    (waiting : state = .exMemWait ∨ state = .exAmoStoreWait)
    (valid : (r.state n).ex.valid = true)
    (at_ : (r.state n).ex.state = state) :
    ∃ m, n ≤ m ∧ (r.state m).ex.valid = true ∧
      (r.state m).ex.state = state ∧
      (r.state m).dataRspFire (r.inputs m) = true := by
  have ready : ∀ m, (r.state m).ex.valid = true ∧
      (r.state m).ex.state = state → (r.state m).dRspReady = true := by
    rintro m ⟨here, same⟩
    rcases waiting with wait | wait <;>
      simp [Core.dRspReady, here, same, wait]
  have persists : ∀ m, n ≤ m →
      ((r.state m).ex.valid = true ∧ (r.state m).ex.state = state) →
      ¬ (r.inputs m).dRspValid = true →
      (r.state (m + 1)).ex.valid = true ∧
        (r.state (m + 1)).ex.state = state := by
    rintro m above ⟨here, same⟩ silent
    have later : (r.state m).ex.state ≠ .exExec := by
      rcases waiting with wait | wait <;> simp [same, wait]
    have noReq : (r.state m).dataReqFire (r.inputs m) = false := by
      rcases waiting with wait | wait <;>
        simp [Core.dataReqFire, Core.exMemRequesting, same, wait]
    have noRsp : (r.state m).dataRspFire (r.inputs m) = false := by
      simp [Core.dataRspFire, silent]
    rw [← same]
    exact state_of_no_handshake goes noDrop (late.trans above) here later
      noReq noRsp
  obtain ⟨m, above, ⟨here, same⟩, answer, -⟩ :=
    exists_first_event ⟨valid, at_⟩ persists fun always =>
      bus.answers n fun m above => ready m (always m above)
  refine ⟨m, above, here, same, ?_⟩
  simp [Core.dataRspFire, answer, ready m ⟨here, same⟩]

/-- A request is kept up until the bus accepts it. -/
theorem accepted_of_requesting
    (bus : r.DataBusAnswers) {state : ExState} {n : ℕ} (late : b ≤ n)
    (requesting : state = .exMemReq ∨ state = .exAmoStoreReq)
    (valid : (r.state n).ex.valid = true)
    (at_ : (r.state n).ex.state = state) :
    ∃ m, n ≤ m ∧ (r.state m).ex.valid = true ∧
      (r.state m).ex.state = state ∧
      (r.state m).dataReqFire (r.inputs m) = true := by
  have requests : ∀ m, (r.state m).ex.valid = true ∧
      (r.state m).ex.state = state →
        (r.state m).exMemRequesting = true := by
    rintro m ⟨here, same⟩
    rcases requesting with request | request <;>
      simp [Core.exMemRequesting, here, same, request]
  have persists : ∀ m, n ≤ m →
      ((r.state m).ex.valid = true ∧ (r.state m).ex.state = state) →
      ¬ (r.inputs m).dReqReady = true →
      (r.state (m + 1)).ex.valid = true ∧
        (r.state (m + 1)).ex.state = state := by
    rintro m above ⟨here, same⟩ silent
    have later : (r.state m).ex.state ≠ .exExec := by
      rcases requesting with request | request <;> simp [same, request]
    have noReq : (r.state m).dataReqFire (r.inputs m) = false := by
      simp [Core.dataReqFire, silent]
    have noRsp : (r.state m).dataRspFire (r.inputs m) = false := by
      rcases requesting with request | request <;>
        simp [Core.dataRspFire, Core.dRspReady, same, request]
    rw [← same]
    exact state_of_no_handshake goes noDrop (late.trans above) here later
      noReq noRsp
  obtain ⟨m, above, ⟨here, same⟩, accept, -⟩ :=
    exists_first_event ⟨valid, at_⟩ persists fun always =>
      bus.accepts n fun m above => requests m (always m above)
  refine ⟨m, above, here, same, ?_⟩
  simp [Core.dataReqFire, accept, requests m ⟨here, same⟩]

theorem leaves_of_exAmoStoreWait
    (bus : r.DataBusAnswers) {n : ℕ} (late : b ≤ n)
    (valid : (r.state n).ex.valid = true)
    (at_ : (r.state n).ex.state = .exAmoStoreWait) :
    ∃ x, n ≤ x ∧ (r.state x).exToWbFire (r.inputs x) = true := by
  obtain ⟨m, above, here, same, fire⟩ :=
    answered_of_waiting goes noDrop bus late (Or.inr rfl) valid at_
  exact ⟨m, above, by
    simp [Core.leave_of_amoStoreWait same, here, fire]⟩

theorem leaves_of_exAmoStoreReq
    (bus : r.DataBusAnswers) {n : ℕ} (late : b ≤ n)
    (valid : (r.state n).ex.valid = true)
    (at_ : (r.state n).ex.state = .exAmoStoreReq) :
    ∃ x, n ≤ x ∧ (r.state x).exToWbFire (r.inputs x) = true := by
  obtain ⟨m, above, here, same, fire⟩ :=
    accepted_of_requesting goes noDrop bus late (Or.inr rfl) valid at_
  have busy : (r.state m).exToWbFire (r.inputs m) = false :=
    Core.not_leave_of_request (Or.inr same)
  obtain ⟨-, still, -, move⟩ := stays goes noDrop (late.trans above) here busy
  have next : (r.state (m + 1)).ex.state = .exAmoStoreWait := by
    generalize (r.state (m + 1)).ex.state = next at move
    cases move (by simp [same]) with
    | stays noReq => simp [fire] at noReq
    | accepted requesting => simp [same] at requesting
    | amoRead reading => simp [same] at reading
    | amoAccepted => rfl
  obtain ⟨x, later, leaves⟩ :=
    leaves_of_exAmoStoreWait goes noDrop bus (by omega) still next
  exact ⟨x, by omega, leaves⟩

theorem leaves_of_exMemWait
    (bus : r.DataBusAnswers) {n : ℕ} (late : b ≤ n)
    (valid : (r.state n).ex.valid = true)
    (at_ : (r.state n).ex.state = .exMemWait) :
    ∃ x, n ≤ x ∧ (r.state x).exToWbFire (r.inputs x) = true := by
  obtain ⟨m, above, here, same, fire⟩ :=
    answered_of_waiting goes noDrop bus late (Or.inl rfl) valid at_
  by_cases busy : (r.state m).exToWbFire (r.inputs m) = true
  · exact ⟨m, above, busy⟩
  obtain ⟨-, still, -, move⟩ :=
    stays goes noDrop (late.trans above) here (by simpa using busy)
  have next : (r.state (m + 1)).ex.state = .exAmoStoreReq := by
    generalize (r.state (m + 1)).ex.state = next at move
    cases move (by simp [same]) with
    | stays _ noRsp => simp [fire] at noRsp
    | accepted requesting => simp [same] at requesting
    | amoRead => rfl
    | amoAccepted requesting => simp [same] at requesting
  obtain ⟨x, later, leaves⟩ :=
    leaves_of_exAmoStoreReq goes noDrop bus (by omega) still next
  exact ⟨x, by omega, leaves⟩

theorem leaves_of_exMemReq
    (bus : r.DataBusAnswers) {n : ℕ} (late : b ≤ n)
    (valid : (r.state n).ex.valid = true)
    (at_ : (r.state n).ex.state = .exMemReq) :
    ∃ x, n ≤ x ∧ (r.state x).exToWbFire (r.inputs x) = true := by
  obtain ⟨m, above, here, same, fire⟩ :=
    accepted_of_requesting goes noDrop bus late (Or.inl rfl) valid at_
  have busy : (r.state m).exToWbFire (r.inputs m) = false :=
    Core.not_leave_of_request (Or.inl same)
  obtain ⟨-, still, -, move⟩ := stays goes noDrop (late.trans above) here busy
  have next : (r.state (m + 1)).ex.state = .exMemWait := by
    generalize (r.state (m + 1)).ex.state = next at move
    cases move (by simp [same]) with
    | stays noReq => simp [fire] at noReq
    | accepted => rfl
    | amoRead reading => simp [same] at reading
    | amoAccepted requesting => simp [same] at requesting
  obtain ⟨x, later, leaves⟩ :=
    leaves_of_exMemWait goes noDrop bus (by omega) still next
  exact ⟨x, by omega, leaves⟩

/-- On a bus that answers, an issued instruction leaves EX. -/
theorem leavesAt_of_issue
    (bus : r.DataBusAnswers) {n : ℕ} (late : b ≤ n + 1)
    (issue : (r.state n).idToExFire (r.inputs n) = true) :
    ∃ x, r.LeavesAt (n + 1) x := by
  have latched :
      (r.state (n + 1)).ex = (r.state n).issuedEx (r.inputs n) :=
    Core.exNext_of_issue _ _ issue
  have valid : (r.state (n + 1)).ex.valid = true := by rw [latched]; rfl
  have first : (r.state (n + 1)).ex.state = .exExec := by rw [latched]; rfl
  by_cases leaves :
      (r.state (n + 1)).exToWbFire (r.inputs (n + 1)) = true
  · exact leavesAt_of_leaves goes noDrop late valid le_rfl leaves
  · obtain ⟨-, still, next, -⟩ :=
      stays goes noDrop late valid (by simpa using leaves)
    obtain ⟨x, above, left⟩ : ∃ x, n + 1 + 1 ≤ x ∧
        (r.state x).exToWbFire (r.inputs x) = true := by
      rcases next first with request | wait
      · exact leaves_of_exMemReq goes noDrop bus (by omega) still request
      · exact leaves_of_exMemWait goes noDrop bus (by omega) still wait
    exact leavesAt_of_leaves goes noDrop late valid (by omega) left

end Arrival

theorem not_once_of_drop
    {n : ℕ} (drops : (r.state n).exDropsAmo (r.inputs n) = true)
    (before : r.issued n =
      (r.entered n).map WbRegs.fetched ++ (r.state n).resident) :
    r.issued (n + 1) ≠
      (r.entered (n + 1)).map WbRegs.fetched ++
        (r.state (n + 1)).resident := by
  obtain ⟨valid, stays, quiet, empty⟩ := Core.facts_of_drop drops
  have issuedStep : r.issued (n + 1) = r.issued n :=
    emitted_succ_of_none (by simp [quiet])
  have enteredStep : r.entered (n + 1) = r.entered n :=
    emitted_succ_of_none (by simp [stays])
  rw [issuedStep, enteredStep, before, r.state_succ]
  simp [Core.resident, valid, empty]

end Run

/-- In a run without single-stepping, instructions reach WB in order and each
exactly once if and only if no read phase of an AMO ends with a bus error. -/
theorem keepsOrder_iff
    {p : Params} (r : Run p) (single : r.NoSingleStep) :
    r.KeepsOrder ↔ r.NoAmoReadError := by
  constructor
  · intro keeps n
    by_contra drops
    exact r.not_once_of_drop (by simpa using drops) (keeps.once n)
      (keeps.once (n + 1))
  · intro noDrop
    exact {
      chain := fun n => (Run.linked_entered single noDrop n).1
      once := Run.issued_eq single noDrop
      arrives := fun bus n issue => Run.leavesAt_of_issue
        (fun m (_ : 0 ≤ m) => r.not_stop_of_noSingleStep single m)
        (fun m _ => noDrop m) bus (Nat.zero_le _) issue }

/-- `amoadd.w x1, x0, (x2)`, whose read and write are answered. -/
def amoAnswered : Run {} :=
  Run.script {}
    (CoreIn.fetch [0x000120AF] ++
      [.idle, { dReqReady := true }, { dRspValid := true },
        { dReqReady := true }, { dRspValid := true }])

theorem keepsOrder_iff_amoAnswered : amoAnswered.KeepsOrder :=
  (keepsOrder_iff amoAnswered (Run.noSingleStep_script (by decide))).mpr
    fun n => by
      have clean : (amoAnswered.inputs n).dRspErr = false :=
        Run.script_inputs_of_forall (P := fun i => i.dRspErr = false) rfl
          (by decide) n
      rw [Core.exDropsAmo, clean, Bool.and_false]

/-- `amoadd.w x1, x0, (x2)`, whose read is answered with a bus error. -/
def amoReadError : Run {} :=
  Run.script {}
    (CoreIn.fetch [0x000120AF] ++
      [.idle, { dReqReady := true }, { dRspValid := true, dRspErr := true }])

theorem amoReadError_noSingleStep : amoReadError.NoSingleStep :=
  Run.noSingleStep_script (by decide)

/-- That AMO was issued, is not in EX and never entered WB. -/
theorem not_keepsOrder :
    ¬ ∀ (p : Params) (r : Run p), r.NoSingleStep → r.KeepsOrder := by
  intro keeps
  have once := (keeps {} amoReadError amoReadError_noSingleStep).once 5
  exact absurd once (by decide)

end SisRv
