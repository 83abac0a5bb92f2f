import SisRv.Core.Refinement
import SisRv.Core.Requests

/-!
# The data access of one instruction

From its first cycle in EX to the one in which it leaves, an instruction makes
no access, a single one, or the read and the write of an AMO.
-/

namespace SisRv

open Sync

/-- The write of the AMO in EX once it has read `old`. -/
def Core.amoWrite {p : Params} (s : Core p) (old : BitVec 32) : BusReq :=
  (s.launched.amoRead old).dReq

namespace Core

variable {p : Params} {s t : Core p} {old : BitVec 32}

/-- A write that waits is the one of its first cycle. -/
theorem dReq_of_amoRead
    (ex : s.ex = (t.launched.amoRead old).ex) (latched : s.amoOldVal = old) :
    s.dReq = t.amoWrite old := by
  apply dReq_congr
  · rw [ex]
    exact SameInstr.refl _
  · simp [exMemReqAddr, ex, amoRead]
  · simp [amoStorePhase, ex]
  · exact latched

end Core

namespace Run

variable {p : Params} (r : Run p)

/-- The answers of the data bus taken before cycle `n`. -/
def heard : ℕ → List (BitVec 32 × Bool) :=
  emitted fun n =>
    if (r.state n).dataRspFire (r.inputs n) then
      some ((r.inputs n).dRspRdata, (r.inputs n).dRspErr)
    else none

/-- How far the access of the instruction that is in EX from cycle `n` on is
in cycle `m`. -/
inductive Stage (n m : ℕ) : Prop
  | first (here : m = n)
  | request
      (access : (r.state n).exMemAccess = true)
      (ex : (r.state m).ex =
        { (r.state n).launched.ex with state := .exMemReq })
      (asks : r.asked m = r.asked n) (hears : r.heard m = r.heard n)
  | wait
      (access : (r.state n).exMemAccess = true)
      (ex : (r.state m).ex = (r.state n).launched.ex)
      (asks : r.asked m = r.asked n ++ [(r.state n).dReq])
      (hears : r.heard m = r.heard n)
  | amoRequest
      (old : BitVec 32) (access : (r.state n).exMemAccess = true)
      (amo : (r.state n).exIsAmoOp = true)
      (ex : (r.state m).ex = ((r.state n).launched.amoRead old).ex)
      (latched : (r.state m).amoOldVal = old)
      (asks : r.asked m = r.asked n ++ [(r.state n).dReq])
      (hears : r.heard m = r.heard n ++ [(old, false)])
  | amoWait
      (old : BitVec 32) (access : (r.state n).exMemAccess = true)
      (amo : (r.state n).exIsAmoOp = true)
      (ex : (r.state m).ex =
        ((r.state n).launched.amoRead old).amoLaunched.ex)
      (latched : (r.state m).amoOldVal = old)
      (asks : r.asked m =
        r.asked n ++ [(r.state n).dReq, (r.state n).amoWrite old])
      (hears : r.heard m = r.heard n ++ [(old, false)])

variable {r} {n m : ℕ}

theorem heard_of_fire
    (fire : (r.state n).dataRspFire (r.inputs n) = true) :
    r.heard (n + 1) = r.heard n ++
      [((r.inputs n).dRspRdata, (r.inputs n).dRspErr)] :=
  emitted_succ_of_some (if_pos fire)

theorem heard_of_silence
    (silent : (r.state n).dataRspFire (r.inputs n) = false) :
    r.heard (n + 1) = r.heard n :=
  emitted_succ_of_none (if_neg (by simp [silent]))

/-- An instruction that stays is not flushed. -/
theorem kept_of_still
    (still : (r.state (n + 1)).ex.valid = true) :
    (r.state n).flush (r.inputs n) = false := by
  by_contra flushed
  have emptied : (r.state (n + 1)).ex.valid = false :=
    (Core.drained_of_flush (s := r.state n) (by simpa using flushed)).ex
  rw [emptied] at still
  exact Bool.false_ne_true still

section Step

variable (quiet : (r.state m).idToExFire (r.inputs m) = false)
  (busy : (r.state m).exToWbFire (r.inputs m) = false)
  (still : (r.state (m + 1)).ex.valid = true)
include quiet busy still

theorem stage_first (first : (r.state m).ex.state = .exExec) :
    r.Stage m (m + 1) := by
  have valid := Core.valid_of_exNext quiet still
  have access : (r.state m).exMemAccess = true := by
    simpa [Core.leave_of_exec first, valid] using busy
  have next := Core.exNext_of_access quiet (kept_of_still still) valid
    first access
  have hears : r.heard (m + 1) = r.heard m := heard_of_silence (by
    simp [Core.dataRspFire, Core.dRspReady, first])
  by_cases fire : (r.state m).dataReqFire (r.inputs m) = true
  · rw [if_pos fire] at next
    exact .wait access next (asked_of_fire fire) hears
  · rw [if_neg fire] at next
    exact .request access next (asked_of_silence (by simpa using fire)) hears

/-- A response that does not end the stay is the word read by an AMO. -/
theorem amo_of_answer
    (waits : (r.state m).ex.state = .exMemWait)
    (fire : (r.state m).dataRspFire (r.inputs m) = true) :
    (r.state m).exIsAmoOp = true ∧ (r.inputs m).dRspErr = false := by
  have valid := Core.valid_of_exNext quiet still
  have amo : (r.state m).exIsAmoOp = true := by
    simpa [Core.leave_of_memWait waits, valid, fire] using busy
  refine ⟨amo, ?_⟩
  by_contra err
  rw [r.state_succ, Core.step_ex,
    Core.exNext_of_kept quiet (kept_of_still still)] at still
  simp [Core.exStateStep, valid, waits, Core.exMemWaitStep, fire, err]
    at still

/-- One cycle of the stay. -/
theorem Stage.step
    (coherent : (r.state n).ex.toDecoded.Coherent)
    (first : (r.state n).ex.state = .exExec) (stage : r.Stage n m) :
    r.Stage n (m + 1) := by
  have valid := Core.valid_of_exNext quiet still
  have next := Core.exNext_of_kept quiet (kept_of_still still)
  have same (other : (r.state m).ex.state ≠ .exMemWait) :
      (r.state (m + 1)).amoOldVal = (r.state m).amoOldVal :=
    oldVal_of_silent (Core.not_atomicRspOk_of_state other)
  cases stage with
  | first here =>
      subst here
      exact stage_first quiet busy still first
  | request access ex asks hears =>
      have state : (r.state m).ex.state = .exMemReq := by rw [ex]
      have hear : r.heard (m + 1) = r.heard n := by
        rw [heard_of_silence, hears]
        simp [Core.dataRspFire, Core.dRspReady, state]
      rw [Core.exStateStep, if_pos valid] at next
      simp only [state] at next
      by_cases fire : (r.state m).dataReqFire (r.inputs m) = true
      · rw [if_pos fire, ex] at next
        refine .wait access next ?_ hear
        rw [asked_of_fire fire, asks,
          Core.dReq_of_launched coherent first access ex]
      · rw [if_neg fire] at next
        refine .request access (next.trans ex) ?_ hear
        rw [asked_of_silence (by simpa using fire), asks]
  | wait access ex asks hears =>
      have state : (r.state m).ex.state = .exMemWait := by rw [ex]; rfl
      have ask : r.asked (m + 1) = r.asked n ++ [(r.state n).dReq] := by
        rw [asked_of_silence, asks]
        exact Core.not_reqFire_of_rspReady (by
          simp [Core.dRspReady, valid, state])
      rw [Core.exStateStep, if_pos valid] at next
      simp only [state] at next
      by_cases fire : (r.state m).dataRspFire (r.inputs m) = true
      · obtain ⟨amo, ok⟩ := amo_of_answer quiet busy still state fire
        obtain ⟨atomic, notLr, -⟩ := (r.state m).atomic_of_amo amo
        have amoFirst : (r.state n).exIsAmoOp = true := by
          rw [← amo]
          simp [Core.exIsAmoOp, Core.exIsLr, Core.exIsSc, ex, Core.launched]
        refine .amoRequest (r.inputs m).dRspRdata access amoFirst ?_ ?_ ask ?_
        · rw [r.state_succ, Core.step_ex, next]
          simp [Core.exMemWaitStep, fire, atomic, ok, notLr, amo,
            Core.amoRead, ← ex]
        · show (r.state m).amoOldValNext (r.inputs m) = _
          simp [Core.amoOldValNext, Core.atomicRspOk, valid, state, fire,
            atomic, ok, notLr, amo]
        · rw [heard_of_fire fire, hears, ok]
      · refine .wait access ?_ ask ?_
        · rw [r.state_succ, Core.step_ex, next, ← ex]
          simp [Core.exMemWaitStep, fire]
        · rw [heard_of_silence (by simpa using fire), hears]
  | amoRequest old access amo ex latched asks hears =>
      have state : (r.state m).ex.state = .exAmoStoreReq := by rw [ex]; rfl
      have hear : r.heard (m + 1) = r.heard n ++ [(old, false)] := by
        rw [heard_of_silence, hears]
        simp [Core.dataRspFire, Core.dRspReady, state]
      have latch := (same (by simp [state])).trans latched
      rw [Core.exStateStep, if_pos valid] at next
      simp only [state] at next
      by_cases fire : (r.state m).dataReqFire (r.inputs m) = true
      · rw [if_pos fire, ex] at next
        refine .amoWait old access amo next latch ?_ hear
        rw [asked_of_fire fire, asks, Core.dReq_of_amoRead ex latched]
        simp
      · rw [if_neg fire] at next
        refine .amoRequest old access amo (next.trans ex) latch ?_ hear
        rw [asked_of_silence (by simpa using fire), asks]
  | amoWait old access amo ex latched asks hears =>
      have state : (r.state m).ex.state = .exAmoStoreWait := by rw [ex]; rfl
      have noRsp : (r.state m).dataRspFire (r.inputs m) = false := by
        simpa [Core.leave_of_amoStoreWait state, valid] using busy
      refine .amoWait old access amo ?_
        ((same (by simp [state])).trans latched) ?_ ?_
      · rw [r.state_succ, Core.step_ex, next, ← ex]
        simp [Core.exStateStep, valid, state, noRsp]
      · rw [asked_of_silence, asks]
        exact Core.not_reqFire_of_rspReady (by
          simp [Core.dRspReady, valid, state])
      · rw [heard_of_silence noRsp, hears]

end Step

/-! ## The whole stay -/

section Stay

variable {x : ℕ} (stay : r.LeavesAt n x)
  (first : (r.state n).ex.state = .exExec)
include stay first

theorem LeavesAt.stage (above : n ≤ m) (within : m ≤ x) :
    r.Stage n m := by
  induction m, above using Nat.le_induction with
  | base => exact .first rfl
  | succ m above inductionHypothesis =>
      have before : m < x := by omega
      obtain ⟨busy, quiet⟩ := stay.quiet above before
      have still := stay.valid (m := m + 1) (by omega) within
      have coherent := (r.exSound n).coherent (stay.valid le_rfl stay.le)
      exact (inductionHypothesis (by omega)).step quiet busy still coherent
        first

/-- Without an access the first cycle is the last. -/
theorem LeavesAt.of_plain (plain : (r.state n).exMemAccess = false) :
    x = n ∧ r.asked (x + 1) = r.asked n ∧ r.dPresents n = none := by
  have silent : (r.state n).dReqValid = false := by
    simp [Core.dReqValid, Core.exMemRequesting, first, plain]
  have same : x = n := by
    by_contra differs
    have before : n < x := by
      have above := stay.le
      omega
    have busy := (stay.quiet le_rfl before).1
    rw [Core.leave_of_exec first, plain, stay.valid le_rfl stay.le] at busy
    exact absurd busy (by decide)
  subst same
  refine ⟨rfl, asked_of_silence ?_, ?_⟩
  · rw [Core.dataReqFire, ← Core.dReqValid, silent, Bool.false_and]
  · simp [dPresents, Core.dPort, silent]

theorem LeavesAt.lt_of_moved (moved : (r.state x).ex.state ≠ .exExec) :
    n < x := by
  have above := stay.le
  have differs : x ≠ n := by
    rintro rfl
    exact moved first
  omega

/-- An access leaves with its last answer: an AMO with the one to its write,
the others with the one to their request. -/
theorem LeavesAt.waits (access : (r.state n).exMemAccess = true) :
    ((r.state n).exIsAmoOp = false ∧
        (r.state x).ex = (r.state n).launched.ex ∧
        r.asked x = r.asked n ++ [(r.state n).dReq] ∧
        r.heard x = r.heard n) ∨
      (r.state n).exIsAmoOp = true ∧ ∃ old,
        (r.state x).ex = ((r.state n).launched.amoRead old).amoLaunched.ex ∧
        (r.state x).amoOldVal = old ∧
        r.asked x = r.asked n ++ [(r.state n).dReq, (r.state n).amoWrite old] ∧
        r.heard x = r.heard n ++ [(old, false)] := by
  have leaves := stay.leaves
  cases stay.stage first stay.le le_rfl with
  | first here =>
      rw [here, Core.not_leave_of_access first access] at leaves
      exact absurd leaves (by decide)
  | request _ ex =>
      rw [Core.not_leave_of_request (Or.inl (by rw [ex]))] at leaves
      exact absurd leaves (by decide)
  | wait _ ex asks hears =>
      have state : (r.state x).ex.state = .exMemWait := by rw [ex]; rfl
      have single := (Core.fire_of_leave_wait state leaves).2
      rw [stay.same.exIsAmoOp] at single
      exact Or.inl ⟨single, ex, asks, hears⟩
  | amoRequest _ _ _ ex =>
      rw [Core.not_leave_of_request (Or.inr (by rw [ex]; rfl))] at leaves
      exact absurd leaves (by decide)
  | amoWait old _ amo ex latched asks hears =>
      exact Or.inr ⟨amo, old, ex, latched, asks, hears⟩

/-- A load, store, LR or successful SC makes one request and takes its
answer. -/
theorem LeavesAt.of_single
    (access : (r.state n).exMemAccess = true)
    (single : (r.state n).exIsAmoOp = false) :
    n < x ∧ (r.state x).ex = (r.state n).launched.ex ∧
      r.asked (x + 1) = r.asked n ++ [(r.state n).dReq] ∧
      r.heard (x + 1) = r.heard n ++
        [((r.inputs x).dRspRdata, (r.inputs x).dRspErr)] := by
  have silent : r.asked (x + 1) = r.asked x :=
    asked_of_silence (Core.not_reqFire_of_leave stay.leaves)
  rcases stay.waits first access with ⟨-, ex, asks, hears⟩ | ⟨amo, -⟩
  · have state : (r.state x).ex.state = .exMemWait := by rw [ex]; rfl
    have fire := (Core.fire_of_leave_wait state stay.leaves).1
    refine ⟨stay.lt_of_moved first (by rw [state]; decide), ex,
      silent.trans asks, ?_⟩
    rw [heard_of_fire fire, hears]
  · rw [single] at amo
    exact absurd amo (by decide)

/-- An AMO makes two requests and takes both answers. -/
theorem LeavesAt.of_amo
    (access : (r.state n).exMemAccess = true)
    (amo : (r.state n).exIsAmoOp = true) :
    ∃ old, n < x ∧
      (r.state x).ex = ((r.state n).launched.amoRead old).amoLaunched.ex ∧
      (r.state x).amoOldVal = old ∧
      r.asked (x + 1) = r.asked n ++
        [(r.state n).dReq, (r.state n).amoWrite old] ∧
      r.heard (x + 1) = r.heard n ++
        [(old, false), ((r.inputs x).dRspRdata, (r.inputs x).dRspErr)] := by
  have silent : r.asked (x + 1) = r.asked x :=
    asked_of_silence (Core.not_reqFire_of_leave stay.leaves)
  rcases stay.waits first access with
    ⟨single, -⟩ | ⟨-, old, ex, latched, asks, hears⟩
  · rw [amo] at single
    exact absurd single (by decide)
  · have state : (r.state x).ex.state = .exAmoStoreWait := by rw [ex]; rfl
    have leaves := stay.leaves
    have fire : (r.state x).dataRspFire (r.inputs x) = true := by
      simpa [Core.leave_of_amoStoreWait state, Core.valid_of_leave leaves]
        using leaves
    refine ⟨old, stay.lt_of_moved first (by rw [state]; decide), ex, latched,
      silent.trans asks, ?_⟩
    rw [heard_of_fire fire, hears]
    simp

end Stay

end Run

end SisRv
