import SisRv.Core.Refinement

/-!
# The data port

EX has at most one request outstanding, and it waits for the response to the
request that it made last.  A response therefore answers the list of the
requests made so far, and no list is answered twice.
-/

namespace SisRv

open Sync

namespace Run

variable {p : Params} (r : Run p)

/-- The data request accepted in a cycle. -/
def dAccepts (n : ℕ) : Option BusReq :=
  if (r.state n).dataReqFire (r.inputs n) then some (r.state n).dReq else none

/-- A response is handed over. -/
def dHandsOver (n : ℕ) : Bool := (r.state n).dataRspFire (r.inputs n)

/-- The outstanding request and the cycle it was accepted in. -/
def dOutstanding : ℕ → Option (BusReq × ℕ) :=
  outstanding r.dAccepts r.dHandsOver

variable {r} {n a : ℕ} {req : BusReq}

theorem dAccepts_eq_some (accepts : r.dAccepts n = some req) :
    (r.state n).dataReqFire (r.inputs n) = true ∧ (r.state n).dReq = req := by
  unfold dAccepts at accepts
  split_ifs at accepts with fire
  exact ⟨fire, Option.some.inj accepts⟩

theorem dAccepts_eq_none (silent : r.dAccepts n = none) :
    (r.state n).dataReqFire (r.inputs n) = false := by
  unfold dAccepts at silent
  split_ifs at silent with fire
  simpa using fire

theorem dAccepts_of_waits (waits : (r.state n).dRspReady = true) :
    r.dAccepts n = none := by
  rw [dAccepts, Core.not_reqFire_of_rspReady waits, if_neg Bool.false_ne_true]

/-- EX waits exactly while a request is outstanding. -/
theorem dOutstanding_isSome (single : r.NoSingleStep) (n : ℕ) :
    (r.dOutstanding n).isSome = (r.state n).dRspReady := by
  induction n with
  | zero =>
      simp [dOutstanding, outstanding, Run.state_zero, Core.reset,
        ExRegs.reset, Core.dRspReady]
  | succ n inductionHypothesis =>
      rw [r.state_succ, Core.dRspReady_step (r.exSound n)
        (r.not_stop_of_noSingleStep single n)]
      cases accepts : r.dAccepts n with
      | some req =>
          rw [dOutstanding, outstanding_of_accept accepts,
            (dAccepts_eq_some accepts).1]
          rfl
      | none =>
          rw [dAccepts_eq_none accepts, Bool.false_or]
          cases hands : r.dHandsOver n with
          | true =>
              rw [dOutstanding, outstanding_of_handover accepts hands]
              rw [dHandsOver] at hands
              simp [hands]
          | false =>
              rw [dOutstanding, outstanding_of_idle accepts hands]
              rw [dHandsOver] at hands
              rw [hands, ← inductionHypothesis, Bool.not_false, Bool.and_true]
              rfl

theorem waits_of_dOutstanding (single : r.NoSingleStep)
    (out : r.dOutstanding n = some (req, a)) :
    (r.state n).dRspReady = true := by
  rw [← dOutstanding_isSome single, out]
  rfl

theorem dOutstanding_of_waits (single : r.NoSingleStep)
    (waits : (r.state n).dRspReady = true) :
    ∃ req a, r.dOutstanding n = some (req, a) := by
  rw [← dOutstanding_isSome single, Option.isSome_iff_exists] at waits
  obtain ⟨⟨req, a⟩, out⟩ := waits
  exact ⟨req, a, out⟩

theorem dOutstanding_of_idle (single : r.NoSingleStep)
    (idle : (r.state n).dRspReady = false) : r.dOutstanding n = none := by
  rw [← dOutstanding_isSome single] at idle
  simpa using idle

/-- A handover needs an outstanding request. -/
theorem dOutstanding_of_handsOver (single : r.NoSingleStep)
    (hands : r.dHandsOver n = true) :
    ∃ req a, r.dOutstanding n = some (req, a) := by
  rw [dHandsOver, Core.dataRspFire, Bool.and_eq_true] at hands
  exact dOutstanding_of_waits single hands.2

/-! ## The requests made so far -/

theorem asked_succ (n : ℕ) :
    r.asked (n + 1) = r.asked n ++ (r.dAccepts n).toList := rfl

/-- The outstanding request is the last one of those made. -/
theorem asked_of_dOutstanding (out : r.dOutstanding n = some (req, a)) :
    r.asked n = r.asked a ++ [req] := by
  have later := asked_lt_of_outstanding out
  have accepted := accept_of_outstanding out
  have quiet : ∀ m, a + 1 ≤ m → m ≤ n → r.asked m = r.asked (a + 1) := by
    intro m above
    induction m, above using Nat.le_induction with
    | base => exact fun _ => rfl
    | succ m above inductionHypothesis =>
        intro within
        have silent : r.dAccepts m = none :=
          silent_of_outstanding out above within
        rw [asked_succ, silent, inductionHypothesis (by omega)]
        exact List.append_nil _
  rw [quiet n later le_rfl, asked_succ, accepted]
  rfl

theorem length_asked_le {m : ℕ} (le : m ≤ n) :
    (r.asked m).length ≤ (r.asked n).length := by
  induction n, le using Nat.le_induction with
  | base => exact le_rfl
  | succ n above inductionHypothesis =>
      rw [asked_succ, List.length_append]
      omega

theorem length_asked_lt {m : ℕ} (below : m < n)
    (accepted : r.dAccepts m = some req) :
    (r.asked m).length < (r.asked n).length := by
  have le : (r.asked (m + 1)).length ≤ (r.asked n).length :=
    length_asked_le below
  rw [asked_succ, accepted, List.length_append] at le
  exact le

/-- No list of requests is answered in two cycles. -/
theorem eq_of_answered (single : r.NoSingleStep) {m : ℕ}
    (early : r.dHandsOver m = true) (late : r.dHandsOver n = true)
    (same : r.asked m = r.asked n) : m = n := by
  obtain ⟨first, a, outEarly⟩ := dOutstanding_of_handsOver single early
  obtain ⟨second, b, outLate⟩ := dOutstanding_of_handsOver single late
  have askedEarly := asked_of_dOutstanding outEarly
  have askedLate := asked_of_dOutstanding outLate
  -- both requests were made in the same cycle
  have together : a = b := by
    have lengths := congrArg List.length same
    rw [askedEarly, askedLate, List.length_append, List.length_append,
      List.length_singleton, List.length_singleton] at lengths
    rcases Nat.lt_trichotomy a b with less | equal | greater
    · have more := length_asked_lt less (accept_of_outstanding outEarly)
      omega
    · exact equal
    · have more := length_asked_lt greater (accept_of_outstanding outLate)
      omega
  have request : first = second := by
    have one := accept_of_outstanding outEarly
    rw [together, accept_of_outstanding outLate] at one
    exact (Option.some.inj one).symm
  rw [together, request] at outEarly
  exact eq_of_handover early outEarly late outLate

end Run

end SisRv
