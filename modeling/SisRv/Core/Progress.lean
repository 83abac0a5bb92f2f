import SisRv.Core.Refinement

/-!
# Progress

A core that is not halted, on buses that answer, completes instructions again
and again.  If it stopped doing so, EX and IF/ID would stay empty, and from
every state of the demand FSM a word arrives that IF can deliver.
-/

namespace SisRv

open Sync

/-- While the FSM waits, a word is a response that it takes. -/
theorem Core.taken_of_word
    {p : Params} {s : Core p} {i : CoreIn} (waits : s.ifWaiting = true)
    (word : s.ifWordReady i = true) : s.ifRspTaken i = true := by
  rcases source_of_word word with ⟨taken, -⟩ | serve
  · exact taken
  · have free := not_waiting_of_ifReq (ifReq_of_serveBuf serve)
    exact absurd (free.symm.trans waits) Bool.false_ne_true

namespace Run

variable {p : Params} (r : Run p)

/-- The instruction bus accepts a request that is kept up and answers what it
has accepted. -/
structure InstrBusAnswers : Prop where
  accepts : ∀ n,
    (∀ m, n ≤ m → (r.state m).iReqValid (r.inputs m) = true) →
      ∃ m, n ≤ m ∧ (r.inputs m).iReqReady = true
  answers : ∀ n, (r.iOutstanding n).isSome = true →
    ∃ m, n ≤ m ∧ (r.inputs m).iRspValid = true

/-- The buses answer and the core is not halted for good, nor again and
again. -/
structure Responsive : Prop where
  data : r.DataBusAnswers
  instr : r.InstrBusAnswers
  resumes : ∃ b, ∀ n, b ≤ n →
    (r.state n).halted = false ∧ (r.inputs n).dbgHaltReq = false

/-- From cycle `b` on IF could place an instruction into IF/ID, and does
not. -/
structure Starving (b : ℕ) : Prop where
  accepts : ∀ n, b ≤ n → (r.state n).ifCanAcceptFetch (r.inputs n) = true
  kept : ∀ n, b ≤ n → (r.state n).flush (r.inputs n) = false
  produces : ∀ n, b ≤ n → (r.state n).ifProduces (r.inputs n) = false

/-! ## EX -/

section Execute

variable {r}

/-- Whatever is in EX leaves it on a bus that answers. -/
theorem leaves_of_valid
    {b : ℕ} (goes : ∀ m, b ≤ m → (r.state m).wbSingleStepStop = false)
    (noDrop : ∀ m, b ≤ m → (r.state m).exDropsAmo (r.inputs m) = false)
    (bus : r.DataBusAnswers) {n : ℕ} (late : b ≤ n)
    (valid : (r.state n).ex.valid = true) :
    ∃ x, n ≤ x ∧ (r.state x).exToWbFire (r.inputs x) = true := by
  cases at_ : (r.state n).ex.state with
  | exExec =>
      by_cases leaves : (r.state n).exToWbFire (r.inputs n) = true
      · exact ⟨n, le_rfl, leaves⟩
      · obtain ⟨-, still, next, -⟩ :=
          stays goes noDrop late valid (by simpa using leaves)
        obtain ⟨x, above, left⟩ : ∃ x, n + 1 ≤ x ∧
            (r.state x).exToWbFire (r.inputs x) = true := by
          rcases next at_ with request | wait
          · exact leaves_of_exMemReq goes noDrop bus (by omega) still request
          · exact leaves_of_exMemWait goes noDrop bus (by omega) still wait
        exact ⟨x, by omega, left⟩
  | exMemReq => exact leaves_of_exMemReq goes noDrop bus late valid at_
  | exMemWait => exact leaves_of_exMemWait goes noDrop bus late valid at_
  | exAmoStoreReq =>
      exact leaves_of_exAmoStoreReq goes noDrop bus late valid at_
  | exAmoStoreWait =>
      exact leaves_of_exAmoStoreWait goes noDrop bus late valid at_
  | exWb => exact absurd at_ (r.exSound n).notWb

/-- If nothing completes any more, IF could deliver and does not. -/
theorem starving_of_idle
    {b : ℕ} (free : ∀ n, b ≤ n →
      (!(r.inputs n).dbgSingleStep || (r.state n).stepActive) = true)
    (goes : ∀ n, b ≤ n → (r.state n).wbSingleStepStop = false)
    (bus : r.DataBusAnswers)
    (running : ∀ n, b ≤ n →
      (r.state n).halted = false ∧ (r.inputs n).dbgHaltReq = false)
    (idle : ∀ n, b ≤ n → r.completes n = false) : r.Starving b := by
  have noDrop : ∀ n, b ≤ n →
      (r.state n).exDropsAmo (r.inputs n) = false := by
    intro n late
    have quiet := idle n late
    simp only [completes, Bool.or_eq_false_iff] at quiet
    exact quiet.2
  have stays : ∀ n, b ≤ n →
      (r.state n).exToWbFire (r.inputs n) = false := by
    intro n late
    have quiet := idle n late
    simp only [completes, Bool.or_eq_false_iff] at quiet
    exact quiet.1
  have empty : ∀ n, b ≤ n → (r.state n).ex.valid = false := by
    intro n late
    by_contra valid
    obtain ⟨x, above, leaves⟩ :=
      leaves_of_valid goes noDrop bus late (by simpa using valid)
    rw [stays x (late.trans above)] at leaves
    exact Bool.false_ne_true leaves
  have kept : ∀ n, b ≤ n → (r.state n).flush (r.inputs n) = false := by
    intro n late
    simp [Core.flush, Core.exRedirect, stays n late, goes n late]
  have noIssue : ∀ n, b ≤ n →
      (r.state n).idToExFire (r.inputs n) = false := by
    intro n late
    by_contra issue
    have latched := empty (n + 1) (by omega)
    rw [r.state_succ, Core.step_ex,
      Core.exNext_of_issue _ _ (by simpa using issue)] at latched
    exact absurd latched (by simp [Core.issuedEx])
  -- an instruction in IF/ID would be issued
  have waits : ∀ n, b ≤ n → (r.state n).fe.ifId.valid = false := by
    intro n late
    have quiet := noIssue n late
    simpa [Core.idToExFire, Core.exCanAccept, Core.exRedirect,
      Core.idExHazard, Core.idDependsExRd, empty n late, stays n late,
      goes n late, running n late, free n late]
      using quiet
  refine ⟨fun n late => ?_, kept, fun n late => ?_⟩
  · simp [Core.ifCanAcceptFetch, Core.exRedirect, waits n late, stays n late,
      goes n late, running n late, free n late]
  · have after := waits (n + 1) (by omega)
    rw [r.state_succ, Core.step_fe, Core.fe_ifId_valid, kept n late] at after
    simp only [Bool.not_false, Bool.true_and, Bool.or_eq_false_iff] at after
    exact after.1

end Execute

/-! ## The demand FSM -/

section Fetch

variable {r}

/-- The FSM keeps its state unless a word, a response or an accepted request
moves it. -/
theorem ifState_of_quiet
    {n : ℕ} (kept : (r.state n).flush (r.inputs n) = false)
    (noWord : (r.state n).ifWordReady (r.inputs n) = false)
    (noRsp : (r.state n).ifRspFire (r.inputs n) = false)
    (noReq : (r.state n).ifReqFire (r.inputs n) = false) :
    (r.state (n + 1)).fe.ifState = (r.state n).fe.ifState ∧
      (r.state (n + 1)).fe.ifDiscardRsp = (r.state n).fe.ifDiscardRsp := by
  rw [r.state_succ, Core.step_fe]
  constructor
  · simp [Core.fe_ifState, kept, noWord, noRsp, noReq, Core.ifSecondReady,
      Core.ifRspTaken]
  · simp [Core.fe_ifDiscardRsp, kept, noRsp]

variable {b : ℕ} (starving : r.Starving b) (bus : r.InstrBus)
  (answers : r.InstrBusAnswers)
include starving

/-- A word that comes in only starts a straddling instruction. -/
theorem ifSecondReq_of_word
    {n : ℕ} (late : b ≤ n)
    (word : (r.state n).ifWordReady (r.inputs n) = true) :
    (r.state (n + 1)).fe.ifState = .ifSecondReq := by
  have quiet := starving.produces n late
  simp only [Core.ifProduces, Bool.or_eq_false_iff] at quiet
  rw [r.state_succ, Core.step_fe, Core.fe_ifState]
  simp [starving.kept n late, word, quiet]

/-- The FSM requests in every cycle without a word to consume. -/
theorem requests_of_no_word
    {n : ℕ} (late : b ≤ n)
    (free : (r.state n).fe.ifState = .ifReq ∨
      (r.state n).fe.ifState = .ifSecondReq)
    (noWord : (r.state n).ifWordReady (r.inputs n) = false) :
    (r.state n).ifReqActive (r.inputs n) = true := by
  have accept := starving.accepts n late
  rcases free with idle | second
  · have noHit : (r.state n).bufHit = false := by
      simp only [Core.ifWordReady, Core.ifServeBuf, idle, accept,
        Bool.or_eq_false_iff] at noWord
      simpa using noWord.2
    simp [Core.ifReqActive, accept, idle, noHit]
  · simp [Core.ifReqActive, accept, second]

/-- An accepted request is waited for. -/
theorem wait_of_reqFire
    {n : ℕ} (late : b ≤ n)
    (fire : (r.state n).ifReqFire (r.inputs n) = true) :
    (r.state (n + 1)).fe.ifState =
        (if (r.state n).fe.ifState = .ifReq then .ifWait else .ifSecondWait) ∧
      (r.state (n + 1)).fe.ifDiscardRsp = false := by
  have free := Core.not_waiting_of_reqFire fire
  have noRsp : (r.state n).ifRspFire (r.inputs n) = false := by
    simp [Core.ifRspFire, free]
  have noWord : (r.state n).ifWordReady (r.inputs n) = false := by
    by_contra word
    have busy := (Core.waiting_of_word (by simpa using word)).2
    exact Bool.false_ne_true (busy.symm.trans fire)
  have keeps : (r.state n).fe.ifDiscardRsp = false := by
    by_contra discard
    have waits := (r.feSound n).discard (by simpa using discard)
    exact Bool.false_ne_true (free.symm.trans waits)
  rw [r.state_succ, Core.step_fe]
  constructor
  · simp [Core.fe_ifState, starving.kept n late, Core.ifSecondReady,
      Core.ifRspTaken, noRsp, noWord, fire]
  · simp [Core.fe_ifDiscardRsp, starving.kept n late, keeps]

include answers

/-- A state that requests ends with a word or with an accepted request. -/
theorem accepted_of_free
    {state : IfState} {n : ℕ} (late : b ≤ n)
    (free : state = .ifReq ∨ state = .ifSecondReq)
    (at_ : (r.state n).fe.ifState = state) :
    ∃ m, n ≤ m ∧ (r.state m).fe.ifState = state ∧
      ((r.state m).ifWordReady (r.inputs m) = true ∨
        (r.state m).ifReqFire (r.inputs m) = true) := by
  have noRsp : ∀ m, (r.state m).fe.ifState = state →
      (r.state m).ifRspFire (r.inputs m) = false := by
    intro m same
    rcases free with idle | idle <;>
      simp [Core.ifRspFire, Core.ifWaiting, same, idle]
  obtain ⟨m, above, same, event, -⟩ := exists_first_event
    (P := fun m => (r.state m).fe.ifState = state)
    (Q := fun m => (r.state m).ifWordReady (r.inputs m) = true ∨
      (r.state m).ifReqFire (r.inputs m) = true)
    at_
    (fun m above same quiet => by
      rw [not_or, Bool.not_eq_true, Bool.not_eq_true] at quiet
      exact (ifState_of_quiet (starving.kept m (late.trans above)) quiet.1
        (noRsp m same) quiet.2).1.trans same)
    (fun always => by
      by_contra never
      push Not at never
      have requests : ∀ m, n ≤ m →
          (r.state m).ifReqActive (r.inputs m) = true := by
        intro m above
        refine requests_of_no_word starving (late.trans above) ?_
          (by simpa using (never m above).1)
        rw [always m above]
        exact free
      obtain ⟨m, above, ready⟩ := answers.accepts n fun m above => by
        simp [Core.iReqValid, requests m above]
      exact (never m above).2 (by
        simp [Core.ifReqFire, requests m above, ready]))
  exact ⟨m, above, same, event⟩

include bus

/-- A wait ends with the response. -/
theorem answered_of_ifWaiting
    {n : ℕ} (late : b ≤ n) (waits : (r.state n).ifWaiting = true) :
    ∃ m, n ≤ m ∧ (r.state m).fe.ifState = (r.state n).fe.ifState ∧
      (r.state m).fe.ifDiscardRsp = (r.state n).fe.ifDiscardRsp ∧
      (r.state m).ifRspFire (r.inputs m) = true := by
  have waiting : ∀ m,
      (r.state m).fe.ifState = (r.state n).fe.ifState →
        (r.state m).ifWaiting = true := by
    intro m same
    rw [← waits, Core.ifWaiting, Core.ifWaiting, same]
  have persists : ∀ m, n ≤ m →
      ((r.state m).fe.ifState = (r.state n).fe.ifState ∧
        (r.state m).fe.ifDiscardRsp = (r.state n).fe.ifDiscardRsp) →
      ¬ (r.inputs m).iRspValid = true →
      (r.state (m + 1)).fe.ifState = (r.state n).fe.ifState ∧
        (r.state (m + 1)).fe.ifDiscardRsp =
          (r.state n).fe.ifDiscardRsp := by
    rintro m above ⟨same, discard⟩ silent
    have still := waiting m same
    have noRsp : (r.state m).ifRspFire (r.inputs m) = false := by
      simp [Core.ifRspFire, silent]
    have noReq : (r.state m).ifReqFire (r.inputs m) = false := by
      by_contra fire
      have free := Core.not_waiting_of_reqFire (by simpa using fire)
      exact Bool.false_ne_true (free.symm.trans still)
    have noWord : (r.state m).ifWordReady (r.inputs m) = false := by
      by_contra word
      have taken := Core.taken_of_word still (by simpa using word)
      exact Bool.false_ne_true
        (noRsp.symm.trans (Core.rspFire_of_taken taken).1)
    obtain ⟨state, kept⟩ := ifState_of_quiet
      (starving.kept m (late.trans above)) noWord noRsp noReq
    exact ⟨state.trans same, kept.trans discard⟩
  have asked : (r.iOutstanding n).isSome = true := by
    rw [Option.isSome_iff_ne_none]
    intro none
    have free := ((r.busSound bus n).idle none).1
    exact Bool.false_ne_true (free.symm.trans waits)
  obtain ⟨m, above, ⟨same, discard⟩, response, -⟩ :=
    exists_first_event ⟨rfl, rfl⟩ persists fun _ => answers.answers n asked
  exact ⟨m, above, same, discard, by
    simp [Core.ifRspFire, response, waiting m same]⟩

theorem no_ifSecondWait
    {n : ℕ} (late : b ≤ n) (at_ : (r.state n).fe.ifState = .ifSecondWait)
    (keeps : (r.state n).fe.ifDiscardRsp = false) : False := by
  obtain ⟨m, above, same, discard, fire⟩ :=
    answered_of_ifWaiting starving bus answers late (by
      simp [Core.ifWaiting, at_])
  have produces := starving.produces m (late.trans above)
  simp [Core.ifProduces, Core.ifSecondReady, Core.ifRspTaken, fire, discard,
    keeps, same, at_] at produces

theorem no_ifSecondReq
    {n : ℕ} (late : b ≤ n) (at_ : (r.state n).fe.ifState = .ifSecondReq) :
    False := by
  obtain ⟨m, above, same, event⟩ :=
    accepted_of_free starving answers late (Or.inr rfl) at_
  have fire : (r.state m).ifReqFire (r.inputs m) = true := by
    refine event.resolve_left fun word => ?_
    rcases Core.source_of_word word with ⟨-, wait, -⟩ | serve
    · simp [same] at wait
    · have idle := Core.ifReq_of_serveBuf serve
      simp [same] at idle
  obtain ⟨state, keeps⟩ := wait_of_reqFire starving (late.trans above) fire
  rw [same, if_neg (by decide)] at state
  exact no_ifSecondWait starving bus answers (by omega) state keeps

theorem no_ifWait
    {n : ℕ} (late : b ≤ n) (at_ : (r.state n).fe.ifState = .ifWait)
    (keeps : (r.state n).fe.ifDiscardRsp = false) : False := by
  obtain ⟨m, above, same, discard, fire⟩ :=
    answered_of_ifWaiting starving bus answers late (by
      simp [Core.ifWaiting, at_])
  have word : (r.state m).ifWordReady (r.inputs m) = true := by
    simp [Core.ifWordReady, Core.ifRspTaken, fire, discard, keeps, same, at_]
  exact no_ifSecondReq starving bus answers (by omega)
    (ifSecondReq_of_word starving (late.trans above) word)

theorem no_ifReq
    {n : ℕ} (late : b ≤ n) (at_ : (r.state n).fe.ifState = .ifReq) :
    False := by
  obtain ⟨m, above, same, word | fire⟩ :=
    accepted_of_free starving answers late (Or.inl rfl) at_
  · exact no_ifSecondReq starving bus answers (by omega)
      (ifSecondReq_of_word starving (late.trans above) word)
  · obtain ⟨state, keeps⟩ := wait_of_reqFire starving (late.trans above) fire
    rw [if_pos same] at state
    exact no_ifWait starving bus answers (by omega) state keeps

/-- There is always something that IF ends up with. -/
theorem not_starving : False := by
  by_cases waits : (r.state b).ifWaiting = true
  · by_cases discard : (r.state b).fe.ifDiscardRsp = true
    · -- a response to drop comes first
      obtain ⟨m, above, same, kept, fire⟩ :=
        answered_of_ifWaiting starving bus answers le_rfl waits
      have taken : (r.state m).ifRspTaken (r.inputs m) = false := by
        simp [Core.ifRspTaken, kept, discard]
      have noWord : (r.state m).ifWordReady (r.inputs m) = false := by
        by_contra word
        have here := Core.taken_of_word (Core.waiting_of_rspFire fire)
          (by simpa using word)
        exact Bool.false_ne_true (taken.symm.trans here)
      have dropped : (r.state (m + 1)).fe.ifState = .ifReq := by
        rw [r.state_succ, Core.step_fe, Core.fe_ifState]
        simp [starving.kept m above, Core.ifSecondReady, taken, noWord, fire,
          kept, discard]
      exact no_ifReq starving bus answers (by omega) dropped
    · have keeps : (r.state b).fe.ifDiscardRsp = false := by simpa using discard
      rcases Core.wait_or_secondWait waits with wait | wait
      · exact no_ifWait starving bus answers le_rfl wait keeps
      · exact no_ifSecondWait starving bus answers le_rfl wait keeps
  · cases at_ : (r.state b).fe.ifState with
    | ifReq => exact no_ifReq starving bus answers le_rfl at_
    | ifSecondReq => exact no_ifSecondReq starving bus answers le_rfl at_
    | ifWait => simp [Core.ifWaiting, at_] at waits
    | ifSecondWait => simp [Core.ifWaiting, at_] at waits

end Fetch

/-- Instructions complete again and again. -/
theorem completes_often
    {r : Run p} (single : r.NoSingleStep) (bus : r.InstrBus)
    (responsive : r.Responsive) (n : ℕ) :
    ∃ m, n ≤ m ∧ r.completes m = true := by
  obtain ⟨b, running⟩ := responsive.resumes
  by_contra never
  push Not at never
  have starving : r.Starving (max b n) :=
    starving_of_idle (fun m _ => by rw [single m]; rfl)
      (fun m _ => r.not_stop_of_noSingleStep single m) responsive.data
      (fun m late => running m ((le_max_left b n).trans late))
      (fun m late => by
        simpa using never m ((le_max_right b n).trans late))
  exact not_starving starving bus responsive.instr

end Run

end SisRv
