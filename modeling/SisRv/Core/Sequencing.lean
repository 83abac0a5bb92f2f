import SisRv.Core.FrontEnd

/-!
# The order of delivery

The demand FSM over a cycle, and the invariant that ties the fetch address to
the instruction in IF/ID.  Nothing is assumed of the instruction bus.
-/

namespace SisRv

namespace Core

variable {p : Params} (s : Core p) (i : CoreIn)

/-! ## The demand FSM over a cycle -/

/-- What a cycle can do to the demand FSM. -/
inductive DemandCycle : Prop
  | flushed
      (flush : s.flush i = true)
      (state : (s.feNext i).ifState =
        if s.ifStillWaiting i then s.fe.ifState else .ifReq)
  | delivers
      (kept : s.flush i = false) (produces : s.ifProduces i = true)
      (state : (s.feNext i).ifState = .ifReq)
  | splits
      (kept : s.flush i = false) (word : s.ifWordReady i = true)
      (straddles : s.ifWordEmits i = false)
      (state : (s.feNext i).ifState = .ifSecondReq)
  | drops
      (kept : s.flush i = false) (fire : s.ifRspFire i = true)
      (discard : s.fe.ifDiscardRsp = true)
      (state : (s.feNext i).ifState = .ifReq)
  | requests
      (kept : s.flush i = false) (fire : s.ifReqFire i = true)
      (state : (s.feNext i).ifState =
        if s.fe.ifState = .ifReq then .ifWait else .ifSecondWait)
  | quiet
      (kept : s.flush i = false) (noWord : s.ifWordReady i = false)
      (noRsp : s.ifRspFire i = false) (noReq : s.ifReqFire i = false)
      (state : (s.feNext i).ifState = s.fe.ifState)

section Facts

variable {s i}

theorem waiting_of_rspFire (fire : s.ifRspFire i = true) :
    s.ifWaiting = true := by
  simp only [ifRspFire, Bool.and_eq_true] at fire
  exact fire.2

theorem rspFire_of_taken (taken : s.ifRspTaken i = true) :
    s.ifRspFire i = true ∧ s.fe.ifDiscardRsp = false := by
  simpa [ifRspTaken] using taken

theorem wait_or_secondWait (waiting : s.ifWaiting = true) :
    s.fe.ifState = .ifWait ∨ s.fe.ifState = .ifSecondWait := by
  simpa [ifWaiting] using waiting

theorem ready_of_taken (taken : s.ifRspTaken i = true) :
    s.ifWordReady i = true ∨ s.ifSecondReady i = true := by
  rcases wait_or_secondWait (waiting_of_rspFire (rspFire_of_taken taken).1)
    with wait | wait
  · exact Or.inl (by simp [ifWordReady, taken, wait])
  · exact Or.inr (by simp [ifSecondReady, taken, wait])

/-- A word is a response in `IF_WAIT` or a buffer hit in `IF_REQ`. -/
theorem source_of_word (word : s.ifWordReady i = true) :
    (s.ifRspTaken i = true ∧ s.fe.ifState = .ifWait ∧
        s.ifServeBuf i = false) ∨
      s.ifServeBuf i = true := by
  by_cases serve : s.ifServeBuf i = true
  · exact Or.inr serve
  · simp only [ifWordReady, serve, Bool.or_false, Bool.and_eq_true,
      beq_iff_eq] at word
    exact Or.inl ⟨word.1, word.2, by simpa using serve⟩

theorem word_of_emits (emits : s.ifWordEmits i = true) :
    s.ifWordReady i = true := by
  simp only [ifWordEmits, Bool.and_eq_true] at emits
  exact emits.1

theorem secondWait_of_secondReady (second : s.ifSecondReady i = true) :
    s.ifRspTaken i = true ∧ s.fe.ifState = .ifSecondWait := by
  simpa [ifSecondReady] using second

theorem state_of_reqFire (fire : s.ifReqFire i = true) :
    s.fe.ifState = .ifReq ∨ s.fe.ifState = .ifSecondReq := by
  simp only [ifReqFire, ifReqActive, Bool.and_eq_true, Bool.or_eq_true,
    beq_iff_eq] at fire
  tauto

end Facts

/-- Every cycle is one of the six. -/
theorem demandCycle : s.DemandCycle i := by
  have state := fe_ifState s i
  by_cases flushed : s.flush i = true
  · rw [if_pos flushed] at state
    exact .flushed flushed state
  have kept : s.flush i = false := by simpa using flushed
  rw [if_neg flushed] at state
  by_cases second : s.ifSecondReady i = true
  · rw [if_pos second] at state
    exact .delivers kept (by simp [ifProduces, second]) state
  rw [if_neg second] at state
  by_cases word : s.ifWordReady i = true
  · rw [if_pos word] at state
    by_cases emits : s.ifWordEmits i = true
    · rw [if_pos emits] at state
      exact .delivers kept (by simp [ifProduces, emits]) state
    · rw [if_neg emits] at state
      exact .splits kept word (by simpa using emits) state
  rw [if_neg word] at state
  by_cases dropped : (s.ifRspFire i && s.fe.ifDiscardRsp) = true
  · rw [if_pos dropped] at state
    rw [Bool.and_eq_true] at dropped
    exact .drops kept dropped.1 dropped.2 state
  rw [if_neg dropped] at state
  by_cases request : s.ifReqFire i = true
  · rw [if_pos request] at state
    exact .requests kept request state
  rw [if_neg request] at state
  have noRsp : s.ifRspFire i = false := by
    by_contra silent
    have fire : s.ifRspFire i = true := by simpa using silent
    have discard : s.fe.ifDiscardRsp = false := by
      simpa [fire] using dropped
    have taken : s.ifRspTaken i = true := by
      simp [ifRspTaken, fire, discard]
    rcases ready_of_taken taken with ready | ready
    · exact word ready
    · exact second ready
  exact .quiet kept (by simpa using word) noRsp (by simpa using request)
    state

/-! ## The invariant of the front end -/

/-- While a fetch is under way IF/ID is empty, and the fetch address follows
the instruction in IF/ID. -/
structure FeSound : Prop where
  fetching : s.fe.ifState ≠ .ifReq → s.fe.ifId.valid = false
  discard : s.fe.ifDiscardRsp = true → s.ifWaiting = true
  fetchReqPc : s.fe.ifState ≠ .ifReq → s.fe.ifDiscardRsp = false →
    s.fe.fetchReqPc = s.fe.fetchPc
  nextPc : s.fe.ifId.valid = true → s.fe.fetchPc = s.fe.ifId.nextPc

section Sound

variable {s i}

theorem feSound_reset (p : Params) (power : PowerOn) :
    (Core.reset p power).FeSound where
  fetching := fun busy => absurd rfl busy
  discard := by simp [Core.reset, FrontEnd.reset]
  fetchReqPc := fun busy => absurd rfl busy
  nextPc := by simp [Core.reset, FrontEnd.reset]

theorem ifWordPc_eq (sound : s.FeSound) (word : s.ifWordReady i = true) :
    s.ifWordPc i = s.fe.fetchPc := by
  unfold ifWordPc
  rcases source_of_word word with ⟨taken, wait, noServe⟩ | serve
  · rw [noServe]
    exact sound.fetchReqPc (by simp [wait]) (rspFire_of_taken taken).2
  · rw [serve]
    rfl

/-- Instructions are delivered from the fetch address. -/
theorem delivered_pc
    (sound : s.FeSound) (produces : s.ifProduces i = true) :
    (s.delivered i).pc = s.fe.fetchPc := by
  by_cases second : s.ifSecondReady i = true
  · obtain ⟨taken, wait⟩ := secondWait_of_secondReady second
    rw [delivered, if_pos second]
    exact sound.fetchReqPc (by simp [wait]) (rspFire_of_taken taken).2
  · rw [delivered, if_neg second, wordParcel_pc]
    have emits : s.ifWordEmits i = true := by
      simpa [ifProduces, second] using produces
    exact ifWordPc_eq sound (word_of_emits emits)

theorem free_of_word
    (sound : s.FeSound) (word : s.ifWordReady i = true) :
    s.fe.ifId.valid = false ∨ s.idToExFire i = true := by
  rcases source_of_word word with ⟨-, wait, -⟩ | serve
  · exact Or.inl (sound.fetching (by simp [wait]))
  · exact free_of_accept (accept_of_serveBuf serve)

/-- Nothing in IF/ID is overwritten before ID has taken it. -/
theorem free_of_produces
    (sound : s.FeSound) (produces : s.ifProduces i = true) :
    s.fe.ifId.valid = false ∨ s.idToExFire i = true := by
  simp only [ifProduces, Bool.or_eq_true] at produces
  rcases produces with emits | second
  · exact free_of_word sound (word_of_emits emits)
  · exact Or.inl (sound.fetching (by
      simp [(secondWait_of_secondReady second).2]))

theorem not_produces_of_splits
    (word : s.ifWordReady i = true) (straddles : s.ifWordEmits i = false) :
    s.ifProduces i = false := by
  simp [ifProduces, straddles, not_second_of_word word]

theorem not_produces_of_reqFire (fire : s.ifReqFire i = true) :
    s.ifProduces i = false := by
  by_contra produces
  have noReq : s.ifReqFire i = false := by
    simp only [ifProduces, Bool.not_eq_false, Bool.or_eq_true] at produces
    rcases produces with emits | second
    · rcases source_of_word (word_of_emits emits) with ⟨taken, -⟩ | serve
      · exact not_reqFire_of_taken taken
      · exact not_reqFire_of_serveBuf serve
    · exact not_reqFire_of_taken (secondWait_of_secondReady second).1
  rw [fire] at noReq
  exact Bool.false_ne_true noReq.symm

theorem not_produces_of_quiet
    (noWord : s.ifWordReady i = false) (noRsp : s.ifRspFire i = false) :
    s.ifProduces i = false := by
  simp [ifProduces, ifWordEmits, noWord, ifSecondReady, ifRspTaken, noRsp]

/-- IF/ID stays empty through a cycle that leaves a fetch under way. -/
theorem fetching_step (sound : s.FeSound)
    (busy : (s.feNext i).ifState ≠ .ifReq) :
    (s.feNext i).ifId.valid = false := by
  rw [fe_ifId_valid]
  cases s.demandCycle i with
  | flushed flush => simp [flush]
  | delivers kept produces state => exact absurd state busy
  | splits kept word straddles state =>
      rcases free_of_word sound word with empty | issue
      · simp [not_produces_of_splits word straddles, empty]
      · simp [not_produces_of_splits word straddles, issue]
  | drops kept fire discard state => exact absurd state busy
  | requests kept fire state =>
      rcases free_of_accept (accept_of_reqFire fire) with empty | issue
      · simp [not_produces_of_reqFire fire, empty]
      · simp [not_produces_of_reqFire fire, issue]
  | quiet kept noWord noRsp noReq state =>
      rw [state] at busy
      simp [not_produces_of_quiet noWord noRsp, sound.fetching busy]

theorem discard_step (sound : s.FeSound)
    (discards : (s.feNext i).ifDiscardRsp = true) :
    (s.step i).ifWaiting = true := by
  have same : (s.feNext i).ifState = s.fe.ifState ∧ s.ifWaiting = true := by
    rw [fe_ifDiscardRsp] at discards
    by_cases flushed : s.flush i = true
    · rw [if_pos flushed] at discards
      refine ⟨by rw [fe_ifState, if_pos flushed, if_pos discards], ?_⟩
      simp only [ifStillWaiting, Bool.and_eq_true] at discards
      exact discards.1
    · rw [if_neg flushed, Bool.and_eq_true, Bool.not_eq_true'] at discards
      obtain ⟨noRsp, discard⟩ := discards
      have waiting := sound.discard discard
      refine ⟨?_, waiting⟩
      cases s.demandCycle i with
      | flushed flush => exact absurd flush flushed
      | delivers kept produces state =>
          simp only [ifProduces, Bool.or_eq_true] at produces
          rcases produces with emits | second
          · rcases source_of_word (word_of_emits emits) with
              ⟨taken, -⟩ | serve
            · simp [ifRspTaken, noRsp] at taken
            · simp [ifWaiting, ifReq_of_serveBuf serve] at waiting
          · simp [ifSecondReady, ifRspTaken, noRsp] at second
      | splits kept word straddles state =>
          rcases source_of_word word with ⟨taken, -⟩ | serve
          · simp [ifRspTaken, noRsp] at taken
          · simp [ifWaiting, ifReq_of_serveBuf serve] at waiting
      | drops kept fire discard state => simp [noRsp] at fire
      | requests kept fire state =>
          rcases state_of_reqFire fire with idle | idle <;>
            simp [ifWaiting, idle] at waiting
      | quiet kept noWord noRsp noReq state => exact state
  simp only [ifWaiting, step_fe, same.1]
  exact same.2

theorem fetchReqPc_step (sound : s.FeSound)
    (busy : (s.feNext i).ifState ≠ .ifReq)
    (keeps : (s.feNext i).ifDiscardRsp = false) :
    (s.feNext i).fetchReqPc = (s.feNext i).fetchPc := by
  cases s.demandCycle i with
  | flushed flush state =>
      rw [fe_ifDiscardRsp, if_pos flush] at keeps
      rw [state, keeps] at busy
      exact absurd rfl busy
  | delivers kept produces state => exact absurd state busy
  | splits kept word straddles state =>
      rw [fe_fetchReqPc, fe_fetchPc]
      simp [word, straddles, kept, not_produces_of_splits word straddles,
        ifWordPc_eq sound word]
  | drops kept fire discard state => exact absurd state busy
  | requests kept fire state =>
      have noWord : s.ifWordReady i = false := by
        by_contra word
        rcases source_of_word (by simpa using word) with ⟨taken, -⟩ | serve
        · simp [not_reqFire_of_taken taken] at fire
        · simp [not_reqFire_of_serveBuf serve] at fire
      rw [fe_fetchReqPc, fe_fetchPc]
      simp only [noWord, kept, not_produces_of_reqFire fire, fire,
        Bool.false_and, Bool.true_and, Bool.false_eq_true, if_false,
        beq_iff_eq]
      rcases state_of_reqFire fire with idle | idle
      · simp [idle]
      · have clean : s.fe.ifDiscardRsp = false := by
          by_contra discard
          have waiting := sound.discard (by simpa using discard)
          simp [ifWaiting, idle] at waiting
        simp [idle, sound.fetchReqPc (by simp [idle]) clean]
  | quiet kept noWord noRsp noReq state =>
      rw [fe_ifDiscardRsp] at keeps
      rw [fe_fetchReqPc, fe_fetchPc]
      rw [state] at busy
      simp [kept, noRsp] at keeps
      simp [noWord, noReq, kept, not_produces_of_quiet noWord noRsp,
        sound.fetchReqPc busy keeps]

theorem nextPc_step (sound : s.FeSound)
    (valid : (s.feNext i).ifId.valid = true) :
    (s.feNext i).fetchPc = (s.feNext i).ifId.nextPc := by
  have kept : s.flush i = false := by
    by_contra flushed
    simp [fe_ifId_valid, flushed] at valid
  rw [fe_fetchPc, fe_ifId s i kept valid, kept]
  by_cases produces : s.ifProduces i = true
  · simp [produces]
  · rw [fe_ifId_valid] at valid
    simp only [kept, produces, Bool.not_false, Bool.true_and, Bool.false_or,
      Bool.and_eq_true] at valid
    simp [produces, sound.nextPc valid.1]

theorem feSound_step (sound : s.FeSound) : (s.step i).FeSound where
  fetching := fetching_step sound
  discard := discard_step sound
  fetchReqPc := fetchReqPc_step sound
  nextPc := nextPc_step sound

end Sound

end Core

theorem Run.feSound {p : Params} (r : Run p) (n : ℕ) :
    (r.state n).FeSound :=
  Sync.trajectory_invariant Core.FeSound (fun _ _ => True)
    (Core.feSound_reset p r.power)
    (fun _ _ sound _ => Core.feSound_step sound) (fun _ => trivial) n

end SisRv
