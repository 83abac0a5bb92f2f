import SisRv.Core.Sequencing
import SisRv.Lib.Channel

/-!
# The instruction bus

The bus has at most one request outstanding.  It is either the one the demand
FSM waits for or the prefetch in flight, and the registers hold its address.
-/

namespace SisRv

open Sync

/-! ## The environment -/

namespace Run

variable {p : Params} (r : Run p)

/-- The word address of the request accepted in a cycle. -/
def iAccepts (n : ℕ) : Option (BitVec 30) :=
  if (r.state n).iReqValid (r.inputs n) && (r.inputs n).iReqReady then
    some (((r.state n).iReqAddr (r.inputs n)).extractLsb' 2 30)
  else none

/-- A response is handed over. -/
def iHandsOver (n : ℕ) : Bool :=
  (r.inputs n).iRspValid && (r.state n).iRspReady

/-- The outstanding request: its word address and the cycle it was accepted
in. -/
def iOutstanding : ℕ → Option (BitVec 30 × ℕ) :=
  outstanding r.iAccepts r.iHandsOver

/-- The bus answers accepted requests only, at least one cycle later, and
accepts a request only when none is outstanding or as it hands over the
response of the outstanding one. -/
structure InstrBus : Prop where
  answers : ∀ n, (r.inputs n).iRspValid = true →
    (r.iOutstanding n).isSome = true
  accepts : ∀ n, (r.iAccepts n).isSome = true →
    r.iOutstanding n = none ∨ r.iHandsOver n = true

end Run

namespace Core

variable {p : Params} (s : Core p) (i : CoreIn)

/-! ## Waiting over a cycle -/

section Waiting

variable {s i}

theorem not_waiting_of_reqFire (fire : s.ifReqFire i = true) :
    s.ifWaiting = false := by
  rcases state_of_reqFire fire with idle | idle <;> simp [ifWaiting, idle]

/-- A consumed word ends a wait, or there was none. -/
theorem waiting_of_word (word : s.ifWordReady i = true) :
    (s.ifWaiting && !s.ifRspFire i) = false ∧ s.ifReqFire i = false := by
  rcases source_of_word word with ⟨taken, -⟩ | serve
  · simp [(rspFire_of_taken taken).1, not_reqFire_of_taken taken]
  · simp [not_waiting_of_ifReq (ifReq_of_serveBuf serve),
      not_reqFire_of_serveBuf serve]

theorem waiting_of_produces (produces : s.ifProduces i = true) :
    (s.ifWaiting && !s.ifRspFire i) = false ∧ s.ifReqFire i = false := by
  simp only [ifProduces, Bool.or_eq_true] at produces
  rcases produces with emits | second
  · exact waiting_of_word (word_of_emits emits)
  · have taken := (secondWait_of_secondReady second).1
    simp [(rspFire_of_taken taken).1, not_reqFire_of_taken taken]

/-- A wait begins with an accepted request and ends with a response. -/
theorem waiting_step :
    (s.step i).ifWaiting =
      (s.ifReqFire i || (s.ifWaiting && !s.ifRspFire i)) := by
  have next : (s.step i).ifWaiting =
      ((s.feNext i).ifState == .ifWait ||
        (s.feNext i).ifState == .ifSecondWait) := rfl
  rw [next]
  cases s.demandCycle i with
  | flushed flush state =>
      rw [state, reqFire_of_flush flush]
      by_cases still : s.ifStillWaiting i = true
      · rw [if_pos still]
        simp only [ifStillWaiting] at still
        rw [still]
        simp only [Bool.and_eq_true] at still
        exact still.1
      · rw [if_neg still]
        simp only [ifStillWaiting, Bool.not_eq_true] at still
        simp [still]
  | delivers kept produces state =>
      obtain ⟨free, noReq⟩ := waiting_of_produces produces
      simp [state, free, noReq]
  | splits kept word straddles state =>
      obtain ⟨free, noReq⟩ := waiting_of_word word
      simp [state, free, noReq]
  | drops kept fire discard state =>
      have noReq : s.ifReqFire i = false := by
        by_contra request
        have quiet := not_waiting_of_reqFire (by simpa using request)
        rw [waiting_of_rspFire fire] at quiet
        exact Bool.false_ne_true quiet.symm
      simp [state, fire, noReq]
  | requests kept fire state =>
      rw [state, fire]
      by_cases idle : s.fe.ifState = .ifReq <;> simp [idle]
  | quiet kept noWord noRsp noReq state =>
      simp [state, noRsp, noReq, ifWaiting]

/-- The address of a request of the demand FSM. -/
def demandAddr (s : Core p) : BitVec 30 :=
  if s.fe.ifState = .ifSecondReq then s.fe.fetchReqPc.extractLsb' 2 30 + 1
  else s.fe.fetchPc.extractLsb' 2 30

theorem rspWordAddr_step (waits : (s.step i).ifWaiting = true) :
    (s.step i).rspWordAddr =
      if s.ifReqFire i then s.demandAddr else s.rspWordAddr := by
  rw [waiting_step, Bool.or_eq_true] at waits
  have noWord : s.ifWordReady i = false := by
    by_contra word
    have facts := waiting_of_word (i := i) (by simpa using word)
    simp [facts] at waits
  rw [rspWordAddr, step_fe, fe_fetchReqPc, noWord]
  by_cases fire : s.ifReqFire i = true
  · have kept : s.flush i = false := by
      by_contra flushed
      rw [reqFire_of_flush (by simpa using flushed)] at fire
      exact Bool.false_ne_true fire
    have state := fe_ifState s i
    rw [if_neg (by simp [kept])] at state
    have noSecond : s.ifSecondReady i = false := by
      have quiet := not_produces_of_reqFire fire
      simp only [ifProduces, Bool.or_eq_false_iff] at quiet
      exact quiet.2
    have noRsp : s.ifRspFire i = false := by
      simp [ifRspFire, not_waiting_of_reqFire fire]
    simp only [noSecond, noWord, noRsp, fire, Bool.false_eq_true,
      Bool.false_and, if_false, if_true] at state
    rcases state_of_reqFire fire with idle | idle <;>
      simp [state, idle, fire, demandAddr]
  · simp only [fire, Bool.false_eq_true, false_or, Bool.and_eq_true,
      Bool.not_eq_true'] at waits
    have same : (s.feNext i).ifState = s.fe.ifState := by
      have state := fe_ifState s i
      by_cases flushed : s.flush i = true
      · rw [if_pos flushed, if_pos (by simpa [ifStillWaiting] using waits)]
          at state
        exact state
      · simpa [flushed, ifSecondReady, ifRspTaken, waits.2, noWord, fire]
          using state
    simp [same, fire, rspWordAddr]

end Waiting

/-! ## The outstanding request -/

/-- The outstanding request is the one of the demand FSM or the prefetch. -/
structure BusSound (out : Option (BitVec 30 × ℕ)) : Prop where
  idle : out = none → s.ifWaiting = false ∧ s.fe.pfInflight = false
  busy : ∀ addr asked, out = some (addr, asked) →
    s.ifWaiting = true ∧ s.fe.pfInflight = false ∧ addr = s.rspWordAddr ∨
      s.ifWaiting = false ∧ s.fe.pfInflight = true ∧
        addr = s.fe.pfInflightAddr

section Facts

variable {s i}

theorem toNat_word (addr : BitVec 30) :
    (addr ++ 0#2 : BitVec 32).toNat = addr.toNat * 4 := by
  rw [BitVec.toNat_append, Nat.shiftLeft_eq]
  simp

theorem wordBase_add_four (pc : BitVec 32) :
    wordBase pc + 4 = (pc.extractLsb' 2 30 + 1 ++ 0#2 : BitVec 32) := by
  apply BitVec.eq_of_toNat_eq
  rw [toNat_word, wordBase, BitVec.toNat_add, toNat_word, BitVec.toNat_add]
  simp only [BitVec.reduceToNat]
  omega

theorem word_of_append (addr : BitVec 30) :
    (addr ++ 0#2 : BitVec 32).extractLsb' 2 30 = addr := by
  apply BitVec.eq_of_toNat_eq
  have small := addr.isLt
  rw [BitVec.extractLsb'_toNat, toNat_word, Nat.shiftRight_eq_div_pow]
  omega

/-- The PMP is asked about the outstanding request. -/
theorem BusSound.fetchPmpAddr
    {addr : BitVec 30} {asked : ℕ} (sound : s.BusSound (some (addr, asked))) :
    s.fetchPmpAddr = (addr ++ 0#2 : BitVec 32) := by
  rcases sound.busy addr asked rfl with
    ⟨waits, -, rfl⟩ | ⟨noWait, inflight, rfl⟩
  · rcases wait_or_secondWait waits with wait | wait
    · simp [Core.fetchPmpAddr, rspWordAddr, wait, wordBase]
    · simp only [Core.fetchPmpAddr, rspWordAddr, wait, if_true,
        wordBase_add_four]
  · cases state : s.fe.ifState with
    | ifReq => simp [Core.fetchPmpAddr, state, inflight]
    | ifSecondReq => simp [Core.fetchPmpAddr, state, inflight]
    | ifWait => simp [ifWaiting, state] at noWait
    | ifSecondWait => simp [ifWaiting, state] at noWait

theorem accepted_request (valid : s.iReqValid i = true)
    (ready : i.iReqReady = true) :
    s.ifReqFire i = true ∧ s.pfReqFire i = false ∧
        (s.iReqAddr i).extractLsb' 2 30 = s.demandAddr ∨
      s.pfReqFire i = true ∧ s.ifReqFire i = false ∧
        (s.iReqAddr i).extractLsb' 2 30 = s.pfTarget := by
  by_cases active : s.ifReqActive i = true
  · left
    have noPrefetch : s.pfIssue i = false := by simp [pfIssue, active]
    refine ⟨by simp [ifReqFire, active, ready],
      by simp [pfReqFire, noPrefetch], ?_⟩
    rw [iReqAddr, if_pos active, demandAddr]
    split_ifs
    · rw [wordBase_add_four, word_of_append]
    · rw [wordBase, word_of_append]
  · right
    have issue : s.pfIssue i = true := by simpa [iReqValid, active] using valid
    refine ⟨by simp [pfReqFire, issue, ready],
      by simp [ifReqFire, active], ?_⟩
    rw [iReqAddr, if_neg active, word_of_append]

theorem not_accepted
    (silent : (s.iReqValid i && i.iReqReady) = false) :
    s.ifReqFire i = false ∧ s.pfReqFire i = false := by
  simp only [iReqValid, Bool.and_eq_false_iff, Bool.or_eq_false_iff] at silent
  rcases silent with ⟨active, issue⟩ | ready
  · simp [ifReqFire, pfReqFire, active, issue]
  · simp [ifReqFire, pfReqFire, ready]

theorem BusSound.ends
    {out : Option (BitVec 30 × ℕ)} (sound : s.BusSound out)
    (free : out = none ∨ (i.iRspValid && s.iRspReady) = true) :
    (s.ifWaiting && !s.ifRspFire i) = false ∧
      (s.fe.pfInflight && !s.pfRspFire i) = false := by
  cases out with
  | none => simp [sound.idle rfl]
  | some request =>
      have response : i.iRspValid = true := by
        simp only [reduceCtorEq, false_or, Bool.and_eq_true] at free
        exact free.1
      rcases sound.busy _ _ rfl with ⟨waits, free, -⟩ | ⟨noWait, inflight, -⟩
      · simp [ifRspFire, response, waits, free]
      · simp [pfRspFire, response, noWait, inflight]

theorem BusSound.goesOn
    {out : Option (BitVec 30 × ℕ)} (sound : s.BusSound out)
    (answers : i.iRspValid = true → out.isSome = true)
    (keeps : (i.iRspValid && s.iRspReady) = false) :
    s.ifRspFire i = false ∧ s.pfRspFire i = false := by
  have silent : i.iRspValid = false := by
    by_contra response
    have response : i.iRspValid = true := by simpa using response
    cases out with
    | none => simp [response] at answers
    | some request =>
        simp only [response, iRspReady, Bool.true_and,
          Bool.or_eq_false_iff] at keeps
        rcases sound.busy _ _ rfl with ⟨waits, -⟩ | ⟨-, inflight, -⟩
        · simp [keeps] at waits
        · simp [keeps] at inflight
  simp [ifRspFire, pfRspFire, silent]

/-- The accepted request is the outstanding one. -/
theorem BusSound.accepts
    {out : Option (BitVec 30 × ℕ)} (sound : s.BusSound out)
    (free : out = none ∨ (i.iRspValid && s.iRspReady) = true)
    (valid : s.iReqValid i = true) (ready : i.iReqReady = true) (n : ℕ) :
    (s.step i).BusSound (some ((s.iReqAddr i).extractLsb' 2 30, n)) := by
  obtain ⟨noWait, noInflight⟩ := sound.ends free
  refine ⟨by simp, fun addr asked same => ?_⟩
  simp only [Option.some.injEq, Prod.mk.injEq] at same
  obtain ⟨rfl, -⟩ := same
  rcases accepted_request valid ready with
    ⟨fire, noPrefetch, address⟩ | ⟨fire, noDemand, address⟩
  · have waits : (s.step i).ifWaiting = true := by simp [waiting_step, fire]
    refine Or.inl ⟨waits, ?_, ?_⟩
    · rw [step_fe, fe_pfInflight, noPrefetch, Bool.false_or, Bool.and_comm]
      exact noInflight
    · rw [rspWordAddr_step waits, if_pos fire, address]
  · have free : s.pfRspFire i = false := by
      by_contra response
      have inflight := inflight_of_pfRspFire (by simpa using response)
      rw [not_pfReqFire_of_inflight inflight] at fire
      exact Bool.false_ne_true fire
    refine Or.inr ⟨?_, ?_, ?_⟩
    · rw [waiting_step, noDemand, Bool.false_or]
      exact noWait
    · simp [fe_pfInflight, free, fire]
    · rw [step_fe, fe_pfInflightAddr, if_pos fire, address]

theorem BusSound.handsOver
    {out : Option (BitVec 30 × ℕ)} (sound : s.BusSound out)
    (silent : (s.iReqValid i && i.iReqReady) = false)
    (hands : (i.iRspValid && s.iRspReady) = true) :
    (s.step i).BusSound none := by
  obtain ⟨noDemand, noPrefetch⟩ := not_accepted silent
  obtain ⟨noWait, noInflight⟩ := sound.ends (Or.inr hands)
  refine ⟨fun _ => ⟨?_, ?_⟩, by simp⟩
  · rw [waiting_step, noDemand, Bool.false_or]
    exact noWait
  · rw [step_fe, fe_pfInflight, noPrefetch, Bool.false_or, Bool.and_comm]
    exact noInflight

theorem BusSound.keeps
    {out : Option (BitVec 30 × ℕ)} (sound : s.BusSound out)
    (answers : i.iRspValid = true → out.isSome = true)
    (silent : (s.iReqValid i && i.iReqReady) = false)
    (keeps : (i.iRspValid && s.iRspReady) = false) :
    (s.step i).BusSound out := by
  obtain ⟨noDemand, noPrefetch⟩ := not_accepted silent
  obtain ⟨noRsp, noPfRsp⟩ := sound.goesOn answers keeps
  have waits : (s.step i).ifWaiting = s.ifWaiting := by
    simp [waiting_step, noDemand, noRsp]
  have inflight : (s.step i).fe.pfInflight = s.fe.pfInflight := by
    simp [fe_pfInflight, noPrefetch, noPfRsp]
  refine ⟨fun none => ?_, fun addr asked same => ?_⟩
  · rw [waits, inflight]
    exact sound.idle none
  · rw [waits, inflight]
    rcases sound.busy addr asked same with
      ⟨before, free, rfl⟩ | ⟨before, busy, rfl⟩
    · refine Or.inl ⟨before, free, ?_⟩
      rw [rspWordAddr_step (waits.trans before), noDemand]
      rfl
    · refine Or.inr ⟨before, busy, ?_⟩
      rw [step_fe, fe_pfInflightAddr, noPrefetch]
      rfl

end Facts

end Core

/-! ## The bus along a run -/

namespace Run

variable {p : Params} {r : Run p}

theorem busSound (bus : r.InstrBus) (n : ℕ) :
    (r.state n).BusSound (r.iOutstanding n) := by
  induction n with
  | zero =>
      refine ⟨fun _ => ?_, ?_⟩
      · exact ⟨rfl, rfl⟩
      · simp [iOutstanding, outstanding]
  | succ n inductionHypothesis =>
      rw [state_succ]
      by_cases accepts : ((r.state n).iReqValid (r.inputs n) &&
          (r.inputs n).iReqReady) = true
      · have request : r.iAccepts n =
            some (((r.state n).iReqAddr (r.inputs n)).extractLsb' 2 30) := by
          simp [iAccepts, accepts]
        have free := bus.accepts n (by simp [request])
        rw [Bool.and_eq_true] at accepts
        rw [iOutstanding, outstanding_of_accept request]
        exact inductionHypothesis.accepts free accepts.1 accepts.2 n
      · have quiet := Bool.eq_false_iff.mpr accepts
        have silent : r.iAccepts n = none := by simp [iAccepts, quiet]
        by_cases hands : r.iHandsOver n = true
        · rw [iOutstanding, outstanding_of_handover silent hands]
          exact inductionHypothesis.handsOver quiet hands
        · have keeps : r.iHandsOver n = false := by simpa using hands
          rw [iOutstanding, outstanding_of_idle silent keeps]
          exact inductionHypothesis.keeps (bus.answers n) quiet keeps

theorem quiet_of_idle
    (bus : r.InstrBus) {n : ℕ} (silent : r.iAccepts n = none)
    (idle : r.iHandsOver n = false) :
    (r.state n).ifRspFire (r.inputs n) = false ∧
      (r.state n).ifReqFire (r.inputs n) = false ∧
      (r.state n).pfRspFire (r.inputs n) = false ∧
      (r.state n).pfReqFire (r.inputs n) = false := by
  have quiet : ((r.state n).iReqValid (r.inputs n) &&
      (r.inputs n).iReqReady) = false := by
    by_contra accepts
    simp only [Bool.not_eq_false] at accepts
    simp [iAccepts, accepts] at silent
  obtain ⟨noDemand, noPrefetch⟩ := Core.not_accepted quiet
  obtain ⟨noRsp, noPfRsp⟩ := (r.busSound bus n).goesOn (bus.answers n) idle
  exact ⟨noRsp, noDemand, noPfRsp, noPrefetch⟩

/-- The bus of a prescribed run is idle after it. -/
theorem instrBus_script
    {inputs : List CoreIn}
    (answers : ∀ n, n < inputs.length →
      ((script p inputs).inputs n).iRspValid = true →
      ((script p inputs).iOutstanding n).isSome = true)
    (accepts : ∀ n, n < inputs.length →
      ((script p inputs).iAccepts n).isSome = true →
      (script p inputs).iOutstanding n = none ∨
        (script p inputs).iHandsOver n = true) :
    (script p inputs).InstrBus := by
  have idle : ∀ n, ¬ n < inputs.length → (script p inputs).inputs n = {} :=
    fun n beyond => List.getD_eq_default _ _ (Nat.not_lt.mp beyond)
  constructor
  · intro n response
    by_cases within : n < inputs.length
    · exact answers n within response
    · simp [idle n within] at response
  · intro n request
    by_cases within : n < inputs.length
    · exact accepts n within request
    · simp [iAccepts, idle n within] at request

end Run

end SisRv
