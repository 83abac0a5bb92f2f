import SisRv.Core.Bus
import SisRv.Core.SingleStep

/-!
# Requests that wait

What becomes of a request that its port does not accept.  A data request is
presented again unless a single-step stop flushes it.  An instruction request
is presented again as long as the front end may go on fetching and the word is
still the next one it needs.
-/

namespace SisRv

namespace Core

variable {p : Params} (s : Core p) (i : CoreIn)

/-- The address on the instruction port. -/
def iPort : Option (BitVec 32) :=
  if s.iReqValid i then some (s.iReqAddr i) else none

/-- The request on the data port. -/
def dPort : Option BusReq := if s.dReqValid then some s.dReq else none

end Core

namespace Run

variable {p : Params} (r : Run p)

/-- The address on the instruction port in a cycle. -/
def iPresents (n : ℕ) : Option (BitVec 32) := (r.state n).iPort (r.inputs n)

/-- The request on the data port in a cycle. -/
def dPresents (n : ℕ) : Option BusReq := (r.state n).dPort

/-- A request that is not accepted is presented again in the next cycle. -/
structure HoldsRequests : Prop where
  instr : ∀ n addr, r.iPresents n = some addr →
    (r.inputs n).iReqReady = false → r.iPresents (n + 1) = some addr
  data : ∀ n req, r.dPresents n = some req →
    (r.inputs n).dReqReady = false → r.dPresents (n + 1) = some req

/-- The cycle after `n` neither halts nor flushes the front end, ID takes the
instruction that cycle `n` has delivered, and cycle `n` brings neither the
requested word from a prefetch nor the end of a fetch that a flush made
useless. -/
structure FetchGoesOn (n : ℕ) : Prop where
  noHalt : (r.inputs (n + 1)).dbgHaltReq = false
  noStep : (r.inputs (n + 1)).dbgSingleStep = true →
    (r.state (n + 1)).stepActive = true
  noStop : (r.state (n + 1)).wbSingleStepStop = false
  noRedirect : (r.state (n + 1)).exRedirect (r.inputs (n + 1)) = false
  issues : (r.state (n + 1)).fe.ifId.valid = true →
    (r.state (n + 1)).idToExFire (r.inputs (n + 1)) = true
  noPrefetch : (r.state n).fe.ifState = .ifReq →
    (r.state n).pfRspTaken (r.inputs n) = true →
    (r.state n).fe.pfInflightAddr ≠ (r.state n).fe.fetchPc.extractLsb' 2 30
  noDiscard : (r.state n).fe.ifDiscardRsp = true →
    (r.inputs n).iRspValid = false

end Run

/-! ## The data port -/

namespace Core

variable {p : Params} {s : Core p} {i : CoreIn}

theorem amoOldVal_of_requesting (requesting : s.exMemRequesting = true) :
    (s.step i).amoOldVal = s.amoOldVal := by
  simp only [exMemRequesting, Bool.and_eq_true, Bool.or_eq_true,
    beq_iff_eq] at requesting
  apply amoOldVal_of_silent
  apply not_atomicRspOk_of_state
  rcases requesting.2 with (⟨first, -⟩ | waits) | waits <;> simp [*]

theorem dReqValid_of_stop (stop : s.wbSingleStepStop = true) :
    (s.step i).dReqValid = false := by
  have flushed : s.flush i = true := by simp [flush, stop]
  have empty : (s.step i).ex.valid = false := (drained_of_flush flushed).ex
  simp only [dReqValid, exMemRequesting, empty, Bool.false_and]

/-- A data request that waits through a cycle without a stop. -/
theorem dReq_held
    (sound : s.ExSound) (requesting : s.dReqValid = true)
    (refused : i.dReqReady = false) (goes : s.wbSingleStepStop = false) :
    (s.step i).dReqValid = true ∧ (s.step i).dReq = s.dReq := by
  have noReq : s.dataReqFire i = false := by simp [dataReqFire, refused]
  have old := amoOldVal_of_requesting (i := i) requesting
  simp only [dReqValid, exMemRequesting, Bool.and_eq_true, Bool.or_eq_true,
    beq_iff_eq] at requesting
  obtain ⟨valid, phases⟩ := requesting
  have notWaiting : s.dRspReady = false := by
    rcases phases with (⟨first, -⟩ | waits) | waits <;> simp [dRspReady, *]
  have busy : s.exToWbFire i = false := by
    rcases phases with (⟨first, access⟩ | waits) | waits
    · exact not_leave_of_access first access
    · exact not_leave_of_request (Or.inl waits)
    · exact not_leave_of_request (Or.inr waits)
  have quiet := quiet_of_busy valid busy
  have same : SameInstr (s.step i).ex s.ex := exNext_sameInstr s i quiet
  cases s.exCycle i with
  | issued issue next =>
      rw [quiet] at issue
      exact absurd issue (by decide)
  | emptied _ empty cause =>
      rcases cause valid sound.notWb with leaves | drops | stop
      · rw [busy] at leaves
        exact absurd leaves (by decide)
      · simp [exDropsAmo, dataRspFire, notWaiting] at drops
      · rw [goes] at stop
        exact absurd stop (by decide)
  | accesses _ kept _ first access next =>
      rw [noReq] at next
      have address : (s.step i).exMemReqAddr = s.exMemReqAddr := by
        have isAccess := isAccess_of_exMemAccess access
        have result :=
          exExecResult_of_access (sound.coherent valid) isAccess
        simp [exMemReqAddr, next, first, access, result]
      refine ⟨?_, dReq_congr same address ?_ old⟩
      · simp [dReqValid, exMemRequesting, next, valid]
      · simp only [amoStorePhase, step_ex, next, first]
        rfl
  | waits _ kept _ later _ state rdata err next clean move =>
      have stays : state = s.ex.state := by
        cases move with
        | stays => rfl
        | accepted _ fire =>
            rw [noReq] at fire
            exact absurd fire (by decide)
        | amoRead _ _ fire =>
            simp [dataRspFire, notWaiting] at fire
        | amoAccepted _ fire =>
            rw [noReq] at fire
            exact absurd fire (by decide)
      subst stays
      refine ⟨?_, dReq_congr same ?_ ?_ old⟩
      · rcases phases with (⟨first, -⟩ | waits) | waits
        · exact absurd first later
        · simp [dReqValid, exMemRequesting, next, valid, waits]
        · simp [dReqValid, exMemRequesting, next, valid, waits]
      · simp [exMemReqAddr, next, later]
      · simp [amoStorePhase, next]

end Core

/-! ## The instruction port -/

/-- The word a byte address lies in. -/
theorem word_of_two (pc : BitVec 32) :
    (pc + 2).extractLsb' 2 30 = pc.extractLsb' 2 30 ∨
      (pc + 2).extractLsb' 2 30 = pc.extractLsb' 2 30 + 1 := by
  simp only [← BitVec.toNat_inj, BitVec.extractLsb'_toNat, BitVec.toNat_add,
    Nat.shiftRight_eq_div_pow, BitVec.reduceToNat]
  omega

theorem word_of_four (pc : BitVec 32) :
    (pc + 4).extractLsb' 2 30 = pc.extractLsb' 2 30 + 1 := by
  simp only [← BitVec.toNat_inj, BitVec.extractLsb'_toNat, BitVec.toNat_add,
    Nat.shiftRight_eq_div_pow, BitVec.reduceToNat]
  omega

namespace Core

variable {p : Params} {s t : Core p} {i j : CoreIn}

/-- What a delivered instruction leaves to fetch: the rest of its word or the
next word. -/
theorem word_of_nextPc (pc : BitVec 32) (parcel : IfId)
    (at_ : parcel.pc = pc) :
    parcel.nextPc.extractLsb' 2 30 = pc.extractLsb' 2 30 ∨
      parcel.nextPc.extractLsb' 2 30 = pc.extractLsb' 2 30 + 1 := by
  rw [IfId.nextPc, at_, lenBytes]
  split_ifs
  · exact word_of_two pc
  · exact Or.inr (word_of_four pc)

theorem ne_succ_word (word : BitVec 30) : word ≠ word + 1 := by
  simp only [ne_eq, ← BitVec.toNat_inj, BitVec.toNat_add,
    BitVec.reduceToNat]
  have small := word.isLt
  omega

theorem append_injective {a b : BitVec 30}
    (same : (a ++ 0#2 : BitVec 32) = (b ++ 0#2 : BitVec 32)) : a = b := by
  rw [← word_of_append a, same, word_of_append]

/-! ### What the port presents -/

theorem iPort_of_not_accept (blocked : s.ifCanAcceptFetch i = false) :
    s.iPort i = none := by
  simp [iPort, iReqValid, ifReqActive, pfIssue, pfWant, blocked]

/-- The second word of a straddling instruction. -/
theorem iPort_of_second (second : s.fe.ifState = .ifSecondReq) :
    s.iPort i =
      if s.ifCanAcceptFetch i then
        some (s.fe.fetchReqPc.extractLsb' 2 30 + 1 ++ 0#2 : BitVec 32)
      else none := by
  cases accept : s.ifCanAcceptFetch i with
  | false => exact iPort_of_not_accept accept
  | true =>
      have active : s.ifReqActive i = true := by
        simp [ifReqActive, accept, second]
      rw [iPort, iReqValid, iReqAddr, active, Bool.true_or, if_pos rfl,
        if_pos rfl, if_pos second, wordBase_add_four, if_pos rfl]

/-- A full miss. -/
theorem iPort_of_miss
    (first : s.fe.ifState = .ifReq) (miss : s.bufHit = false) :
    s.iPort i =
      if s.ifCanAcceptFetch i then some (wordBase s.fe.fetchPc) else none := by
  cases accept : s.ifCanAcceptFetch i with
  | false => exact iPort_of_not_accept accept
  | true =>
      have active : s.ifReqActive i = true := by
        simp [ifReqActive, accept, first, miss]
      simp [iPort, iReqValid, iReqAddr, active, first]

/-- A hit leaves the port to a prefetch of another word. -/
theorem iPort_of_hit
    (first : s.fe.ifState = .ifReq) (hit : s.bufHit = true) :
    s.iPort i ≠ some (wordBase s.fe.fetchPc) := by
  have idle : s.ifReqActive i = false := by simp [ifReqActive, first, hit]
  intro same
  simp only [iPort, iReqAddr, idle, Bool.false_eq_true, if_false] at same
  split_ifs at same
  have words := append_injective (Option.some.inj same)
  exact ne_succ_word _ words.symm

/-- The word behind the resident one is prefetched, or demanded once the
resident one is used up. -/
theorem iPort_of_resident {word : BitVec 30}
    (first : s.fe.ifState = .ifReq) (resident : s.fe.fbufValid = true)
    (at_ : s.fe.fbufWordAddr = word) (free : s.fe.pfInflight = false)
    (missing : (s.fe.pfValid && s.fe.pfAddr == word + 1) = false)
    (fetch : s.fe.fetchPc.extractLsb' 2 30 = word ∨
      s.fe.fetchPc.extractLsb' 2 30 = word + 1) :
    s.iPort i =
      if s.ifCanAcceptFetch i then some (word + 1 ++ 0#2 : BitVec 32)
      else none := by
  have apart := ne_succ_word word
  rcases fetch with same | next
  · have hit : s.bufHit = true := by
      simp [bufHit, fbufHit, resident, at_, same]
    have target : s.pfTarget = word + 1 := by rw [pfTarget, same]
    have idle : s.ifReqActive i = false := by simp [ifReqActive, first, hit]
    have noBuffer : (s.fe.fbufValid && s.fe.fbufWordAddr == word + 1) =
        false := by
      rw [at_, beq_eq_false_iff_ne.mpr apart, Bool.and_false]
    have issue : s.pfIssue i = s.ifCanAcceptFetch i := by
      rw [pfIssue, pfWant, target, missing, noBuffer, free, idle, first]
      simp
    simp [iPort, iReqValid, iReqAddr, idle, issue, target]
  · have miss : s.bufHit = false := by
      rw [bufHit, fbufHit, pfbufHit, next, missing, at_,
        beq_eq_false_iff_ne.mpr apart, Bool.and_false, Bool.or_false]
    rw [iPort_of_miss first miss, wordBase, next]

/-- A prefetch behind a demand request that is not answered. -/
theorem iPort_of_wait
    (wait : s.fe.ifState = .ifWait) (free : s.fe.pfInflight = false)
    (missing : (s.fe.pfValid && s.fe.pfAddr == s.pfTarget) = false)
    (noBuffer : (s.fe.fbufValid && s.fe.fbufWordAddr == s.pfTarget) =
      false) :
    s.iPort i =
      if s.ifCanAcceptFetch i then some (s.pfTarget ++ 0#2 : BitVec 32)
      else none := by
  have idle : s.ifReqActive i = false := by simp [ifReqActive, wait]
  have issue : s.pfIssue i = s.ifCanAcceptFetch i := by
    simp [pfIssue, pfWant, free, missing, noBuffer, idle, wait]
  simp [iPort, iReqValid, iReqAddr, idle, issue]

/-! ### The cycle of a refused request -/

theorem accept_of_iPort {addr : BitVec 32} (waits : s.iPort i = some addr) :
    s.ifCanAcceptFetch i = true := by
  by_contra blocked
  rw [iPort_of_not_accept (by simpa using blocked)] at waits
  cases waits

theorem not_flush_of_accept (accept : s.ifCanAcceptFetch i = true) :
    s.flush i = false := by
  by_contra flushed
  rw [not_accept_of_flush (by simpa using flushed)] at accept
  exact Bool.false_ne_true accept

theorem not_halted_of_accept (accept : s.ifCanAcceptFetch i = true) :
    (s.step i).halted = false := by
  simp only [ifCanAcceptFetch, Bool.and_eq_true, Bool.not_eq_true'] at accept
  simp [haltedNext, accept.1.1.1.1.1, accept.1.1.1.1.2, accept.1.1.2]

/-- The front end of a core that is not halted. -/
theorem accept_iff (running : s.halted = false) :
    s.ifCanAcceptFetch i = true ↔
      i.dbgHaltReq = false ∧ (i.dbgSingleStep = true → s.stepActive = true) ∧
        s.wbSingleStepStop = false ∧ s.exRedirect i = false ∧
        (s.fe.ifId.valid = true → s.idToExFire i = true) := by
  simp only [ifCanAcceptFetch, running, Bool.and_eq_true, Bool.or_eq_true,
    Bool.not_eq_true', true_and, and_assoc, Bool.not_false]
  cases i.dbgSingleStep <;> cases s.fe.ifId.valid <;> simp

section Refused

variable (accept : s.ifCanAcceptFetch i = true)
  (refused : i.iReqReady = false)
include accept refused

/-- No word is consumed and no response ends a wait. -/
theorem fe_of_quiet
    (noWord : s.ifWordReady i = false) (noRsp : s.ifRspFire i = false) :
    (s.feNext i).ifState = s.fe.ifState ∧
      (s.feNext i).fetchPc = s.fe.fetchPc ∧
      (s.feNext i).fetchReqPc = s.fe.fetchReqPc ∧
      (s.feNext i).fbufValid = s.fe.fbufValid ∧
      (s.feNext i).fbufWordAddr = s.fe.fbufWordAddr ∧
      (s.feNext i).pfValid = (s.pfRspTaken i || s.fe.pfValid) := by
  have kept := not_flush_of_accept accept
  have noReq : s.ifReqFire i = false := by simp [ifReqFire, refused]
  have noTake : s.ifRspTaken i = false := by simp [ifRspTaken, noRsp]
  have noSecond : s.ifSecondReady i = false := by
    simp [ifSecondReady, noTake]
  have noEmit : s.ifWordEmits i = false := by simp [ifWordEmits, noWord]
  have noServe : s.ifServeBuf i = false := by
    simp only [ifWordReady, Bool.or_eq_false_iff] at noWord
    exact noWord.2
  have noPromote : s.ifServePf i = false := by simp [ifServePf, noServe]
  simp [fe_ifState, fe_fetchPc, fe_fetchReqPc, fe_fbufValid,
    fe_fbufWordAddr, fe_pfValid, kept, noReq, noTake, noSecond, noEmit,
    noPromote, noWord, noRsp, ifProduces]

theorem held_of_miss
    (first : s.fe.ifState = .ifReq) (miss : s.bufHit = false) :
    (s.step i).iPort j = some (wordBase s.fe.fetchPc) ↔
      (s.step i).ifCanAcceptFetch j = true ∧
        ¬ (s.pfRspTaken i = true ∧
          s.fe.pfInflightAddr = s.fe.fetchPc.extractLsb' 2 30) := by
  have free := not_waiting_of_ifReq first
  obtain ⟨state, fetch, -, buffer, bufferAddr, slot⟩ :=
    fe_of_quiet accept refused
      (by simp [ifWordReady, ifRspTaken, ifRspFire, free, ifServeBuf, miss])
      (by simp [ifRspFire, free])
  have before : (s.fe.fbufValid &&
        s.fe.fbufWordAddr == s.fe.fetchPc.extractLsb' 2 30) = false ∧
      (s.fe.pfValid && s.fe.pfAddr == s.fe.fetchPc.extractLsb' 2 30) =
        false := by
    simpa only [bufHit, fbufHit, pfbufHit, Bool.or_eq_false_iff] using miss
  have hit : (s.step i).bufHit =
      (s.pfRspTaken i &&
        s.fe.pfInflightAddr == s.fe.fetchPc.extractLsb' 2 30) := by
    rw [bufHit, fbufHit, pfbufHit, step_fe, buffer, bufferAddr, slot, fetch,
      fe_pfAddr, before.1, Bool.false_or]
    cases s.pfRspTaken i with
    | false => simp only [Bool.false_or, Bool.false_eq_true, if_false,
        before.2, Bool.false_and]
    | true => simp only [Bool.true_or, if_true, Bool.true_and]
  rw [← fetch]
  by_cases arrives : (s.step i).bufHit = true
  · have arrived := arrives
    rw [hit, Bool.and_eq_true, beq_iff_eq] at arrives
    constructor
    · intro same
      exact absurd same (iPort_of_hit (by rw [step_fe, state, first]) arrived)
    · rintro ⟨-, away⟩
      rw [fetch] at away
      exact absurd arrives away
  · rw [iPort_of_miss (by rw [step_fe, state, first]) (by simpa using arrives)]
    rw [hit, Bool.and_eq_true, beq_iff_eq] at arrives
    rw [fetch]
    simp [arrives, fetch]

theorem held_of_second (second : s.fe.ifState = .ifSecondReq) :
    (s.step i).iPort j = some (wordBase s.fe.fetchReqPc + 4) ↔
      (s.step i).ifCanAcceptFetch j = true := by
  obtain ⟨state, -, anchor, -⟩ :=
    fe_of_quiet accept refused
      (by simp [ifWordReady, ifRspTaken, ifRspFire, ifWaiting, ifServeBuf,
        second])
      (by simp [ifRspFire, ifWaiting, second])
  rw [iPort_of_second (by rw [step_fe, state, second]), step_fe, anchor,
    wordBase_add_four]
  simp

section Prefetch

variable (free : s.fe.pfInflight = false)
  (missing : (s.fe.pfValid && s.fe.pfAddr == s.pfTarget) = false)
include free missing

/-- The word in front of the prefetch is consumed. -/
theorem held_of_word
    (sound : s.FeSound) (word : s.ifWordReady i = true) :
    (s.step i).iPort j = some (s.pfTarget ++ 0#2 : BitVec 32) ↔
      (s.step i).ifCanAcceptFetch j = true := by
  have kept := not_flush_of_accept accept
  have noPfRsp : s.pfRspFire i = false := by simp [pfRspFire, free]
  have noPfReq : s.pfReqFire i = false := by simp [pfReqFire, refused]
  have at_ := ifWordPc_eq sound word
  by_cases emits : s.ifWordEmits i = true
  · have produces : s.ifProduces i = true := by simp [ifProduces, emits]
    have state : (s.step i).fe.ifState = .ifReq := by
      simp [fe_ifState, kept, word, emits, not_second_of_word word]
    have slot : ((s.step i).fe.pfValid &&
        (s.step i).fe.pfAddr == s.pfTarget) = false := by
      have keeps : s.pfRspTaken i = false := by simp [pfRspTaken, noPfRsp]
      rw [step_fe, fe_pfValid, fe_pfAddr, keeps, Bool.false_or,
        Bool.and_assoc, if_neg Bool.false_ne_true, missing, Bool.and_false]
    have buffer : (s.step i).fe.fbufValid = true ∧
        (s.step i).fe.fbufWordAddr = s.fe.fetchPc.extractLsb' 2 30 := by
      rw [step_fe, fe_fbufValid, fe_fbufWordAddr, kept]
      rcases source_of_word word with ⟨taken, wait, -⟩ | serve
      · have anchor := sound.fetchReqPc (by simp [wait])
          (rspFire_of_taken taken).2
        simp [taken, rspWordAddr, wait, anchor]
      · have idle := not_waiting_of_ifReq (ifReq_of_serveBuf serve)
        have noTake : s.ifRspTaken i = false := by
          simp [ifRspTaken, ifRspFire, idle]
        simp only [ifServeBuf, bufHit, Bool.and_eq_true] at serve
        by_cases hit : s.fbufHit = true
        · have noPromote : s.ifServePf i = false := by
            simp [ifServePf, hit]
          simp only [fbufHit, Bool.and_eq_true, beq_iff_eq] at hit
          simp [noTake, noPromote, hit]
        · have slotHit : s.pfbufHit = true := by simpa [hit] using serve.2
          have promote : s.ifServePf i = true := by
            simp [ifServePf, ifServeBuf, bufHit, serve, hit, slotHit]
          simp only [pfbufHit, Bool.and_eq_true, beq_iff_eq] at slotHit
          simp [noTake, promote, slotHit]
    have fetch : (s.step i).fe.fetchPc = (s.delivered i).nextPc := by
      simp [fe_fetchPc, kept, produces]
    rw [iPort_of_resident state buffer.1 buffer.2
      (by simp [fe_pfInflight, noPfRsp, noPfReq, free]) slot
      (by rw [fetch]; exact word_of_nextPc _ _ (delivered_pc sound produces))]
    simp [pfTarget]
  · have noEmit : s.ifWordEmits i = false := by simpa using emits
    have state : (s.step i).fe.ifState = .ifSecondReq := by
      simp [fe_ifState, kept, word, noEmit, not_second_of_word word]
    have anchor : (s.step i).fe.fetchReqPc = s.fe.fetchPc := by
      simp [fe_fetchReqPc, word, noEmit, at_]
    rw [iPort_of_second state, anchor]
    simp [pfTarget]

/-- The response in front of the prefetch does not come. -/
theorem held_of_wait
    (noBuffer : (s.fe.fbufValid && s.fe.fbufWordAddr == s.pfTarget) = false)
    (wait : s.fe.ifState = .ifWait) (silent : i.iRspValid = false) :
    (s.step i).iPort j = some (s.pfTarget ++ 0#2 : BitVec 32) ↔
      (s.step i).ifCanAcceptFetch j = true := by
  obtain ⟨state, fetch, -, buffer, bufferAddr, slot⟩ :=
    fe_of_quiet accept refused
      (by simp [ifWordReady, ifRspTaken, ifRspFire, silent, ifServeBuf, wait])
      (by simp [ifRspFire, silent])
  have keeps : s.pfRspTaken i = false := by
    simp [pfRspTaken, pfRspFire, free]
  have target : (s.step i).pfTarget = s.pfTarget := by
    rw [pfTarget, step_fe, fetch, pfTarget]
  rw [iPort_of_wait (by rw [step_fe, state, wait])
    (by simp [fe_pfInflight, free, pfReqFire, refused])
    (by rw [target, step_fe, slot, fe_pfAddr, keeps, Bool.false_or,
      if_neg Bool.false_ne_true, missing])
    (by rw [target, step_fe, buffer, bufferAddr, noBuffer]), target]
  simp

end Prefetch

end Refused

/-! ### Useless fetches -/

/-- While the response of a flushed fetch is awaited no word is resident. -/
def DiscardsClean (s : Core p) : Prop :=
  s.fe.ifDiscardRsp = true →
    s.fe.fbufValid = false ∧ s.fe.pfValid = false

theorem discardsClean_step
    (sound : s.FeSound) (clean : s.DiscardsClean) :
    (s.step i).DiscardsClean := by
  intro discards
  rw [step_fe, fe_ifDiscardRsp] at discards
  rw [step_fe, fe_fbufValid, fe_pfValid]
  by_cases flushed : s.flush i = true
  · simp [flushed]
  · rw [if_neg flushed, Bool.and_eq_true, Bool.not_eq_true'] at discards
    obtain ⟨noRsp, discard⟩ := discards
    have waiting := sound.discard discard
    have noServe : s.ifServeBuf i = false := by
      by_contra serve
      have idle := ifReq_of_serveBuf (s := s) (i := i) (by simpa using serve)
      rw [not_waiting_of_ifReq idle] at waiting
      exact Bool.false_ne_true waiting
    simp [ifRspTaken, noRsp, ifServePf, noServe, clean discard, pfRspTaken,
      pfRspFire, waiting]

/-- The end of a useless fetch turns the port to the new path. -/
theorem not_held_of_discard
    (accept : s.ifCanAcceptFetch i = true) (sound : s.FeSound)
    (clean : s.DiscardsClean) (discard : s.fe.ifDiscardRsp = true)
    (response : i.iRspValid = true) :
    (s.step i).iPort j ≠ some (s.pfTarget ++ 0#2 : BitVec 32) := by
  have kept := not_flush_of_accept accept
  have waiting := sound.discard discard
  have fire : s.ifRspFire i = true := by simp [ifRspFire, response, waiting]
  have noTake : s.ifRspTaken i = false := by simp [ifRspTaken, discard]
  have noServe : s.ifServeBuf i = false := by
    rcases wait_or_secondWait waiting with wait | wait <;>
      simp [ifServeBuf, wait]
  have noWord : s.ifWordReady i = false := by
    simp [ifWordReady, noTake, noServe]
  have noSecond : s.ifSecondReady i = false := by
    simp [ifSecondReady, noTake]
  have noPfRsp : s.pfRspTaken i = false := by
    simp [pfRspTaken, pfRspFire, waiting]
  have state : (s.step i).fe.ifState = .ifReq := by
    simp [fe_ifState, kept, noSecond, noWord, fire, discard]
  have miss : (s.step i).bufHit = false := by
    simp [bufHit, fbufHit, pfbufHit, fe_fbufValid, fe_pfValid, noTake,
      ifServePf, noServe, noPfRsp, clean discard]
  have fetch : (s.step i).fe.fetchPc = s.fe.fetchPc := by
    simp [fe_fetchPc, kept, ifProduces, ifWordEmits, noWord, noSecond]
  rw [iPort_of_miss state miss, fetch]
  split_ifs
  · intro same
    exact ne_succ_word _ (append_injective (Option.some.inj same))
  · exact (Option.some_ne_none _).symm

/-- The cycle of the request allows its fetch to go on. -/
structure Undisturbed (s : Core p) (i : CoreIn) : Prop where
  noPrefetch : s.fe.ifState = .ifReq → s.pfRspTaken i = true →
    s.fe.pfInflightAddr ≠ s.fe.fetchPc.extractLsb' 2 30
  noDiscard : s.fe.ifDiscardRsp = true → i.iRspValid = false

section Held

variable (sound : s.FeSound) (refused : i.iReqReady = false)
include sound refused

theorem held_of_demand
    (active : s.ifReqActive i = true) :
    (s.step i).iPort j = s.iPort i ↔
      (s.step i).ifCanAcceptFetch j = true ∧ s.Undisturbed i := by
  have presents : s.iPort i = some (s.iReqAddr i) := by
    simp [iPort, iReqValid, active]
  simp only [ifReqActive, Bool.and_eq_true, Bool.or_eq_true, beq_iff_eq,
    Bool.not_eq_true'] at active
  obtain ⟨accept, ⟨first, miss⟩ | second⟩ := active
  · have noDiscard : s.fe.ifDiscardRsp = true → i.iRspValid = false := by
      intro discard
      have waiting := sound.discard discard
      rw [not_waiting_of_ifReq first] at waiting
      exact absurd waiting Bool.false_ne_true
    rw [iPort_of_miss first miss, if_pos accept,
      held_of_miss accept refused first miss]
    refine and_congr_right fun _ => ?_
    constructor
    · intro away
      exact ⟨fun _ arrives same => away ⟨arrives, same⟩, noDiscard⟩
    · rintro undisturbed ⟨arrives, same⟩
      exact undisturbed.noPrefetch first arrives same
  · have undisturbed : s.Undisturbed i := by
      constructor
      · intro first
        rw [first] at second
        cases second
      · intro discard
        have waiting := sound.discard discard
        simp [ifWaiting, second] at waiting
    rw [iPort_of_second second, if_pos accept, ← wordBase_add_four,
      held_of_second accept refused second]
    simp [undisturbed]

theorem held_of_prefetch
    (clean : s.DiscardsClean) (idle : s.ifReqActive i = false)
    (issue : s.pfIssue i = true) :
    (s.step i).iPort j = s.iPort i ↔
      (s.step i).ifCanAcceptFetch j = true ∧ s.Undisturbed i := by
  have presents : s.iPort i = some (s.pfTarget ++ 0#2 : BitVec 32) := by
    simp [iPort, iReqValid, iReqAddr, issue, idle]
  simp only [pfIssue, pfWant, Bool.and_eq_true, Bool.not_eq_true',
    Bool.or_eq_true, beq_iff_eq] at issue
  obtain ⟨⟨⟨⟨⟨accept, free⟩, missing⟩, noBuffer⟩, -⟩, states⟩ := issue
  have noPrefetch : s.fe.ifState = .ifReq → s.pfRspTaken i = true →
      s.fe.pfInflightAddr ≠ s.fe.fetchPc.extractLsb' 2 30 := by
    intro _ arrives
    simp [pfRspTaken, pfRspFire, free] at arrives
  rw [presents]
  rcases states with first | wait
  · have hit : s.bufHit = true := by
      simpa [ifReqActive, accept, first] using idle
    have serve : s.ifServeBuf i = true := by
      simp [ifServeBuf, accept, first, hit]
    have undisturbed : s.Undisturbed i := by
      refine ⟨noPrefetch, fun discard => ?_⟩
      have waiting := sound.discard discard
      rw [not_waiting_of_ifReq first] at waiting
      exact absurd waiting Bool.false_ne_true
    rw [held_of_word accept refused free missing sound
      (by simp [ifWordReady, serve])]
    simp [undisturbed]
  · cases response : i.iRspValid with
    | false =>
        have undisturbed : s.Undisturbed i :=
          ⟨noPrefetch, fun _ => response⟩
        rw [held_of_wait accept refused free missing noBuffer wait response]
        simp [undisturbed]
    | true =>
        cases discard : s.fe.ifDiscardRsp with
        | false =>
            have undisturbed : s.Undisturbed i := by
              refine ⟨noPrefetch, fun bad => ?_⟩
              rw [discard] at bad
              exact absurd bad Bool.false_ne_true
            have word : s.ifWordReady i = true := by
              simp [ifWordReady, ifRspTaken, ifRspFire, ifWaiting, response,
                wait, discard]
            rw [held_of_word accept refused free missing sound word]
            simp [undisturbed]
        | true =>
            constructor
            · intro same
              exact absurd same
                (not_held_of_discard accept sound clean discard response)
            · rintro ⟨-, undisturbed⟩
              have silent := undisturbed.noDiscard discard
              rw [response] at silent
              exact absurd silent.symm Bool.false_ne_true

/-- A request that waits stays exactly if the front end may go on fetching
and its word is still needed. -/
theorem held_iff
    (clean : s.DiscardsClean) (waits : s.iReqValid i = true) :
    (s.step i).iPort j = s.iPort i ↔
      (s.step i).ifCanAcceptFetch j = true ∧ s.Undisturbed i := by
  cases active : s.ifReqActive i with
  | true => exact held_of_demand sound refused active
  | false =>
      have issue : s.pfIssue i = true := by
        simpa [iReqValid, active] using waits
      exact held_of_prefetch sound refused clean active issue

end Held

end Core

namespace Run

variable {p : Params} (r : Run p)

theorem discardsClean (n : ℕ) : (r.state n).DiscardsClean := by
  induction n with
  | zero =>
      intro discards
      exact absurd discards (by simp [state_zero, Core.reset, FrontEnd.reset])
  | succ n inductionHypothesis =>
      rw [state_succ]
      exact Core.discardsClean_step (r.feSound n) inductionHypothesis

theorem fetchGoesOn_iff {r : Run p} {n : ℕ}
    (accept : (r.state n).ifCanAcceptFetch (r.inputs n) = true) :
    r.FetchGoesOn n ↔
      (r.state (n + 1)).ifCanAcceptFetch (r.inputs (n + 1)) = true ∧
        (r.state n).Undisturbed (r.inputs n) := by
  have goesOn := Core.accept_iff (i := r.inputs (n + 1))
    (Core.not_halted_of_accept accept)
  rw [← state_succ] at goesOn
  rw [goesOn]
  constructor
  · intro fetch
    exact ⟨⟨fetch.noHalt, fetch.noStep, fetch.noStop, fetch.noRedirect,
      fetch.issues⟩, fetch.noPrefetch, fetch.noDiscard⟩
  · rintro ⟨⟨noHalt, noStep, noStop, noRedirect, issues⟩, undisturbed⟩
    exact ⟨noHalt, noStep, noStop, noRedirect, issues,
      undisturbed.noPrefetch, undisturbed.noDiscard⟩

/-- An instruction request that waits is held exactly if its fetch goes on. -/
theorem iPresents_iff {n : ℕ} {addr : BitVec 32}
    (waits : r.iPresents n = some addr)
    (refused : (r.inputs n).iReqReady = false) :
    r.iPresents (n + 1) = some addr ↔ r.FetchGoesOn n := by
  have accept := Core.accept_of_iPort waits
  have valid : (r.state n).iReqValid (r.inputs n) = true := by
    by_contra silent
    simp [iPresents, Core.iPort, silent] at waits
  rw [fetchGoesOn_iff accept, ← waits]
  exact Core.held_iff (r.feSound n) refused (r.discardsClean n) valid

/-- A data request that waits is held exactly if no stop flushes it. -/
theorem dPresents_iff {n : ℕ} {req : BusReq}
    (waits : r.dPresents n = some req)
    (refused : (r.inputs n).dReqReady = false) :
    r.dPresents (n + 1) = some req ↔
      (r.state n).wbSingleStepStop = false := by
  have valid : (r.state n).dReqValid = true := by
    by_contra silent
    simp [dPresents, Core.dPort, silent] at waits
  constructor
  · intro held
    by_contra stop
    have gone := Core.dReqValid_of_stop (i := r.inputs n)
      (by simpa using stop)
    rw [← state_succ] at gone
    simp [dPresents, Core.dPort, gone] at held
  · intro goes
    obtain ⟨still, same⟩ := Core.dReq_held (r.exSound n) valid refused goes
    rw [← waits, dPresents, dPresents, Core.dPort, Core.dPort, valid,
      state_succ, still, same]

/-- No stop flushes a waiting data request and every waiting fetch goes on. -/
structure KeepsRequests : Prop where
  fetch : ∀ n, (r.iPresents n).isSome → (r.inputs n).iReqReady = false →
    r.FetchGoesOn n
  access : ∀ n, (r.dPresents n).isSome → (r.inputs n).dReqReady = false →
    (r.state n).wbSingleStepStop = false

theorem holdsRequests_iff : r.HoldsRequests ↔ r.KeepsRequests := by
  constructor
  · intro holds
    constructor
    · intro n presents refused
      obtain ⟨addr, waits⟩ := Option.isSome_iff_exists.mp presents
      exact (r.iPresents_iff waits refused).mp
        (holds.instr n addr waits refused)
    · intro n presents refused
      obtain ⟨req, waits⟩ := Option.isSome_iff_exists.mp presents
      exact (r.dPresents_iff waits refused).mp
        (holds.data n req waits refused)
  · intro keeps
    constructor
    · intro n addr waits refused
      exact (r.iPresents_iff waits refused).mpr
        (keeps.fetch n (by simp [waits]) refused)
    · intro n req waits refused
      exact (r.dPresents_iff waits refused).mpr
        (keeps.access n (by simp [waits]) refused)

/-- The first fetch after reset is withdrawn by a halt request. -/
theorem not_holdsRequests :
    ¬ ∀ r : Run {}, r.HoldsRequests := by
  intro holds
  have held := (holds (script {} [{}, { dbgHaltReq := true }])).instr 0 0
    (by decide) rfl
  exact absurd held (by decide)

end Run

end SisRv
