import SisRv.Core.Run

/-!
# The front end after a clock edge

Every register of the IF stage after an edge, as a chain of conditions with
the last assignment of the source first.  Later modules use these equations
and never unfold the assignment blocks.
-/

namespace SisRv

/-- The instruction delivered from one word at `pc`, when it lies in it. -/
def wordParcel (enableC : Bool) (pc data : BitVec 32) (err : Bool) : IfId :=
  if err then Core.faultedParcel pc
  else if pc.getLsbD 1 then Core.compressedParcel pc (data.extractLsb' 16 16)
  else if enableC && data.extractLsb' 0 2 != 0b11 then
    Core.compressedParcel pc (data.extractLsb' 0 16)
  else Core.fullParcel pc data false

/-- The address after a parcel. -/
def IfId.nextPc (parcel : IfId) : BitVec 32 :=
  parcel.pc + lenBytes parcel.len

@[simp]
theorem nextPc_faultedParcel (pc : BitVec 32) :
    (Core.faultedParcel pc).nextPc = pc + 4 := rfl

@[simp]
theorem nextPc_compressedParcel (pc : BitVec 32) (half : BitVec 16) :
    (Core.compressedParcel pc half).nextPc = pc + 2 := rfl

@[simp]
theorem nextPc_fullParcel (pc raw : BitVec 32) (err : Bool) :
    (Core.fullParcel pc raw err).nextPc = pc + 4 := rfl

@[simp]
theorem wordParcel_pc (enableC : Bool) (pc data : BitVec 32) (err : Bool) :
    (wordParcel enableC pc data err).pc = pc := by
  unfold wordParcel
  split_ifs <;> rfl

@[simp]
theorem wordParcel_valid (enableC : Bool) (pc data : BitVec 32) (err : Bool) :
    (wordParcel enableC pc data err).valid = true := by
  unfold wordParcel
  split_ifs <;> rfl

@[simp]
theorem wordParcel_fetchErr
    (enableC : Bool) (pc data : BitVec 32) (err : Bool) :
    (wordParcel enableC pc data err).fetchErr = err := by
  unfold wordParcel
  split_ifs with faulted <;>
    simp_all [Core.faultedParcel, Core.compressedParcel, Core.fullParcel]

namespace Core

variable {p : Params} (s : Core p) (i : CoreIn) (f : FrontEnd)

/-- The instruction that IF places into IF/ID when it produces one. -/
def delivered : IfId :=
  if s.ifSecondReady i then
    fullParcel s.fe.fetchReqPc
      (i.iRspRdata.extractLsb' 0 16 ++ s.fe.fetchUpperHold : BitVec 32)
      (s.fe.fetchErrHold || s.iRspFault i)
  else wordParcel p.enableC (s.ifWordPc i) (s.ifWordData i) (s.ifWordErr i)

@[simp]
theorem delivered_valid : (s.delivered i).valid = true := by
  unfold delivered
  split_ifs
  · rfl
  · simp

/-! ## What excludes what -/

section Exclusion

variable {s i}

theorem serveBuf_of_flush (flushed : s.flush i = true) :
    s.ifServeBuf i = false := by
  simp [ifServeBuf, not_accept_of_flush flushed]

theorem reqFire_of_flush (flushed : s.flush i = true) :
    s.ifReqFire i = false := by
  simp [ifReqFire, ifReqActive, not_accept_of_flush flushed]

theorem pfReqFire_of_flush (flushed : s.flush i = true) :
    s.pfReqFire i = false := by
  simp [pfReqFire, pfIssue, pfWant, not_accept_of_flush flushed]

theorem ifReq_of_serveBuf (serve : s.ifServeBuf i = true) :
    s.fe.ifState = .ifReq := by
  simp only [ifServeBuf, Bool.and_eq_true, beq_iff_eq] at serve
  exact serve.1.2

theorem accept_of_serveBuf (serve : s.ifServeBuf i = true) :
    s.ifCanAcceptFetch i = true := by
  simp only [ifServeBuf, Bool.and_eq_true] at serve
  exact serve.1.1

theorem accept_of_reqFire (fire : s.ifReqFire i = true) :
    s.ifCanAcceptFetch i = true := by
  simp only [ifReqFire, ifReqActive, Bool.and_eq_true] at fire
  exact fire.1.1

/-- The front end accepts only when IF/ID is empty or being emptied. -/
theorem free_of_accept (accept : s.ifCanAcceptFetch i = true) :
    s.fe.ifId.valid = false ∨ s.idToExFire i = true := by
  simp only [ifCanAcceptFetch, Bool.and_eq_true, Bool.or_eq_true,
    Bool.not_eq_true'] at accept
  exact accept.2

theorem not_waiting_of_ifReq (idle : s.fe.ifState = .ifReq) :
    s.ifWaiting = false := by
  simp [ifWaiting, idle]

theorem not_second_of_word (ready : s.ifWordReady i = true) :
    s.ifSecondReady i = false := by
  simp only [ifWordReady, Bool.or_eq_true, Bool.and_eq_true,
    beq_iff_eq] at ready
  rcases ready with ⟨-, wait⟩ | serve
  · simp [ifSecondReady, wait]
  · simp [ifSecondReady, ifReq_of_serveBuf serve]

theorem not_reqFire_of_taken (taken : s.ifRspTaken i = true) :
    s.ifReqFire i = false := by
  simp only [ifRspTaken, ifRspFire, ifWaiting, Bool.and_eq_true,
    Bool.or_eq_true, beq_iff_eq] at taken
  rcases taken.1.2 with wait | wait <;>
    simp [ifReqFire, ifReqActive, wait]

theorem not_reqFire_of_serveBuf (serve : s.ifServeBuf i = true) :
    s.ifReqFire i = false := by
  have idle := ifReq_of_serveBuf serve
  simp only [ifServeBuf, Bool.and_eq_true] at serve
  simp [ifReqFire, ifReqActive, idle, serve.2]

theorem not_pfReqFire_of_inflight (inflight : s.fe.pfInflight = true) :
    s.pfReqFire i = false := by
  simp [pfReqFire, pfIssue, pfWant, inflight]

theorem inflight_of_pfRspFire (fire : s.pfRspFire i = true) :
    s.fe.pfInflight = true := by
  simp only [pfRspFire, Bool.and_eq_true] at fire
  exact fire.1.1

/-- In a flush cycle a word can only come from a response. -/
theorem word_of_flush (flushed : s.flush i = true) :
    s.ifWordReady i = (s.ifRspTaken i && s.fe.ifState == .ifWait) := by
  simp [ifWordReady, serveBuf_of_flush flushed]

end Exclusion

/-! ## The assignments before the flush -/

/-- The front end after the blocks that precede the flushes. -/
def feAssembled : FrontEnd :=
  s.assembleSecond i <| s.assembleWord i <| s.fillBuffer i <|
    s.dropResponse i <| s.promotePrefetch i <| s.takePrefetch i <|
    s.acceptPrefetch i <| s.acceptDemand i s.fe

theorem feNext_of_flush (flushed : s.flush i = true) :
    s.feNext i =
      s.flushFetch i (s.flushTarget i) (s.feAssembled i) := by
  have quiet := not_issue_of_flush flushed
  simp only [flush, Bool.or_eq_true] at flushed
  simp only [feNext, issueFetch, quiet, Bool.false_and,
    Bool.false_eq_true, if_false, stopFetch, redirectFetch, flushTarget,
    feAssembled]
  rcases flushed with redirect | stop
  · simp [redirect, not_stop_of_redirect redirect]
  · have still : s.exRedirect i = false := by
      simp [exRedirect, stop]
    simp [stop, still]

theorem feNext_of_not_flush (kept : s.flush i = false) :
    s.feNext i = s.issueFetch i (s.feAssembled i) := by
  simp only [flush, Bool.or_eq_false_iff] at kept
  simp [feNext, stopFetch, redirectFetch, kept, feAssembled]

theorem assembleWord_ifState :
    (s.assembleWord i f).ifState =
      if s.ifWordReady i then
        if s.ifWordEmits i then .ifReq else .ifSecondReq
      else f.ifState := by
  unfold assembleWord ifWordEmits
  dsimp only
  split_ifs <;> simp_all

theorem assembleWord_ifId :
    (s.assembleWord i f).ifId =
      if s.ifWordEmits i then
        wordParcel p.enableC (s.ifWordPc i) (s.ifWordData i) (s.ifWordErr i)
      else f.ifId := by
  unfold assembleWord ifWordEmits wordParcel
  dsimp only
  split_ifs <;> simp_all

theorem assembleWord_fetchPc :
    (s.assembleWord i f).fetchPc =
      if s.ifWordEmits i then
        (wordParcel p.enableC (s.ifWordPc i) (s.ifWordData i)
          (s.ifWordErr i)).nextPc
      else f.fetchPc := by
  unfold assembleWord ifWordEmits wordParcel
  dsimp only
  split_ifs <;> simp_all

theorem assembleWord_fetchReqPc :
    (s.assembleWord i f).fetchReqPc =
      if s.ifWordReady i && !s.ifWordEmits i then s.ifWordPc i
      else f.fetchReqPc := by
  unfold assembleWord ifWordEmits
  dsimp only
  split_ifs <;> simp_all

theorem assembleWord_fetchUpperHold :
    (s.assembleWord i f).fetchUpperHold =
      if s.ifWordReady i && !s.ifWordEmits i then
        (s.ifWordData i).extractLsb' 16 16
      else f.fetchUpperHold := by
  unfold assembleWord ifWordEmits
  dsimp only
  split_ifs <;> simp_all

theorem assembleWord_fetchErrHold :
    (s.assembleWord i f).fetchErrHold =
      if s.ifWordReady i then s.ifWordErr i else f.fetchErrHold := by
  unfold assembleWord
  dsimp only
  split_ifs <;> simp_all

theorem assembleWord_frame :
    (s.assembleWord i f).ifDiscardRsp = f.ifDiscardRsp ∧
      (s.assembleWord i f).fbufValid = f.fbufValid ∧
      (s.assembleWord i f).fbufWordAddr = f.fbufWordAddr ∧
      (s.assembleWord i f).fbufData = f.fbufData ∧
      (s.assembleWord i f).fbufErr = f.fbufErr ∧
      (s.assembleWord i f).pfValid = f.pfValid ∧
      (s.assembleWord i f).pfAddr = f.pfAddr ∧
      (s.assembleWord i f).pfData = f.pfData ∧
      (s.assembleWord i f).pfErr = f.pfErr ∧
      (s.assembleWord i f).pfInflight = f.pfInflight ∧
      (s.assembleWord i f).pfInflightAddr = f.pfInflightAddr ∧
      (s.assembleWord i f).pfDiscard = f.pfDiscard := by
  unfold assembleWord
  dsimp only
  split_ifs <;> simp

/-! ## The flush -/

/-- The demand FSM waits for a response that does not arrive this cycle. -/
def ifStillWaiting : Bool := s.ifWaiting && !s.ifRspFire i

theorem flushFetch_ifState (target : BitVec 32) :
    (s.flushFetch i target f).ifState =
      if s.ifStillWaiting i then f.ifState else .ifReq := by
  unfold flushFetch ifStillWaiting
  dsimp only
  rw [apply_ite FrontEnd.ifState]

/-- The registers a flush assigns, apart from the FSM state. -/
theorem flushFetch_assigns (target : BitVec 32) :
    (s.flushFetch i target f).ifDiscardRsp = s.ifStillWaiting i ∧
      (s.flushFetch i target f).fetchPc = target ∧
      (s.flushFetch i target f).ifId.valid = false ∧
      (s.flushFetch i target f).fetchUpperHold = 0 ∧
      (s.flushFetch i target f).fetchErrHold = false ∧
      (s.flushFetch i target f).fbufValid = false ∧
      (s.flushFetch i target f).pfValid = false ∧
      (s.flushFetch i target f).pfDiscard =
        (s.fe.pfInflight && !s.pfRspFire i || f.pfDiscard) := by
  unfold flushFetch ifStillWaiting
  dsimp only
  by_cases waiting : (s.ifWaiting && !s.ifRspFire i) = true <;>
    by_cases inflight : (s.fe.pfInflight && !s.pfRspFire i) = true <;>
      simp [waiting, inflight]

theorem flushFetch_frame (target : BitVec 32) :
    (s.flushFetch i target f).fetchReqPc = f.fetchReqPc ∧
      (s.flushFetch i target f).fbufWordAddr = f.fbufWordAddr ∧
      (s.flushFetch i target f).fbufData = f.fbufData ∧
      (s.flushFetch i target f).fbufErr = f.fbufErr ∧
      (s.flushFetch i target f).pfAddr = f.pfAddr ∧
      (s.flushFetch i target f).pfData = f.pfData ∧
      (s.flushFetch i target f).pfErr = f.pfErr ∧
      (s.flushFetch i target f).pfInflight = f.pfInflight ∧
      (s.flushFetch i target f).pfInflightAddr = f.pfInflightAddr := by
  unfold flushFetch
  dsimp only
  by_cases waiting : (s.ifWaiting && !s.ifRspFire i) = true <;>
    simp [waiting]

/-- A register other than IF/ID is what the last of the blocks left in it. -/
theorem feNext_register
    {Value : Type} (register : FrontEnd → Value)
    (blind : ∀ f v,
      register { f with ifId := { f.ifId with valid := v } } = register f) :
    register (s.feNext i) =
      if s.flush i then
        register (s.flushFetch i (s.flushTarget i) (s.feAssembled i))
      else register (s.feAssembled i) := by
  by_cases flushed : s.flush i = true
  · rw [feNext_of_flush s i flushed, if_pos flushed]
  · rw [feNext_of_not_flush s i (by simpa using flushed), if_neg flushed]
    unfold issueFetch
    split_ifs
    · exact blind _ _
    · rfl

/-! ## The registers after the edge -/

theorem fe_ifState :
    (s.feNext i).ifState =
      if s.flush i then
        if s.ifStillWaiting i then s.fe.ifState else .ifReq
      else if s.ifSecondReady i then .ifReq
      else if s.ifWordReady i then
        if s.ifWordEmits i then .ifReq else .ifSecondReq
      else if s.ifRspFire i && s.fe.ifDiscardRsp then .ifReq
      else if s.ifReqFire i then
        if s.fe.ifState = .ifReq then .ifWait else .ifSecondWait
      else s.fe.ifState := by
  have assembled :
      (s.feAssembled i).ifState =
        if s.ifSecondReady i then .ifReq
        else if s.ifWordReady i then
          if s.ifWordEmits i then .ifReq else .ifSecondReq
        else if s.ifRspFire i && s.fe.ifDiscardRsp then .ifReq
        else if s.ifReqFire i then
          if s.fe.ifState = .ifReq then .ifWait else .ifSecondWait
        else s.fe.ifState := by
    simp only [feAssembled, apply_ite FrontEnd.ifState,
      assembleWord_ifState, assembleSecond, fillBuffer, dropResponse,
      promotePrefetch, takePrefetch, acceptPrefetch, acceptDemand, ite_self]
  rw [feNext_register s i FrontEnd.ifState (fun _ _ => rfl),
    flushFetch_ifState, assembled]
  by_cases flushed : s.flush i = true
  · by_cases still : s.ifStillWaiting i = true
    · have silent : s.ifRspFire i = false := by
        simp only [ifStillWaiting, Bool.and_eq_true,
          Bool.not_eq_true'] at still
        exact still.2
      simp [flushed, ifSecondReady, word_of_flush flushed, ifRspTaken,
        silent, reqFire_of_flush flushed]
    · simp [flushed, still]
  · simp [flushed]

theorem fe_ifDiscardRsp :
    (s.feNext i).ifDiscardRsp =
      if s.flush i then s.ifStillWaiting i
      else !s.ifRspFire i && s.fe.ifDiscardRsp := by
  have assembled :
      (s.feAssembled i).ifDiscardRsp =
        (!s.ifRspFire i && s.fe.ifDiscardRsp) := by
    simp only [feAssembled, apply_ite FrontEnd.ifDiscardRsp,
      assembleWord_frame, assembleSecond, fillBuffer, dropResponse,
      promotePrefetch, takePrefetch, acceptPrefetch, acceptDemand, ite_self]
    by_cases fire : s.ifRspFire i = true <;>
      by_cases discard : s.fe.ifDiscardRsp = true <;>
        simp [fire, discard]
  rw [feNext_register s i FrontEnd.ifDiscardRsp (fun _ _ => rfl),
    (flushFetch_assigns s i _ _).1, assembled]

theorem fe_fetchPc :
    (s.feNext i).fetchPc =
      if s.flush i then s.flushTarget i
      else if s.ifProduces i then (s.delivered i).nextPc
      else s.fe.fetchPc := by
  have assembled :
      (s.feAssembled i).fetchPc =
        if s.ifProduces i then (s.delivered i).nextPc else s.fe.fetchPc := by
    simp only [feAssembled, apply_ite FrontEnd.fetchPc,
      assembleWord_fetchPc, assembleSecond, fillBuffer, dropResponse,
      promotePrefetch, takePrefetch, acceptPrefetch, acceptDemand, ite_self]
    unfold ifProduces delivered
    split_ifs <;> simp_all
  rw [feNext_register s i FrontEnd.fetchPc (fun _ _ => rfl),
    (flushFetch_assigns s i _ _).2.1, assembled]

theorem feAssembled_ifId :
    (s.feAssembled i).ifId =
      if s.ifProduces i then s.delivered i else s.fe.ifId := by
  simp only [feAssembled, apply_ite FrontEnd.ifId, assembleWord_ifId,
    assembleSecond, fillBuffer, dropResponse, promotePrefetch,
    takePrefetch, acceptPrefetch, acceptDemand, ite_self]
  unfold ifProduces delivered
  split_ifs <;> simp_all

/-- IF/ID is emptied by a flush and by an issue that is not replaced. -/
theorem fe_ifId_valid :
    (s.feNext i).ifId.valid =
      (!s.flush i &&
        (s.ifProduces i || (s.fe.ifId.valid && !s.idToExFire i))) := by
  by_cases flushed : s.flush i = true
  · rw [feNext_of_flush s i flushed, (flushFetch_assigns s i _ _).2.2.1]
    simp [flushed]
  · rw [feNext_of_not_flush s i (by simpa using flushed)]
    unfold issueFetch
    by_cases produces : s.ifProduces i = true <;>
      by_cases issue : s.idToExFire i = true <;>
        simp [flushed, produces, issue, feAssembled_ifId]

/-- Without a flush the contents of IF/ID are replaced by what IF produces. -/
theorem fe_ifId
    (kept : s.flush i = false) (stays : (s.feNext i).ifId.valid = true) :
    (s.feNext i).ifId =
      if s.ifProduces i then s.delivered i else s.fe.ifId := by
  rw [feNext_of_not_flush s i kept] at stays ⊢
  unfold issueFetch at stays ⊢
  split_ifs at stays ⊢ with issue <;> simp_all [feAssembled_ifId]

theorem fe_fetchReqPc :
    (s.feNext i).fetchReqPc =
      if s.ifWordReady i && !s.ifWordEmits i then s.ifWordPc i
      else if s.ifReqFire i && s.fe.ifState == .ifReq then s.fe.fetchPc
      else s.fe.fetchReqPc := by
  have assembled :
      (s.feAssembled i).fetchReqPc =
        if s.ifWordReady i && !s.ifWordEmits i then s.ifWordPc i
        else if s.ifReqFire i && s.fe.ifState == .ifReq then s.fe.fetchPc
        else s.fe.fetchReqPc := by
    simp only [feAssembled, apply_ite FrontEnd.fetchReqPc,
      assembleWord_fetchReqPc, assembleSecond, fillBuffer, dropResponse,
      promotePrefetch, takePrefetch, acceptPrefetch, acceptDemand, ite_self]
    split_ifs <;> simp_all
  rw [feNext_register s i FrontEnd.fetchReqPc (fun _ _ => rfl),
    (flushFetch_frame s i _ _).1, assembled, ite_self]

theorem fe_fetchUpperHold :
    (s.feNext i).fetchUpperHold =
      if s.flush i || s.ifSecondReady i then 0
      else if s.ifWordReady i && !s.ifWordEmits i then
        (s.ifWordData i).extractLsb' 16 16
      else s.fe.fetchUpperHold := by
  have assembled :
      (s.feAssembled i).fetchUpperHold =
        if s.ifSecondReady i then 0
        else if s.ifWordReady i && !s.ifWordEmits i then
          (s.ifWordData i).extractLsb' 16 16
        else s.fe.fetchUpperHold := by
    simp only [feAssembled, apply_ite FrontEnd.fetchUpperHold,
      assembleWord_fetchUpperHold, assembleSecond, fillBuffer, dropResponse,
      promotePrefetch, takePrefetch, acceptPrefetch, acceptDemand, ite_self]
  rw [feNext_register s i FrontEnd.fetchUpperHold (fun _ _ => rfl),
    (flushFetch_assigns s i _ _).2.2.2.1, assembled]
  by_cases flushed : s.flush i = true <;> simp [flushed]

theorem fe_fetchErrHold :
    (s.feNext i).fetchErrHold =
      if s.flush i || s.ifSecondReady i then false
      else if s.ifWordReady i then s.ifWordErr i
      else s.fe.fetchErrHold := by
  have assembled :
      (s.feAssembled i).fetchErrHold =
        if s.ifSecondReady i then false
        else if s.ifWordReady i then s.ifWordErr i
        else s.fe.fetchErrHold := by
    simp only [feAssembled, apply_ite FrontEnd.fetchErrHold,
      assembleWord_fetchErrHold, assembleSecond, fillBuffer, dropResponse,
      promotePrefetch, takePrefetch, acceptPrefetch, acceptDemand, ite_self]
  rw [feNext_register s i FrontEnd.fetchErrHold (fun _ _ => rfl),
    (flushFetch_assigns s i _ _).2.2.2.2.1, assembled]
  by_cases flushed : s.flush i = true <;> simp [flushed]

/-! ### Fetch buffer -/

theorem fe_fbufValid :
    (s.feNext i).fbufValid =
      (!s.flush i &&
        (s.ifRspTaken i || s.ifServePf i || s.fe.fbufValid)) := by
  have assembled :
      (s.feAssembled i).fbufValid =
        (s.ifRspTaken i || s.ifServePf i || s.fe.fbufValid) := by
    simp only [feAssembled, apply_ite FrontEnd.fbufValid,
      assembleWord_frame, assembleSecond, fillBuffer, dropResponse,
      promotePrefetch, takePrefetch, acceptPrefetch, acceptDemand, ite_self]
    by_cases taken : s.ifRspTaken i = true <;>
      by_cases serve : s.ifServePf i = true <;> simp [taken, serve]
  rw [feNext_register s i FrontEnd.fbufValid (fun _ _ => rfl),
    (flushFetch_assigns s i _ _).2.2.2.2.2.1, assembled]
  by_cases flushed : s.flush i = true <;> simp [flushed]

/-- The word address of a response the demand FSM consumes. -/
def rspWordAddr : BitVec 30 :=
  if s.fe.ifState = .ifSecondWait then
    s.fe.fetchReqPc.extractLsb' 2 30 + 1
  else s.fe.fetchReqPc.extractLsb' 2 30

theorem fe_fbufWordAddr :
    (s.feNext i).fbufWordAddr =
      if s.ifRspTaken i then s.rspWordAddr
      else if s.ifServePf i then s.fe.pfAddr
      else s.fe.fbufWordAddr := by
  rw [feNext_register s i FrontEnd.fbufWordAddr (fun _ _ => rfl),
    (flushFetch_frame s i _ _).2.1, ite_self]
  simp only [feAssembled, apply_ite FrontEnd.fbufWordAddr,
    assembleWord_frame, assembleSecond, fillBuffer, dropResponse,
    promotePrefetch, takePrefetch, acceptPrefetch, acceptDemand, ite_self]
  rfl

theorem fe_fbufData :
    (s.feNext i).fbufData =
      if s.ifRspTaken i then i.iRspRdata
      else if s.ifServePf i then s.fe.pfData
      else s.fe.fbufData := by
  rw [feNext_register s i FrontEnd.fbufData (fun _ _ => rfl),
    (flushFetch_frame s i _ _).2.2.1, ite_self]
  simp only [feAssembled, apply_ite FrontEnd.fbufData,
    assembleWord_frame, assembleSecond, fillBuffer, dropResponse,
    promotePrefetch, takePrefetch, acceptPrefetch, acceptDemand, ite_self]

theorem fe_fbufErr :
    (s.feNext i).fbufErr =
      if s.ifRspTaken i then s.iRspFault i
      else if s.ifServePf i then s.fe.pfErr
      else s.fe.fbufErr := by
  rw [feNext_register s i FrontEnd.fbufErr (fun _ _ => rfl),
    (flushFetch_frame s i _ _).2.2.2.1, ite_self]
  simp only [feAssembled, apply_ite FrontEnd.fbufErr,
    assembleWord_frame, assembleSecond, fillBuffer, dropResponse,
    promotePrefetch, takePrefetch, acceptPrefetch, acceptDemand, ite_self]

/-! ### Prefetch slot -/

/-- A prefetch response that is kept. -/
def pfRspTaken : Bool := s.pfRspFire i && !s.fe.pfDiscard

theorem fe_pfValid :
    (s.feNext i).pfValid =
      (!s.flush i && !s.ifServePf i &&
        (s.pfRspTaken i || s.fe.pfValid)) := by
  have assembled :
      (s.feAssembled i).pfValid =
        (!s.ifServePf i && (s.pfRspTaken i || s.fe.pfValid)) := by
    simp only [feAssembled, apply_ite FrontEnd.pfValid,
      assembleWord_frame, assembleSecond, fillBuffer, dropResponse,
      promotePrefetch, takePrefetch, acceptPrefetch, acceptDemand,
      ite_self, pfRspTaken]
    by_cases serve : s.ifServePf i = true <;>
      by_cases fire : s.pfRspFire i = true <;>
        by_cases discard : s.fe.pfDiscard = true <;>
          simp [serve, fire, discard]
  rw [feNext_register s i FrontEnd.pfValid (fun _ _ => rfl),
    (flushFetch_assigns s i _ _).2.2.2.2.2.2.1, assembled]
  by_cases flushed : s.flush i = true <;> simp [flushed]

theorem fe_pfAddr :
    (s.feNext i).pfAddr =
      if s.pfRspTaken i then s.fe.pfInflightAddr else s.fe.pfAddr := by
  rw [feNext_register s i FrontEnd.pfAddr (fun _ _ => rfl),
    (flushFetch_frame s i _ _).2.2.2.2.1, ite_self]
  simp only [feAssembled, apply_ite FrontEnd.pfAddr,
    assembleWord_frame, assembleSecond, fillBuffer, dropResponse,
    promotePrefetch, takePrefetch, acceptPrefetch, acceptDemand, ite_self,
    pfRspTaken]
  split_ifs <;> simp_all

theorem fe_pfData :
    (s.feNext i).pfData =
      if s.pfRspTaken i then i.iRspRdata else s.fe.pfData := by
  rw [feNext_register s i FrontEnd.pfData (fun _ _ => rfl),
    (flushFetch_frame s i _ _).2.2.2.2.2.1, ite_self]
  simp only [feAssembled, apply_ite FrontEnd.pfData,
    assembleWord_frame, assembleSecond, fillBuffer, dropResponse,
    promotePrefetch, takePrefetch, acceptPrefetch, acceptDemand, ite_self,
    pfRspTaken]
  split_ifs <;> simp_all

theorem fe_pfErr :
    (s.feNext i).pfErr =
      if s.pfRspTaken i then s.iRspFault i else s.fe.pfErr := by
  rw [feNext_register s i FrontEnd.pfErr (fun _ _ => rfl),
    (flushFetch_frame s i _ _).2.2.2.2.2.2.1, ite_self]
  simp only [feAssembled, apply_ite FrontEnd.pfErr,
    assembleWord_frame, assembleSecond, fillBuffer, dropResponse,
    promotePrefetch, takePrefetch, acceptPrefetch, acceptDemand, ite_self,
    pfRspTaken]
  split_ifs <;> simp_all

theorem fe_pfInflight :
    (s.feNext i).pfInflight =
      (!s.pfRspFire i && (s.pfReqFire i || s.fe.pfInflight)) := by
  rw [feNext_register s i FrontEnd.pfInflight (fun _ _ => rfl),
    (flushFetch_frame s i _ _).2.2.2.2.2.2.2.1, ite_self]
  simp only [feAssembled, apply_ite FrontEnd.pfInflight,
    assembleWord_frame, assembleSecond, fillBuffer, dropResponse,
    promotePrefetch, takePrefetch, acceptPrefetch, acceptDemand, ite_self]
  by_cases fire : s.pfRspFire i = true <;>
    by_cases accept : s.pfReqFire i = true <;> simp [fire, accept]

theorem fe_pfInflightAddr :
    (s.feNext i).pfInflightAddr =
      if s.pfReqFire i then s.pfTarget else s.fe.pfInflightAddr := by
  rw [feNext_register s i FrontEnd.pfInflightAddr (fun _ _ => rfl),
    (flushFetch_frame s i _ _).2.2.2.2.2.2.2.2, ite_self]
  simp only [feAssembled, apply_ite FrontEnd.pfInflightAddr,
    assembleWord_frame, assembleSecond, fillBuffer, dropResponse,
    promotePrefetch, takePrefetch, acceptPrefetch, acceptDemand, ite_self]

theorem fe_pfDiscard :
    (s.feNext i).pfDiscard =
      (s.flush i && s.fe.pfInflight && !s.pfRspFire i ||
        !s.pfRspFire i && s.fe.pfDiscard) := by
  have assembled :
      (s.feAssembled i).pfDiscard =
        (!s.pfRspFire i && s.fe.pfDiscard) := by
    simp only [feAssembled, apply_ite FrontEnd.pfDiscard,
      assembleWord_frame, assembleSecond, fillBuffer, dropResponse,
      promotePrefetch, takePrefetch, acceptPrefetch, acceptDemand, ite_self]
    by_cases fire : s.pfRspFire i = true <;>
      by_cases discard : s.fe.pfDiscard = true <;>
        simp [fire, discard]
  rw [feNext_register s i FrontEnd.pfDiscard (fun _ _ => rfl),
    (flushFetch_assigns s i _ _).2.2.2.2.2.2.2, assembled]
  by_cases flushed : s.flush i = true <;> simp [flushed]

end Core

end SisRv
