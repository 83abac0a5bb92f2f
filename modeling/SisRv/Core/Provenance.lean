import SisRv.Core.Bus
import SisRv.Core.Execute

/-!
# Where instructions come from

Beside the registers that hold fetched words a record is kept of the bus
answers the words came from.  A register in use holds what its record says,
and every answer in a record belongs to a request made after the last flush.
-/

namespace SisRv

open Sync

/-! ## Fetches -/

/-- A word read over the instruction bus: its word address and the cycles in
which the request was accepted and the response handed over. -/
structure Fetch where
  addr : BitVec 30
  asked : ℕ
  answered : ℕ
  deriving DecidableEq, Repr

/-- The fetches behind the registers that hold fetched words. -/
structure Sources where
  fbuf : List Fetch
  pf : List Fetch
  hold : List Fetch
  ifId : List Fetch
  ex : List Fetch

/-- A word at `pc` that makes an instruction without the word after it. -/
def wordCompletes (enableC : Bool) (pc data : BitVec 32) (err : Bool) : Bool :=
  err || !pc.getLsbD 1 || (enableC && data.extractLsb' 16 2 != 0b11)

/-- The instruction that straddles two words. -/
def straddledParcel (pc first second : BitVec 32) (err : Bool) : IfId :=
  Core.fullParcel pc
    (second.extractLsb' 0 16 ++ first.extractLsb' 16 16 : BitVec 32) err

/-- The instruction in EX as it came from IF/ID. -/
def ExRegs.parcel (e : ExRegs) : IfId :=
  { valid := true, pc := e.pc, raw := e.raw, len := e.len
    isCompressed := e.isCompressed, fetchErr := e.fetchErr }

namespace Core

variable {p : Params} (s : Core p) (i : CoreIn)

/-- The fetches behind the word that is consumed. -/
def wordSource (arriving : List Fetch) (g : Sources) : List Fetch :=
  if s.ifServeBuf i then if s.fbufHit then g.fbuf else g.pf else arriving

/-- The fetches move with the words. -/
def trace (arriving : List Fetch) (g : Sources) : Sources :=
  { fbuf :=
      if s.ifRspTaken i then arriving
      else if s.ifServePf i then g.pf
      else g.fbuf
    pf := if s.pfRspTaken i then arriving else g.pf
    hold :=
      if s.ifWordReady i && !s.ifWordEmits i then s.wordSource i arriving g
      else g.hold
    ifId :=
      if s.ifSecondReady i then g.hold ++ arriving
      else if s.ifWordEmits i then s.wordSource i arriving g
      else g.ifId
    ex := if s.idToExFire i then g.ifId else g.ex }

/-- The demand FSM holds the first half of a straddling instruction. -/
def Straddling : Prop :=
  s.fe.ifState = .ifSecondReq ∨
    s.fe.ifState = .ifSecondWait ∧ s.fe.ifDiscardRsp = false

variable {s i}

theorem not_straddling_of_flush (flushed : s.flush i = true) :
    ¬ (s.step i).Straddling := by
  rintro (second | ⟨wait, keeps⟩)
  · have state := fe_ifState s i
    rw [if_pos flushed, ← step_fe, second] at state
    by_cases still : s.ifStillWaiting i = true
    · simp only [still, if_true] at state
      simp [ifStillWaiting, ifWaiting, ← state] at still
    · simp [still] at state
  · have waits : (s.step i).ifWaiting = true := by
      simp only [ifWaiting, wait]
      decide
    rw [(drained_of_flush flushed).discard waits] at keeps
    exact absurd keeps (by decide)

end Core

namespace Run

variable {p : Params} (r : Run p)

/-- The start of the current path: the cycle after the last flush. -/
def pathStart : ℕ → ℕ :=
  since fun n => (r.state n).flush (r.inputs n)

/-- The fetch whose response may arrive in a cycle. -/
def arriving (n : ℕ) : List Fetch :=
  (r.iOutstanding n).toList.map fun request =>
    ⟨request.1, request.2, n⟩

/-- The records before cycle `n`. -/
def sources : ℕ → Sources
  | 0 => ⟨[], [], [], [], []⟩
  | n + 1 => (r.state n).trace (r.inputs n) (r.arriving n) (sources n)

/-- The response was handed over as recorded. -/
def IsFetch (w : Fetch) : Prop :=
  r.iOutstanding w.answered = some (w.addr, w.asked) ∧
    (r.inputs w.answered).iRspValid = true

/-- The word read. -/
def data (w : Fetch) : BitVec 32 := (r.inputs w.answered).iRspRdata

/-- The X verdict on a word under the CSR state of a cycle. -/
def executable (n : ℕ) (addr : BitVec 30) : Bool :=
  sisPmp (r.state n).csr.pmpcfg (r.state n).csr.pmpaddr
    (addr ++ 0#2 : BitVec 32) (r.state n).csr.priv false false true

/-- A bus error or a PMP denial when the response arrived. -/
def faulted (w : Fetch) : Bool :=
  (r.inputs w.answered).iRspErr || !r.executable w.answered w.addr

/-- A fetch of the current path. -/
structure Live (n : ℕ) (w : Fetch) : Prop where
  fetched : r.IsFetch w
  fresh : r.pathStart n ≤ w.asked
  past : w.answered < n

/-- A register holds the word of one fetch. -/
def Resident
    (n : ℕ) (source : List Fetch)
    (addr : BitVec 30) (data : BitVec 32) (err : Bool) : Prop :=
  ∃ w, source = [w] ∧ r.Live n w ∧ w.addr = addr ∧ r.data w = data ∧
    r.faulted w = err

/-- An instruction is assembled from the words of one or two fetches. -/
inductive Assembled (n : ℕ) : List Fetch → IfId → Prop
  | word (w : Fetch) (pc : BitVec 32) (live : r.Live n w)
      (address : w.addr = pc.extractLsb' 2 30)
      (complete :
        wordCompletes p.enableC pc (r.data w) (r.faulted w) = true) :
      Assembled n [w] (wordParcel p.enableC pc (r.data w) (r.faulted w))
  | straddle (w v : Fetch) (pc : BitVec 32)
      (live : r.Live n w) (nextLive : r.Live n v)
      (address : w.addr = pc.extractLsb' 2 30)
      (nextAddress : v.addr = pc.extractLsb' 2 30 + 1)
      (half : wordCompletes p.enableC pc (r.data w) (r.faulted w) = false) :
      Assembled n [w, v]
        (straddledParcel pc (r.data w) (r.data v) (r.faulted v))

/-- The first half of a straddling instruction is held. -/
def HoldsHalf (n : ℕ) (source : List Fetch) (f : FrontEnd) : Prop :=
  ∃ w, source = [w] ∧ r.Live n w ∧
    w.addr = f.fetchReqPc.extractLsb' 2 30 ∧
    wordCompletes p.enableC f.fetchReqPc (r.data w) (r.faulted w) = false ∧
    f.fetchUpperHold = (r.data w).extractLsb' 16 16 ∧
    f.fetchErrHold = false

/-- The invariant of the records. -/
structure ProvSound (n : ℕ) : Prop where
  demand : ∀ addr asked, r.iOutstanding n = some (addr, asked) →
    (r.state n).ifWaiting = true → (r.state n).fe.ifDiscardRsp = false →
    r.pathStart n ≤ asked
  prefetch : ∀ addr asked, r.iOutstanding n = some (addr, asked) →
    (r.state n).fe.pfInflight = true → (r.state n).fe.pfDiscard = false →
    r.pathStart n ≤ asked
  fbuf : (r.state n).fe.fbufValid = true →
    r.Resident n (r.sources n).fbuf (r.state n).fe.fbufWordAddr
      (r.state n).fe.fbufData (r.state n).fe.fbufErr
  pf : (r.state n).fe.pfValid = true →
    r.Resident n (r.sources n).pf (r.state n).fe.pfAddr
      (r.state n).fe.pfData (r.state n).fe.pfErr
  hold : (r.state n).Straddling →
    r.HoldsHalf n (r.sources n).hold (r.state n).fe
  ifId : (r.state n).fe.ifId.valid = true →
    r.Assembled n (r.sources n).ifId (r.state n).fe.ifId
  ex : (r.state n).ex.valid = true →
    r.Assembled n (r.sources n).ex (r.state n).ex.parcel

theorem Assembled.live
    {r : Run p} {n : ℕ} {fetches : List Fetch} {parcel : IfId}
    (assembled : r.Assembled n fetches parcel) :
    ∀ w ∈ fetches, r.Live n w := by
  cases assembled with
  | word w pc live => simpa using live
  | straddle w v pc live nextLive => simpa using ⟨live, nextLive⟩

/-! ## Responses that are kept -/

section Responses

variable {r} {n : ℕ} (bus : r.InstrBus) (sound : r.ProvSound n)
include bus sound

/-- The demand FSM consumes the answer to its request on the path. -/
theorem request_of_taken
    (taken : (r.state n).ifRspTaken (r.inputs n) = true) :
    ∃ asked, r.iOutstanding n = some ((r.state n).rspWordAddr, asked) ∧
      r.pathStart n ≤ asked ∧ (r.inputs n).iRspValid = true := by
  obtain ⟨fire, keeps⟩ := Core.rspFire_of_taken taken
  have waits := Core.waiting_of_rspFire fire
  have response : (r.inputs n).iRspValid = true := by
    simp only [Core.ifRspFire, Bool.and_eq_true] at fire
    exact fire.1
  obtain ⟨⟨addr, asked⟩, out⟩ := Option.isSome_iff_exists.mp
    (bus.answers n response)
  rcases (r.busSound bus n).busy addr asked out with
    ⟨-, -, rfl⟩ | ⟨noWait, -⟩
  · exact ⟨asked, out, sound.demand _ _ out waits keeps, response⟩
  · rw [waits] at noWait
    exact absurd noWait (by decide)

/-- The prefetch slot takes the answer to its request on the path. -/
theorem request_of_pfTaken
    (taken : (r.state n).pfRspTaken (r.inputs n) = true) :
    ∃ asked,
      r.iOutstanding n = some ((r.state n).fe.pfInflightAddr, asked) ∧
      r.pathStart n ≤ asked ∧ (r.inputs n).iRspValid = true := by
  simp only [Core.pfRspTaken, Bool.and_eq_true, Bool.not_eq_true'] at taken
  obtain ⟨fire, keeps⟩ := taken
  have inflight := Core.inflight_of_pfRspFire fire
  have response : (r.inputs n).iRspValid = true := by
    simp only [Core.pfRspFire, Bool.and_eq_true] at fire
    exact fire.1.2
  obtain ⟨⟨addr, asked⟩, out⟩ := Option.isSome_iff_exists.mp
    (bus.answers n response)
  rcases (r.busSound bus n).busy addr asked out with
    ⟨-, free, -⟩ | ⟨-, -, rfl⟩
  · rw [inflight] at free
    exact absurd free (by decide)
  · exact ⟨asked, out, sound.prefetch _ _ out inflight keeps, response⟩

end Responses

/-! ## A cycle without a flush -/

section Kept

variable {r} {n : ℕ}
  (kept : (r.state n).flush (r.inputs n) = false)
include kept

theorem pathStart_of_kept : r.pathStart (n + 1) = r.pathStart n :=
  since_of_not_mark kept

theorem Live.next {w : Fetch} (live : r.Live n w) : r.Live (n + 1) w where
  fetched := live.fetched
  fresh := by
    rw [pathStart_of_kept kept]
    exact live.fresh
  past := Nat.lt_succ_of_lt live.past

theorem Resident.next
    {source : List Fetch} {addr : BitVec 30} {data : BitVec 32} {err : Bool}
    (resident : r.Resident n source addr data err) :
    r.Resident (n + 1) source addr data err := by
  obtain ⟨w, only, live, facts⟩ := resident
  exact ⟨w, only, live.next kept, facts⟩

theorem Assembled.next {source : List Fetch} {parcel : IfId}
    (assembled : r.Assembled n source parcel) :
    r.Assembled (n + 1) source parcel := by
  cases assembled with
  | word w pc live address complete =>
      exact .word w pc (live.next kept) address complete
  | straddle w v pc live nextLive address nextAddress half =>
      exact .straddle w v pc (live.next kept) (nextLive.next kept) address
        nextAddress half

/-- A response that is kept comes from the outstanding fetch. -/
theorem resident_of_response
    (sound : (r.state n).BusSound (r.iOutstanding n))
    (response : (r.inputs n).iRspValid = true)
    {addr : BitVec 30} {asked : ℕ}
    (out : r.iOutstanding n = some (addr, asked))
    (fresh : r.pathStart n ≤ asked) :
    r.Resident (n + 1) (r.arriving n) addr (r.inputs n).iRspRdata
      ((r.state n).iRspFault (r.inputs n)) := by
  refine ⟨⟨addr, asked, n⟩, by simp [arriving, out], ?_, rfl, rfl, ?_⟩
  · refine ⟨⟨out, response⟩, ?_, Nat.lt_succ_self n⟩
    rw [pathStart_of_kept kept]
    exact fresh
  · rw [out] at sound
    rw [Core.iRspFault, Core.pmpFetchAllow, sound.fetchPmpAddr]
    rfl

theorem hold_of_no_word
    (sound : r.ProvSound n)
    (noWord : (r.state n).ifWordReady (r.inputs n) = false)
    (noSecond : (r.state n).ifSecondReady (r.inputs n) = false)
    (noFirst : (r.state n).ifReqFire (r.inputs n) = false ∨
      (r.state n).fe.ifState ≠ .ifReq)
    (straddling : (r.state n).Straddling) :
    r.HoldsHalf (n + 1) (r.sources (n + 1)).hold (r.state (n + 1)).fe := by
  have samePc : (r.state (n + 1)).fe.fetchReqPc =
      (r.state n).fe.fetchReqPc := by
    rw [state_succ, Core.step_fe, Core.fe_fetchReqPc]
    rcases noFirst with idle | other
    · simp [noWord, idle]
    · simp [noWord, other]
  have sameHalf : (r.state (n + 1)).fe.fetchUpperHold =
      (r.state n).fe.fetchUpperHold := by
    simp [state_succ, Core.fe_fetchUpperHold, kept, noWord, noSecond]
  have sameErr : (r.state (n + 1)).fe.fetchErrHold =
      (r.state n).fe.fetchErrHold := by
    simp [state_succ, Core.fe_fetchErrHold, kept, noWord, noSecond]
  have sameSource : (r.sources (n + 1)).hold = (r.sources n).hold := by
    simp [sources, Core.trace, noWord]
  obtain ⟨w, only, live, facts⟩ := sound.hold straddling
  refine ⟨w, sameSource.trans only, live.next kept, ?_⟩
  rw [samePc, sameHalf, sameErr]
  exact facts

theorem ex_of_kept
    (sound : r.ProvSound n) (valid : (r.state (n + 1)).ex.valid = true) :
    r.Assembled (n + 1) (r.sources (n + 1)).ex
      (r.state (n + 1)).ex.parcel := by
  have next : (r.state (n + 1)).ex = (r.state n).exNext (r.inputs n) := rfl
  by_cases issue : (r.state n).idToExFire (r.inputs n) = true
  · have taken := Core.ifIdValid_of_issue issue
    have parcel : (r.state (n + 1)).ex.parcel = (r.state n).fe.ifId := by
      rw [next, Core.exNext_of_issue _ _ issue, ExRegs.parcel, Core.issuedEx,
        ← taken]
    have source : (r.sources (n + 1)).ex = (r.sources n).ifId := by
      simp [sources, Core.trace, issue]
    rw [parcel, source]
    exact (sound.ifId taken).next kept
  · have quiet : (r.state n).idToExFire (r.inputs n) = false := by
      simpa using issue
    have same := Core.exNext_sameInstr _ _ quiet
    have parcel : (r.state (n + 1)).ex.parcel = (r.state n).ex.parcel := by
      rw [next, ExRegs.parcel, same.pc, same.raw, same.len,
        same.isCompressed, same.fetchErr, ExRegs.parcel]
    have source : (r.sources (n + 1)).ex = (r.sources n).ex := by
      simp [sources, Core.trace, quiet]
    rw [parcel, source]
    exact (sound.ex (Core.valid_of_exNext quiet valid)).next kept

section Step

variable (bus : r.InstrBus) (sound : r.ProvSound n)
include bus sound

theorem resident_of_taken
    (taken : (r.state n).ifRspTaken (r.inputs n) = true) :
    r.Resident (n + 1) (r.arriving n) (r.state n).rspWordAddr
      (r.inputs n).iRspRdata ((r.state n).iRspFault (r.inputs n)) := by
  obtain ⟨asked, out, fresh, response⟩ := request_of_taken bus sound taken
  exact resident_of_response kept (r.busSound bus n) response out fresh

theorem resident_of_pfTaken
    (taken : (r.state n).pfRspTaken (r.inputs n) = true) :
    r.Resident (n + 1) (r.arriving n) (r.state n).fe.pfInflightAddr
      (r.inputs n).iRspRdata ((r.state n).iRspFault (r.inputs n)) := by
  obtain ⟨asked, out, fresh, response⟩ := request_of_pfTaken bus sound taken
  exact resident_of_response kept (r.busSound bus n) response out fresh

theorem resident_of_word
    (word : (r.state n).ifWordReady (r.inputs n) = true) :
    r.Resident (n + 1)
      ((r.state n).wordSource (r.inputs n) (r.arriving n) (r.sources n))
      (((r.state n).ifWordPc (r.inputs n)).extractLsb' 2 30)
      ((r.state n).ifWordData (r.inputs n))
      ((r.state n).ifWordErr (r.inputs n)) := by
  rcases Core.source_of_word word with ⟨taken, wait, noServe⟩ | serve
  · have resident := resident_of_taken kept bus sound taken
    simpa [Core.wordSource, Core.ifWordPc, Core.ifWordData, Core.ifWordErr,
      noServe, Core.rspWordAddr, wait] using resident
  · have hit : (r.state n).bufHit = true := by
      simp only [Core.ifServeBuf, Bool.and_eq_true] at serve
      exact serve.2
    simp only [Core.wordSource, Core.ifWordPc, Core.ifWordData,
      Core.ifWordErr, Core.ifServeData, Core.ifServeErr, serve, if_true]
    by_cases fbufHit : (r.state n).fbufHit = true
    · rw [if_pos fbufHit, if_pos fbufHit, if_pos fbufHit]
      simp only [Core.fbufHit, Bool.and_eq_true, beq_iff_eq] at fbufHit
      rw [← fbufHit.2]
      exact (sound.fbuf fbufHit.1).next kept
    · rw [if_neg fbufHit, if_neg fbufHit, if_neg fbufHit]
      have pfHit : (r.state n).pfbufHit = true := by
        simpa [Core.bufHit, fbufHit] using hit
      simp only [Core.pfbufHit, Bool.and_eq_true, beq_iff_eq] at pfHit
      rw [← pfHit.2]
      exact (sound.pf pfHit.1).next kept

theorem fbuf_of_kept
    (valid : (r.state (n + 1)).fe.fbufValid = true) :
    r.Resident (n + 1) (r.sources (n + 1)).fbuf
      (r.state (n + 1)).fe.fbufWordAddr (r.state (n + 1)).fe.fbufData
      (r.state (n + 1)).fe.fbufErr := by
  simp only [state_succ, Core.step_fe, Core.fe_fbufValid,
    Core.fe_fbufWordAddr, Core.fe_fbufData, Core.fe_fbufErr, sources,
    Core.trace] at valid ⊢
  by_cases taken : (r.state n).ifRspTaken (r.inputs n) = true
  · simp only [taken, if_true]
    exact resident_of_taken kept bus sound taken
  · simp only [taken, Bool.false_eq_true, if_false]
    by_cases serve : (r.state n).ifServePf (r.inputs n) = true
    · simp only [serve, if_true]
      have valid : (r.state n).fe.pfValid = true := by
        simp only [Core.ifServePf, Core.pfbufHit, Bool.and_eq_true] at serve
        exact serve.2.1
      exact (sound.pf valid).next kept
    · simp only [serve, Bool.false_eq_true, if_false]
      exact (sound.fbuf (by simpa [kept, taken, serve] using valid)).next kept

theorem pf_of_kept
    (valid : (r.state (n + 1)).fe.pfValid = true) :
    r.Resident (n + 1) (r.sources (n + 1)).pf
      (r.state (n + 1)).fe.pfAddr (r.state (n + 1)).fe.pfData
      (r.state (n + 1)).fe.pfErr := by
  simp only [state_succ, Core.step_fe, Core.fe_pfValid, Core.fe_pfAddr,
    Core.fe_pfData, Core.fe_pfErr, sources, Core.trace] at valid ⊢
  by_cases taken : (r.state n).pfRspTaken (r.inputs n) = true
  · simp only [taken, if_true]
    exact resident_of_pfTaken kept bus sound taken
  · simp only [taken, Bool.false_eq_true, if_false]
    simp only [taken, Bool.false_or, Bool.and_eq_true] at valid
    exact (sound.pf valid.2).next kept

/-- The request of the demand FSM stays one of the path. -/
theorem demand_of_kept
    {addr : BitVec 30} {asked : ℕ}
    (out : r.iOutstanding (n + 1) = some (addr, asked))
    (waits : (r.state (n + 1)).ifWaiting = true)
    (keeps : (r.state (n + 1)).fe.ifDiscardRsp = false) :
    r.pathStart (n + 1) ≤ asked := by
  rw [pathStart_of_kept kept]
  rcases outstanding_succ_cases out with now | ⟨silent, idle, before⟩
  · rw [show asked = n from now]
    exact since_le n
  · obtain ⟨noRsp, noReq, -⟩ := quiet_of_idle bus silent idle
    rw [state_succ, Core.waiting_step, noRsp, noReq] at waits
    rw [state_succ, Core.step_fe, Core.fe_ifDiscardRsp, kept, noRsp] at keeps
    exact sound.demand addr asked before (by simpa using waits)
      (by simpa using keeps)

theorem prefetch_of_kept
    {addr : BitVec 30} {asked : ℕ}
    (out : r.iOutstanding (n + 1) = some (addr, asked))
    (inflight : (r.state (n + 1)).fe.pfInflight = true)
    (keeps : (r.state (n + 1)).fe.pfDiscard = false) :
    r.pathStart (n + 1) ≤ asked := by
  rw [pathStart_of_kept kept]
  rcases outstanding_succ_cases out with now | ⟨silent, idle, before⟩
  · rw [show asked = n from now]
    exact since_le n
  · obtain ⟨-, -, noRsp, noReq⟩ := quiet_of_idle bus silent idle
    rw [state_succ, Core.step_fe, Core.fe_pfInflight, noRsp, noReq]
      at inflight
    rw [state_succ, Core.step_fe, Core.fe_pfDiscard, kept, noRsp] at keeps
    exact sound.prefetch addr asked before (by simpa using inflight)
      (by simpa using keeps)

theorem hold_of_kept (straddling : (r.state (n + 1)).Straddling) :
    r.HoldsHalf (n + 1) (r.sources (n + 1)).hold (r.state (n + 1)).fe := by
  have next : (r.state (n + 1)).fe = (r.state n).feNext (r.inputs n) := rfl
  unfold Core.Straddling at straddling
  rw [next] at straddling
  cases (r.state n).demandCycle (r.inputs n) with
  | flushed flush =>
      rw [kept] at flush
      exact absurd flush (by decide)
  | delivers _ produces state => simp [state] at straddling
  | splits _ word straddles state =>
      -- the half comes to be held in this cycle
      obtain ⟨w, only, live, address, data, err⟩ :=
        resident_of_word kept bus sound word
      have errClear : (r.state n).ifWordErr (r.inputs n) = false := by
        by_contra faults
        simp [Core.ifWordEmits, word, faults] at straddles
      have half : wordCompletes p.enableC ((r.state n).ifWordPc (r.inputs n))
          (r.data w) (r.faulted w) = false := by
        rw [data, err]
        simpa [Core.ifWordEmits, word, wordCompletes] using straddles
      refine ⟨w, ?_, live, ?_, ?_, ?_, ?_⟩
      · simpa [sources, Core.trace, word, straddles] using only
      · simpa [next, Core.fe_fetchReqPc, word, straddles] using address
      · simpa [next, Core.fe_fetchReqPc, word, straddles] using half
      · simp [next, Core.fe_fetchUpperHold, kept, word, straddles, data,
          Core.not_second_of_word word]
      · simp [next, Core.fe_fetchErrHold, kept, word, errClear,
          Core.not_second_of_word word]
  | drops _ fire discard state => simp [state] at straddling
  | requests _ fire state =>
      have quiet := Core.not_produces_of_reqFire fire
      simp only [Core.ifProduces, Bool.or_eq_false_iff] at quiet
      have noWord : (r.state n).ifWordReady (r.inputs n) = false := by
        by_contra word
        have noReq := (Core.waiting_of_word (by simpa using word)).2
        rw [fire] at noReq
        exact absurd noReq (by decide)
      rcases Core.state_of_reqFire fire with idle | idle
      · simp [state, idle] at straddling
      · exact hold_of_no_word kept sound noWord quiet.2
          (Or.inr (by simp [idle])) (Or.inl idle)
  | quiet _ noWord noRsp noReq state =>
      have noSecond : (r.state n).ifSecondReady (r.inputs n) = false := by
        simp [Core.ifSecondReady, Core.ifRspTaken, noRsp]
      apply hold_of_no_word kept sound noWord noSecond (Or.inl noReq)
      rw [state, Core.fe_ifDiscardRsp, kept, noRsp] at straddling
      simpa [Core.Straddling] using straddling

/-- What IF delivers is assembled from its fetches. -/
theorem delivered_assembled
    (produces : (r.state n).ifProduces (r.inputs n) = true) :
    r.Assembled (n + 1) (r.sources (n + 1)).ifId
      ((r.state n).delivered (r.inputs n)) := by
  by_cases second : (r.state n).ifSecondReady (r.inputs n) = true
  -- the held half and the response, or one word
  · obtain ⟨taken, wait⟩ := Core.secondWait_of_secondReady second
    have keeps := (Core.rspFire_of_taken taken).2
    obtain ⟨w, only, live, address, half, upper, clear⟩ :=
      sound.hold (Or.inr ⟨wait, keeps⟩)
    obtain ⟨v, arrives, nextLive, nextAddress, data, err⟩ :=
      resident_of_taken kept bus sound taken
    have source : (r.sources (n + 1)).ifId = [w, v] := by
      simp [sources, Core.trace, second, only, arrives]
    have parcel : (r.state n).delivered (r.inputs n) =
        straddledParcel (r.state n).fe.fetchReqPc (r.data w) (r.data v)
          (r.faulted v) := by
      simp [Core.delivered, second, straddledParcel, data, err, upper, clear]
    rw [source, parcel]
    refine .straddle w v _ (live.next kept) nextLive address ?_ half
    rw [nextAddress, Core.rspWordAddr, if_pos wait]
  · have emits : (r.state n).ifWordEmits (r.inputs n) = true := by
      simpa [Core.ifProduces, second] using produces
    obtain ⟨w, only, live, address, data, err⟩ :=
      resident_of_word kept bus sound (Core.word_of_emits emits)
    have source : (r.sources (n + 1)).ifId = [w] := by
      simp [sources, Core.trace, second, emits, only]
    have parcel : (r.state n).delivered (r.inputs n) =
        wordParcel p.enableC ((r.state n).ifWordPc (r.inputs n)) (r.data w)
          (r.faulted w) := by
      simp [Core.delivered, second, data, err]
    rw [source, parcel]
    apply Run.Assembled.word w _ live address
    rw [data, err]
    simp only [Core.ifWordEmits, Bool.and_eq_true] at emits
    exact emits.2

theorem ifId_of_kept
    (valid : (r.state (n + 1)).fe.ifId.valid = true) :
    r.Assembled (n + 1) (r.sources (n + 1)).ifId
      (r.state (n + 1)).fe.ifId := by
  have next : (r.state (n + 1)).fe = (r.state n).feNext (r.inputs n) := rfl
  rw [next] at valid ⊢
  rw [Core.fe_ifId _ _ kept valid]
  by_cases produces : (r.state n).ifProduces (r.inputs n) = true
  · rw [if_pos produces]
    exact delivered_assembled kept bus sound produces
  · rw [if_neg produces]
    rw [Core.fe_ifId_valid] at valid
    simp only [produces, Bool.false_or, Bool.and_eq_true] at valid
    have quiet : (r.state n).ifWordEmits (r.inputs n) = false ∧
        (r.state n).ifSecondReady (r.inputs n) = false := by
      simpa [Core.ifProduces] using produces
    have source : (r.sources (n + 1)).ifId = (r.sources n).ifId := by
      simp [sources, Core.trace, quiet]
    rw [source]
    exact (sound.ifId valid.2.1).next kept

end Step

end Kept

/-! ## The invariant -/

variable {r} {n : ℕ}

/-- A flush leaves nothing to be accounted for. -/
theorem provSound_of_flush
    (flushed : (r.state n).flush (r.inputs n) = true) :
    r.ProvSound (n + 1) := by
  have drained := Core.drained_of_flush flushed
  rw [← state_succ] at drained
  exact {
    demand := fun _ _ _ waits keeps => by
      rw [drained.discard waits] at keeps
      exact absurd keeps (by decide)
    prefetch := fun _ _ _ inflight keeps => by
      rw [drained.pfDiscard inflight] at keeps
      exact absurd keeps (by decide)
    fbuf := fun valid => by
      rw [drained.fbuf] at valid
      exact absurd valid (by decide)
    pf := fun valid => by
      rw [drained.pf] at valid
      exact absurd valid (by decide)
    hold := fun straddling =>
      absurd straddling (Core.not_straddling_of_flush flushed)
    ifId := fun valid => by
      rw [drained.ifId] at valid
      exact absurd valid (by decide)
    ex := fun valid => by
      rw [drained.ex] at valid
      exact absurd valid (by decide) }

theorem provSound_zero (r : Run p) : r.ProvSound 0 where
  demand := by simp [iOutstanding, outstanding]
  prefetch := by simp [iOutstanding, outstanding]
  fbuf := by simp [state_zero, Core.reset, FrontEnd.reset]
  pf := by simp [state_zero, Core.reset, FrontEnd.reset]
  hold := by
    simp [Core.Straddling, state_zero, Core.reset, FrontEnd.reset]
  ifId := by simp [state_zero, Core.reset, FrontEnd.reset]
  ex := by simp [state_zero, Core.reset, ExRegs.reset]

theorem provSound (bus : r.InstrBus) (n : ℕ) : r.ProvSound n := by
  induction n with
  | zero =>
      exact r.provSound_zero
  | succ n sound =>
      by_cases flushed : (r.state n).flush (r.inputs n) = true
      · exact provSound_of_flush flushed
      · have kept : (r.state n).flush (r.inputs n) = false := by
          simpa using flushed
        exact {
          demand := fun _ _ => demand_of_kept kept bus sound
          prefetch := fun _ _ => prefetch_of_kept kept bus sound
          fbuf := fbuf_of_kept kept bus sound
          pf := pf_of_kept kept bus sound
          hold := hold_of_kept kept bus sound
          ifId := ifId_of_kept kept bus sound
          ex := ex_of_kept kept sound }

end Run

end SisRv
