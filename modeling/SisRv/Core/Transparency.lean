import SisRv.Core.Provenance
import SisRv.Lib.AddressMatch

/-!
# Transparency of the front end

Over an immutable instruction memory the fetch buffer, the prefetch slot and
the assembly of straddling instructions are not seen: after a flush to an
address the front end delivers the sequential decoding of memory from there.
-/

namespace SisRv

open Sync

/-! ## Sequential decoding -/

/-- The contents of an instruction memory by word address. -/
structure InstrMemory where
  data : BitVec 30 → BitVec 32
  err : BitVec 30 → Bool

namespace InstrMemory

variable (mem : InstrMemory) (enableC : Bool) (denied : BitVec 30 → Bool)
  (pc : BitVec 32)

/-- The halfword at a byte address. -/
def half : BitVec 16 :=
  if pc.getLsbD 1 then (mem.data (pc.extractLsb' 2 30)).extractLsb' 16 16
  else (mem.data (pc.extractLsb' 2 30)).extractLsb' 0 16

/-- A word that memory or the PMP refuses. -/
def refused (addr : BitVec 30) : Bool := mem.err addr || denied addr

/-- A compressed instruction starts at a byte address. -/
def compressed : Bool := enableC && (mem.half pc).extractLsb' 0 2 != 0b11

/-- The instruction at a byte address. -/
def parcelAt : IfId :=
  if mem.refused denied (pc.extractLsb' 2 30) then Core.faultedParcel pc
  else if mem.compressed enableC pc then
    Core.compressedParcel pc (mem.half pc)
  else
    Core.fullParcel pc (mem.half (pc + 2) ++ mem.half pc : BitVec 32)
      (mem.refused denied ((pc + 2).extractLsb' 2 30))

/-- The words read for it. -/
def wordsAt : List (BitVec 30) :=
  if mem.refused denied (pc.extractLsb' 2 30) ||
      mem.compressed enableC pc || !pc.getLsbD 1 then
    [pc.extractLsb' 2 30]
  else [pc.extractLsb' 2 30, (pc + 2).extractLsb' 2 30]

section Halves

variable {pc}

theorem toNat_of_upper (upper : pc.getLsbD 1 = true) :
    pc.toNat / 2 % 2 = 1 := by
  rw [BitVec.getLsbD, Nat.testBit_eq_decide_div_mod_eq] at upper
  simpa using upper

theorem toNat_of_lower (lower : pc.getLsbD 1 = false) :
    pc.toNat / 2 % 2 = 0 := by
  rw [BitVec.getLsbD, Nat.testBit_eq_decide_div_mod_eq] at lower
  have := of_decide_eq_false lower
  omega

/-- Two bytes after the upper half of a word the next word begins. -/
theorem next_of_upper (upper : pc.getLsbD 1 = true) :
    (pc + 2).extractLsb' 2 30 = pc.extractLsb' 2 30 + 1 ∧
      (pc + 2).getLsbD 1 = false := by
  have bit := toNat_of_upper upper
  have small := pc.isLt
  constructor
  · apply BitVec.eq_of_toNat_eq
    rw [BitVec.toNat_add, BitVec.extractLsb'_toNat, BitVec.extractLsb'_toNat,
      BitVec.toNat_add]
    simp only [Nat.shiftRight_eq_div_pow, BitVec.reduceToNat]
    omega
  · rw [BitVec.getLsbD, Nat.testBit_eq_decide_div_mod_eq, BitVec.toNat_add]
    simp only [BitVec.reduceToNat, decide_eq_false_iff_not]
    omega

/-- Two bytes after the lower half of a word comes its upper half. -/
theorem next_of_lower (lower : pc.getLsbD 1 = false) :
    (pc + 2).extractLsb' 2 30 = pc.extractLsb' 2 30 ∧
      (pc + 2).getLsbD 1 = true := by
  have bit := toNat_of_lower lower
  have small := pc.isLt
  constructor
  · apply BitVec.eq_of_toNat_eq
    rw [BitVec.extractLsb'_toNat, BitVec.extractLsb'_toNat,
      BitVec.toNat_add]
    simp only [Nat.shiftRight_eq_div_pow, BitVec.reduceToNat]
    omega
  · rw [BitVec.getLsbD, Nat.testBit_eq_decide_div_mod_eq, BitVec.toNat_add]
    simp only [BitVec.reduceToNat, decide_eq_true_eq]
    omega

theorem word_of_halves (data : BitVec 32) :
    (data.extractLsb' 16 16 ++ data.extractLsb' 0 16 : BitVec 32) = data := by
  rw [BitVec.extractLsb'_append_extractLsb'_eq_extractLsb' (by decide)]
  simp

end Halves

section Assembly

variable {mem enableC denied pc}

theorem half_of_upper (upper : pc.getLsbD 1 = true) :
    mem.half pc =
      (mem.data (pc.extractLsb' 2 30)).extractLsb' 16 16 := by
  rw [half, if_pos upper]

theorem half_of_lower (lower : pc.getLsbD 1 = false) :
    mem.half pc =
      (mem.data (pc.extractLsb' 2 30)).extractLsb' 0 16 := by
  rw [half, lower]
  rfl

/-- An instruction that the word at its address completes. -/
theorem parcelAt_of_completes
    (complete : wordCompletes enableC pc (mem.data (pc.extractLsb' 2 30))
      (mem.refused denied (pc.extractLsb' 2 30)) = true) :
    mem.parcelAt enableC denied pc =
        wordParcel enableC pc (mem.data (pc.extractLsb' 2 30))
          (mem.refused denied (pc.extractLsb' 2 30)) ∧
      mem.wordsAt enableC denied pc = [pc.extractLsb' 2 30] := by
  unfold parcelAt wordsAt wordParcel
  by_cases refuses :
      mem.refused denied (pc.extractLsb' 2 30) = true
  · simp [refuses]
  by_cases upper : pc.getLsbD 1 = true
  · have short : mem.compressed enableC pc = true := by
      simp only [wordCompletes, refuses, upper, Bool.not_true,
        Bool.false_or] at complete
      rw [compressed, half_of_upper upper, slice_of_slice (by decide)]
      exact complete
    simp [refuses, upper, short, half]
  · have lower : pc.getLsbD 1 = false := by simpa using upper
    obtain ⟨sameWord, upperNext⟩ := next_of_lower lower
    have lowHalf : mem.half pc = _ := half_of_lower lower
    have highHalf : mem.half (pc + 2) = _ := half_of_upper upperNext
    rw [sameWord] at highHalf
    have short : mem.compressed enableC pc = (enableC &&
        (mem.data (pc.extractLsb' 2 30)).extractLsb' 0 2 != 0b11) := by
      rw [compressed, lowHalf, slice_of_slice (by decide)]
    rw [short, lowHalf, highHalf, sameWord, word_of_halves]
    simp only [refuses, lower, Bool.false_eq_true, if_false, Bool.not_false,
      Bool.or_true, if_true, and_self]

/-- An instruction that needs the next word. -/
theorem parcelAt_of_straddles
    (straddles : wordCompletes enableC pc (mem.data (pc.extractLsb' 2 30))
      (mem.refused denied (pc.extractLsb' 2 30)) = false) :
    mem.parcelAt enableC denied pc =
        straddledParcel pc (mem.data (pc.extractLsb' 2 30))
          (mem.data (pc.extractLsb' 2 30 + 1))
          (mem.refused denied (pc.extractLsb' 2 30 + 1)) ∧
      mem.wordsAt enableC denied pc =
        [pc.extractLsb' 2 30, pc.extractLsb' 2 30 + 1] := by
  simp only [wordCompletes, Bool.or_eq_false_iff, Bool.not_eq_false']
    at straddles
  obtain ⟨⟨accepted, upper⟩, long⟩ := straddles
  obtain ⟨nextWord, lowerNext⟩ := next_of_upper upper
  have lowHalf : mem.half pc = _ := half_of_upper upper
  have highHalf : mem.half (pc + 2) = _ := half_of_lower lowerNext
  rw [nextWord] at highHalf
  have short : mem.compressed enableC pc = false := by
    rw [compressed, lowHalf, slice_of_slice (by decide)]
    exact long
  simp only [parcelAt, wordsAt, straddledParcel, accepted, upper, short,
    lowHalf, highHalf, nextWord, Bool.false_eq_true, if_false, Bool.or_self,
    Bool.not_true, and_self]

end Assembly

end InstrMemory

/-! ## What the front end delivers -/

namespace Run

variable {p : Params} (r : Run p)

/-- Every answer of the bus is the word of memory that was asked for. -/
def ReadsMemory (mem : InstrMemory) : Prop :=
  ∀ n, (r.inputs n).iRspValid = true →
    ∀ request ∈ r.iOutstanding n,
      (r.inputs n).iRspRdata = mem.data request.1 ∧
        (r.inputs n).iRspErr = mem.err request.1

/-- The answer behind a fetch is the word of memory. -/
def ReadAs (mem : InstrMemory) (w : Fetch) : Prop :=
  r.data w = mem.data w.addr ∧
    (r.inputs w.answered).iRspErr = mem.err w.addr

/-- A path starts at reset or after a flush. -/
def PathFrom (start : ℕ) (target : BitVec 32) : Prop :=
  start = 0 ∧ target = p.resetVector ∨
    ∃ f, start = f + 1 ∧ (r.state f).flush (r.inputs f) = true ∧
      target = (r.state f).flushTarget (r.inputs f)

/-- The instruction placed into IF/ID in a cycle. -/
def placed (n : ℕ) : Option IfId :=
  if (r.state n).ifProduces (r.inputs n) then
    some ((r.state n).delivered (r.inputs n))
  else none

/-- The instruction ID takes in a cycle. -/
def taken (n : ℕ) : Option IfId :=
  if (r.state n).idToExFire (r.inputs n) then some (r.state n).fe.ifId
  else none

/-- The instruction that waits in IF/ID. -/
def waiting (n : ℕ) : List IfId :=
  if (r.state n).fe.ifId.valid then [(r.state n).fe.ifId] else []

/-- The instructions placed and taken in the `k` cycles from `start` on. -/
def placedFrom (start k : ℕ) : List IfId :=
  emitted (fun m => r.placed (start + m)) k

def takenFrom (start k : ℕ) : List IfId :=
  emitted (fun m => r.taken (start + m)) k

/-- The PMP refused the word of one of the fetches when it arrived. -/
def deniedBy (fetches : List Fetch) (addr : BitVec 30) : Bool :=
  fetches.any fun w => w.addr == addr && !r.executable w.answered w.addr

/-- An instruction decodes the words of fetches asked for on the path. -/
structure DecodedBy
    (mem : InstrMemory) (start : ℕ) (fetches : List Fetch)
    (parcel : IfId) : Prop where
  fetched : ∀ w ∈ fetches, r.IsFetch w ∧ start ≤ w.asked
  words : fetches.map Fetch.addr =
    mem.wordsAt p.enableC (r.deniedBy fetches) parcel.pc
  decoded : parcel = mem.parcelAt p.enableC (r.deniedBy fetches) parcel.pc

/-- The front end is transparent on the path from `target` that takes `k`
cycles from `start` on: each instruction follows the one before it and decodes
memory, and ID has taken all of them but the one in IF/ID. -/
structure Transparent
    (mem : InstrMemory) (start : ℕ) (target : BitVec 32) (k : ℕ) : Prop where
  sequential : Linked IfId.pc IfId.nextPc target (r.placedFrom start k)
  decoded : ∀ parcel ∈ r.placedFrom start k,
    ∃ fetches, r.DecodedBy mem start fetches parcel
  consumed : r.takenFrom start k ++ r.waiting (start + k) =
    r.placedFrom start k

section Path

variable {r} {n : ℕ}

theorem readAs_of_fetch
    {mem : InstrMemory} (reads : r.ReadsMemory mem)
    {w : Fetch} (fetched : r.IsFetch w) : r.ReadAs mem w :=
  reads _ fetched.2 _ fetched.1

/-- The recorded fault of a fetch is the refusal of its word. -/
theorem refused_of_fetch
    {mem : InstrMemory} {w : Fetch} (reads : r.ReadAs mem w)
    {denied : BitVec 30 → Bool}
    (only : denied w.addr = !r.executable w.answered w.addr) :
    r.data w = mem.data w.addr ∧
      r.faulted w = mem.refused denied w.addr := by
  obtain ⟨data, err⟩ := reads
  exact ⟨data, by rw [faulted, err, InstrMemory.refused, only]⟩

/-- An instruction assembled from fetches decodes their words. -/
theorem Assembled.decodes
    {mem : InstrMemory} {fetches : List Fetch} {parcel : IfId}
    (reads : ∀ w ∈ fetches, r.ReadAs mem w)
    (assembled : r.Assembled n fetches parcel) {denied : BitVec 30 → Bool}
    (verdicts : ∀ w ∈ fetches,
      denied w.addr = !r.executable w.answered w.addr) :
    fetches.map Fetch.addr = mem.wordsAt p.enableC denied parcel.pc ∧
      parcel = mem.parcelAt p.enableC denied parcel.pc := by
  cases assembled with
  | word w pc live address complete =>
      have member := List.mem_singleton_self w
      obtain ⟨data, fault⟩ :=
        refused_of_fetch (reads w member) (verdicts w member)
      rw [data, fault, address] at complete ⊢
      obtain ⟨parcel, words⟩ := InstrMemory.parcelAt_of_completes complete
      exact ⟨by simp [words, address], by simp [parcel]⟩
  | straddle w v pc live nextLive address nextAddress half =>
      obtain ⟨data, fault⟩ :=
        refused_of_fetch (reads w (by simp)) (verdicts w (by simp))
      obtain ⟨nextData, nextFault⟩ :=
        refused_of_fetch (reads v (by simp)) (verdicts v (by simp))
      rw [data, fault, address] at half
      rw [data, nextData, nextFault, address, nextAddress]
      obtain ⟨parcel, words⟩ := InstrMemory.parcelAt_of_straddles half
      constructor
      · simp [straddledParcel, Core.fullParcel, words, address, nextAddress]
      · simp [straddledParcel, Core.fullParcel, parcel]

theorem start_of_path {start : ℕ} {target : BitVec 32}
    (path : r.PathFrom start target) :
    r.pathStart start = start ∧ r.waiting start = [] ∧
      (r.state start).fe.fetchPc = target := by
  rcases path with ⟨rfl, rfl⟩ | ⟨f, rfl, flushed, rfl⟩
  · exact ⟨rfl, rfl, rfl⟩
  · refine ⟨since_of_mark flushed, ?_, ?_⟩
    · simp [waiting, state_succ, Core.fe_ifId_valid, flushed]
    · simp [state_succ, Core.fe_fetchPc, flushed]

section Kept

variable (kept : (r.state n).flush (r.inputs n) = false)
include kept

theorem fetchPc_of_kept :
    (∀ parcel, r.placed n = some parcel →
        parcel.pc = (r.state n).fe.fetchPc) ∧
      (r.state (n + 1)).fe.fetchPc =
        ((r.placed n).map IfId.nextPc).getD (r.state n).fe.fetchPc := by
  rw [state_succ, Core.step_fe, Core.fe_fetchPc, kept, placed]
  by_cases produces : (r.state n).ifProduces (r.inputs n) = true
  · simp [produces, Core.delivered_pc (r.feSound n) produces]
  · simp [produces]

/-- Nothing in IF/ID is overwritten before ID has taken it. -/
theorem waiting_of_kept :
    r.waiting n ++ (r.placed n).toList =
      (r.taken n).toList ++ r.waiting (n + 1) := by
  have valid := Core.fe_ifId_valid (r.state n) (r.inputs n)
  rw [kept] at valid
  simp only [waiting, placed, taken, state_succ, Core.step_fe, valid,
    Bool.not_false, Bool.true_and]
  by_cases produces : (r.state n).ifProduces (r.inputs n) = true
  · have next := Core.fe_ifId _ _ kept (by simp [valid, produces])
    rw [next]
    rcases Core.free_of_produces (r.feSound n) produces with empty | issue
    · have noIssue : (r.state n).idToExFire (r.inputs n) = false := by
        simp [Core.idToExFire, empty]
      simp [produces, empty, noIssue]
    · simp [produces, issue, Core.ifIdValid_of_issue issue]
  · by_cases issue : (r.state n).idToExFire (r.inputs n) = true
    · simp [produces, issue, Core.ifIdValid_of_issue issue]
    · by_cases full : (r.state n).fe.ifId.valid = true
      · have next := Core.fe_ifId _ _ kept (by simp [valid, full, issue])
        simp [produces, issue, full, next]
      · simp [produces, issue, full]

/-- What is placed into IF/ID decodes memory. -/
theorem decoded_of_placed
    (bus : r.InstrBus) {mem : InstrMemory} (reads : r.ReadsMemory mem)
    {parcel : IfId} (places : r.placed n = some parcel) :
    ∃ fetches, r.DecodedBy mem (r.pathStart n) fetches parcel := by
  have produces : (r.state n).ifProduces (r.inputs n) = true := by
    by_contra idle
    simp [placed, idle] at places
  have delivers : (r.state n).delivered (r.inputs n) = parcel := by
    simpa [placed, produces] using places
  have assembled := delivered_assembled kept bus (r.provSound bus n) produces
  rw [delivers] at assembled
  rw [← pathStart_of_kept kept]
  -- the two words of a straddling instruction are different
  have verdicts : ∀ w ∈ (r.sources (n + 1)).ifId,
      r.deniedBy (r.sources (n + 1)).ifId w.addr =
        !r.executable w.answered w.addr := by
    generalize (r.sources (n + 1)).ifId = fetches at assembled
    cases assembled with
    | word w pc => simp [deniedBy]
    | straddle w v pc live nextLive address nextAddress =>
        simp [deniedBy, address, nextAddress]
  obtain ⟨words, decoded⟩ := assembled.decodes
    (fun w member => readAs_of_fetch reads (assembled.live w member).fetched)
    verdicts
  exact ⟨_, fun w member =>
    ⟨(assembled.live w member).fetched, (assembled.live w member).fresh⟩,
    words, decoded⟩

end Kept

variable {start k : ℕ} {target : BitVec 32}
  (path : r.PathFrom start target)
  (straight : ∀ m, m < k →
    (r.state (start + m)).flush (r.inputs (start + m)) = false)
include path straight

theorem pathStart_of_straight : r.pathStart (start + k) = start := by
  induction k with
  | zero =>
      exact (start_of_path path).1
  | succ k inductionHypothesis =>
      rw [← Nat.add_assoc, pathStart_of_kept (straight k (Nat.lt_succ_self k))]
      exact inductionHypothesis fun m below =>
        straight m (Nat.lt_succ_of_lt below)

/-- The list of placed instructions is linked and ends at the fetch address. -/
theorem sequential_of_straight :
    Linked IfId.pc IfId.nextPc target (r.placedFrom start k) ∧
      (r.state (start + k)).fe.fetchPc =
        endPlace IfId.nextPc target (r.placedFrom start k) := by
  induction k with
  | zero =>
      exact ⟨trivial, (start_of_path path).2.2⟩
  | succ k inductionHypothesis =>
      obtain ⟨linked, ends⟩ := inductionHypothesis fun m below =>
        straight m (Nat.lt_succ_of_lt below)
      obtain ⟨source, next⟩ :=
        fetchPc_of_kept (straight k (Nat.lt_succ_self k))
      cases placement : r.placed (start + k) with
      | none =>
          rw [placement] at next
          have same : r.placedFrom start (k + 1) = r.placedFrom start k :=
            emitted_succ_of_none placement
          rw [same]
          exact ⟨linked, next.trans ends⟩
      | some parcel =>
          rw [placement] at next
          have grown : r.placedFrom start (k + 1) =
              r.placedFrom start k ++ [parcel] :=
            emitted_succ_of_some placement
          rw [grown, linked_concat_iff, endPlace_concat]
          exact ⟨⟨linked, (source parcel placement).trans ends⟩, next⟩

theorem consumed_of_straight :
    r.takenFrom start k ++ r.waiting (start + k) = r.placedFrom start k := by
  induction k with
  | zero =>
      exact (start_of_path path).2.1
  | succ k inductionHypothesis =>
      have before := inductionHypothesis fun m below =>
        straight m (Nat.lt_succ_of_lt below)
      have step := waiting_of_kept (straight k (Nat.lt_succ_self k))
      calc
        r.takenFrom start (k + 1) ++ r.waiting (start + (k + 1))
          = r.takenFrom start k ++
              ((r.taken (start + k)).toList ++ r.waiting (start + k + 1)) :=
            List.append_assoc _ _ _
        _ = r.takenFrom start k ++ r.waiting (start + k) ++
              (r.placed (start + k)).toList := by
            rw [← step, List.append_assoc]
        _ = r.placedFrom start (k + 1) := by
            rw [before]
            rfl

theorem decoded_of_straight
    (bus : r.InstrBus) {mem : InstrMemory} (reads : r.ReadsMemory mem) :
    ∀ parcel ∈ r.placedFrom start k,
      ∃ fetches, r.DecodedBy mem start fetches parcel := by
  induction k with
  | zero =>
      intro parcel member
      exact absurd member (List.not_mem_nil)
  | succ k inductionHypothesis =>
      have shorter : ∀ m, m < k →
          (r.state (start + m)).flush (r.inputs (start + m)) = false :=
        fun m below => straight m (Nat.lt_succ_of_lt below)
      intro parcel member
      rcases List.mem_append.mp member with earlier | last
      · exact inductionHypothesis shorter parcel earlier
      · rw [Option.mem_toList] at last
        have decoded := decoded_of_placed
          (straight k (Nat.lt_succ_self k)) bus reads last
        rw [pathStart_of_straight path shorter] at decoded
        exact decoded

end Path

end Run

/-- Whatever the bus timing, the stalls, redirects and debug requests, each
path of the front end delivers the sequential decoding of memory from its
target, each instruction once. -/
theorem fetch_transparent
    {p : Params} (r : Run p) (mem : InstrMemory)
    (bus : r.InstrBus) (reads : r.ReadsMemory mem)
    {start k : ℕ} {target : BitVec 32} (path : r.PathFrom start target)
    (straight : ∀ m, m < k →
      (r.state (start + m)).flush (r.inputs (start + m)) = false) :
    r.Transparent mem start target k where
  sequential := (Run.sequential_of_straight path straight).1
  decoded := Run.decoded_of_straight path straight bus reads
  consumed := Run.consumed_of_straight path straight

/-- A compressed instruction, one that straddles two words and another
compressed one. -/
def straddleMemory : InstrMemory where
  data addr := if addr = 0 then 0x00934501 else 0x00010050
  err _ := false

def straddleRun : Run {} :=
  Run.script _
    [.accept, .answer 0x00934501, .idle, .accept, .answer 0x00010050, .idle]

theorem straddleRun_instrBus : straddleRun.InstrBus :=
  Run.instrBus_script (by decide) (by decide)

theorem straddleRun_readsMemory :
    straddleRun.ReadsMemory straddleMemory := by
  intro n response
  by_cases within : n < 6
  · have checked : ∀ n < 6, (straddleRun.inputs n).iRspValid = true →
        ∀ request ∈ straddleRun.iOutstanding n,
          (straddleRun.inputs n).iRspRdata = straddleMemory.data request.1 ∧
            (straddleRun.inputs n).iRspErr =
              straddleMemory.err request.1 := by decide
    exact checked n within response
  · have idle : straddleRun.inputs n = {} :=
      List.getD_eq_default _ _ (Nat.not_lt.mp within)
    simp [idle] at response

theorem fetch_transparent_straddleRun :
    straddleRun.Transparent straddleMemory 0 0 6 :=
  fetch_transparent straddleRun straddleMemory straddleRun_instrBus
    straddleRun_readsMemory (Or.inl ⟨rfl, rfl⟩) (by decide)

end SisRv
