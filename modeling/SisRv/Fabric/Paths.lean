import SisRv.Axi.Platform
import SisRv.Fabric.InstrRom
import SisRv.Fabric.Regions
import SisRv.Fabric.Responses

/-!
# Two paths to memory

The direct path and the AXI path decode addresses on their own.  The module
says which region serves an access on either path, and when both give the same
answer.
-/

namespace SisRv

open Sync

/-! ## The direct data path -/

namespace DataPathRun

variable (r : DataPathRun)

/-- A device of the region takes the request of cycle `a`, and its answer is
the response. -/
def ServedBy (a : ℕ) (region : Region) : Prop :=
  ∃ req k d, r.request k = some (req, a) ∧ d.region = region ∧
    (r.state a).fires (r.inputs a) d = true ∧
    r.rsp k = ⟨true, (r.state a).deviceAnswer (r.inputs a) d, false⟩

/-- The request of cycle `a` reaches no device and has an error response. -/
def Refused (a : ℕ) : Prop :=
  ∃ req k, r.request k = some (req, a) ∧
    (∀ d, (r.state a).fires (r.inputs a) d = false) ∧
    (r.rsp k).valid = true ∧ (r.rsp k).err = true

variable {r} {a : ℕ} {req : BusReq}

/-- Behind a lost request no other is accepted. -/
theorem routable_before (single : r.SingleRequest)
    (accepted : r.accept a = some req) (k : ℕ) (before : k < a) :
    r.Routable k := by
  induction k using Nat.strong_induction_on with
  | _ k earlier =>
      have consistent := consistent_of_routable single k fun j below =>
        earlier j below (below.trans before)
      by_contra wrong
      have accepts : ∃ other, r.accept k = some other := by
        by_contra silent
        exact wrong fun other taken => absurd ⟨other, taken⟩ silent
      obtain ⟨other, taken⟩ := accepts
      obtain ⟨out, lost⟩ := lost_for_ever single before
        (request_of_accept taken)
        (consistent.rsp_of_unroutable single taken wrong)
      have hands := single a (by simp [out]) (by simp [accepted])
      have invalid : (r.state a).mRsp.valid = false := lost
      rw [handover, DataPath.handsOver, invalid, Bool.false_and] at hands
      exact Bool.false_ne_true hands

theorem not_answered_of_unroutable (single : r.SingleRequest)
    (accepted : r.accept a = some req) (wrong : ¬ r.Routable a) {k : ℕ}
    {other : BusReq} (out : r.request k = some (other, a)) :
    (r.rsp k).valid = false := by
  have consistent := consistent_of_routable single a
    (routable_before single accepted)
  have later : a < k := asked_lt_of_outstanding out
  exact (lost_for_ever single later (request_of_accept accepted)
    (consistent.rsp_of_unroutable single accepted wrong)).2

theorem rsp_of_routable (single : r.SingleRequest)
    (accepted : r.accept a = some req) (routable : r.Routable a) :
    r.rsp (a + 1) = ⟨true, (r.answer a).1, (r.answer a).2⟩ := by
  have consistent := consistent_of_routable single (a + 1) fun k below => by
    rcases Nat.lt_succ_iff_lt_or_eq.mp below with before | rfl
    · exact routable_before single accepted k before
    · exact routable
  exact consistent.rsp_of_some (request_of_accept accepted)

theorem fires_of_accept (accepted : r.accept a = some req) (d : Device) :
    (r.state a).fires (r.inputs a) d =
      decide (addressMap req.addr = some d) := by
  obtain ⟨accepts, rfl⟩ := accept_eq_some accepted
  rw [DataPath.fires_eq, accepts, Bool.true_and]

theorem servedBy_iff (single : r.SingleRequest)
    (accepted : r.accept a = some req) (region : Region) :
    r.ServedBy a region ↔
      r.Routable a ∧ (addressMap req.addr).map Device.region = some region := by
  constructor
  · rintro ⟨other, k, d, out, rfl, fires, answered⟩
    refine ⟨?_, ?_⟩
    · by_contra wrong
      have lost := not_answered_of_unroutable single accepted wrong out
      rw [answered] at lost
      exact absurd lost.symm Bool.false_ne_true
    · rw [fires_of_accept accepted, decide_eq_true_eq] at fires
      rw [fires, Option.map_some]
  · rintro ⟨routable, named⟩
    obtain ⟨d, decodes, same⟩ := Option.map_eq_some_iff.mp named
    refine ⟨req, a + 1, d, request_of_accept accepted, same, ?_, ?_⟩
    · rw [fires_of_accept accepted, decodes, decide_eq_true rfl]
    · rw [rsp_of_routable single accepted routable]
      obtain ⟨-, rfl⟩ := accept_eq_some accepted
      rw [answer, DataPath.answer, decodes]

theorem refused_iff (single : r.SingleRequest)
    (accepted : r.accept a = some req) :
    r.Refused a ↔ r.Routable a ∧ addressMap req.addr = none := by
  constructor
  · rintro ⟨other, k, out, quiet, valid, -⟩
    refine ⟨?_, ?_⟩
    · by_contra wrong
      rw [not_answered_of_unroutable single accepted wrong out] at valid
      exact Bool.false_ne_true valid
    · by_contra named
      obtain ⟨d, decodes⟩ := Option.ne_none_iff_exists'.mp named
      have fires := quiet d
      rw [fires_of_accept accepted, decodes, decide_eq_true rfl] at fires
      exact Bool.false_ne_true fires.symm
  · rintro ⟨routable, unnamed⟩
    have response := rsp_of_routable single accepted routable
    refine ⟨req, a + 1, request_of_accept accepted, fun d => ?_, ?_, ?_⟩
    · rw [fires_of_accept accepted, unnamed]
      rfl
    · rw [response]
    · rw [response]
      obtain ⟨-, rfl⟩ := accept_eq_some accepted
      rw [answer, DataPath.answer, unnamed]

end DataPathRun

/-! ## The AXI path -/

namespace AxiPlatformRun

variable (r : AxiPlatformRun)

/-- The access of the slave for the request of cycle `b` is one of the region,
and its result is the response. -/
def ServedBy (p : Port) (b : ℕ) (region : Region) : Prop :=
  ∃ req k j, r.path.serving k = some ((p, req), b) ∧
    (r.path.rsp k p).valid = true ∧ (r.path.rsp k p).err = false ∧
    j < k ∧ r.path.serving j = r.path.serving k ∧
    if req.we then
      r.Executes j req.addr req.wdata req.wstrb ∧
        ∀ t, (r.slave j).execWrite t = (r.slave j).regionWrite region t
    else
      (r.slave j).reads r.stallRate (r.slaveIn j) = some req.addr ∧
        (r.path.rsp k p).rdata =
          (r.slave j).regionRead (r.slaveIn j) region req.addr

/-- The request of cycle `b` changes nothing and has an error response. -/
def Refused (p : Port) (b : ℕ) : Prop :=
  ∃ req k, r.path.serving k = some ((p, req), b) ∧
    (r.path.rsp k p).valid = true ∧ (r.path.rsp k p).err = true ∧
    (req.we = true → ∃ j < k, r.path.serving j = r.path.serving k ∧
      r.Executes j req.addr req.wdata req.wstrb ∧
      ∀ t, (r.slave j).execWrite t = t)

/-- The fetch of cycle `b` has a word or an error as its response. -/
def Fetches (b : ℕ) (word : Option (BitVec 32)) : Prop :=
  ∃ req k, r.path.serving k = some ((.i, req), b) ∧
    (r.path.rsp k .i).valid = true ∧
    (if (r.path.rsp k .i).err then none
      else some (r.path.rsp k .i).rdata) = word

variable {r} {p : Port} {b k : ℕ} {req : BusReq} {addr : BitVec 32}

theorem err_of_valid (out : r.path.serving k = some ((p, req), b))
    (valid : (r.path.rsp k p).valid = true) :
    (r.path.rsp k p).err = (AxiLiteSlave.respOf req.addr != 0) := by
  obtain ⟨other, a, now, at_, offered⟩ := AxiRun.rsp_of_valid valid
  have addr := (AxiRun.busy_of_serving out).payload.1
  rw [offered, ← addr]
  exact ((r.coupled k).responding at_).code

theorem servedBy_of_region (accepted : r.path.accept b = some (p, req))
    {region : Region}
    (decodes : AxiLiteSlave.regionOf req.addr = some region) :
    r.ServedBy p b region := by
  obtain ⟨k, out, valid, err, access⟩ := answers accepted
  have okay : (r.path.rsp k p).err = false := by
    rw [err, ← Bool.not_eq_true, AxiLiteSlave.respOf_iff, decodes]
    exact Option.some_ne_none region
  cases we : req.we with
  | true =>
      rw [we, if_pos rfl] at access
      obtain ⟨j, before, same, executes⟩ := access
      refine ⟨req, k, j, out, valid, okay, before, same, ?_⟩
      rw [we, if_pos rfl]
      refine ⟨executes, fun t => AxiLiteSlave.execWrite_of_region t ?_⟩
      rw [executes.addr, decodes]
  | false =>
      rw [we, if_neg Bool.false_ne_true] at access
      obtain ⟨j, before, same, reads, word⟩ := access
      refine ⟨req, k, j, out, valid, okay, before, same, ?_⟩
      rw [we, if_neg Bool.false_ne_true, word]
      exact ⟨reads, AxiLiteSlave.memRead_of_region _ _ decodes⟩

theorem region_of_servedBy (accepted : r.path.accept b = some (p, req))
    {region : Region} (served : r.ServedBy p b region) :
    AxiLiteSlave.regionOf req.addr ≠ none := by
  obtain ⟨other, k, j, out, valid, okay, -⟩ := served
  obtain rfl : other = req := by
    have same := (accept_of_outstanding out).symm.trans accepted
    exact (Prod.mk.inj (Option.some.inj same)).2
  rw [err_of_valid out valid] at okay
  intro unnamed
  rw [(AxiLiteSlave.respOf_iff _).mpr unnamed] at okay
  exact Bool.false_ne_true okay.symm

theorem refused_iff (accepted : r.path.accept b = some (p, req)) :
    r.Refused p b ↔ AxiLiteSlave.regionOf req.addr = none := by
  constructor
  · rintro ⟨other, k, out, valid, err, -⟩
    obtain rfl : other = req := by
      have same := (accept_of_outstanding out).symm.trans accepted
      exact (Prod.mk.inj (Option.some.inj same)).2
    rw [err_of_valid out valid] at err
    exact (AxiLiteSlave.respOf_iff _).mp err
  · intro unnamed
    obtain ⟨k, out, valid, err, access⟩ := answers accepted
    refine ⟨req, k, out, valid, ?_, fun we => ?_⟩
    · rw [err, (AxiLiteSlave.respOf_iff _).mpr unnamed]
    · rw [we, if_pos rfl] at access
      obtain ⟨j, before, same, executes⟩ := access
      refine ⟨j, before, same, executes, fun t => ?_⟩
      apply AxiLiteSlave.execWrite_of_none
      rw [executes.addr, unnamed]

/-! ### Fetches -/

theorem regionOf_of_fetches
    (accepted : r.path.accept b = some (.i, ⟨addr, false, 0, 0⟩))
    {word : Option (BitVec 32)} (fetches : r.Fetches b word) :
    word = none ↔ AxiLiteSlave.regionOf addr = none := by
  obtain ⟨req, k, out, valid, rfl⟩ := fetches
  have same := (accept_of_outstanding out).symm.trans accepted
  obtain rfl := (Prod.mk.inj (Option.some.inj same)).2
  rw [← AxiLiteSlave.respOf_iff, ← err_of_valid out valid]
  cases (r.path.rsp k .i).err <;> simp

/-- A fetch outside the regions fails. -/
theorem fetches_none
    (accepted : r.path.accept b = some (.i, ⟨addr, false, 0, 0⟩))
    (unnamed : AxiLiteSlave.regionOf addr = none) : r.Fetches b none := by
  obtain ⟨k, out, valid, err, -⟩ := answers accepted
  refine ⟨_, k, out, valid, ?_⟩
  rw [err, (AxiLiteSlave.respOf_iff _).mpr unnamed, if_pos rfl]

/-- A fetch from the ROM has its word. -/
theorem fetches_rom
    (accepted : r.path.accept b = some (.i, ⟨addr, false, 0, 0⟩))
    (rom : AxiLiteSlave.isRom addr = true) :
    r.Fetches b (some (r.romInit (addr.extractLsb' 2 19))) := by
  obtain ⟨k, out, valid, err, j, -, -, -, word⟩ := answers accepted
  have decodes : AxiLiteSlave.regionOf addr ≠ none := by
    simp [AxiLiteSlave.regionOf, rom]
  have okay : (r.path.rsp k .i).err = false := by
    rw [err, ← Bool.not_eq_true]
    exact fun fails => decodes ((AxiLiteSlave.respOf_iff _).mp fails)
  refine ⟨_, k, out, valid, ?_⟩
  rw [okay, if_neg Bool.false_ne_true, word, AxiLiteSlave.memRead, rom,
    if_pos rfl, rom_eq]
  rfl

end AxiPlatformRun

/-! ## Comparison -/

variable (r : DataPathRun) (f : InstrPathRun) (x : AxiPlatformRun)

/-- The accesses of two cycles are served by one region, or refused. -/
def AccessedAlike (a b : ℕ) : Prop :=
  (∃ region, r.ServedBy a region ∧ x.ServedBy .d b region) ∨
    (r.Refused a ∧ x.Refused .d b)

/-- The fetches of two cycles have the same word, or fail. -/
def FetchedAlike (a b : ℕ) : Prop :=
  ∃ word, f.Fetches a word ∧ x.Fetches b word

/-- The two paths treat every access and every fetch alike. -/
structure PathsAlike : Prop where
  access : ∀ a b req, r.accept a = some req →
    x.path.accept b = some (.d, req) → AccessedAlike r x a b
  fetch : ∀ a b addr, f.accept a = some addr →
    x.path.accept b = some (.i, ⟨addr, false, 0, 0⟩) → FetchedAlike f x a b

variable {r f x}

theorem addressMap_of_beyond {addr : BitVec 32} (beyond : BeyondSlaveRom addr) :
    addressMap addr = some .rom := by
  obtain ⟨-, below⟩ := beyond
  unfold addressMap
  exact if_pos (by omega)

theorem accessedAlike_iff (single : r.SingleRequest) {a b : ℕ} {req : BusReq}
    (direct : r.accept a = some req)
    (axi : x.path.accept b = some (.d, req)) :
    AccessedAlike r x a b ↔ r.Routable a ∧ ¬ BeyondSlaveRom req.addr := by
  constructor
  · rintro (⟨region, served, servedAxi⟩ | ⟨refused, refusedAxi⟩)
    · refine ⟨((r.servedBy_iff single direct region).mp served).1, ?_⟩
      intro beyond
      exact AxiPlatformRun.region_of_servedBy axi servedAxi
        (AxiLiteSlave.regionOf_of_beyond beyond)
    · obtain ⟨routable, unnamed⟩ := (r.refused_iff single direct).mp refused
      refine ⟨routable, fun beyond => ?_⟩
      rw [addressMap_of_beyond beyond] at unnamed
      cases unnamed
  · rintro ⟨routable, within⟩
    have same := AxiLiteSlave.regionOf_eq within
    cases decodes : AxiLiteSlave.regionOf req.addr with
    | none =>
        rw [decodes] at same
        exact .inr ⟨(r.refused_iff single direct).mpr
          ⟨routable, Option.map_eq_none_iff.mp same.symm⟩,
          (AxiPlatformRun.refused_iff axi).mpr decodes⟩
    | some region =>
        rw [decodes] at same
        exact .inl ⟨region, (r.servedBy_iff single direct region).mpr
          ⟨routable, same.symm⟩,
          AxiPlatformRun.servedBy_of_region axi decodes⟩

theorem fetchedAlike_iff (single : f.SingleRequest)
    (sameRom : f.romInit = x.romInit) {a b : ℕ} {addr : BitVec 32}
    (direct : f.accept a = some addr)
    (axi : x.path.accept b = some (.i, ⟨addr, false, 0, 0⟩)) :
    FetchedAlike f x a b ↔
      addr.toNat < 0x10000 ∨
        0x200000 ≤ addr.toNat ∧ AxiLiteSlave.regionOf addr = none := by
  have rom := AxiLiteSlave.isRom_iff addr
  have irom := iromSel_iff addr
  constructor
  · rintro ⟨word, fetches, fetchesAxi⟩
    rw [InstrPathRun.fetches_iff single direct] at fetches
    have failed := AxiPlatformRun.regionOf_of_fetches axi fetchesAxi
    by_contra other
    push Not at other
    obtain ⟨above, decodes⟩ := other
    by_cases within : addr.toNat < 0x200000
    · rw [if_pos (irom.mpr within)] at fetches
      have unnamed := AxiLiteSlave.regionOf_of_beyond ⟨above, within⟩
      rw [failed.mpr unnamed] at fetches
      cases fetches
    · have out : ¬ iromSel addr = true := fun sel => within (irom.mp sel)
      rw [if_neg out] at fetches
      exact decodes (by omega) (failed.mp fetches)
  · rintro (low | ⟨high, unnamed⟩)
    · refine ⟨_, (InstrPathRun.fetches_iff single direct _).mpr rfl, ?_⟩
      rw [if_pos (irom.mpr (by omega)), sameRom]
      exact AxiPlatformRun.fetches_rom axi (rom.mpr low)
    · refine ⟨_, (InstrPathRun.fetches_iff single direct _).mpr rfl, ?_⟩
      have out : ¬ iromSel addr = true := fun sel => by
        have below := irom.mp sel
        omega
      rw [if_neg out]
      exact AxiPlatformRun.fetches_none axi unnamed

/-- An access is treated alike exactly if the direct path answers it and it is
not in the part of the ROM that the slave leaves out; a fetch, exactly if it
is from the ROM of the slave or from no region of either path. -/
theorem paths_alike_iff (single : r.SingleRequest)
    (singleFetch : f.SingleRequest) (sameRom : f.romInit = x.romInit) :
    (∀ a b req, r.accept a = some req → x.path.accept b = some (.d, req) →
      (AccessedAlike r x a b ↔ r.Routable a ∧ ¬ BeyondSlaveRom req.addr)) ∧
    ∀ a b addr, f.accept a = some addr →
      x.path.accept b = some (.i, ⟨addr, false, 0, 0⟩) →
      (FetchedAlike f x a b ↔
        addr.toNat < 0x10000 ∨
          0x200000 ≤ addr.toNat ∧ AxiLiteSlave.regionOf addr = none) :=
  ⟨fun _ _ _ direct axi => accessedAlike_iff single direct axi,
    fun _ _ _ direct axi => fetchedAlike_iff singleFetch sameRom direct axi⟩

/-- One data request after reset. -/
def AxiPlatformRun.firstRequest (req : BusReq) : AxiPlatformRun where
  stallRate := 0
  romInit := fun _ => 0x13
  ramInit := fun _ => 0
  mtimeInit := 0
  inputs := fun k =>
    { iReqValid := false
      iReqAddr := 0
      iRspReady := true
      d := ⟨k == 0, req, true⟩
      plicIrq := 0
      gpioIn := 0 }

theorem paths_alike_iff_loadRam :
    AccessedAlike (.firstRequest ⟨0x80000000, false, 0, 0⟩)
      (.firstRequest ⟨0x80000000, false, 0, 0⟩) 0 0 := by
  refine ((paths_alike_iff (DataPathRun.singleRequest_firstRequest _)
    (InstrPathRun.singleRequest_firstFetch 0) rfl).1 0 0
      ⟨0x80000000, false, 0, 0⟩ rfl rfl).mpr
    ⟨DataPathRun.routable_firstRequest rfl 0, fun beyond => ?_⟩
  exact absurd beyond.2 (by decide)

/-- A load from 0x10000 reads the ROM on the direct path and fails on the
other. -/
theorem not_paths_alike :
    ¬ ∀ (r : DataPathRun) (f : InstrPathRun) (x : AxiPlatformRun),
      r.SingleRequest → f.SingleRequest → f.romInit = x.romInit →
      PathsAlike r f x := by
  intro alike
  have single :=
    DataPathRun.singleRequest_firstRequest ⟨0x10000, false, 0, 0⟩
  have same := (alike _ _ (.firstRequest ⟨0x10000, false, 0, 0⟩) single
    (InstrPathRun.singleRequest_firstFetch 0) rfl).access 0 0 _ rfl rfl
  have within := ((accessedAlike_iff single rfl rfl).mp same).2
  exact within ⟨by decide, by decide⟩

end SisRv
