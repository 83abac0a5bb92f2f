import SisRv.Core.Progress
import SisRv.Fabric.DevicesAlike
import SisRv.Fabric.InstrRom
import SisRv.Platform.Run
import SisRv.Platform.Store

/-!
# The platform with the corebus paths

The store is behind both ports: a fetch is answered in the cycle after its
request and taken at once, and so is a regular data access.
-/

namespace SisRv

open Sync

namespace Setup

variable (t : Setup) (p : Params)

/-- The run of the instruction side. -/
def fetches : InstrPathRun where
  romInit := t.rom
  inputs := fun n => ((t.corebus p).ports n).instrIn

/-- The run of the data side. -/
def accesses : DataPathRun where
  romInit := t.rom
  ramInit := t.ram
  inputs := fun n =>
    ((t.corebus p).state n).mem.dataIn (t.pins n) ((t.corebus p).ports n)

variable {t p} {n : ℕ}

theorem fetches_state (n : ℕ) :
    (t.fetches p).state n = ((t.corebus p).state n).mem.instr := by
  induction n with
  | zero => rfl
  | succ n inductionHypothesis =>
      rw [InstrPathRun.state_succ, inductionHypothesis]
      rfl

theorem accesses_state (n : ℕ) :
    (t.accesses p).state n = ((t.corebus p).state n).mem.data := by
  induction n with
  | zero => rfl
  | succ n inductionHypothesis =>
      rw [DataPathRun.state_succ, inductionHypothesis]
      rfl

/-! ## Fetches -/

/-- The core and the instruction side see the same fetches. -/
theorem iAccepts_eq (n : ℕ) :
    (t.corebus p).core.iAccepts n =
      ((t.fetches p).accept n).map (BitVec.extractLsb' 2 30) := by
  have ready : ((t.corebus p).core.inputs n).iReqReady =
      ((t.fetches p).state n).reqReady ((t.fetches p).inputs n) := by
    rw [fetches_state]
    rfl
  rw [Run.iAccepts, InstrPathRun.accept, ready]
  simp only [fetches, PlatformRun.ports_eq, CorePorts.instrIn]
  split_ifs <;> rfl

theorem iHandsOver_eq (n : ℕ) :
    (t.corebus p).core.iHandsOver n = (t.fetches p).handover n := by
  have valid : ((t.corebus p).core.inputs n).iRspValid =
      ((t.fetches p).rsp n).valid := by
    rw [InstrPathRun.rsp, fetches_state]
    rfl
  rw [Run.iHandsOver, InstrPathRun.handover, valid]
  simp only [fetches, PlatformRun.ports_eq, CorePorts.instrIn]

theorem iOutstanding_eq (n : ℕ) :
    (t.corebus p).core.iOutstanding n =
      ((t.fetches p).request n).map
        (Prod.map (BitVec.extractLsb' 2 30) id) := by
  rw [Run.iOutstanding, funext iAccepts_eq, funext iHandsOver_eq]
  exact outstanding_map _

end Setup

namespace InstrPath

variable {s : InstrPath} {i : InstrPathIn}

/-- A path that loses its response in every cycle has one for what it has just
accepted. -/
theorem next_taken
    (one : s.iromBadPending = true → s.irom.pending = false)
    (taken : s.rsp.valid = true → i.rspReady = true) :
    (s.next i).iromBadPending =
        (i.reqValid && s.reqReady i && !iromSel i.addr) ∧
      (s.next i).irom.pending =
        (i.reqValid && s.reqReady i && iromSel i.addr) := by
  obtain ⟨bad, mem, full, word⟩ := s
  obtain ⟨valid, addr, ready⟩ := i
  simp only [rsp, RomState.rsp, Bool.or_eq_true] at one taken
  have empty : bad = true → full = false := one
  -- what is held is taken, and only one of the two holds something
  have held : (bad = true ∧ full = false ∨ bad = false ∧ full = true) ∧
      ready = true ∨ bad = false ∧ full = false := by
    cases bad <;> cases full <;> simp_all
  rcases held with ⟨⟨rfl, rfl⟩ | ⟨rfl, rfl⟩, rfl⟩ | ⟨rfl, rfl⟩ <;>
    cases sel : iromSel addr <;> cases valid <;>
    simp [next, iromBadPendingNext, RomState.next, RomState.reqFire, rsp,
      RomState.rsp, RomState.reqReady, iromIn, reqReady, slaveReqReady, sel]

end InstrPath

namespace Run

variable {p : Params} {r : Run p} {n : ℕ}

/-- One cycle of a bus that keeps to its rules. -/
theorem busSound_succ
    (sound : (r.state n).BusSound (r.iOutstanding n))
    (answers : (r.inputs n).iRspValid = true →
      (r.iOutstanding n).isSome = true)
    (accepts : (r.iAccepts n).isSome = true →
      r.iOutstanding n = none ∨ r.iHandsOver n = true) :
    (r.state (n + 1)).BusSound (r.iOutstanding (n + 1)) := by
  rw [state_succ]
  cases request : r.iAccepts n with
  | some addr =>
      have free := accepts (by rw [request]; rfl)
      rw [iOutstanding, outstanding_of_accept request]
      rw [iAccepts] at request
      split_ifs at request with fires
      rw [Bool.and_eq_true] at fires
      rw [← Option.some.inj request]
      exact sound.accepts free fires.1 fires.2 n
  | none =>
      have quiet : ((r.state n).iReqValid (r.inputs n) &&
          (r.inputs n).iReqReady) = false := by
        rw [iAccepts] at request
        split_ifs at request with fires
        simpa using fires
      cases hands : r.iHandsOver n with
      | true =>
          rw [iOutstanding, outstanding_of_handover request hands]
          exact sound.handsOver quiet hands
      | false =>
          rw [iOutstanding, outstanding_of_idle request hands]
          exact sound.keeps answers quiet hands

end Run

namespace Setup

variable {t : Setup} {p : Params} {n : ℕ}

/-- The instruction side holds a response exactly while the core waits for
one. -/
structure FetchSound (t : Setup) (p : Params) (n : ℕ) : Prop where
  one : ((t.fetches p).state n).iromBadPending = true →
    ((t.fetches p).state n).irom.pending = false
  full : ((t.fetches p).rsp n).valid = ((t.fetches p).request n).isSome
  core : ((t.corebus p).core.state n).BusSound
    ((t.corebus p).core.iOutstanding n)

theorem iRspValid_eq (n : ℕ) :
    ((t.corebus p).core.inputs n).iRspValid =
      ((t.fetches p).rsp n).valid := by
  rw [InstrPathRun.rsp, fetches_state]
  rfl

section Step

variable (sound : FetchSound t p n)
include sound

/-- A response is taken as soon as it is there. -/
theorem FetchSound.taken (valid : ((t.fetches p).rsp n).valid = true) :
    ((t.fetches p).inputs n).rspReady = true := by
  rw [sound.full, Option.isSome_iff_exists] at valid
  obtain ⟨⟨addr, a⟩, out⟩ := valid
  have ready : ((t.fetches p).inputs n).rspReady =
      ((t.corebus p).core.state n).iRspReady := by
    simp only [fetches, PlatformRun.ports_eq, CorePorts.instrIn]
  rw [ready, Core.iRspReady, Bool.or_eq_true]
  rcases sound.core.busy _ _ (by rw [iOutstanding_eq, out]; rfl) with
    ⟨waits, -⟩ | ⟨-, inflight, -⟩
  · exact Or.inl waits
  · exact Or.inr inflight

theorem FetchSound.answers
    (valid : ((t.corebus p).core.inputs n).iRspValid = true) :
    ((t.corebus p).core.iOutstanding n).isSome = true := by
  rw [iRspValid_eq, sound.full] at valid
  rw [iOutstanding_eq, Option.isSome_map, valid]

theorem FetchSound.accepts :
    (t.corebus p).core.iOutstanding n = none ∨
      (t.corebus p).core.iHandsOver n = true := by
  cases out : (t.fetches p).request n with
  | none =>
      left
      rw [iOutstanding_eq, out]
      rfl
  | some fetch =>
      right
      have valid : ((t.fetches p).rsp n).valid = true := by
        rw [sound.full, out]
        rfl
      rw [iHandsOver_eq, InstrPathRun.handover, valid, sound.taken valid]
      rfl

theorem FetchSound.succ : FetchSound t p (n + 1) := by
  obtain ⟨bad, rom⟩ := InstrPath.next_taken sound.one sound.taken
  rw [← InstrPathRun.state_succ] at bad rom
  refine ⟨fun waits => ?_, ?_, ?_⟩
  · rw [bad, Bool.and_eq_true, Bool.not_eq_true'] at waits
    rw [rom, waits.2, Bool.and_false]
  · have valid : ((t.fetches p).rsp (n + 1)).valid =
        (((t.fetches p).inputs n).reqValid &&
          ((t.fetches p).state n).reqReady ((t.fetches p).inputs n)) := by
      show (_ || _) = _
      rw [bad, RomState.rsp, rom]
      cases iromSel ((t.fetches p).inputs n).addr <;> simp
    have asked : ((t.fetches p).request (n + 1)).isSome =
        ((t.fetches p).accept n).isSome := by
      cases accepted : (t.fetches p).accept n with
      | some addr =>
          rw [InstrPathRun.request, outstanding_of_accept accepted]
          rfl
      | none =>
          cases hands : (t.fetches p).handover n with
          | true =>
              rw [InstrPathRun.request,
                outstanding_of_handover accepted hands]
              rfl
          | false =>
              rw [InstrPathRun.request, outstanding_of_idle accepted hands]
              rcases sound.accepts with out | taken
              · rw [iOutstanding_eq, Option.map_eq_none_iff] at out
                exact congrArg Option.isSome out
              · rw [iHandsOver_eq, hands] at taken
                exact absurd taken Bool.false_ne_true
    rw [valid, asked, InstrPathRun.accept]
    split_ifs with accepts
    · exact accepts
    · simpa using accepts
  · exact Run.busSound_succ sound.core sound.answers fun _ => sound.accepts

end Step

theorem fetchSound (t : Setup) (p : Params) (n : ℕ) : FetchSound t p n := by
  induction n with
  | zero =>
      refine ⟨fun _ => rfl, rfl, fun _ => ⟨rfl, rfl⟩, ?_⟩
      rintro addr a ⟨⟩
  | succ n inductionHypothesis => exact inductionHypothesis.succ

theorem corebus_instrBus (t : Setup) (p : Params) :
    (t.corebus p).core.InstrBus where
  answers := fun n => (fetchSound t p n).answers
  accepts := fun n _ => (fetchSound t p n).accepts

theorem fetches_single (t : Setup) (p : Params) :
    (t.fetches p).SingleRequest := by
  intro k out _
  rcases (fetchSound t p k).accepts with free | taken
  · rw [iOutstanding_eq, Option.map_eq_none_iff] at free
    exact absurd free out
  · rw [← iHandsOver_eq, taken]

/-- A fetch from the ROM is answered with its word. -/
theorem corebus_fetch {addr : BitVec 30} {a : ℕ}
    (out : (t.corebus p).core.iOutstanding n = some (addr, a))
    (inRom : InRom addr) :
    ((t.corebus p).core.inputs n).iRspRdata = t.rom (addr.setWidth 19) ∧
      ((t.corebus p).core.inputs n).iRspErr = false := by
  rw [iOutstanding_eq, Option.map_eq_some_iff] at out
  obtain ⟨⟨byte, b⟩, request, same⟩ := out
  obtain ⟨rfl, rfl⟩ := Prod.mk.inj same
  have response := (InstrPathRun.consistent (fetches_single t p) n).rsp_of_some
    request
  have low : iromSel byte = true := by
    rw [iromSel_iff]
    rw [InRom, BitVec.extractLsb'_toNat, Nat.shiftRight_eq_div_pow] at inRom
    have bound := byte.isLt
    omega
  rw [InstrPathRun.answer, low, if_pos rfl, InstrPathRun.rsp, fetches_state]
    at response
  have word : ((t.corebus p).core.inputs n).iRspRdata =
      (((t.corebus p).state n).mem.instr.rsp).rdata := rfl
  have err : ((t.corebus p).core.inputs n).iRspErr =
      (((t.corebus p).state n).mem.instr.rsp).err := rfl
  rw [word, err, response]
  refine ⟨congrArg t.rom ?_, rfl⟩
  apply BitVec.eq_of_toNat_eq
  simp only [BitVec.extractLsb'_toNat, BitVec.toNat_setWidth,
    Nat.shiftRight_eq_div_pow]
  omega

/-! ## Data accesses -/

/-- The core and the data side see the same accesses. -/
theorem accesses_accept (n : ℕ) :
    (t.accesses p).accept n = (t.corebus p).core.dAccepts n := by
  have ready : ((t.corebus p).core.inputs n).dReqReady =
      ((t.accesses p).state n).mReqReady ((t.accesses p).inputs n) := by
    rw [accesses_state]
    rfl
  rw [Run.dAccepts, DataPathRun.accept, DataPath.accepts, Core.dataReqFire,
    ready]
  simp only [accesses, PlatformRun.ports_eq, Corebus.dataIn, Core.dReqValid]

theorem accesses_handover (n : ℕ) :
    (t.accesses p).handover n = (t.corebus p).core.dHandsOver n := by
  have valid : ((t.corebus p).core.inputs n).dRspValid =
      ((t.accesses p).state n).mRsp.valid := by
    rw [accesses_state]
    rfl
  rw [Run.dHandsOver, DataPathRun.handover, DataPath.handsOver,
    Core.dataRspFire, valid]
  simp only [accesses, PlatformRun.ports_eq, Corebus.dataIn]

theorem accesses_request (n : ℕ) :
    (t.accesses p).request n = (t.corebus p).core.dOutstanding n := by
  rw [DataPathRun.request, Run.dOutstanding, funext accesses_accept,
    funext accesses_handover]

/-- The core makes one access at a time. -/
theorem accesses_one (t : Setup) (p : Params) :
    (t.accesses p).OneAtATime := by
  intro k out
  rw [accesses_request] at out
  obtain ⟨⟨req, a⟩, out⟩ := Option.ne_none_iff_exists'.mp out
  rw [accesses_accept]
  exact Run.dAccepts_of_waits
    (Run.waits_of_dOutstanding PlatformRun.noSingleStep out)

theorem accesses_single (t : Setup) (p : Params) :
    (t.accesses p).SingleRequest := fun k out accepted =>
  absurd (accesses_one t p k out) accepted

theorem regular_of_accept {req : BusReq}
    (regular : (t.corebus p).core.RegularUntil (n + 1))
    (accepted : (t.accesses p).accept n = some req) : req.Regular := by
  apply regular.data
  rw [Run.asked_succ, ← accesses_accept, accepted]
  exact List.mem_append_right _ (List.mem_singleton_self _)

/-- The slaves answer regular accesses. -/
theorem accesses_consistent
    (regular : (t.corebus p).core.RegularUntil n) :
    (t.accesses p).Consistent n := by
  induction n with
  | zero => exact DataPathRun.consistent_zero _
  | succ n inductionHypothesis =>
      have consistent := inductionHypothesis (regular.mono (Nat.le_succ n))
      cases accepted : (t.accesses p).accept n with
      | none => exact consistent.succ_of_silent accepted
      | some req =>
          have fine := regular_of_accept regular accepted
          refine consistent.succ_of_accept (accesses_single t p) ?_ accepted
          intro other taken
          rw [accepted] at taken
          obtain rfl := Option.some.inj taken
          constructor
          · rintro ⟨rom, write⟩
            rw [BusReq.Regular, rom] at fine
            rw [fine.1] at write
            exact Bool.false_ne_true write
          · intro waits
            have free : (t.accesses p).request n = none := by
              by_contra out
              rw [accesses_one t p n out] at accepted
              cases accepted
            rw [consistent.idle free] at waits
            exact absurd waits Bool.false_ne_true

end Setup

/-! ### The store behind the data side -/

theorem RamState.next_mem (s : RamState) (i : SlaveIn) :
    (s.next i).mem =
      if s.reqFire i && i.req.we then s.write i.req else s.mem := by
  rw [next]
  cases s.reqFire i with
  | false =>
      rw [if_neg Bool.false_ne_true, Bool.false_and,
        if_neg Bool.false_ne_true]
      split_ifs <;> rfl
  | true => rw [if_pos rfl, Bool.true_and]

namespace DataPathRun

variable {r : DataPathRun} {k : ℕ}

theorem rom_kept (k : ℕ) : (r.state k).rom.mem = r.romInit := by
  induction k with
  | zero => rfl
  | succ k inductionHypothesis =>
      rw [state_succ, ← inductionHypothesis]
      show ((r.state k).rom.next ((r.state k).romIn (r.inputs k))).mem = _
      rw [RomState.next]
      split_ifs <;> rfl

theorem ram_next (k : ℕ) :
    (r.state (k + 1)).ram.mem =
      (r.accept k).elim (r.state k).ram.mem
        (Store.accessRam (r.state k).ram.mem) := by
  have fires : (r.state k).ram.reqFire ((r.state k).ramIn (r.inputs k)) =
      ((r.state k).accepts (r.inputs k) &&
        decide (addressMap (r.inputs k).req.addr = some .ram)) :=
    (r.state k).fires_eq (r.inputs k) .ram
  have step := (r.state k).ram.next_mem ((r.state k).ramIn (r.inputs k))
  have request : ((r.state k).ramIn (r.inputs k)).req = (r.inputs k).req :=
    rfl
  rw [fires, request] at step
  refine Eq.trans step ?_
  rw [accept]
  cases (r.state k).accepts (r.inputs k) with
  | false => simp
  | true =>
      simp only [Bool.true_and, if_true, Option.elim_some, Store.accessRam,
        Bool.and_eq_true, decide_eq_true_eq]
      rfl

/-- The RAM is what the accesses before a cycle make of it. -/
theorem ram_eq (k : ℕ) :
    (r.state k).ram.mem =
      (emitted r.accept k).foldl Store.accessRam r.ramInit :=
  foldl_of_stutter r.accept Store.accessRam (fun k => (r.state k).ram.mem)
    ram_next k

theorem devices_next
    (common : ∀ req, r.accept k = some req → namesDevice req.addr = true →
      Common req.addr) :
    r.devices (k + 1) =
      (r.accept k).elim (r.devices k) (r.devices k).access := by
  have step := DataPath.devices_next
    (emitted (fun j => (r.state j).sends) k)
    fun names accepts => common _ (by rw [accept, if_pos accepts]) names
  refine Eq.trans step ?_
  rw [accept]
  split_ifs <;> rfl

end DataPathRun

namespace Setup

variable {t : Setup} {p : Params} {n : ℕ}

theorem asked_eq (n : ℕ) :
    (t.corebus p).core.asked n = emitted (t.accesses p).accept n := by
  rw [funext accesses_accept]
  rfl

theorem accesses_devices
    (regular : (t.corebus p).core.RegularUntil n) :
    (t.accesses p).devices n =
      ((t.corebus p).core.asked n).foldl DeviceState.access .reset := by
  rw [asked_eq]
  induction n with
  | zero => exact DataPath.devices_reset t.rom t.ram
  | succ n inductionHypothesis =>
      have before := inductionHypothesis (regular.mono (Nat.le_succ n))
      rw [DataPathRun.devices_next fun req accepted names =>
        (regular_of_accept regular accepted).common names, before, emitted,
        List.foldl_append]
      cases (t.accesses p).accept n <;> rfl

/-- RAM and devices, with the bytes sent before a cycle. -/
def corebusStore (t : Setup) (p : Params) (n : ℕ) : Store where
  ram := ((t.corebus p).state n).mem.data.ram.mem
  devices := (t.accesses p).devices n

/-- The data side is the store after the accesses made so far. -/
theorem corebusStore_eq (pins : BitVec 32)
    (regular : (t.corebus p).core.RegularUntil n) :
    corebusStore t p n =
      Backing.store ⟨t.rom, t.ram, pins⟩ ((t.corebus p).core.asked n) := by
  apply Store.ext
  · rw [Backing.store, Store.ram_after, asked_eq]
    show ((t.corebus p).state n).mem.data.ram.mem = _
    rw [← accesses_state, DataPathRun.ram_eq]
    rfl
  · rw [Backing.store, Store.devices_after]
    exact accesses_devices regular

/-! ### Responses -/

theorem accesses_input (k : ℕ) :
    ((t.accesses p).inputs k).gpioIn = (t.pins k).gpioIn := rfl

/-- The data side answers from the store before the access. -/
theorem accesses_answer {pins : BitVec 32} {req : BusReq} {a : ℕ}
    (held : (t.pins a).gpioIn = pins)
    (accepted : (t.accesses p).accept a = some req)
    (fine : req.Regular) :
    ((t.accesses p).answer a).2 = (addressMap req.addr).isNone ∧
      (req.we = false →
        ((t.accesses p).answer a).1 =
          (corebusStore t p a).read t.rom pins req.addr) := by
  obtain ⟨accepts, rfl⟩ := DataPathRun.accept_eq_some accepted
  rw [DataPathRun.answer]
  constructor
  · rw [DataPath.answer]
    cases addressMap ((t.accesses p).inputs a).req.addr <;> rfl
  intro read
  by_cases names : namesDevice ((t.accesses p).inputs a).req.addr = true
  · rw [DataPath.answer_of_common
      (emitted (fun j => ((t.accesses p).state j).sends) a)
      (fine.common names) names read, accesses_input, held, Store.read]
    unfold namesDevice at names
    cases named : addressMap ((t.accesses p).inputs a).req.addr with
    | none =>
        rw [named] at names
        cases names
    | some d =>
        rw [named] at names
        cases d with
        | rom | ram | plic => cases names
        | tohost | gpio | uart | clint => rfl
  · rw [DataPath.answer, Store.read]
    unfold namesDevice at names
    cases named : addressMap ((t.accesses p).inputs a).req.addr with
    | none => rfl
    | some d =>
        rw [named] at names
        cases d with
        | rom => exact congrFun (DataPathRun.rom_kept a) _
        | ram =>
            show ((t.accesses p).state a).ram.mem _ = _
            rw [accesses_state]
            rfl
        | plic =>
            rw [BusReq.Regular, named] at fine
            exact fine.elim
        | tohost | gpio | uart | clint => exact absurd rfl names

theorem dRsp_eq (n : ℕ) :
    ((t.corebus p).core.inputs n).dRspValid = ((t.accesses p).rsp n).valid ∧
      ((t.corebus p).core.inputs n).dRspRdata =
        ((t.accesses p).rsp n).rdata ∧
      ((t.corebus p).core.inputs n).dRspErr =
        ((t.accesses p).rsp n).err := by
  rw [DataPathRun.rsp, accesses_state]
  exact ⟨rfl, rfl, rfl⟩

theorem corebus_answer {pins : BitVec 32} {req : BusReq} {a : ℕ}
    (held : ∀ k, (t.pins k).gpioIn = pins)
    (regular : (t.corebus p).core.RegularUntil n)
    (out : (t.corebus p).core.dOutstanding n = some (req, a)) :
    ((t.corebus p).core.inputs n).dRspErr =
        (Backing.answer ⟨t.rom, t.ram, pins⟩
          ((t.corebus p).core.asked n)).2 ∧
      (req.we = false → ((t.corebus p).core.inputs n).dRspRdata =
        (Backing.answer ⟨t.rom, t.ram, pins⟩
          ((t.corebus p).core.asked n)).1) := by
  have before := asked_lt_of_outstanding out
  have fine : req.Regular := regular.data req (by
    rw [Run.asked_of_dOutstanding out]
    exact List.mem_append_right _ (List.mem_singleton_self _))
  have request := (accesses_request n).trans out
  obtain ⟨err, word⟩ := accesses_answer (held a)
    (accept_of_outstanding request) fine
  rw [(dRsp_eq n).2.2, (dRsp_eq n).2.1,
    (accesses_consistent regular).rsp_of_some request,
    Run.asked_of_dOutstanding out, Backing.answer_concat,
    ← corebusStore_eq pins (regular.mono before.le)]
  exact ⟨err, word⟩

/-! ### Progress -/

section Progress

variable (regular : ∀ n, (t.corebus p).core.RegularUntil n)
include regular

theorem corebus_data : (t.corebus p).core.DataBusAnswers where
  accepts := fun n kept => by
    refine ⟨n, le_rfl, ?_⟩
    have free : (t.accesses p).request n = none := by
      rw [accesses_request]
      apply Run.dOutstanding_of_idle PlatformRun.noSingleStep
      by_contra waits
      have valid := kept n le_rfl
      simp only [Bool.not_eq_false, Core.dRspReady, Bool.and_eq_true,
        Bool.or_eq_true, beq_iff_eq] at waits
      rcases waits.2 with wait | wait <;>
        simp [Core.dReqValid, Core.exMemRequesting, wait] at valid
    have ready : ((t.corebus p).core.inputs n).dReqReady =
        ((t.accesses p).state n).mReqReady ((t.accesses p).inputs n) := by
      rw [accesses_state]
      rfl
    rw [ready, DataPath.mReqReady_eq]
    cases addressMap ((t.accesses p).inputs n).req.addr with
    | none => rfl
    | some d =>
        have empty := (accesses_consistent (regular n)).empty free d
        rw [DataPathRun.held_eq_none_iff] at empty
        dsimp only
        rw [empty]
        rfl
  answers := fun n waits => by
    refine ⟨n, le_rfl, ?_⟩
    obtain ⟨req, a, out⟩ := Run.dOutstanding_of_waits
      PlatformRun.noSingleStep (waits n le_rfl)
    rw [(dRsp_eq n).1, (accesses_consistent (regular n)).rsp_of_some
      ((accesses_request n).trans out)]

end Progress

/-- A fetch is accepted unless the error response holds it up, which is taken
at once. -/
theorem fetches_ready
    (free : ((t.fetches p).state n).iromBadPending = false ∨
      iromSel ((t.fetches p).inputs n).addr = true) :
    ((t.corebus p).core.inputs n).iReqReady = true := by
  have ready : ((t.corebus p).core.inputs n).iReqReady =
      ((t.fetches p).state n).reqReady ((t.fetches p).inputs n) := by
    rw [fetches_state]
    rfl
  have sound := fetchSound t p n
  rw [ready, InstrPath.reqReady]
  cases sel : iromSel ((t.fetches p).inputs n).addr with
  | false =>
      rw [sel] at free
      simpa using free
  | true =>
      rw [if_pos rfl, RomState.reqReady, slaveReqReady, Bool.or_eq_true,
        Bool.not_eq_true']
      cases full : ((t.fetches p).state n).irom.pending with
      | false => exact Or.inl rfl
      | true =>
          have one := sound.one
          have taken := sound.taken (by
            rw [InstrPathRun.rsp, InstrPath.rsp, RomState.rsp, full]
            exact Bool.or_true _)
          rw [full] at one
          right
          simpa [InstrPath.iromIn, taken] using one

theorem corebus_instr (t : Setup) (p : Params) :
    (t.corebus p).core.InstrBusAnswers where
  accepts := fun n _ => by
    by_cases free : ((t.fetches p).state n).iromBadPending = false ∨
        iromSel ((t.fetches p).inputs n).addr = true
    · exact ⟨n, le_rfl, fetches_ready free⟩
    · refine ⟨n + 1, Nat.le_succ n, fetches_ready (Or.inl ?_)⟩
      rw [not_or, Bool.not_eq_false, Bool.not_eq_true] at free
      have sound := fetchSound t p n
      have step := (InstrPath.next_taken sound.one sound.taken).1
      rw [← InstrPathRun.state_succ, InstrPath.reqReady, free.2, free.1]
        at step
      simpa using step
  answers := fun n out => by
    refine ⟨n, le_rfl, ?_⟩
    rw [iRspValid_eq, (fetchSound t p n).full]
    rw [iOutstanding_eq, Option.isSome_map] at out
    exact out

/-- The store behind the corebus paths. -/
theorem corebus_backedBy (t : Setup) (p : Params) {pins : BitVec 32}
    (held : ∀ k, (t.pins k).gpioIn = pins) :
    (t.corebus p).core.BackedBy ⟨t.rom, t.ram, pins⟩ (corebusStore t p) where
  bus := corebus_instrBus t p
  fetch := fun out _ inRom => corebus_fetch out inRom
  answer := fun regular out _ => corebus_answer held regular out
  contents := fun regular _ => corebusStore_eq pins regular
  goes := fun regular => Run.completes_often PlatformRun.noSingleStep
    (corebus_instrBus t p)
    ⟨corebus_data regular, corebus_instr t p,
      0, fun n _ => ⟨PlatformRun.not_halted n,
        (PlatformRun.debug_inputs n).1⟩⟩

end Setup

end SisRv
