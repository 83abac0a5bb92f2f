import SisRv.Core.Progress
import SisRv.Platform.AxilStore
import SisRv.Platform.Run

/-!
# The platform with the AXI path

Both ports of the core share the bridge.  Each sees its own requests and
responses only, and the store is behind both at every stall rate.
-/

namespace SisRv

open Sync

namespace AxiRun

variable (r : AxiRun)

/-- The request of one port. -/
def ofPort (q : Port) (tag : Port × BusReq) : Option BusReq :=
  if tag.1 = q then some tag.2 else none

theorem accepts_eq (q : Port) (k : ℕ) :
    r.accepts k q = (r.accept k).bind (ofPort q) := by
  have apart := r.apart k
  rw [accept]
  cases q with
  | d =>
      cases data : r.accepts k .d with
      | some req => rfl
      | none => cases r.accepts k .i <;> rfl
  | i =>
      cases data : r.accepts k .d with
      | none => cases r.accepts k .i <;> rfl
      | some req =>
          rw [data] at apart
          rw [apart.resolve_left (by simp)]
          rfl

/-- A port sees the part of the shared channel that is its own. -/
theorem outstanding_port (q : Port) (k : ℕ) :
    outstanding (fun k => r.accepts k q)
        (fun k => (r.rsp k q).valid && r.rspReady k q) k =
      (r.serving k).bind fun request =>
        (ofPort q request.1).map fun req => (req, request.2) := by
  rw [funext (r.accepts_eq q)]
  refine outstanding_bind ?_ ?_ k
  · intro n served
    obtain ⟨⟨⟨p, req⟩, a⟩, now⟩ := Option.ne_none_iff_exists'.mp served
    exact (busy_of_serving now).silent
  · rintro n ⟨p, req⟩ a request now own
    rw [ofPort] at own
    split_ifs at own with same
    obtain rfl : p = q := same
    have owner := (busy_of_serving now).owner
    rw [r.handover_eq, r.rsp_of_owner owner, AxiPath.coreRspReady, owner]
    cases p <;> rfl

theorem serving_of_port {q : Port} {k a : ℕ} {req : BusReq}
    (out : outstanding (fun k => r.accepts k q)
      (fun k => (r.rsp k q).valid && r.rspReady k q) k = some (req, a)) :
    r.serving k = some ((q, req), a) := by
  rw [outstanding_port] at out
  cases now : r.serving k with
  | none =>
      rw [now] at out
      cases out
  | some request =>
      obtain ⟨⟨p, other⟩, b⟩ := request
      rw [now, Option.bind_some, ofPort] at out
      split_ifs at out with same
      · obtain rfl : p = q := same
        cases out
        rfl
      · cases out

end AxiRun

namespace Setup

variable (t : Setup) (p : Params) (stallRate : ℤ)

/-- The run of the memory side. -/
def memory : AxiPlatformRun where
  stallRate := stallRate
  romInit := t.rom
  ramInit := t.ram
  mtimeInit := t.mtime
  inputs := fun n =>
    AxiPlatform.portsIn (t.pins n) ((t.axil p stallRate).ports n)

variable {t p stallRate} {n : ℕ}

theorem memory_state (n : ℕ) :
    (t.memory p stallRate).state n = ((t.axil p stallRate).state n).mem := by
  induction n with
  | zero => rfl
  | succ n inductionHypothesis =>
      show AxiPlatform.next ((t.memory p stallRate).state n) stallRate _ = _
      rw [inductionHypothesis]
      rfl

/-! ## The ports -/

theorem memory_inputs (n : ℕ) :
    (t.axil p stallRate).core.inputs n =
      { ((t.axil p stallRate).core.inputs n) with
        iReqReady := ((t.memory p stallRate).path.state n).iReqReady
          ((t.memory p stallRate).path.inputs n)
        iRspValid := ((t.memory p stallRate).path.rsp n .i).valid
        iRspRdata := ((t.memory p stallRate).path.rsp n .i).rdata
        iRspErr := ((t.memory p stallRate).path.rsp n .i).err
        dReqReady := ((t.memory p stallRate).path.state n).dReqReady
          ((t.memory p stallRate).path.inputs n)
        dRspValid := ((t.memory p stallRate).path.rsp n .d).valid
        dRspRdata := ((t.memory p stallRate).path.rsp n .d).rdata
        dRspErr := ((t.memory p stallRate).path.rsp n .d).err } := by
  have path := AxiPlatformRun.path_state (r := t.memory p stallRate) n
  have inputs : (t.memory p stallRate).path.inputs n =
      ((t.axil p stallRate).state n).mem.pathIn stallRate
        (AxiPlatform.portsIn (t.pins n) ((t.axil p stallRate).ports n)) := by
    rw [← memory_state]
    rfl
  simp only [AxiRun.rsp]
  rw [path, inputs, memory_state]
  rfl

/-- The requests and responses of the data port. -/
theorem dAccepts_eq (n : ℕ) :
    (t.axil p stallRate).core.dAccepts n =
      (t.memory p stallRate).path.accepts n .d := by
  rw [Run.dAccepts, Core.dataReqFire, memory_inputs]
  have inputs : ((t.memory p stallRate).path.inputs n).d =
      ((t.axil p stallRate).ports n).d := rfl
  rw [AxiRun.accepts, inputs, PlatformRun.ports_eq]
  rfl

theorem dHandsOver_eq (n : ℕ) :
    (t.axil p stallRate).core.dHandsOver n =
      (((t.memory p stallRate).path.rsp n .d).valid &&
        (t.memory p stallRate).path.rspReady n .d) := by
  rw [Run.dHandsOver, Core.dataRspFire, memory_inputs]
  have ready : (t.memory p stallRate).path.rspReady n .d =
      ((t.axil p stallRate).ports n).d.rspReady := rfl
  rw [ready, PlatformRun.ports_eq]

theorem dOutstanding_of_serving {req : BusReq} {a : ℕ}
    (now : (t.memory p stallRate).path.serving n = some ((.d, req), a)) :
    (t.axil p stallRate).core.dOutstanding n = some (req, a) := by
  rw [Run.dOutstanding, funext dAccepts_eq, funext dHandsOver_eq,
    AxiRun.outstanding_port, now]
  rfl

theorem serving_of_dOutstanding {req : BusReq} {a : ℕ}
    (out : (t.axil p stallRate).core.dOutstanding n = some (req, a)) :
    (t.memory p stallRate).path.serving n = some ((.d, req), a) := by
  rw [Run.dOutstanding, funext dAccepts_eq, funext dHandsOver_eq] at out
  exact AxiRun.serving_of_port _ out

/-- The fetches and responses of the instruction port. -/
theorem iAccepts_axil (n : ℕ) :
    (t.axil p stallRate).core.iAccepts n =
      ((t.memory p stallRate).path.accepts n .i).map
        fun req => req.addr.extractLsb' 2 30 := by
  have inputs : ((t.memory p stallRate).path.inputs n).iReqValid =
        ((t.axil p stallRate).ports n).iReqValid ∧
      ((t.memory p stallRate).path.inputs n).iReqAddr =
        ((t.axil p stallRate).ports n).iReqAddr := ⟨rfl, rfl⟩
  have ready : ((t.axil p stallRate).core.inputs n).iReqReady =
      ((t.memory p stallRate).path.state n).iReqReady
        ((t.memory p stallRate).path.inputs n) := by
    rw [memory_inputs]
  rw [Run.iAccepts, ready, AxiRun.accepts, inputs.1, inputs.2,
    PlatformRun.ports_eq]
  split_ifs <;> rfl

theorem iHandsOver_axil (n : ℕ) :
    (t.axil p stallRate).core.iHandsOver n =
      (((t.memory p stallRate).path.rsp n .i).valid &&
        (t.memory p stallRate).path.rspReady n .i) := by
  rw [Run.iHandsOver, memory_inputs]
  have ready : (t.memory p stallRate).path.rspReady n .i =
      ((t.axil p stallRate).ports n).iRspReady := rfl
  rw [ready, PlatformRun.ports_eq]

theorem iOutstanding_axil (n : ℕ) :
    (t.axil p stallRate).core.iOutstanding n =
      (outstanding (fun k => (t.memory p stallRate).path.accepts k .i)
        (fun k => ((t.memory p stallRate).path.rsp k .i).valid &&
          (t.memory p stallRate).path.rspReady k .i) n).map
        (Prod.map (fun req => req.addr.extractLsb' 2 30) id) := by
  rw [Run.iOutstanding, funext iAccepts_axil, funext iHandsOver_axil]
  exact outstanding_map _

theorem serving_of_iOutstanding {addr : BitVec 30} {a : ℕ}
    (out : (t.axil p stallRate).core.iOutstanding n = some (addr, a)) :
    ∃ req, (t.memory p stallRate).path.serving n = some ((.i, req), a) ∧
      req.addr.extractLsb' 2 30 = addr := by
  rw [iOutstanding_axil, Option.map_eq_some_iff] at out
  obtain ⟨⟨req, b⟩, now, same⟩ := out
  obtain ⟨rfl, rfl⟩ := Prod.mk.inj same
  exact ⟨req, AxiRun.serving_of_port _ now, rfl⟩

theorem iOutstanding_of_serving {req : BusReq} {a : ℕ}
    (now : (t.memory p stallRate).path.serving n = some ((.i, req), a)) :
    (t.axil p stallRate).core.iOutstanding n =
      some (req.addr.extractLsb' 2 30, a) := by
  rw [iOutstanding_axil, AxiRun.outstanding_port, now]
  rfl

theorem axil_instrBus (t : Setup) (p : Params) (stallRate : ℤ) :
    (t.axil p stallRate).core.InstrBus where
  answers := fun n valid => by
    rw [memory_inputs] at valid
    obtain ⟨req, a, now, -⟩ := AxiRun.rsp_of_valid valid
    rw [iOutstanding_of_serving now]
    rfl
  accepts := fun n accepted => by
    left
    cases out : (t.axil p stallRate).core.iOutstanding n with
    | none => rfl
    | some request =>
        obtain ⟨req, now, -⟩ := serving_of_iOutstanding out
        have silent := (AxiRun.busy_of_serving now).silent
        rw [iAccepts_axil, AxiRun.accepts_eq, silent] at accepted
        cases accepted

/-- A fetch is a read. -/
theorem read_of_fetch {req : BusReq} {k : ℕ}
    (accepted : (t.memory p stallRate).path.accept k = some (.i, req)) :
    req.we = false := by
  have own := (t.memory p stallRate).path.accepts_eq .i k
  rw [accepted] at own
  change _ = some req at own
  rw [AxiRun.accepts] at own
  split_ifs at own
  rw [← Option.some.inj own]

/-- A fetch from the ROM is answered with its word. -/
theorem axil_fetch {addr : BitVec 30} {a : ℕ}
    (out : (t.axil p stallRate).core.iOutstanding n = some (addr, a))
    (valid : ((t.axil p stallRate).core.inputs n).iRspValid = true)
    (inRom : InRom addr) :
    ((t.axil p stallRate).core.inputs n).iRspRdata =
        t.rom (addr.setWidth 19) ∧
      ((t.axil p stallRate).core.inputs n).iRspErr = false := by
  obtain ⟨req, now, rfl⟩ := serving_of_iOutstanding out
  rw [memory_inputs] at valid
  have read := read_of_fetch (accept_of_outstanding now)
  have low : req.addr.toNat < 0x10000 := by
    rw [InRom, BitVec.extractLsb'_toNat, Nat.shiftRight_eq_div_pow] at inRom
    have bound := req.addr.isLt
    omega
  have named : addressMap req.addr = some .rom := by
    unfold addressMap
    exact if_pos (by omega)
  have fine : req.Regular := by
    rw [BusReq.Regular, named]
    exact ⟨read, low⟩
  obtain ⟨err, -⟩ := AxiPlatformRun.rsp_of_regular now valid fine
  rw [named] at err
  obtain ⟨other, b, -, at_, offered⟩ := AxiRun.rsp_of_valid valid
  have access := (((t.memory p stallRate).coupled n).responding at_).access
    .i req a now
  rw [read, if_neg Bool.false_ne_true,
    (AxiRun.busy_of_serving now).payload.1] at access
  obtain ⟨j, -, -, -, word⟩ := access
  rw [memory_inputs]
  refine ⟨?_, err⟩
  rw [offered]
  refine word.trans ?_
  rw [AxiLiteSlave.memRead, (AxiLiteSlave.isRom_iff _).mpr low, if_pos rfl,
    AxiPlatformRun.rom_eq]
  refine congrArg t.rom ?_
  apply BitVec.eq_of_toNat_eq
  simp only [AxiLiteSlave.romWord, BitVec.extractLsb'_toNat,
    BitVec.toNat_setWidth, Nat.shiftRight_eq_div_pow]
  omega

/-! ## The store -/

/-- RAM and devices, with the bytes sent before a cycle. -/
def axilStore (t : Setup) (p : Params) (stallRate : ℤ) : ℕ → Store :=
  (t.memory p stallRate).store

/-- No fetch acts on a device. -/
theorem silent_of_fetch {req : BusReq} {k : ℕ}
    (regular : (t.axil p stallRate).core.RegularUntil n) (before : k < n)
    (accepted : (t.memory p stallRate).path.accept k = some (.i, req)) :
    namesDevice req.addr = false := by
  have fetch : (t.axil p stallRate).core.iAccepts k =
      ((t.memory p stallRate).path.accepts k .i).map
        fun req => req.addr.extractLsb' 2 30 := iAccepts_axil k
  rw [AxiRun.accepts_eq, accepted] at fetch
  rw [← namesDevice_word]
  exact regular.fetch k before _ fetch

/-- The requests of the data port are those that act on the store. -/
theorem requested_eq {pins : BitVec 32}
    (regular : (t.axil p stallRate).core.RegularUntil n) :
    (t.memory p stallRate).requested n =
      Backing.store ⟨t.rom, t.ram, pins⟩
        ((t.axil p stallRate).core.asked n) := by
  induction n with
  | zero => rfl
  | succ n inductionHypothesis =>
      have before := inductionHypothesis (regular.mono (Nat.le_succ n))
      have data := (t.memory p stallRate).path.accepts_eq .d n
      rw [← dAccepts_eq] at data
      rw [Run.asked_succ, data]
      cases accepted : (t.memory p stallRate).path.accept n with
      | none =>
          rw [AxiPlatformRun.requested_of_silent accepted, before]
          exact congrArg _ (List.append_nil _).symm
      | some tag =>
          obtain ⟨q, req⟩ := tag
          rw [AxiPlatformRun.requested_of_accept accepted, before]
          cases q with
          | d => exact (Store.after_concat _ _ _).symm
          | i =>
              rw [Store.access_of_silent _ (read_of_fetch accepted)
                (silent_of_fetch regular (Nat.lt_succ_self n) accepted)]
              exact congrArg _ (List.append_nil _).symm

/-- While a data request is in service, the store is the one before or behind
it. -/
theorem axil_between {pins : BitVec 32}
    (regular : (t.axil p stallRate).core.RegularUntil n) :
    axilStore t p stallRate n =
        Backing.store ⟨t.rom, t.ram, pins⟩
          ((t.axil p stallRate).core.asked n) ∨
      ∃ req a, (t.axil p stallRate).core.dOutstanding n = some (req, a) ∧
        axilStore t p stallRate n =
          Backing.store ⟨t.rom, t.ram, pins⟩
            ((t.axil p stallRate).core.asked a) := by
  have stored := AxiPlatformRun.stored (t.memory p stallRate) n
  rw [← requested_eq regular, axilStore]
  cases now : (t.memory p stallRate).path.serving n with
  | none => exact Or.inl (stored.free now)
  | some request =>
      obtain ⟨⟨q, req⟩, a⟩ := request
      obtain ⟨last, same⟩ := stored.busy q req a now
      cases q with
      | d =>
          by_cases due : (t.memory p stallRate).due n = true
          · right
            refine ⟨req, a, dOutstanding_of_serving now, ?_⟩
            rw [same, if_pos due]
            exact requested_eq (regular.mono (asked_lt_of_outstanding now).le)
          · left
            rw [same, if_neg due]
      | i =>
          left
          have accepted := accept_of_outstanding now
          rw [Store.access_of_silent _ (read_of_fetch accepted)
            (silent_of_fetch regular (asked_lt_of_outstanding now) accepted)]
            at last
          rw [same, last, ite_self]

theorem axil_contents {pins : BitVec 32}
    (regular : (t.axil p stallRate).core.RegularUntil n)
    (idle : ((t.axil p stallRate).core.state n).dRspReady = false) :
    axilStore t p stallRate n =
      Backing.store ⟨t.rom, t.ram, pins⟩
        ((t.axil p stallRate).core.asked n) := by
  rcases axil_between regular with same | ⟨req, a, out, -⟩
  · exact same
  · rw [Run.dOutstanding_of_idle PlatformRun.noSingleStep idle] at out
    cases out

theorem axil_answer {pins : BitVec 32} {req : BusReq} {a : ℕ}
    (held : ∀ k, (t.pins k).gpioIn = pins)
    (regular : (t.axil p stallRate).core.RegularUntil n)
    (out : (t.axil p stallRate).core.dOutstanding n = some (req, a))
    (valid : ((t.axil p stallRate).core.inputs n).dRspValid = true) :
    ((t.axil p stallRate).core.inputs n).dRspErr =
        (Backing.answer ⟨t.rom, t.ram, pins⟩
          ((t.axil p stallRate).core.asked n)).2 ∧
      (req.we = false → ((t.axil p stallRate).core.inputs n).dRspRdata =
        (Backing.answer ⟨t.rom, t.ram, pins⟩
          ((t.axil p stallRate).core.asked n)).1) := by
  have before := asked_lt_of_outstanding out
  have now := serving_of_dOutstanding out
  have fine : req.Regular := regular.data req (by
    rw [Run.asked_of_dOutstanding out]
    exact List.mem_append_right _ (List.mem_singleton_self _))
  rw [memory_inputs] at valid ⊢
  obtain ⟨err, word⟩ := AxiPlatformRun.rsp_of_regular now valid fine
  rw [Run.asked_of_dOutstanding out, Backing.answer_concat,
    ← requested_eq (regular.mono before.le)]
  exact ⟨err, fun read => word read pins fun k _ => held k⟩

/-! ## Progress -/

/-- A response is taken in the cycle it is offered in. -/
theorem handover_of_valid {q : Port} {req : BusReq} {a : ℕ}
    (now : (t.memory p stallRate).path.serving n = some ((q, req), a))
    (valid : ((t.memory p stallRate).path.rsp n q).valid = true) :
    (t.memory p stallRate).path.handover n = true := by
  have ready : (t.memory p stallRate).path.rspReady n q = true := by
    cases q with
    | d =>
        have port : (t.memory p stallRate).path.rspReady n .d =
            ((t.axil p stallRate).ports n).d.rspReady := rfl
        rw [port, PlatformRun.ports_eq]
        exact Run.waits_of_dOutstanding PlatformRun.noSingleStep
          (dOutstanding_of_serving now)
    | i =>
        have port : (t.memory p stallRate).path.rspReady n .i =
            ((t.axil p stallRate).ports n).iRspReady := rfl
        rw [port, PlatformRun.ports_eq]
        show ((t.axil p stallRate).core.state n).iRspReady = true
        have sound := (t.axil p stallRate).core.busSound
          (axil_instrBus t p stallRate) n
        rw [Core.iRspReady, Bool.or_eq_true]
        rcases sound.busy _ _ (iOutstanding_of_serving now) with
          ⟨waits, -⟩ | ⟨-, inflight, -⟩
        · exact Or.inl waits
        · exact Or.inr inflight
  rw [AxiRun.handover]
  cases q <;> simp [valid, ready]

/-- The request in service is answered, now or later. -/
theorem answered_of_serving {q : Port} {req : BusReq} {a : ℕ}
    (now : (t.memory p stallRate).path.serving n = some ((q, req), a)) :
    ∃ m, n ≤ m ∧ (t.memory p stallRate).path.serving m =
        some ((q, req), a) ∧
      ((t.memory p stallRate).path.rsp m q).valid = true := by
  obtain ⟨m, still, valid, -⟩ :=
    AxiPlatformRun.answers (accept_of_outstanding now)
  refine ⟨m, ?_, still, valid⟩
  by_contra early
  have hands := handover_of_valid still valid
  exact not_outstanding_of_handover hands still (Nat.lt_of_not_le early) now

/-- The bridge is free again and again. -/
theorem exists_free (t : Setup) (p : Params) (stallRate : ℤ) (n : ℕ) :
    ∃ m, n ≤ m ∧ (t.memory p stallRate).path.serving m = none := by
  cases now : (t.memory p stallRate).path.serving n with
  | none => exact ⟨n, le_rfl, now⟩
  | some request =>
      obtain ⟨⟨q, req⟩, a⟩ := request
      obtain ⟨m, late, still, valid⟩ := answered_of_serving now
      refine ⟨m + 1, by omega, ?_⟩
      exact outstanding_of_handover (AxiRun.busy_of_serving still).silent
        (handover_of_valid still valid)

theorem axil_data (t : Setup) (p : Params) (stallRate : ℤ) :
    (t.axil p stallRate).core.DataBusAnswers where
  accepts := fun n kept => by
    obtain ⟨m, late, free⟩ := exists_free t p stallRate n
    refine ⟨m, late, ?_⟩
    have serves := (t.memory p stallRate).path.serves m
    rw [AxiRun.Serves, free] at serves
    have idle : (t.memory p stallRate).path.Free m := serves
    have valid : ((t.memory p stallRate).path.inputs m).d.reqValid = true := by
      have port : ((t.memory p stallRate).path.inputs m).d.reqValid =
          ((t.axil p stallRate).ports m).d.reqValid := rfl
      rw [port, PlatformRun.ports_eq]
      exact kept m late
    rw [memory_inputs]
    show ((t.memory p stallRate).path.state m).dReqReady _ = true
    rw [AxiPath.dReqReady, valid, idle.pending, AxiPath.coreReqReady,
      AxiLiteM.reqReady]
    exact beq_iff_eq.mpr idle.idle
  answers := fun n waits => by
    obtain ⟨req, a, out⟩ := Run.dOutstanding_of_waits
      PlatformRun.noSingleStep (waits n le_rfl)
    obtain ⟨m, late, -, valid⟩ :=
      answered_of_serving (serving_of_dOutstanding out)
    refine ⟨m, late, ?_⟩
    rw [memory_inputs]
    exact valid

/-- A core that completes nothing any more requests no data, so that its
fetches get through. -/
theorem axil_instr {b : ℕ}
    (idle : ∀ n, b ≤ n → (t.axil p stallRate).core.completes n = false) :
    (t.axil p stallRate).core.InstrBusAnswers where
  accepts := fun n kept => by
    obtain ⟨m, late, free⟩ := exists_free t p stallRate (max b n)
    have above : b ≤ m := (le_max_left b n).trans late
    have after : n ≤ m := (le_max_right b n).trans late
    refine ⟨m, after, ?_⟩
    have serves := (t.memory p stallRate).path.serves m
    rw [AxiRun.Serves, free] at serves
    have unused : (t.memory p stallRate).path.Free m := serves
    have silent : ((t.axil p stallRate).core.state m).dReqValid = false := by
      by_contra asks
      rw [Bool.not_eq_false] at asks
      have valid : ((t.axil p stallRate).core.state m).ex.valid = true := by
        rw [Core.dReqValid, Core.exMemRequesting, Bool.and_eq_true] at asks
        exact asks.1
      have noStop := (t.axil p stallRate).core.not_stop_of_noSingleStep
        PlatformRun.noSingleStep
      obtain ⟨x, beyond, leaves⟩ := Run.leaves_of_valid
        (fun k _ => noStop k)
        (fun k late => by
          have quiet := idle k late
          rw [Run.completes, Bool.or_eq_false_iff] at quiet
          exact quiet.2) (axil_data t p stallRate) above valid
      have quiet := idle x (above.trans beyond)
      rw [Run.completes, leaves] at quiet
      cases quiet
    have port : ((t.memory p stallRate).path.inputs m).d.reqValid =
          ((t.axil p stallRate).ports m).d.reqValid ∧
        ((t.memory p stallRate).path.inputs m).iReqValid =
          ((t.axil p stallRate).ports m).iReqValid := ⟨rfl, rfl⟩
    rw [PlatformRun.ports_eq] at port
    rw [memory_inputs]
    show ((t.memory p stallRate).path.state m).iReqReady _ = true
    rw [AxiPath.iReqReady, port.1, port.2, silent, kept m after,
      unused.pending, AxiPath.coreReqReady, AxiLiteM.reqReady]
    exact beq_iff_eq.mpr unused.idle
  answers := fun n out => by
    rw [Option.isSome_iff_exists] at out
    obtain ⟨⟨addr, a⟩, out⟩ := out
    obtain ⟨req, now, -⟩ := serving_of_iOutstanding out
    obtain ⟨m, late, -, valid⟩ := answered_of_serving now
    refine ⟨m, late, ?_⟩
    rw [memory_inputs]
    exact valid

theorem axil_goes (t : Setup) (p : Params) (stallRate : ℤ) (n : ℕ) :
    ∃ m, n ≤ m ∧ (t.axil p stallRate).core.completes m = true := by
  by_contra never
  push Not at never
  have idle : ∀ m, n ≤ m → (t.axil p stallRate).core.completes m = false :=
    fun m late => by simpa using never m late
  obtain ⟨m, late, completes⟩ := Run.completes_often
    PlatformRun.noSingleStep (axil_instrBus t p stallRate)
    ⟨axil_data t p stallRate, axil_instr idle, 0, fun k _ =>
      ⟨PlatformRun.not_halted k, (PlatformRun.debug_inputs k).1⟩⟩ n
  exact never m late completes

/-- The store behind the AXI path, at every stall rate. -/
theorem axil_backedBy (t : Setup) (p : Params) (stallRate : ℤ)
    {pins : BitVec 32} (held : ∀ k, (t.pins k).gpioIn = pins) :
    (t.axil p stallRate).core.BackedBy ⟨t.rom, t.ram, pins⟩
      (axilStore t p stallRate) where
  bus := axil_instrBus t p stallRate
  fetch := fun out valid inRom => axil_fetch out valid inRom
  answer := fun regular out valid => axil_answer held regular out valid
  contents := fun regular idle => axil_contents regular idle
  goes := fun _ => axil_goes t p stallRate

end Setup

end SisRv
