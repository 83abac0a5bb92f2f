import SisRv.Fabric.Devices
import SisRv.Lib.Trajectory

/-!
# One response for each request

Which device a request reaches and whose response the master sees.
-/

namespace SisRv

open Sync Fabric

namespace DataPath

variable (s : DataPath) (i : DataPathIn)

/-! ## Routing -/

/-- The device whose response the master sees. -/
def selected : Option Device := selectDevice s.activeSlave s.mmioSelR

/-- The response of a device, or the error answer of the router. -/
def rspOf : Option Device → SlaveRsp
  | some d => s.device d
  | none => ⟨s.hasPending, 0xDEADBEEF, true⟩

theorem mRsp_eq : s.mRsp = s.rspOf s.selected := by
  unfold mRsp mmioRsp selected selectDevice
  split_ifs <;> rfl

/-- The answer to the request of a cycle. -/
def answer : BitVec 32 × Bool :=
  match addressMap i.req.addr with
  | some d => (s.deviceAnswer i d, false)
  | none => (0xDEADBEEF, true)

/-- The window of a device. -/
theorem port_reqValid (d : Device) :
    (s.port i d).reqValid =
      (i.reqValid && decide (addressMap i.req.addr = some d)) := by
  have rom := selRom_iff i.req
  have ram := selRam_iff i.req
  have mmio := selMmio_iff i.req
  have clint := selClint_iff i.req
  have plic := selPlic_iff i.req
  have gpio := selGpio_iff i.req
  have uart := selUart_iff i.req
  rw [Bool.eq_iff_iff]
  cases d <;>
    simp only [port, romIn, ramIn, tohostIn, gpioPort, uartIn, clintIn,
      plicIn, subIn, mmioIn, slaveIn, Bool.and_eq_true, Bool.not_eq_true',
      ← Bool.not_eq_true, rom, ram, mmio, clint, plic, gpio, uart,
      decide_eq_true_eq, and_assoc]
  all_goals
    refine and_congr_right fun _ => ?_
    unfold addressMap
    generalize i.req.addr.toNat = a
    dsimp only
    split_ifs <;> simp <;> omega

/-- The response is taken from the selected device only.  The sub-router
never selects number 1. -/
theorem port_rspReady (proper : s.mmioSelR ≠ 1) (d : Device) :
    (s.port i d).rspReady =
      (i.rspReady && decide (s.selected = some d)) := by
  have subs : s.mmioSelR = 0 ∨ s.mmioSelR = 2 ∨ s.mmioSelR = 3 := by
    have range := s.mmioSelR.isLt
    simp only [← BitVec.toNat_inj, ne_eq] at proper ⊢
    change s.mmioSelR.toNat ≠ 1 at proper
    change s.mmioSelR.toNat = 0 ∨ s.mmioSelR.toNat = 2 ∨
      s.mmioSelR.toNat = 3
    omega
  have named : ∀ slave sub, (sub = 0 ∨ sub = 2 ∨ sub = 3) →
      (slave = 0#3 ↔ selectDevice slave sub = some .rom) ∧
      (slave = 1#3 ↔ selectDevice slave sub = some .ram) ∧
      (slave = 2#3 ∧ sub = 0#2 ↔ selectDevice slave sub = some .tohost) ∧
      (slave = 2#3 ∧ sub = 2#2 ↔ selectDevice slave sub = some .gpio) ∧
      (slave = 2#3 ∧ sub = 3#2 ↔ selectDevice slave sub = some .uart) ∧
      (slave = 3#3 ↔ selectDevice slave sub = some .clint) ∧
      (slave = 4#3 ↔ selectDevice slave sub = some .plic) := by
    decide
  obtain ⟨rom, ram, tohost, gpio, uart, clint, plic⟩ :=
    named s.activeSlave s.mmioSelR subs
  rw [Bool.eq_iff_iff]
  cases d with
  | rom => simp [port, romIn, slaveIn, selected, ← rom]
  | ram => simp [port, ramIn, slaveIn, selected, ← ram]
  | tohost =>
      simp [port, tohostIn, subIn, mmioIn, slaveIn, selected, ← tohost,
        and_assoc]
  | gpio =>
      simp [port, gpioPort, subIn, mmioIn, slaveIn, selected, ← gpio,
        and_assoc]
  | uart =>
      simp [port, uartIn, subIn, mmioIn, slaveIn, selected, ← uart,
        and_assoc]
  | clint => simp [port, clintIn, slaveIn, selected, ← clint]
  | plic => simp [port, plicIn, slaveIn, selected, ← plic]

/-- The addressed device decides whether a request is accepted; outside the
map every request is. -/
theorem mReqReady_eq :
    s.mReqReady i =
      match addressMap i.req.addr with
      | some d => slaveReqReady (s.device d).valid (s.port i d).rspReady
      | none => true := by
  rw [addressMap_eq, mReqReady, slaveSelect]
  by_cases rom : selRom i.req = true
  · rw [if_pos rom, if_pos rom]
    rfl
  rw [if_neg rom, if_neg rom]
  by_cases ram : selRam i.req = true
  · rw [if_pos ram, if_pos ram]
    rfl
  rw [if_neg ram, if_neg ram]
  by_cases mmio : selMmio i.req = true
  · rw [if_pos mmio, if_pos mmio, mmioReqReady, mmioSelect]
    by_cases gpio : selGpio i.req = true
    · rw [if_pos gpio, if_pos gpio]
      rfl
    rw [if_neg gpio, if_neg gpio]
    by_cases uart : selUart i.req = true
    · rw [if_pos uart, if_pos uart]
      rfl
    rw [if_neg uart, if_neg uart]
    rfl
  rw [if_neg mmio, if_neg mmio]
  by_cases clint : selClint i.req = true
  · rw [if_pos clint, if_pos clint]
    rfl
  rw [if_neg clint, if_neg clint]
  by_cases plic : selPlic i.req = true
  · rw [if_pos plic, if_pos plic]
    rfl
  rw [if_neg plic, if_neg plic]
  rfl

theorem fires_eq (d : Device) :
    s.fires i d =
      (s.accepts i && decide (addressMap i.req.addr = some d)) := by
  unfold fires accepts
  rw [port_reqValid, mReqReady_eq]
  by_cases named : addressMap i.req.addr = some d
  · simp [named]
  · simp [named]

/-! ## The routing registers -/

theorem mmioSelRNext_eq :
    s.mmioSelRNext i =
      if s.accepts i && selMmio i.req then mmioSelect i.req
      else s.mmioSelR := by
  have ready (mmio : selMmio i.req = true) :
      s.mReqReady i = s.mmioReqReady i := by
    have range := (selMmio_iff i.req).mp mmio
    have notRom : ¬ selRom i.req = true := by
      rw [selRom_iff]
      omega
    have notRam : ¬ selRam i.req = true := by
      rw [selRam_iff]
      omega
    rw [mReqReady, if_neg notRom, if_neg notRam, if_pos mmio]
  unfold mmioSelRNext accepts mmioIn slaveIn
  cases mmio : selMmio i.req with
  | false => simp
  | true => simp [ready mmio]

theorem mmioSelRNext_ne (proper : s.mmioSelR ≠ 1) :
    s.mmioSelRNext i ≠ 1 := by
  rw [mmioSelRNext_eq]
  unfold mmioSelect
  split_ifs
  · decide
  · decide
  · decide
  · exact proper

/-- Outside the peripheral window the sub-router does not matter. -/
theorem selectDevice_congr {slave : BitVec 3} {sub other : BitVec 2}
    (away : slave ≠ 2) :
    selectDevice slave sub = selectDevice slave other := by
  unfold selectDevice
  rw [if_neg away, if_neg away]

theorem slaveSelect_eq_two {req : BusReq} (mmio : slaveSelect req = 2) :
    selMmio req = true := by
  revert mmio
  unfold slaveSelect
  split_ifs with _ _ named
  · exact fun bad => absurd bad (by decide)
  · exact fun bad => absurd bad (by decide)
  · exact fun _ => named
  · exact fun bad => absurd bad (by decide)
  · exact fun bad => absurd bad (by decide)
  · exact fun bad => absurd bad (by decide)

/-- Once the router points at the slave of an accepted request, the selected
device is the addressed one. -/
theorem selected_next (accepted : s.accepts i = true)
    (points : s.activeSlaveNext i = slaveSelect i.req) :
    (s.next i).selected = addressMap i.req.addr := by
  change selectDevice (s.activeSlaveNext i) (s.mmioSelRNext i) = _
  rw [points, addressMap_eq, mmioSelRNext_eq, accepted]
  by_cases mmio : slaveSelect i.req = 2
  · rw [slaveSelect_eq_two mmio]
    rfl
  · exact selectDevice_congr mmio

/-- Behind a pending request the router keeps its slave. -/
theorem activeSlaveNext_of_pending (pending : s.hasPending = true) :
    s.activeSlaveNext i = s.activeSlave := by
  rw [activeSlaveNext, pending, Bool.not_true, Bool.and_false,
    if_neg Bool.false_ne_true]

/-- The router keeps pointing at another slave than the addressed one. -/
theorem selected_next_of_other
    (stays : s.activeSlaveNext i = s.activeSlave)
    (other : slaveSelect i.req ≠ s.activeSlave) :
    (s.next i).selected = s.selected := by
  change selectDevice (s.activeSlaveNext i) (s.mmioSelRNext i) = _
  rw [stays, selected]
  by_cases mmio : s.activeSlave = 2
  · have away : selMmio i.req ≠ true := by
      intro named
      have range := (selMmio_iff i.req).mp named
      have notRom : ¬ selRom i.req = true := by
        rw [selRom_iff]
        omega
      have notRam : ¬ selRam i.req = true := by
        rw [selRam_iff]
        omega
      apply other
      rw [slaveSelect, if_neg notRom, if_neg notRam, if_pos named, mmio]
    rw [mmioSelRNext_eq, if_neg (by simp [away])]
  · exact selectDevice_congr mmio

/-- The slave number of a device. -/
def slaveOf : Device → BitVec 3
  | .rom => 0
  | .ram => 1
  | .tohost | .gpio | .uart => 2
  | .clint => 3
  | .plic => 4

theorem slave_of_selectDevice {slave : BitVec 3} {sub : BitVec 2}
    {d : Device} (named : selectDevice slave sub = some d) :
    slave = slaveOf d := by
  revert slave sub
  cases d <;> decide

end DataPath

/-! ## Runs -/

/-- A run of the data path after reset. -/
structure DataPathRun where
  romInit : BitVec 19 → BitVec 32
  ramInit : BitVec 16 → BitVec 32
  inputs : ℕ → DataPathIn

namespace DataPathRun

variable (r : DataPathRun)

/-- The registers in cycle `k`. -/
def state : ℕ → DataPath :=
  trajectory DataPath.next (DataPath.reset r.romInit r.ramInit) r.inputs

theorem state_succ (k : ℕ) :
    r.state (k + 1) = (r.state k).next (r.inputs k) := rfl

/-- The response channel of the master. -/
def rsp (k : ℕ) : SlaveRsp := (r.state k).mRsp

/-- The request accepted in a cycle. -/
def accept (k : ℕ) : Option BusReq :=
  if (r.state k).accepts (r.inputs k) then some (r.inputs k).req else none

/-- The response of a cycle is taken. -/
def handover (k : ℕ) : Bool := (r.state k).handsOver (r.inputs k)

/-- The request without a response before a cycle and the cycle that accepted
it. -/
def request (k : ℕ) : Option (BusReq × ℕ) :=
  outstanding r.accept r.handover k

/-- The answer to the request accepted in a cycle. -/
def answer (k : ℕ) : BitVec 32 × Bool := (r.state k).answer (r.inputs k)

/-- The master has at most one request outstanding: the next one is accepted
at the earliest with the response to the last one. -/
def SingleRequest : Prop :=
  ∀ k, r.request k ≠ none → r.accept k ≠ none → r.handover k = true

/-- Every accepted request has one response, of the device that its address
names. -/
structure AnswersEach : Prop where
  solicited : ∀ k, (r.rsp k).valid = true → r.request k ≠ none
  answered : ∀ a req, r.accept a = some req →
    ∃ k, r.request k = some (req, a) ∧ (r.rsp k).valid = true
  held : ∀ k, (r.rsp k).valid = true → (r.inputs k).rspReady = false →
    r.rsp (k + 1) = r.rsp k
  once : ∀ k l request, r.handover k = true → r.handover l = true →
    r.request k = some request → r.request l = some request → k = l
  device : ∀ k req a, r.request k = some (req, a) →
    (r.rsp k).valid = true →
    r.rsp k = (r.state k).rspOf (addressMap req.addr) ∧
      ((r.rsp k).rdata, (r.rsp k).err) = r.answer a

/-- An accepted request is not a write to the instruction memory, and while
the router has a request pending the next one goes to the same slave. -/
def Routable (k : ℕ) : Prop :=
  ∀ req, r.accept k = some req →
    ¬ (addressMap req.addr = some .rom ∧ req.we = true) ∧
      ((r.state k).hasPending = true →
        slaveSelect req = (r.state k).activeSlave ∧
          addressMap req.addr ≠ none)

/-- The response registers of all devices and the routing registers belong to
the outstanding request. -/
structure Consistent (k : ℕ) : Prop where
  proper : (r.state k).mmioSelR ≠ 1
  idle : r.request k = none → (r.state k).hasPending = false
  empty : r.request k = none → ∀ d, ((r.state k).device d).held = none
  selected : ∀ req a, r.request k = some (req, a) →
    (r.state k).selected = addressMap req.addr
  error : ∀ req a, r.request k = some (req, a) →
    addressMap req.addr = none →
      (r.state k).hasPending = true ∧ r.answer a = (0xDEADBEEF, true)
  full : ∀ req a, r.request k = some (req, a) → ∀ d,
    ((r.state k).device d).held =
      if addressMap req.addr = some d then some (r.answer a) else none

/-! ## The response of a consistent state -/

section Held

variable {rsp : SlaveRsp}

theorem held_eq_none_iff : rsp.held = none ↔ rsp.valid = false := by
  unfold SlaveRsp.held
  cases rsp.valid <;> simp

theorem eq_of_held {answer : BitVec 32 × Bool}
    (held : rsp.held = some answer) : rsp = ⟨true, answer.1, answer.2⟩ := by
  obtain ⟨valid, rdata, err⟩ := rsp
  cases valid with
  | false => cases held
  | true =>
      cases held
      rfl

end Held

variable {r} {k : ℕ} {req : BusReq} {a : ℕ}

theorem accept_eq_some (accepted : r.accept k = some req) :
    (r.state k).accepts (r.inputs k) = true ∧ (r.inputs k).req = req := by
  unfold accept at accepted
  split_ifs at accepted with fires
  exact ⟨fires, Option.some.inj accepted⟩

theorem accept_eq_none (silent : r.accept k = none) :
    (r.state k).accepts (r.inputs k) = false := by
  unfold accept at silent
  split_ifs at silent with fires
  simpa using fires

namespace Consistent

/-- The outstanding request has its answer. -/
theorem rsp_of_some (consistent : r.Consistent k)
    (out : r.request k = some (req, a)) :
    r.rsp k = ⟨true, (r.answer a).1, (r.answer a).2⟩ := by
  rw [rsp, DataPath.mRsp_eq, consistent.selected req a out]
  cases named : addressMap req.addr with
  | none =>
      obtain ⟨waits, answer⟩ := consistent.error req a out named
      rw [DataPath.rspOf, waits, answer]
  | some d =>
      apply eq_of_held
      change ((r.state k).device d).held = _
      rw [consistent.full req a out d, if_pos named]

theorem rsp_of_none (consistent : r.Consistent k)
    (none : r.request k = none) : (r.rsp k).valid = false := by
  rw [rsp, DataPath.mRsp_eq]
  cases (r.state k).selected with
  | none => exact consistent.idle none
  | some d => exact held_eq_none_iff.mp (consistent.empty none d)

theorem handover_of_some (consistent : r.Consistent k)
    (out : r.request k = some (req, a)) :
    r.handover k = (r.inputs k).rspReady := by
  have valid : (r.state k).mRsp.valid = true :=
    congrArg SlaveRsp.valid (consistent.rsp_of_some out)
  rw [handover, DataPath.handsOver, valid, Bool.true_and]

/-- What a device holds after a cycle. -/
theorem device_succ (consistent : r.Consistent k) (d : Device) :
    ((r.state (k + 1)).device d).held =
      slot
        (if (r.state k).fires (r.inputs k) d &&
            !DataPath.romWrite (r.inputs k) d then
          some ((r.state k).deviceAnswer (r.inputs k) d, false)
        else none)
        (r.handover k) ((r.state k).device d).held := by
  rw [r.state_succ, DataPath.device_next,
    DataPath.port_rspReady _ _ consistent.proper]
  cases out : r.request k with
  | none => rw [consistent.empty out, slot_none_held, slot_none_held]
  | some request =>
      obtain ⟨req, a⟩ := request
      rw [consistent.handover_of_some out, consistent.selected req a out,
        consistent.full req a out]
      by_cases named : addressMap req.addr = some d
      · simp [named]
      · rw [if_neg named, slot_none_held, slot_none_held]

/-- With a new request the devices hold nothing else. -/
theorem device_of_accept (consistent : r.Consistent k)
    (single : r.SingleRequest) (accepted : r.accept k = some req)
    (d : Device) :
    ((r.state (k + 1)).device d).held =
      if addressMap req.addr = some d ∧
          DataPath.romWrite (r.inputs k) d = false then
        some (r.answer k)
      else none := by
  obtain ⟨accepts, rfl⟩ := accept_eq_some accepted
  have cleared :
      slot
        (if (r.state k).fires (r.inputs k) d &&
            !DataPath.romWrite (r.inputs k) d then
          some ((r.state k).deviceAnswer (r.inputs k) d, false)
        else none)
        (r.handover k) ((r.state k).device d).held =
      if (r.state k).fires (r.inputs k) d &&
          !DataPath.romWrite (r.inputs k) d then
        some ((r.state k).deviceAnswer (r.inputs k) d, false)
      else none := by
    cases out : r.request k with
    | none => rw [consistent.empty out, slot_none_held]
    | some request =>
        rw [single k (by simp [out]) (by simp [accepted])]
        split_ifs <;> rfl
  rw [consistent.device_succ d, cleared, DataPath.fires_eq, accepts]
  by_cases named : addressMap (r.inputs k).req.addr = some d
  · simp [named, answer, DataPath.answer]
  · simp [named]

end Consistent

/-! ## One step -/

theorem request_of_accept (accepted : r.accept k = some req) :
    r.request (k + 1) = some (req, k) :=
  outstanding_of_accept accepted

/-- The router points at the slave of an accepted request. -/
theorem points_of_routable (routable : r.Routable k)
    (accepted : r.accept k = some req) :
    (r.state k).activeSlaveNext (r.inputs k) = slaveSelect req := by
  obtain ⟨accepts, rfl⟩ := accept_eq_some accepted
  rw [DataPath.activeSlaveNext, accepts]
  cases waits : (r.state k).hasPending with
  | false => rfl
  | true => exact (((routable _ accepted).2 waits).1).symm

theorem Consistent.succ_of_accept (consistent : r.Consistent k)
    (single : r.SingleRequest) (routable : r.Routable k)
    (accepted : r.accept k = some req) : r.Consistent (k + 1) := by
  have asked := request_of_accept accepted
  have points := points_of_routable routable accepted
  have devices := consistent.device_of_accept single accepted
  have notWrite := (routable req accepted).1
  obtain ⟨accepts, rfl⟩ := accept_eq_some accepted
  constructor
  case proper =>
    exact DataPath.mmioSelRNext_ne _ _ consistent.proper
  case idle =>
    intro none
    rw [asked] at none
    cases none
  case empty =>
    intro none
    rw [asked] at none
    cases none
  case selected =>
    intro req a out
    rw [asked] at out
    cases out
    exact DataPath.selected_next _ _ accepts points
  case error =>
    intro req a out unmapped
    rw [asked] at out
    cases out
    constructor
    · have free : (r.state k).hasPending = false := by
        by_contra waits
        rw [Bool.not_eq_false] at waits
        exact ((routable _ accepted).2 waits).2 unmapped
      change (r.state k).hasPendingNext (r.inputs k) = true
      rw [DataPath.hasPendingNext, accepts, free]
      rfl
    · rw [answer, DataPath.answer, unmapped]
  case full =>
    intro req a out d
    rw [asked] at out
    cases out
    rw [devices d]
    by_cases named : addressMap (r.inputs k).req.addr = some d
    · have loads : DataPath.romWrite (r.inputs k) d = false := by
        rw [← Bool.not_eq_true, DataPath.romWrite_iff]
        rintro ⟨rfl, we⟩
        exact notWrite ⟨named, we⟩
      rw [if_pos ⟨named, loads⟩, if_pos named]
    · rw [if_neg fun both => named both.1, if_neg named]

/-- Without a new request the devices keep their responses until they are
taken. -/
theorem Consistent.device_of_silent (consistent : r.Consistent k)
    (silent : r.accept k = none) (d : Device) :
    ((r.state (k + 1)).device d).held =
      if r.handover k then none else ((r.state k).device d).held := by
  rw [consistent.device_succ d, DataPath.fires_eq, accept_eq_none silent]
  rfl

theorem selected_of_silent (silent : r.accept k = none) :
    (r.state (k + 1)).selected = (r.state k).selected := by
  have idle := accept_eq_none silent
  change selectDevice ((r.state k).activeSlaveNext (r.inputs k))
    ((r.state k).mmioSelRNext (r.inputs k)) = _
  rw [DataPath.activeSlaveNext, DataPath.mmioSelRNext_eq, idle]
  rfl

theorem hasPending_of_silent (silent : r.accept k = none) :
    (r.state (k + 1)).hasPending =
      if r.handover k then false else (r.state k).hasPending := by
  change (r.state k).hasPendingNext (r.inputs k) = _
  rw [DataPath.hasPendingNext, accept_eq_none silent]
  rfl

theorem Consistent.succ_of_silent (consistent : r.Consistent k)
    (silent : r.accept k = none) : r.Consistent (k + 1) := by
  have devices := consistent.device_of_silent silent
  have waits := hasPending_of_silent silent
  have proper := DataPath.mmioSelRNext_ne _ (r.inputs k) consistent.proper
  by_cases hands : r.handover k = true
  · have none : r.request (k + 1) = none :=
      outstanding_of_handover silent hands
    rw [if_pos hands] at waits
    refine ⟨proper, fun _ => waits, fun _ d => ?_, ?_, ?_, ?_⟩
    · rw [devices d, if_pos hands]
    · simp [none]
    · simp [none]
    · simp [none]
  · have same : r.request (k + 1) = r.request k :=
      outstanding_of_idle silent (by simpa using hands)
    rw [if_neg hands] at waits
    constructor
    case proper => exact proper
    case idle =>
      intro none
      rw [waits]
      exact consistent.idle (same ▸ none)
    case empty =>
      intro none d
      rw [devices d, if_neg hands]
      exact consistent.empty (same ▸ none) d
    case selected =>
      intro req a out
      rw [selected_of_silent silent]
      exact consistent.selected req a (same ▸ out)
    case error =>
      intro req a out unmapped
      rw [waits]
      exact consistent.error req a (same ▸ out) unmapped
    case full =>
      intro req a out d
      rw [devices d, if_neg hands]
      exact consistent.full req a (same ▸ out) d

/-! ## Whole runs -/

theorem consistent_zero (r : DataPathRun) : r.Consistent 0 := by
  constructor
  case proper => exact (by decide : (0 : BitVec 2) ≠ 1)
  case idle => exact fun _ => rfl
  case empty =>
    intro _ d
    cases d <;> rfl
  case selected =>
    intro _ _ out
    cases out
  case error =>
    intro _ _ out
    cases out
  case full =>
    intro _ _ out
    cases out

theorem consistent_of_routable (single : r.SingleRequest) (n : ℕ)
    (routable : ∀ k, k < n → r.Routable k) : r.Consistent n := by
  induction n with
  | zero => exact consistent_zero r
  | succ n inductionHypothesis =>
      have consistent := inductionHypothesis fun k below =>
        routable k (Nat.lt_succ_of_lt below)
      cases accepted : r.accept n with
      | none => exact consistent.succ_of_silent accepted
      | some req =>
          exact consistent.succ_of_accept single
            (routable n (Nat.lt_succ_self n)) accepted

theorem answersEach_of_routable (single : r.SingleRequest)
    (routable : ∀ k, r.Routable k) : r.AnswersEach := by
  have consistent : ∀ k, r.Consistent k := fun k =>
    consistent_of_routable single k fun j _ => routable j
  constructor
  case solicited =>
    intro k valid none
    rw [(consistent k).rsp_of_none none] at valid
    exact Bool.noConfusion valid
  case answered =>
    intro a req accepted
    have asked := request_of_accept accepted
    refine ⟨a + 1, asked, ?_⟩
    rw [(consistent (a + 1)).rsp_of_some asked]
  case held =>
    intro k valid stalled
    cases out : r.request k with
    | none =>
        rw [(consistent k).rsp_of_none out] at valid
        exact Bool.noConfusion valid
    | some request =>
        obtain ⟨req, a⟩ := request
        have keeps : r.handover k = false := by
          rw [(consistent k).handover_of_some out, stalled]
        have silent : r.accept k = none := by
          by_contra accepted
          have hands := single k (by simp [out]) accepted
          rw [keeps] at hands
          exact Bool.noConfusion hands
        have same : r.request (k + 1) = some (req, a) :=
          (outstanding_of_idle silent keeps).trans out
        rw [(consistent k).rsp_of_some out,
          (consistent (k + 1)).rsp_of_some same]
  case once =>
    intro k l request early late atEarly atLate
    exact eq_of_handover early atEarly late atLate
  case device =>
    intro k req a out _
    constructor
    · rw [rsp, DataPath.mRsp_eq, (consistent k).selected req a out]
    · rw [(consistent k).rsp_of_some out]

/-! ## Lost requests -/

/-- A request that breaks the condition leaves the response channel empty. -/
theorem Consistent.rsp_of_unroutable (consistent : r.Consistent k)
    (single : r.SingleRequest) (accepted : r.accept k = some req)
    (wrong : ¬ r.Routable k) : (r.rsp (k + 1)).valid = false := by
  have devices := consistent.device_of_accept single accepted
  have taken (waits : (r.state k).hasPending = true) :
      (r.state (k + 1)).hasPending = false := by
    have hands : r.handover k = true := by
      refine single k (fun none => ?_) (by simp [accepted])
      rw [consistent.idle none] at waits
      exact Bool.noConfusion waits
    change (r.state k).hasPendingNext (r.inputs k) = false
    rw [DataPath.hasPendingNext, waits, Bool.not_true, Bool.and_false,
      if_neg Bool.false_ne_true]
    exact if_pos hands
  have violation : (addressMap req.addr = some .rom ∧ req.we = true) ∨
      (r.state k).hasPending = true ∧
        (slaveSelect req = (r.state k).activeSlave →
          addressMap req.addr = none) := by
    by_contra fine
    apply wrong
    intro other same
    obtain rfl : req = other := Option.some.inj (accepted.symm.trans same)
    tauto
  obtain ⟨accepts, rfl⟩ := accept_eq_some accepted
  rw [rsp, DataPath.mRsp_eq]
  by_cases points :
      (r.state k).activeSlaveNext (r.inputs k) = slaveSelect (r.inputs k).req
  · have selected : (r.state (k + 1)).selected =
        addressMap (r.inputs k).req.addr :=
      DataPath.selected_next _ _ accepts points
    rw [selected]
    cases named : addressMap (r.inputs k).req.addr with
    | none =>
        rcases violation with ⟨rom, -⟩ | ⟨waits, -⟩
        · rw [named] at rom
          cases rom
        · exact taken waits
    | some d =>
        apply held_eq_none_iff.mp
        rcases violation with ⟨rom, we⟩ | ⟨waits, other⟩
        · rw [named] at rom
          cases rom
          refine (devices .rom).trans (if_neg fun loads => ?_)
          rw [(DataPath.romWrite_iff _ _).mpr ⟨rfl, we⟩] at loads
          exact Bool.noConfusion loads.2
        · have stays := DataPath.activeSlaveNext_of_pending (r.state k)
            (r.inputs k) waits
          rw [other (points.symm.trans stays)] at named
          cases named
  · have waits : (r.state k).hasPending = true := by
      by_contra free
      rw [Bool.not_eq_true] at free
      apply points
      rw [DataPath.activeSlaveNext, accepts, free]
      rfl
    have stays := DataPath.activeSlaveNext_of_pending (r.state k)
      (r.inputs k) waits
    have other : slaveSelect (r.inputs k).req ≠ (r.state k).activeSlave :=
      fun same => points (stays.trans same.symm)
    have selected : (r.state (k + 1)).selected = (r.state k).selected :=
      DataPath.selected_next_of_other _ _ stays other
    rw [selected]
    cases pointed : (r.state k).selected with
    | none => exact taken waits
    | some d =>
        apply held_eq_none_iff.mp
        refine (devices d).trans (if_neg fun loads => other ?_)
        rw [addressMap_eq] at loads
        rw [DataPath.slave_of_selectDevice loads.1,
          DataPath.slave_of_selectDevice pointed]

/-- Without a response there is no next request, and nothing changes. -/
theorem lost_step (single : r.SingleRequest)
    (out : r.request k = some (req, a)) (lost : (r.rsp k).valid = false) :
    r.request (k + 1) = some (req, a) ∧ (r.rsp (k + 1)).valid = false := by
  have keeps : r.handover k = false := by
    have invalid : (r.state k).mRsp.valid = false := lost
    rw [handover, DataPath.handsOver, invalid, Bool.false_and]
  have silent : r.accept k = none := by
    by_contra accepted
    have hands := single k (by simp [out]) accepted
    rw [keeps] at hands
    exact Bool.noConfusion hands
  refine ⟨(outstanding_of_idle silent keeps).trans out, ?_⟩
  rw [rsp, DataPath.mRsp_eq] at lost ⊢
  rw [selected_of_silent silent]
  cases pointed : (r.state k).selected with
  | none =>
      rw [pointed] at lost
      change (r.state (k + 1)).hasPending = false
      rw [hasPending_of_silent silent, keeps]
      exact lost
  | some d =>
      rw [pointed] at lost
      apply held_eq_none_iff.mp
      change ((r.state (k + 1)).device d).held = none
      have before : ((r.state k).device d).held = none :=
        held_eq_none_iff.mpr lost
      rw [r.state_succ, DataPath.device_next, before, slot_none_held,
        DataPath.fires_eq, accept_eq_none silent]
      rfl

theorem lost_for_ever (single : r.SingleRequest) {n : ℕ} (later : k ≤ n)
    (out : r.request k = some (req, a)) (lost : (r.rsp k).valid = false) :
    r.request n = some (req, a) ∧ (r.rsp n).valid = false := by
  induction n, later using Nat.le_induction with
  | base => exact ⟨out, lost⟩
  | succ n later inductionHypothesis =>
      exact lost_step single inductionHypothesis.1 inductionHypothesis.2

theorem routable_of_answersEach (single : r.SingleRequest)
    (answers : r.AnswersEach) (k : ℕ) : r.Routable k := by
  induction k using Nat.strong_induction_on with
  | _ k earlier =>
      have consistent := consistent_of_routable single k earlier
      by_contra wrong
      have accepts : ∃ req, r.accept k = some req := by
        by_contra silent
        exact wrong fun req accepted => absurd ⟨req, accepted⟩ silent
      obtain ⟨req, accepted⟩ := accepts
      obtain ⟨n, out, valid⟩ := answers.answered k req accepted
      have later : k < n := asked_lt_of_outstanding out
      have lost := (lost_for_ever single later (request_of_accept accepted)
        (consistent.rsp_of_unroutable single accepted wrong)).2
      rw [lost] at valid
      exact Bool.noConfusion valid

/-- Every request is answered once by its device exactly if no write to the
instruction memory is accepted and a request accepted while the router has
one pending names the same slave. -/
theorem answersEach_iff (r : DataPathRun) (single : r.SingleRequest) :
    r.AnswersEach ↔ ∀ k, r.Routable k :=
  ⟨fun answers => routable_of_answersEach single answers,
    fun routable => answersEach_of_routable single routable⟩

/-- One request after reset. -/
def firstRequest (req : BusReq) : DataPathRun where
  romInit := fun _ => 0x13
  ramInit := fun _ => 0
  inputs := fun k =>
    { reqValid := k == 0
      req := req
      rspReady := true
      gpioIn := 0
      irqSrc := fun _ => false }

theorem singleRequest_firstRequest (req : BusReq) :
    (firstRequest req).SingleRequest := by
  intro k out accepted
  cases k with
  | zero => exact absurd rfl out
  | succ k => exact absurd rfl accepted

theorem routable_firstRequest {req : BusReq} (reads : req.we = false)
    (k : ℕ) : (firstRequest req).Routable k := by
  intro asked accepted
  cases k with
  | zero =>
      obtain ⟨-, rfl⟩ := accept_eq_some accepted
      exact ⟨fun rom => absurd (reads.symm.trans rom.2) Bool.false_ne_true,
        fun pending => absurd pending Bool.false_ne_true⟩
  | succ k => exact absurd accepted (Option.some_ne_none _).symm

theorem answersEach_iff_loadRam :
    (firstRequest ⟨0x80000000, false, 0, 0⟩).AnswersEach :=
  (answersEach_iff _ (singleRequest_firstRequest _)).mpr
    (routable_firstRequest rfl)

/-- A store to address 0x100 is accepted and never answered. -/
theorem not_answersEach :
    ¬ ∀ r : DataPathRun, r.SingleRequest → r.AnswersEach := by
  intro answers
  have single := singleRequest_firstRequest ⟨0x100, true, 0, 0xF⟩
  have routable := routable_of_answersEach single (answers _ single) 0
  exact (routable ⟨0x100, true, 0, 0xF⟩ rfl).1 ⟨by decide, rfl⟩

end DataPathRun

end SisRv
