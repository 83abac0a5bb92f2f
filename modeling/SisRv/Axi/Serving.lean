import SisRv.Lib.Channel
import SisRv.Lib.Trajectory
import SisRv.Rtl.AxiLite

/-!
# The request in service

What the registers of the arbiter and the bridge say about the request that is
served, and which handshakes have occurred since it was accepted.
-/

namespace SisRv

open Sync

/-- The ports of the core. -/
inductive Port
  | i
  | d
  deriving DecidableEq

/-- The owner that stands for a port. -/
def Port.owner : Port → AxiArbOwner
  | .i => .i
  | .d => .d

/-! ## One step of the bridge -/

namespace AxiLiteM

variable {s : AxiLiteM} (bus : SlaveIn) (axi : AxiIn)

theorem next_idle (at_ : s.state = .idle) (silent : bus.reqValid = false) :
    s.next bus axi = s := by
  unfold next
  rw [at_]
  simp [silent]

theorem next_accept (at_ : s.state = .idle) (asked : bus.reqValid = true) :
    ((s.next bus axi).state =
      if bus.req.we then AxiState.wrAddr else AxiState.rdAddr) ∧
    ((s.next bus axi).addrReg = bus.req.addr ∧
      (s.next bus axi).wdataReg = bus.req.wdata ∧
      (s.next bus axi).wstrbReg = bus.req.wstrb) ∧
    (bus.req.we = true →
      (s.next bus axi).awDone = false ∧ (s.next bus axi).wDone = false) := by
  unfold next
  rw [at_]
  have ready : s.reqReady = true := by simp [reqReady, at_]
  cases we : bus.req.we <;> simp [asked, ready]

theorem next_rdAddr (at_ : s.state = .rdAddr) :
    s.next bus axi =
      if s.arFire axi then { s with state := .rdData } else s := by
  unfold next
  rw [at_]

theorem next_rdData (at_ : s.state = .rdData) :
    s.next bus axi =
      if s.rFire axi then
        { s with
          rdataReg := axi.rdata
          errReg := axi.rresp != 0
          state := .rsp }
      else s := by
  unfold next
  rw [at_]

theorem next_wrAddr (at_ : s.state = .wrAddr) :
    s.next bus axi =
      { s with
        awDone := s.awDone || s.awFire axi
        wDone := s.wDone || s.wFire axi
        state := if s.writeSent axi then .wrResp else .wrAddr } := by
  unfold next
  rw [at_]

theorem next_wrResp (at_ : s.state = .wrResp) :
    s.next bus axi =
      if s.bFire axi then
        { s with errReg := axi.bresp != 0, rdataReg := 0, state := .rsp }
      else s := by
  unfold next
  rw [at_]

theorem next_rsp (at_ : s.state = .rsp) :
    s.next bus axi =
      if bus.rspReady then { s with state := .idle } else s := by
  have valid : s.rsp.valid = true := by simp [rsp, at_]
  unfold next
  rw [at_]
  simp [valid]

/-- The payload stays until the bridge is idle again. -/
theorem next_payload (busy : s.state ≠ .idle) :
    (s.next bus axi).addrReg = s.addrReg ∧
      (s.next bus axi).wdataReg = s.wdataReg ∧
      (s.next bus axi).wstrbReg = s.wstrbReg := by
  cases at_ : s.state with
  | idle => exact absurd at_ busy
  | rdAddr =>
      rw [next_rdAddr bus axi at_]
      split_ifs <;> exact ⟨rfl, rfl, rfl⟩
  | rdData =>
      rw [next_rdData bus axi at_]
      split_ifs <;> exact ⟨rfl, rfl, rfl⟩
  | wrAddr =>
      rw [next_wrAddr bus axi at_]
      exact ⟨rfl, rfl, rfl⟩
  | wrResp =>
      rw [next_wrResp bus axi at_]
      split_ifs <;> exact ⟨rfl, rfl, rfl⟩
  | rsp =>
      rw [next_rsp bus axi at_]
      split_ifs <;> exact ⟨rfl, rfl, rfl⟩

end AxiLiteM

/-- A run of the arbiter and the bridge after reset. -/
structure AxiRun where
  inputs : ℕ → AxiPathIn

namespace AxiRun

variable (r : AxiRun)

/-- The registers in cycle `k`. -/
def state : ℕ → AxiPath :=
  trajectory AxiPath.next AxiPath.reset r.inputs

theorem state_succ (k : ℕ) :
    r.state (k + 1) = (r.state k).next (r.inputs k) := rfl

def bridge (k : ℕ) : AxiLiteM := (r.state k).bridge

def axi (k : ℕ) : AxiIn := (r.inputs k).axi

/-! ## The ports -/

/-- The request accepted on a port. -/
def accepts (k : ℕ) : Port → Option BusReq
  | .d =>
      if (r.inputs k).d.reqValid && (r.state k).dReqReady (r.inputs k) then
        some (r.inputs k).d.req
      else none
  | .i =>
      if (r.inputs k).iReqValid && (r.state k).iReqReady (r.inputs k) then
        some ⟨(r.inputs k).iReqAddr, false, 0, 0⟩
      else none

/-- The request accepted in a cycle, with its port. -/
def accept (k : ℕ) : Option (Port × BusReq) :=
  match r.accepts k .d with
  | some req => some (.d, req)
  | none => (r.accepts k .i).map fun req => (.i, req)

def rsp (k : ℕ) : Port → SlaveRsp
  | .d => (r.state k).dRsp
  | .i => (r.state k).iRsp

def rspReady (k : ℕ) : Port → Bool
  | .d => (r.inputs k).d.rspReady
  | .i => (r.inputs k).iRspReady

/-- A response is taken on one of the ports. -/
def handover (k : ℕ) : Bool :=
  (r.rsp k .d).valid && r.rspReady k .d ||
    (r.rsp k .i).valid && r.rspReady k .i

/-- The request without a response before a cycle and the cycle that accepted
it. -/
def serving (k : ℕ) : Option ((Port × BusReq) × ℕ) :=
  outstanding r.accept r.handover k

/-! ## The handshakes of the slave -/

def arFire (k : ℕ) : Bool := (r.bridge k).arFire (r.axi k)

def rFire (k : ℕ) : Bool := (r.bridge k).rFire (r.axi k)

def awFire (k : ℕ) : Bool := (r.bridge k).awFire (r.axi k)

def wFire (k : ℕ) : Bool := (r.bridge k).wFire (r.axi k)

def bFire (k : ℕ) : Bool := (r.bridge k).bFire (r.axi k)

/-- No handshake of a write between two cycles. -/
structure NoWrite (a k : ℕ) : Prop where
  aw : Silent r.awFire a k
  w : Silent r.wFire a k
  b : Silent r.bFire a k

/-- No handshake of a read between two cycles. -/
structure NoRead (a k : ℕ) : Prop where
  ar : Silent r.arFire a k
  rd : Silent r.rFire a k

/-- One read between two cycles, with its response. -/
def ReadsOnce (a k : ℕ) (rsp : SlaveRsp) : Prop :=
  r.NoWrite a k ∧
    ∃ x y, x < y ∧ OnlyAt r.arFire a k x ∧ OnlyAt r.rFire a k y ∧
      rsp = ⟨true, (r.axi y).rdata, (r.axi y).rresp != 0⟩

/-- One write between two cycles, with its response. -/
def WritesOnce (a k : ℕ) (rsp : SlaveRsp) : Prop :=
  r.NoRead a k ∧
    ∃ x w y, x < y ∧ w < y ∧ OnlyAt r.awFire a k x ∧
      OnlyAt r.wFire a k w ∧ OnlyAt r.bFire a k y ∧
      rsp = ⟨true, 0, (r.axi y).bresp != 0⟩

/-! ## Accepting and handing over -/

theorem accept_eq (k : ℕ) :
    r.accept k =
      if (r.state k).coreReqValid (r.inputs k) && (r.state k).coreReqReady then
        some (if (r.inputs k).d.reqValid then .d else .i,
          AxiPath.coreReq (r.inputs k))
      else none := by
  unfold accept accepts AxiPath.dReqReady AxiPath.iReqReady
    AxiPath.coreReqValid AxiPath.coreReq
  cases (r.state k).arbPending with
  | true => simp
  | false =>
      cases (r.state k).coreReqReady with
      | false => simp
      | true =>
          cases data : (r.inputs k).d.reqValid with
          | true => simp
          | false =>
              cases (r.inputs k).iReqValid <;> simp

theorem apart (k : ℕ) : r.accepts k .d = none ∨ r.accepts k .i = none := by
  unfold accepts AxiPath.dReqReady AxiPath.iReqReady
  cases (r.inputs k).d.reqValid <;> simp

/-- The response of the bridge is offered to its owner. -/
theorem rsp_eq (k : ℕ) (p : Port) :
    (r.rsp k p).valid =
      ((r.state k).arbOwner == p.owner && (r.bridge k).rsp.valid) := by
  cases p <;> rfl

theorem rsp_of_owner {k : ℕ} {p : Port}
    (owns : (r.state k).arbOwner = p.owner) :
    r.rsp k p = (r.bridge k).rsp := by
  cases p with
  | i =>
      have owner : ((r.state k).arbOwner == AxiArbOwner.i) = true := by
        simpa [Port.owner] using owns
      simp [rsp, AxiPath.iRsp, AxiPath.coreRsp, bridge, owner]
  | d =>
      have owner : ((r.state k).arbOwner == AxiArbOwner.d) = true := by
        simpa [Port.owner] using owns
      simp [rsp, AxiPath.dRsp, AxiPath.coreRsp, bridge, owner]

theorem handover_eq (k : ℕ) :
    r.handover k =
      ((r.bridge k).rsp.valid && (r.state k).coreRspReady (r.inputs k)) := by
  unfold handover
  rw [rsp_eq, rsp_eq, AxiPath.coreRspReady]
  cases (r.state k).arbOwner <;>
    simp [Port.owner, rspReady]

theorem bridge_succ (k : ℕ) :
    r.bridge (k + 1) =
      (r.bridge k).next ((r.state k).bridgeIn (r.inputs k)) (r.axi k) := by
  unfold bridge axi
  rw [state_succ, AxiPath.next]
  split_ifs <;> rfl

/-! ## Handshakes in a state -/

section Handshakes

variable {r} {k : ℕ}

theorem arFire_of_ne (other : (r.bridge k).state ≠ .rdAddr) :
    r.arFire k = false := by
  simp [arFire, AxiLiteM.arFire, AxiLiteM.arvalid, other]

theorem rFire_of_ne (other : (r.bridge k).state ≠ .rdData) :
    r.rFire k = false := by
  simp [rFire, AxiLiteM.rFire, AxiLiteM.rready, other]

theorem awFire_of_ne (other : (r.bridge k).state ≠ .wrAddr) :
    r.awFire k = false := by
  simp [awFire, AxiLiteM.awFire, AxiLiteM.awvalid, other]

theorem wFire_of_ne (other : (r.bridge k).state ≠ .wrAddr) :
    r.wFire k = false := by
  simp [wFire, AxiLiteM.wFire, AxiLiteM.wvalid, other]

theorem bFire_of_ne (other : (r.bridge k).state ≠ .wrResp) :
    r.bFire k = false := by
  simp [bFire, AxiLiteM.bFire, AxiLiteM.bready, other]

theorem NoWrite.succ {a : ℕ} (quiet : r.NoWrite a k)
    (address : (r.bridge k).state ≠ .wrAddr)
    (answer : (r.bridge k).state ≠ .wrResp) : r.NoWrite a (k + 1) where
  aw := quiet.aw.succ (awFire_of_ne address)
  w := quiet.w.succ (wFire_of_ne address)
  b := quiet.b.succ (bFire_of_ne answer)

theorem NoRead.succ {a : ℕ} (quiet : r.NoRead a k)
    (address : (r.bridge k).state ≠ .rdAddr)
    (answer : (r.bridge k).state ≠ .rdData) : r.NoRead a (k + 1) where
  ar := quiet.ar.succ (arFire_of_ne address)
  rd := quiet.rd.succ (rFire_of_ne answer)

theorem noWrite_start (r : AxiRun) (a : ℕ) : r.NoWrite a (a + 1) :=
  ⟨silent_start, silent_start, silent_start⟩

theorem noRead_start (r : AxiRun) (a : ℕ) : r.NoRead a (a + 1) :=
  ⟨silent_start, silent_start⟩

end Handshakes

/-! ## The state of a request -/

/-- One half of a write: its flag tells whether its handshake has
occurred. -/
def Half (event : ℕ → Bool) (a k : ℕ) (done : Bool) : Prop :=
  if done then ∃ x, OnlyAt event a k x else Silent event a k

/-- What has happened since the request was accepted. -/
def Progress (k a : ℕ) (req : BusReq) : Prop :=
  match (r.bridge k).state with
  | .idle => False
  | .rdAddr =>
      req.we = false ∧ r.NoWrite a k ∧ Silent r.arFire a k ∧
        Silent r.rFire a k
  | .rdData =>
      req.we = false ∧ r.NoWrite a k ∧ (∃ x, OnlyAt r.arFire a k x) ∧
        Silent r.rFire a k
  | .wrAddr =>
      req.we = true ∧ r.NoRead a k ∧ Half r.awFire a k (r.bridge k).awDone ∧
        Half r.wFire a k (r.bridge k).wDone ∧ Silent r.bFire a k
  | .wrResp =>
      req.we = true ∧ r.NoRead a k ∧ (∃ x, OnlyAt r.awFire a k x) ∧
        (∃ w, OnlyAt r.wFire a k w) ∧ Silent r.bFire a k
  | .rsp =>
      if req.we then r.WritesOnce a k (r.bridge k).rsp
      else r.ReadsOnce a k (r.bridge k).rsp

/-- Nothing is asked. -/
structure Free (k : ℕ) : Prop where
  pending : (r.state k).arbPending = false
  owner : (r.state k).arbOwner = .none
  idle : (r.bridge k).state = .idle

/-- A request is served. -/
structure Busy (k : ℕ) (p : Port) (req : BusReq) (a : ℕ) : Prop where
  pending : (r.state k).arbPending = true
  owner : (r.state k).arbOwner = p.owner
  payload : (r.bridge k).addrReg = req.addr ∧
    (r.bridge k).wdataReg = req.wdata ∧ (r.bridge k).wstrbReg = req.wstrb
  progress : r.Progress k a req

/-- The registers belong to the request that is served. -/
def Serves (k : ℕ) : Prop :=
  match r.serving k with
  | none => r.Free k
  | some ((p, req), a) => r.Busy k p req a

variable {r} {k a : ℕ} {p : Port} {req : BusReq}

theorem Half.succ {event : ℕ → Bool} {done : Bool} (half : Half event a k done)
    (after : a < k) (once : done = true → event k = false) :
    Half event a (k + 1) (done || event k) := by
  cases done with
  | true =>
      obtain ⟨x, only⟩ : ∃ x, OnlyAt event a k x := half
      exact ⟨x, only.succ (once rfl)⟩
  | false =>
      have silent : Silent event a k := half
      cases fires : event k with
      | true => exact ⟨k, silent.onlyAt after fires⟩
      | false => exact silent.succ fires

theorem Half.of_done {event : ℕ → Bool} (half : Half event a k true) :
    ∃ x, OnlyAt event a k x := half

theorem ReadsOnce.succ {rsp : SlaveRsp} (read : r.ReadsOnce a k rsp)
    (at_ : (r.bridge k).state = .rsp) : r.ReadsOnce a (k + 1) rsp := by
  obtain ⟨quiet, x, y, order, address, data, answer⟩ := read
  refine ⟨quiet.succ ?_ ?_, x, y, order, address.succ ?_, data.succ ?_,
    answer⟩
  · simp [at_]
  · simp [at_]
  · exact arFire_of_ne (by simp [at_])
  · exact rFire_of_ne (by simp [at_])

theorem WritesOnce.succ {rsp : SlaveRsp} (write : r.WritesOnce a k rsp)
    (at_ : (r.bridge k).state = .rsp) : r.WritesOnce a (k + 1) rsp := by
  obtain ⟨quiet, x, w, y, first, second, address, data, done, answer⟩ := write
  refine ⟨quiet.succ ?_ ?_, x, w, y, first, second, address.succ ?_,
    data.succ ?_, done.succ ?_, answer⟩
  · simp [at_]
  · simp [at_]
  · exact awFire_of_ne (by simp [at_])
  · exact wFire_of_ne (by simp [at_])
  · exact bFire_of_ne (by simp [at_])

/-! ### One cycle of a request that keeps its response -/

theorem Busy.not_idle (busy : r.Busy k p req a) :
    (r.bridge k).state ≠ .idle := by
  intro at_
  have progress := busy.progress
  rw [Progress, at_] at progress
  exact progress

section Step

variable (busy : r.Busy k p req a)
include busy

theorem Busy.progress_of_rdAddr (after : a < k)
    (at_ : (r.bridge k).state = .rdAddr) : r.Progress (k + 1) a req := by
  have progress := busy.progress
  have next := r.bridge_succ k
  rw [Progress, at_] at progress
  rw [Progress]
  obtain ⟨read, quiet, address, data⟩ := progress
  have quiet' := quiet.succ (by simp [at_]) (by simp [at_])
  have data' := data.succ (rFire_of_ne (by simp [at_]))
  have step : r.bridge (k + 1) =
      if r.arFire k then { r.bridge k with state := .rdData }
      else r.bridge k := next.trans (AxiLiteM.next_rdAddr _ _ at_)
  rw [step]
  by_cases fires : r.arFire k = true
  · rw [if_pos fires]
    exact ⟨read, quiet', ⟨k, address.onlyAt after fires⟩, data'⟩
  · rw [if_neg fires, at_]
    exact ⟨read, quiet', address.succ (by simpa using fires), data'⟩

theorem Busy.progress_of_rdData (after : a < k)
    (at_ : (r.bridge k).state = .rdData) : r.Progress (k + 1) a req := by
  have progress := busy.progress
  have next := r.bridge_succ k
  rw [Progress, at_] at progress
  rw [Progress]
  obtain ⟨read, quiet, ⟨x, address⟩, data⟩ := progress
  have quiet' := quiet.succ (by simp [at_]) (by simp [at_])
  have address' := address.succ (arFire_of_ne (by simp [at_]))
  have step : r.bridge (k + 1) =
      if r.rFire k then
        { r.bridge k with
          rdataReg := (r.axi k).rdata
          errReg := (r.axi k).rresp != 0
          state := .rsp }
      else r.bridge k := next.trans (AxiLiteM.next_rdData _ _ at_)
  rw [step]
  by_cases fires : r.rFire k = true
  · rw [if_pos fires]
    dsimp only
    rw [if_neg (by simp [read])]
    exact ⟨quiet', x, k, address.2.1, address', data.onlyAt after fires,
      rfl⟩
  · rw [if_neg fires, at_]
    exact ⟨read, quiet', ⟨x, address'⟩, data.succ (by simpa using fires)⟩

theorem Busy.progress_of_wrAddr (after : a < k)
    (at_ : (r.bridge k).state = .wrAddr) : r.Progress (k + 1) a req := by
  have progress := busy.progress
  have next := r.bridge_succ k
  rw [Progress, at_] at progress
  rw [Progress]
  obtain ⟨write, quiet, address, data, done⟩ := progress
  have quiet' := quiet.succ (by simp [at_]) (by simp [at_])
  have done' := done.succ (bFire_of_ne (by simp [at_]))
  have address' := address.succ after fun finished => by
    simp [awFire, AxiLiteM.awFire, AxiLiteM.awvalid, finished]
  have data' := data.succ after fun finished => by
    simp [wFire, AxiLiteM.wFire, AxiLiteM.wvalid, finished]
  rw [next, AxiLiteM.next_wrAddr _ _ at_]
  dsimp only
  by_cases sent : (r.bridge k).writeSent (r.axi k) = true
  · have both := sent
    rw [AxiLiteM.writeSent, Bool.and_eq_true] at both
    rw [if_pos sent]
    have sentAddress : ((r.bridge k).awDone || r.awFire k) = true := both.1
    have sentData : ((r.bridge k).wDone || r.wFire k) = true := both.2
    rw [sentAddress] at address'
    rw [sentData] at data'
    exact ⟨write, quiet', address'.of_done, data'.of_done, done'⟩
  · rw [if_neg sent]
    exact ⟨write, quiet', address', data', done'⟩

theorem Busy.progress_of_wrResp (after : a < k)
    (at_ : (r.bridge k).state = .wrResp) : r.Progress (k + 1) a req := by
  have progress := busy.progress
  have next := r.bridge_succ k
  rw [Progress, at_] at progress
  rw [Progress]
  obtain ⟨write, quiet, ⟨x, address⟩, ⟨w, data⟩, done⟩ := progress
  have quiet' := quiet.succ (by simp [at_]) (by simp [at_])
  have address' := address.succ (awFire_of_ne (by simp [at_]))
  have data' := data.succ (wFire_of_ne (by simp [at_]))
  have step : r.bridge (k + 1) =
      if r.bFire k then
        { r.bridge k with
          errReg := (r.axi k).bresp != 0
          rdataReg := 0
          state := .rsp }
      else r.bridge k := next.trans (AxiLiteM.next_wrResp _ _ at_)
  rw [step]
  by_cases fires : r.bFire k = true
  · rw [if_pos fires]
    dsimp only
    rw [if_pos write]
    exact ⟨quiet', x, w, k, address.2.1, data.2.1, address', data',
      done.onlyAt after fires, rfl⟩
  · rw [if_neg fires, at_]
    exact ⟨write, quiet', ⟨x, address'⟩, ⟨w, data'⟩,
      done.succ (by simpa using fires)⟩

theorem Busy.progress_of_rsp (keeps : r.handover k = false)
    (at_ : (r.bridge k).state = .rsp) : r.Progress (k + 1) a req := by
  have progress := busy.progress
  have next := r.bridge_succ k
  rw [Progress, at_] at progress
  rw [Progress]
  have stalled : ((r.state k).bridgeIn (r.inputs k)).rspReady = false := by
    have valid : (r.bridge k).rsp.valid = true := by
      simp [AxiLiteM.rsp, at_]
    rw [handover_eq, valid, Bool.true_and] at keeps
    exact keeps
  rw [next, AxiLiteM.next_rsp _ _ at_, stalled,
    if_neg Bool.false_ne_true, at_]
  cases we : req.we with
  | true =>
      dsimp only at progress
      rw [if_pos we] at progress
      exact progress.succ at_
  | false =>
      dsimp only at progress
      rw [if_neg (by simp [we])] at progress
      exact progress.succ at_

theorem Busy.progress_succ (after : a < k)
    (keeps : r.handover k = false) : r.Progress (k + 1) a req := by
  cases at_ : (r.bridge k).state with
  | idle => exact absurd at_ busy.not_idle
  | rdAddr => exact busy.progress_of_rdAddr after at_
  | rdData => exact busy.progress_of_rdData after at_
  | wrAddr => exact busy.progress_of_wrAddr after at_
  | wrResp => exact busy.progress_of_wrResp after at_
  | rsp => exact busy.progress_of_rsp keeps at_

end Step

theorem Busy.silent (busy : r.Busy k p req a) : r.accept k = none := by
  rw [accept_eq, AxiPath.coreReqValid, busy.pending]
  rfl

theorem Free.not_handover (free : r.Free k) : r.handover k = false := by
  rw [handover_eq]
  simp [AxiLiteM.rsp, free.idle]

/-- The registers of the arbiter after a cycle. -/
theorem arbiter_succ (r : AxiRun) (k : ℕ) :
    ((r.state (k + 1)).arbOwner, (r.state (k + 1)).arbPending) =
      match r.accept k with
      | some ((p, _)) => (p.owner, true)
      | none =>
          if r.handover k then (.none, false)
          else ((r.state k).arbOwner, (r.state k).arbPending) := by
  rw [accept_eq, handover_eq, state_succ, AxiPath.next]
  by_cases asked :
      ((r.state k).coreReqValid (r.inputs k) &&
        (r.state k).coreReqReady) = true
  · rw [if_pos asked, if_pos asked]
    cases (r.inputs k).d.reqValid <;> rfl
  · rw [if_neg asked, if_neg asked]
    have same : (r.state k).coreRsp.valid = (r.bridge k).rsp.valid := rfl
    rw [same]
    split_ifs <;> rfl

theorem Free.accepts (free : r.Free k) (accepted : r.accept k = some (p, req)) :
    r.Busy (k + 1) p req k := by
  have arbiter := r.arbiter_succ k
  rw [accepted] at arbiter
  obtain ⟨owner, pending⟩ := Prod.mk.inj arbiter
  have asked : ((r.state k).coreReqValid (r.inputs k) &&
      (r.state k).coreReqReady) = true := by
    by_contra quiet
    rw [accept_eq, if_neg quiet] at accepted
    cases accepted
  rw [accept_eq, if_pos asked] at accepted
  have named := Option.some.inj accepted
  have payload : AxiPath.coreReq (r.inputs k) = req :=
    congrArg Prod.snd named
  obtain ⟨state, registers, flags⟩ :=
    AxiLiteM.next_accept ((r.state k).bridgeIn (r.inputs k)) (r.axi k)
      free.idle (Bool.and_eq_true_iff.mp asked).1
  rw [← bridge_succ] at state registers flags
  change (r.bridge (k + 1)).state =
    if (AxiPath.coreReq (r.inputs k)).we then .wrAddr else .rdAddr at state
  change _ = (AxiPath.coreReq (r.inputs k)).addr ∧
    _ = (AxiPath.coreReq (r.inputs k)).wdata ∧
    _ = (AxiPath.coreReq (r.inputs k)).wstrb at registers
  change (AxiPath.coreReq (r.inputs k)).we = true → _ at flags
  rw [payload] at state registers flags
  refine ⟨pending, owner, registers, ?_⟩
  unfold Progress
  cases we : req.we with
  | true =>
      rw [we, if_pos rfl] at state
      obtain ⟨address, data⟩ := flags we
      rw [state, address, data]
      exact ⟨rfl, noRead_start r k, silent_start, silent_start,
        silent_start⟩
  | false =>
      rw [we, if_neg Bool.false_ne_true] at state
      rw [state]
      exact ⟨rfl, noWrite_start r k, silent_start, silent_start⟩

theorem Free.stays (free : r.Free k) (silent : r.accept k = none) :
    r.Free (k + 1) := by
  have arbiter := r.arbiter_succ k
  rw [silent, free.not_handover] at arbiter
  obtain ⟨owner, pending⟩ := Prod.mk.inj arbiter
  refine ⟨pending.trans free.pending, owner.trans free.owner, ?_⟩
  have quiet : (r.state k).coreReqValid (r.inputs k) = false := by
    have ready : (r.state k).coreReqReady = true := by
      change (r.bridge k).reqReady = true
      simp [AxiLiteM.reqReady, free.idle]
    rw [accept_eq, ready, Bool.and_true] at silent
    split_ifs at silent with asked
    simpa using asked
  rw [bridge_succ, AxiLiteM.next_idle _ _ free.idle quiet]
  exact free.idle

theorem Busy.stays (busy : r.Busy k p req a) (after : a < k)
    (keeps : r.handover k = false) : r.Busy (k + 1) p req a := by
  have arbiter := r.arbiter_succ k
  rw [busy.silent, keeps] at arbiter
  obtain ⟨owner, pending⟩ := Prod.mk.inj arbiter
  obtain ⟨addr, wdata, wstrb⟩ :=
    AxiLiteM.next_payload ((r.state k).bridgeIn (r.inputs k)) (r.axi k)
      busy.not_idle
  rw [← bridge_succ] at addr wdata wstrb
  exact ⟨pending.trans busy.pending, owner.trans busy.owner,
    ⟨addr.trans busy.payload.1, wdata.trans busy.payload.2.1,
      wstrb.trans busy.payload.2.2⟩,
    busy.progress_succ after keeps⟩

theorem Busy.leaves (busy : r.Busy k p req a)
    (taken : r.handover k = true) : r.Free (k + 1) := by
  have arbiter := r.arbiter_succ k
  rw [busy.silent, taken] at arbiter
  obtain ⟨owner, pending⟩ := Prod.mk.inj arbiter
  refine ⟨pending, owner, ?_⟩
  rw [handover_eq, Bool.and_eq_true] at taken
  have at_ : (r.bridge k).state = .rsp := by
    simpa [AxiLiteM.rsp] using taken.1
  have ready : ((r.state k).bridgeIn (r.inputs k)).rspReady = true := taken.2
  rw [bridge_succ, AxiLiteM.next_rsp _ _ at_, if_pos ready]

/-- In every cycle the registers belong to the request that is served. -/
theorem serves (r : AxiRun) (k : ℕ) : r.Serves k := by
  induction k with
  | zero => exact ⟨rfl, rfl, rfl⟩
  | succ k inductionHypothesis =>
      unfold Serves at inductionHypothesis ⊢
      cases now : r.serving k with
      | none =>
          rw [now] at inductionHypothesis
          have free : r.Free k := inductionHypothesis
          cases accepted : r.accept k with
          | none =>
              have idle : r.serving (k + 1) = none :=
                (outstanding_of_idle accepted free.not_handover).trans now
              rw [idle]
              exact free.stays accepted
          | some tag =>
              have asked : r.serving (k + 1) = some (tag, k) :=
                outstanding_of_accept accepted
              rw [asked]
              exact free.accepts accepted
      | some request =>
          obtain ⟨⟨p, req⟩, a⟩ := request
          rw [now] at inductionHypothesis
          have busy : r.Busy k p req a := inductionHypothesis
          have after : a < k := asked_lt_of_outstanding now
          cases taken : r.handover k with
          | true =>
              have gone : r.serving (k + 1) = none :=
                outstanding_of_handover busy.silent taken
              rw [gone]
              exact busy.leaves taken
          | false =>
              have same : r.serving (k + 1) = some ((p, req), a) :=
                (outstanding_of_idle busy.silent taken).trans now
              rw [same]
              exact busy.stays after taken

theorem busy_of_serving (now : r.serving k = some ((p, req), a)) :
    r.Busy k p req a := by
  have serves := r.serves k
  rw [Serves, now] at serves
  exact serves

/-- The bridge leaves the idle state for a request only. -/
theorem serving_of_not_idle (busy : (r.bridge k).state ≠ .idle) :
    ∃ p req a, r.serving k = some ((p, req), a) := by
  cases now : r.serving k with
  | none =>
      have serves := r.serves k
      rw [Serves, now] at serves
      exact absurd serves.idle busy
  | some request => exact ⟨_, _, _, rfl⟩

end AxiRun

end SisRv
