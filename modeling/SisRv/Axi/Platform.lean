import SisRv.Axi.Delivery
import SisRv.Axi.Slave

/-!
# The path with its slave

The bridge and the slave move together: each waits in the state that the other
one ends.  Every request of either port is therefore answered, with the data
and the response code of the address, at every stall rate.
-/

namespace SisRv

open Sync AxiLiteSlave

/-- A run of the AXI option of the platform after reset. -/
structure AxiPlatformRun where
  stallRate : ℤ
  romInit : BitVec 19 → BitVec 32
  ramInit : BitVec 16 → BitVec 32
  mtimeInit : BitVec 64
  inputs : ℕ → AxiPlatformIn

namespace AxiPlatformRun

variable (r : AxiPlatformRun)

/-- The registers in cycle `k`. -/
def state : ℕ → AxiPlatform :=
  trajectory (fun s i => s.next r.stallRate i)
    ⟨AxiPath.reset, AxiLiteSlave.reset r.romInit r.ramInit r.mtimeInit⟩
    r.inputs

def slave (k : ℕ) : AxiLiteSlave := (r.state k).slave

/-- What the slave sees in a cycle. -/
def slaveIn (k : ℕ) : AxiSlaveIn := (r.state k).slaveIn (r.inputs k)

/-- The run of the arbiter and the bridge. -/
def path : AxiRun :=
  ⟨fun k => (r.state k).pathIn r.stallRate (r.inputs k)⟩

/-- A read of the slave for the request that is served in cycle `k`. -/
def HasRead (k : ℕ) (addr word : BitVec 32) : Prop :=
  ∃ j < k, r.path.serving j = r.path.serving k ∧
    (r.slave j).reads r.stallRate (r.slaveIn j) = some addr ∧
    word = (r.slave j).memRead (r.slaveIn j) addr

/-- The slave executes a write in a cycle. -/
structure Executes (j : ℕ) (addr data : BitVec 32) (strb : BitVec 4) :
    Prop where
  exec : (r.slave j).wrState = .exec
  addr : (r.slave j).wrAddrReg = addr
  data : (r.slave j).wrDataReg = data
  strb : (r.slave j).wrStrbReg = strb

/-- A write of the slave for the request that is served in cycle `k`. -/
def HasWritten (k : ℕ) (addr data : BitVec 32) (strb : BitVec 4) : Prop :=
  ∃ j < k, r.path.serving j = r.path.serving k ∧ r.Executes j addr data strb

/-- The read FSM has the address, or the word. -/
def Reading (k : ℕ) : Prop :=
  ((r.slave k).rdState = .wait ∧
      (r.slave k).rdAddrReg = (r.path.bridge k).addrReg) ∨
    ((r.slave k).rdState = .resp ∧
      (r.slave k).rdRespReg = respOf (r.path.bridge k).addrReg ∧
      r.HasRead k (r.path.bridge k).addrReg (r.slave k).rdDataReg)

/-- The write FSM has what the bridge has sent. -/
inductive Writing (k : ℕ) : Prop
  | none
      (at_ : (r.slave k).wrState = .idle)
      (aw : (r.path.bridge k).awDone = false)
      (w : (r.path.bridge k).wDone = false)
  | address
      (at_ : (r.slave k).wrState = .gotAw)
      (aw : (r.path.bridge k).awDone = true)
      (w : (r.path.bridge k).wDone = false)
      (addr : (r.slave k).wrAddrReg = (r.path.bridge k).addrReg)
  | data
      (at_ : (r.slave k).wrState = .gotW)
      (aw : (r.path.bridge k).awDone = false)
      (w : (r.path.bridge k).wDone = true)
      (data : (r.slave k).wrDataReg = (r.path.bridge k).wdataReg)
      (strb : (r.slave k).wrStrbReg = (r.path.bridge k).wstrbReg)

/-- The write FSM executes the write of the bridge, or has done so. -/
def Written (k : ℕ) : Prop :=
  r.Executes k (r.path.bridge k).addrReg (r.path.bridge k).wdataReg
      (r.path.bridge k).wstrbReg ∨
    (((r.slave k).wrState = .wait ∨ (r.slave k).wrState = .resp) ∧
      (r.slave k).wrRespReg = respOf (r.path.bridge k).addrReg ∧
      r.HasWritten k (r.path.bridge k).addrReg (r.path.bridge k).wdataReg
        (r.path.bridge k).wstrbReg)

/-- The response is that of the address, after the access. -/
structure Responding (k : ℕ) : Prop where
  code : (r.path.bridge k).errReg = (respOf (r.path.bridge k).addrReg != 0)
  access : ∀ p req a, r.path.serving k = some ((p, req), a) →
    if req.we then
      r.HasWritten k (r.path.bridge k).addrReg (r.path.bridge k).wdataReg
        (r.path.bridge k).wstrbReg
    else r.HasRead k (r.path.bridge k).addrReg (r.path.bridge k).rdataReg

/-- The bridge and the slave are at matching places. -/
structure Coupled (k : ℕ) : Prop where
  rdIdle : (r.path.bridge k).state ≠ .rdData → (r.slave k).rdState = .idle
  wrIdle : (r.path.bridge k).state ≠ .wrAddr →
    (r.path.bridge k).state ≠ .wrResp → (r.slave k).wrState = .idle
  reading : (r.path.bridge k).state = .rdData → r.Reading k
  writing : (r.path.bridge k).state = .wrAddr → r.Writing k
  written : (r.path.bridge k).state = .wrResp → r.Written k
  responding : (r.path.bridge k).state = .rsp → r.Responding k

variable {r} {k : ℕ}

/-! ## The two machines -/

theorem path_state (k : ℕ) : r.path.state k = (r.state k).path := by
  induction k with
  | zero => rfl
  | succ k inductionHypothesis =>
      rw [AxiRun.state_succ, inductionHypothesis]
      rfl

theorem path_axi (k : ℕ) : r.path.axi k = (r.slave k).out r.stallRate := rfl

theorem slaveIn_eq (k : ℕ) :
    r.slaveIn k =
      { awvalid := (r.path.bridge k).awvalid
        awaddr := (r.path.bridge k).awaddr
        wvalid := (r.path.bridge k).wvalid
        wdata := (r.path.bridge k).wdata
        wstrb := (r.path.bridge k).wstrb
        bready := (r.path.bridge k).bready
        arvalid := (r.path.bridge k).arvalid
        araddr := (r.path.bridge k).araddr
        rready := (r.path.bridge k).rready
        plicIrq := (r.inputs k).plicIrq
        gpioIn := (r.inputs k).gpioIn } := by
  rw [slaveIn, AxiPlatform.slaveIn, AxiRun.bridge, path_state]

theorem slaveIn_payload (k : ℕ) :
    (r.slaveIn k).araddr = (r.path.bridge k).addrReg ∧
      (r.slaveIn k).awaddr = (r.path.bridge k).addrReg ∧
      (r.slaveIn k).wdata = (r.path.bridge k).wdataReg ∧
      (r.slaveIn k).wstrb = (r.path.bridge k).wstrbReg := by
  rw [slaveIn_eq]
  exact ⟨rfl, rfl, rfl, rfl⟩

/-- The handshakes of the slave are those of the bridge. -/
theorem slave_fires (k : ℕ) :
    (r.slave k).arFire r.stallRate (r.slaveIn k) =
        (r.path.bridge k).arFire (r.path.axi k) ∧
      (r.slave k).awFire r.stallRate (r.slaveIn k) =
        (r.path.bridge k).awFire (r.path.axi k) ∧
      (r.slave k).wFire r.stallRate (r.slaveIn k) =
        (r.path.bridge k).wFire (r.path.axi k) := by
  rw [slaveIn_eq]
  exact ⟨rfl, rfl, rfl⟩

theorem slave_succ (k : ℕ) :
    r.slave (k + 1) = (r.slave k).next r.stallRate (r.slaveIn k) := rfl

theorem rd_succ (k : ℕ) :
    (r.slave (k + 1)).rd = (r.slave k).rdNext r.stallRate (r.slaveIn k) := by
  rw [slave_succ, next_rd]

theorem wr_succ (k : ℕ) :
    (r.slave (k + 1)).wr = (r.slave k).wrNext r.stallRate (r.slaveIn k) := by
  rw [slave_succ, next_wr]

theorem rom_eq (k : ℕ) : (r.slave k).rom = r.romInit := by
  induction k with
  | zero => rfl
  | succ k inductionHypothesis =>
      rw [slave_succ, next_rom, inductionHypothesis]

theorem lfsr_eq (k : ℕ) :
    (r.slave k).lfsrAr = lfsrNext^[k] 0xACE1 ∧
      (r.slave k).lfsrAw = lfsrNext^[k] 0xCAFE ∧
      (r.slave k).lfsrW = lfsrNext^[k] 0xDEAD := by
  induction k with
  | zero => exact ⟨rfl, rfl, rfl⟩
  | succ k inductionHypothesis =>
      obtain ⟨ar, aw, w⟩ := inductionHypothesis
      simp only [Function.iterate_succ_apply', ← ar, ← aw, ← w]
      exact ⟨rfl, rfl, rfl⟩

/-! ## What is kept -/

theorem serving_succ (busy : (r.path.bridge k).state ≠ .idle)
    (keeps : (r.path.bridge k).state ≠ .rsp ∨
      ((r.path.state k).bridgeIn (r.path.inputs k)).rspReady = false) :
    r.path.serving (k + 1) = r.path.serving k := by
  obtain ⟨p, req, a, now⟩ := AxiRun.serving_of_not_idle busy
  have kept : r.path.handover k = false := by
    rw [AxiRun.handover_eq]
    rcases keeps with other | refused
    · simp [AxiLiteM.rsp, other]
    · have ready : (r.path.state k).coreRspReady (r.path.inputs k) = false :=
        refused
      rw [ready, Bool.and_false]
  exact outstanding_of_idle (AxiRun.busy_of_serving now).silent kept

theorem HasRead.succ {addr word : BitVec 32}
    (same : r.path.serving (k + 1) = r.path.serving k)
    (read : r.HasRead k addr word) : r.HasRead (k + 1) addr word := by
  obtain ⟨j, before, serves, reads⟩ := read
  exact ⟨j, Nat.lt_succ_of_lt before, serves.trans same.symm, reads⟩

theorem HasWritten.succ {addr data : BitVec 32} {strb : BitVec 4}
    (same : r.path.serving (k + 1) = r.path.serving k)
    (written : r.HasWritten k addr data strb) :
    r.HasWritten (k + 1) addr data strb := by
  obtain ⟨j, before, serves, executes⟩ := written
  exact ⟨j, Nat.lt_succ_of_lt before, serves.trans same.symm, executes⟩

theorem rd_idle_succ (idle : (r.slave k).rdState = .idle)
    (quiet : (r.path.bridge k).arFire (r.path.axi k) = false) :
    (r.slave (k + 1)).rdState = .idle := by
  have fires : (r.slave k).arFire r.stallRate (r.slaveIn k) = false :=
    (slave_fires k).1.trans quiet
  have step := congrArg RdRegs.state (rd_succ (r := r) k)
  rw [rdNext, idle] at step
  simpa [fires, rd, idle] using step

theorem wr_idle_succ (idle : (r.slave k).wrState = .idle)
    (quiet : (r.path.bridge k).state ≠ .wrAddr) :
    (r.slave (k + 1)).wrState = .idle := by
  have aw : (r.slave k).awFire r.stallRate (r.slaveIn k) = false := by
    rw [slaveIn_eq]
    simp [awFire, AxiLiteM.awvalid, quiet]
  have w : (r.slave k).wFire r.stallRate (r.slaveIn k) = false := by
    rw [slaveIn_eq]
    simp [wFire, AxiLiteM.wvalid, quiet]
  have step := congrArg WrRegs.state (wr_succ (r := r) k)
  rw [wrNext, idle] at step
  simpa [aw, w, wr, idle] using step

theorem arFire_of_ne (other : (r.path.bridge k).state ≠ .rdAddr) :
    (r.path.bridge k).arFire (r.path.axi k) = false := by
  simp [AxiLiteM.arFire, AxiLiteM.arvalid, other]

/-! ## One step of both machines -/

theorem Coupled.succ_of_idle (coupled : r.Coupled k)
    (at_ : (r.path.bridge k).state = .idle) : r.Coupled (k + 1) := by
  have rd : (r.slave (k + 1)).rdState = .idle :=
    rd_idle_succ (coupled.rdIdle (by simp [at_])) (arFire_of_ne (by simp [at_]))
  have wr : (r.slave (k + 1)).wrState = .idle :=
    wr_idle_succ (coupled.wrIdle (by simp [at_]) (by simp [at_]))
      (by simp [at_])
  have step := AxiRun.bridge_succ r.path k
  cases asked :
      ((r.path.state k).bridgeIn (r.path.inputs k)).reqValid with
  | false =>
      rw [AxiLiteM.next_idle _ _ at_ asked] at step
      exact ⟨fun _ => rd, fun _ _ => wr, by simp [step, at_],
        by simp [step, at_], by simp [step, at_], by simp [step, at_]⟩
  | true =>
      obtain ⟨state, -, flags⟩ := AxiLiteM.next_accept
        ((r.path.state k).bridgeIn (r.path.inputs k)) (r.path.axi k) at_ asked
      rw [← step] at state flags
      refine ⟨fun _ => rd, fun _ _ => wr, fun now => ?_, fun now => ?_,
        fun now => ?_, fun now => ?_⟩
      · rw [state] at now
        split_ifs at now
      · rw [state] at now
        split_ifs at now with we
        · exact .none wr (flags we).1 (flags we).2
      · rw [state] at now
        split_ifs at now
      · rw [state] at now
        split_ifs at now

theorem Coupled.succ_of_rdAddr (coupled : r.Coupled k)
    (at_ : (r.path.bridge k).state = .rdAddr) : r.Coupled (k + 1) := by
  have idle := coupled.rdIdle (by simp [at_])
  have wr : (r.slave (k + 1)).wrState = .idle :=
    wr_idle_succ (coupled.wrIdle (by simp [at_]) (by simp [at_]))
      (by simp [at_])
  have step := AxiRun.bridge_succ r.path k
  rw [AxiLiteM.next_rdAddr _ _ at_] at step
  cases fires : (r.path.bridge k).arFire (r.path.axi k) with
  | false =>
      rw [fires, if_neg Bool.false_ne_true] at step
      exact ⟨fun _ => rd_idle_succ idle fires, fun _ _ => wr,
        by simp [step, at_], by simp [step, at_], by simp [step, at_],
        by simp [step, at_]⟩
  | true =>
      rw [fires, if_pos rfl] at step
      have same := serving_succ (r := r) (k := k) (by simp [at_])
        (.inl (by simp [at_]))
      have slaveFires : (r.slave k).arFire r.stallRate (r.slaveIn k) = true :=
        (slave_fires k).1.trans fires
      have address := (slaveIn_payload (r := r) k).1
      have rdStep := rd_succ (r := r) k
      rw [rdNext, idle] at rdStep
      simp only [slaveFires, if_true] at rdStep
      have reading : r.Reading (k + 1) := by
        cases stalls : shouldStall r.stallRate (r.slave k).lfsrR with
        | true =>
            rw [stalls, if_pos rfl] at rdStep
            obtain ⟨state, addr, -⟩ := RdRegs.mk.inj rdStep
            exact .inl ⟨state, by rw [addr, address, step]⟩
        | false =>
            rw [stalls, if_neg Bool.false_ne_true] at rdStep
            obtain ⟨state, -, data, resp, -⟩ := RdRegs.mk.inj rdStep
            refine .inr ⟨state, by rw [resp, address, step], k,
              Nat.lt_succ_self k, same.symm, ?_, by rw [data, address, step]⟩
            simp [reads, idle, slaveFires, stalls, address, step]
      exact ⟨by simp [step], fun _ _ => wr, fun _ => reading, by simp [step],
        by simp [step], by simp [step]⟩

theorem Coupled.succ_of_rdData (coupled : r.Coupled k)
    (at_ : (r.path.bridge k).state = .rdData) : r.Coupled (k + 1) := by
  have wr : (r.slave (k + 1)).wrState = .idle :=
    wr_idle_succ (coupled.wrIdle (by simp [at_]) (by simp [at_]))
      (by simp [at_])
  have step := AxiRun.bridge_succ r.path k
  rw [AxiLiteM.next_rdData _ _ at_] at step
  have same := serving_succ (r := r) (k := k) (by simp [at_])
    (.inl (by simp [at_]))
  have rdStep := rd_succ (r := r) k
  rcases coupled.reading at_ with ⟨waits, addr⟩ | ⟨offers, resp, read⟩
  · have silent : (r.path.bridge k).rFire (r.path.axi k) = false := by
      simp [AxiLiteM.rFire, path_axi, out, rvalid, waits]
    rw [silent, if_neg Bool.false_ne_true] at step
    rw [rdNext, waits] at rdStep
    have reading : r.Reading (k + 1) := by
      by_cases expired : (r.slave k).rdStallCnt = 0
      · simp only [expired, if_true] at rdStep
        obtain ⟨state, -, data, resp, -⟩ := RdRegs.mk.inj rdStep
        refine .inr ⟨state, by rw [resp, addr, step], k, Nat.lt_succ_self k,
          same.symm, ?_, by rw [data, addr, step]⟩
        simp [reads, waits, expired, addr, step]
      · simp only [expired, if_false] at rdStep
        obtain ⟨state, kept, -⟩ := RdRegs.mk.inj rdStep
        exact .inl ⟨state.trans waits, (kept.trans addr).trans (by rw [step])⟩
    exact ⟨by simp [step, at_], fun _ _ => wr, fun _ => reading,
      by simp [step, at_], by simp [step, at_], by simp [step, at_]⟩
  · have fires : (r.path.bridge k).rFire (r.path.axi k) = true := by
      simp [AxiLiteM.rFire, AxiLiteM.rready, path_axi, out, rvalid, offers,
        at_]
    rw [fires, if_pos rfl] at step
    have taken : (r.slaveIn k).rready = true := by
      rw [slaveIn_eq]
      simp [AxiLiteM.rready, at_]
    rw [rdNext, offers] at rdStep
    simp only [taken, if_true] at rdStep
    have responding : r.Responding (k + 1) := by
      constructor
      · rw [step]
        exact congrArg (· != 0) resp
      · intro p req a now
        rw [same] at now
        have progress := (AxiRun.busy_of_serving now).progress
        rw [AxiRun.Progress, at_] at progress
        rw [progress.1, if_neg Bool.false_ne_true, step]
        exact HasRead.succ same read
    exact ⟨fun _ => congrArg RdRegs.state rdStep, fun _ _ => wr,
      by simp [step], by simp [step], by simp [step], fun _ => responding⟩

theorem Coupled.succ_of_rsp (coupled : r.Coupled k)
    (at_ : (r.path.bridge k).state = .rsp) : r.Coupled (k + 1) := by
  have rd : (r.slave (k + 1)).rdState = .idle :=
    rd_idle_succ (coupled.rdIdle (by simp [at_])) (arFire_of_ne (by simp [at_]))
  have wr : (r.slave (k + 1)).wrState = .idle :=
    wr_idle_succ (coupled.wrIdle (by simp [at_]) (by simp [at_]))
      (by simp [at_])
  have step := AxiRun.bridge_succ r.path k
  rw [AxiLiteM.next_rsp _ _ at_] at step
  cases taken : ((r.path.state k).bridgeIn (r.path.inputs k)).rspReady with
  | true =>
      rw [taken, if_pos rfl] at step
      exact ⟨fun _ => rd, fun _ _ => wr, by simp [step], by simp [step],
        by simp [step], by simp [step]⟩
  | false =>
      rw [taken, if_neg Bool.false_ne_true] at step
      have same := serving_succ (r := r) (k := k) (by simp [at_]) (.inr taken)
      have responds := coupled.responding at_
      refine ⟨fun _ => rd, fun _ _ => wr, by simp [step, at_],
        by simp [step, at_], by simp [step, at_], fun _ => ⟨?_, ?_⟩⟩
      · rw [step]
        exact responds.code
      · intro p req a now
        rw [same] at now
        have access := responds.access p req a now
        rw [step]
        cases we : req.we with
        | true =>
            rw [we, if_pos rfl] at access
            rw [if_pos rfl]
            exact access.succ same
        | false =>
            rw [we, if_neg Bool.false_ne_true] at access
            rw [if_neg Bool.false_ne_true]
            exact access.succ same

/-- In the next cycle the slave has what the bridge has sent, or executes the
write. -/
def Forwards (r : AxiPlatformRun) (k : ℕ) : Prop :=
  ((r.path.bridge (k + 1)).state = .wrAddr ∧ r.Writing (k + 1)) ∨
    ((r.path.bridge (k + 1)).state = .wrResp ∧ r.Written (k + 1))

theorem forwards_of_none (at_ : (r.path.bridge k).state = .wrAddr)
    (place : (r.slave k).wrState = .idle)
    (awDone : (r.path.bridge k).awDone = false)
    (wDone : (r.path.bridge k).wDone = false) : r.Forwards k := by
  obtain ⟨-, addr, data, strb⟩ := slaveIn_payload (r := r) k
  obtain ⟨-, aw, w⟩ := slave_fires (r := r) k
  have step := AxiRun.bridge_succ r.path k
  rw [AxiLiteM.next_wrAddr _ _ at_] at step
  have wrStep := wr_succ (r := r) k
  rw [wrNext] at wrStep
  rw [place] at wrStep
  simp only [aw, w, addr, data, strb] at wrStep
  cases awFires : (r.path.bridge k).awFire (r.path.axi k) <;>
    cases wFires : (r.path.bridge k).wFire (r.path.axi k) <;>
    simp only [awFires, wFires, Bool.and_self, Bool.and_false,
      Bool.false_and, Bool.false_eq_true, if_false, if_true] at wrStep <;>
    simp only [AxiLiteM.writeSent, awDone, wDone, awFires, wFires] at step
  · exact .inl ⟨by rw [step]; rfl, .none
      ((congrArg WrRegs.state wrStep).trans place) (by rw [step]; rfl)
      (by rw [step]; rfl)⟩
  · exact .inl ⟨by rw [step]; rfl, .data (congrArg WrRegs.state wrStep)
      (by rw [step]; rfl) (by rw [step]; rfl)
      ((congrArg WrRegs.data wrStep).trans (by rw [step]))
      ((congrArg WrRegs.strb wrStep).trans (by rw [step]))⟩
  · exact .inl ⟨by rw [step]; rfl, .address (congrArg WrRegs.state wrStep)
      (by rw [step]; rfl) (by rw [step]; rfl)
      ((congrArg WrRegs.addr wrStep).trans (by rw [step]))⟩
  · exact .inr ⟨by rw [step]; rfl, .inl ⟨congrArg WrRegs.state wrStep,
      (congrArg WrRegs.addr wrStep).trans (by rw [step]),
      (congrArg WrRegs.data wrStep).trans (by rw [step]),
      (congrArg WrRegs.strb wrStep).trans (by rw [step])⟩⟩

theorem forwards_of_address (at_ : (r.path.bridge k).state = .wrAddr)
    (place : (r.slave k).wrState = .gotAw)
    (awDone : (r.path.bridge k).awDone = true)
    (wDone : (r.path.bridge k).wDone = false)
    (sentAddr : (r.slave k).wrAddrReg = (r.path.bridge k).addrReg) :
    r.Forwards k := by
  obtain ⟨-, -, data, strb⟩ := slaveIn_payload (r := r) k
  obtain ⟨-, -, w⟩ := slave_fires (r := r) k
  have step := AxiRun.bridge_succ r.path k
  rw [AxiLiteM.next_wrAddr _ _ at_] at step
  have wrStep := wr_succ (r := r) k
  rw [wrNext] at wrStep
  rw [place] at wrStep
  simp only [w, data, strb] at wrStep
  cases wFires : (r.path.bridge k).wFire (r.path.axi k) <;>
    simp only [wFires, Bool.false_eq_true, if_false, if_true] at wrStep <;>
    simp only [AxiLiteM.writeSent, awDone, wDone, wFires] at step
  · exact .inl ⟨by rw [step]; rfl, .address
      ((congrArg WrRegs.state wrStep).trans place) (by rw [step]; rfl)
      (by rw [step]; rfl)
      (((congrArg WrRegs.addr wrStep).trans sentAddr).trans
        (by rw [step]))⟩
  · exact .inr ⟨by rw [step]; rfl, .inl ⟨congrArg WrRegs.state wrStep,
      ((congrArg WrRegs.addr wrStep).trans sentAddr).trans (by rw [step]),
      (congrArg WrRegs.data wrStep).trans (by rw [step]),
      (congrArg WrRegs.strb wrStep).trans (by rw [step])⟩⟩

theorem forwards_of_data (at_ : (r.path.bridge k).state = .wrAddr)
    (place : (r.slave k).wrState = .gotW)
    (awDone : (r.path.bridge k).awDone = false)
    (wDone : (r.path.bridge k).wDone = true)
    (sentData : (r.slave k).wrDataReg = (r.path.bridge k).wdataReg)
    (sentStrb : (r.slave k).wrStrbReg = (r.path.bridge k).wstrbReg) :
    r.Forwards k := by
  obtain ⟨-, addr, -, -⟩ := slaveIn_payload (r := r) k
  obtain ⟨-, aw, -⟩ := slave_fires (r := r) k
  have step := AxiRun.bridge_succ r.path k
  rw [AxiLiteM.next_wrAddr _ _ at_] at step
  have wrStep := wr_succ (r := r) k
  rw [wrNext] at wrStep
  rw [place] at wrStep
  simp only [aw, addr] at wrStep
  cases awFires : (r.path.bridge k).awFire (r.path.axi k) <;>
    simp only [awFires, Bool.false_eq_true, if_false, if_true] at wrStep <;>
    simp only [AxiLiteM.writeSent, awDone, wDone, awFires] at step
  · exact .inl ⟨by rw [step]; rfl, .data
      ((congrArg WrRegs.state wrStep).trans place) (by rw [step]; rfl)
      (by rw [step]; rfl)
      (((congrArg WrRegs.data wrStep).trans sentData).trans
        (by rw [step]))
      (((congrArg WrRegs.strb wrStep).trans sentStrb).trans
        (by rw [step]))⟩
  · exact .inr ⟨by rw [step]; rfl, .inl ⟨congrArg WrRegs.state wrStep,
      (congrArg WrRegs.addr wrStep).trans (by rw [step]),
      ((congrArg WrRegs.data wrStep).trans sentData).trans (by rw [step]),
      ((congrArg WrRegs.strb wrStep).trans sentStrb).trans
        (by rw [step])⟩⟩

theorem Coupled.succ_of_wrAddr (coupled : r.Coupled k)
    (at_ : (r.path.bridge k).state = .wrAddr) : r.Coupled (k + 1) := by
  have rd : (r.slave (k + 1)).rdState = .idle :=
    rd_idle_succ (coupled.rdIdle (by simp [at_])) (arFire_of_ne (by simp [at_]))
  have forwards : r.Forwards k := by
    rcases coupled.writing at_ with ⟨place, awDone, wDone⟩ |
      ⟨place, awDone, wDone, addr⟩ | ⟨place, awDone, wDone, data, strb⟩
    · exact forwards_of_none at_ place awDone wDone
    · exact forwards_of_address at_ place awDone wDone addr
    · exact forwards_of_data at_ place awDone wDone data strb
  rcases forwards with ⟨state, writing⟩ | ⟨state, written⟩
  · exact ⟨fun _ => rd, by simp [state], by simp [state], fun _ => writing,
      by simp [state], by simp [state]⟩
  · exact ⟨fun _ => rd, by simp [state], by simp [state], by simp [state],
      fun _ => written, by simp [state]⟩

theorem Coupled.succ_of_wrResp (coupled : r.Coupled k)
    (at_ : (r.path.bridge k).state = .wrResp) : r.Coupled (k + 1) := by
  have rd : (r.slave (k + 1)).rdState = .idle :=
    rd_idle_succ (coupled.rdIdle (by simp [at_])) (arFire_of_ne (by simp [at_]))
  have step := AxiRun.bridge_succ r.path k
  rw [AxiLiteM.next_wrResp _ _ at_] at step
  have same := serving_succ (r := r) (k := k) (by simp [at_])
    (.inl (by simp [at_]))
  have wrStep := wr_succ (r := r) k
  rw [wrNext] at wrStep
  rcases coupled.written at_ with executes | ⟨place, resp, written⟩
  · have silent : (r.path.bridge k).bFire (r.path.axi k) = false := by
      simp [AxiLiteM.bFire, path_axi, out, bvalid, executes.exec]
    rw [silent, if_neg Bool.false_ne_true] at step
    rw [executes.exec] at wrStep
    have written : r.Written (k + 1) := by
      rw [Written, step]
      refine .inr ⟨?_, ?_, k, Nat.lt_succ_self k, same.symm, executes⟩
      · have state := congrArg WrRegs.state wrStep
        dsimp only at state
        split_ifs at state
        · exact .inl state
        · exact .inr state
      · rw [← executes.addr]
        have code := congrArg WrRegs.resp wrStep
        dsimp only at code
        split_ifs at code <;> exact code
    exact ⟨fun _ => rd, by simp [step, at_], by simp [step, at_],
      by simp [step, at_], fun _ => written, by simp [step, at_]⟩
  · rcases place with waits | offers
    · have silent : (r.path.bridge k).bFire (r.path.axi k) = false := by
        simp [AxiLiteM.bFire, path_axi, out, bvalid, waits]
      rw [silent, if_neg Bool.false_ne_true] at step
      rw [waits] at wrStep
      have later : r.Written (k + 1) := by
        rw [Written, step]
        refine .inr ⟨?_, ?_, written.succ same⟩
        · have state := congrArg WrRegs.state wrStep
          dsimp only at state
          split_ifs at state
          · exact .inr state
          · exact .inl (state.trans waits)
        · have code := congrArg WrRegs.resp wrStep
          dsimp only at code
          split_ifs at code <;> exact code.trans resp
      exact ⟨fun _ => rd, by simp [step, at_], by simp [step, at_],
        by simp [step, at_], fun _ => later, by simp [step, at_]⟩
    · have fires : (r.path.bridge k).bFire (r.path.axi k) = true := by
        simp [AxiLiteM.bFire, AxiLiteM.bready, path_axi, out, bvalid, offers,
          at_]
      rw [fires, if_pos rfl] at step
      have taken : (r.slaveIn k).bready = true := by
        rw [slaveIn_eq]
        simp [AxiLiteM.bready, at_]
      rw [offers] at wrStep
      simp only [taken, if_true] at wrStep
      have responding : r.Responding (k + 1) := by
        constructor
        · rw [step]
          exact congrArg (· != 0) resp
        · intro p req a now
          rw [same] at now
          have progress := (AxiRun.busy_of_serving now).progress
          rw [AxiRun.Progress, at_] at progress
          rw [progress.1, if_pos rfl, step]
          exact HasWritten.succ same written
      exact ⟨fun _ => rd, fun _ _ => congrArg WrRegs.state wrStep,
        by simp [step], by simp [step], by simp [step], fun _ => responding⟩

theorem coupled (r : AxiPlatformRun) (k : ℕ) : r.Coupled k := by
  induction k with
  | zero =>
      have idle : (r.path.bridge 0).state = .idle := rfl
      exact ⟨fun _ => rfl, fun _ _ => rfl, by simp [idle], by simp [idle],
        by simp [idle], by simp [idle]⟩
  | succ k inductionHypothesis =>
      cases at_ : (r.path.bridge k).state with
      | idle => exact inductionHypothesis.succ_of_idle at_
      | rdAddr => exact inductionHypothesis.succ_of_rdAddr at_
      | rdData => exact inductionHypothesis.succ_of_rdData at_
      | wrAddr => exact inductionHypothesis.succ_of_wrAddr at_
      | wrResp => exact inductionHypothesis.succ_of_wrResp at_
      | rsp => exact inductionHypothesis.succ_of_rsp at_

/-! ## The slave answers -/

/-- While a read address is not accepted, both machines stay. -/
theorem rdAddr_stays (at_ : (r.path.bridge k).state = .rdAddr)
    (never : ∀ j, k ≤ j → (r.path.axi j).arready = false) (j : ℕ)
    (above : k ≤ j) : (r.path.bridge j).state = .rdAddr := by
  induction j, above using Nat.le_induction with
  | base => exact at_
  | succ j above inductionHypothesis =>
      rw [AxiRun.bridge_succ, AxiLiteM.next_rdAddr _ _ inductionHypothesis]
      simp [AxiLiteM.arFire, never j above, inductionHypothesis]

theorem rdData_stays (at_ : (r.path.bridge k).state = .rdData)
    (never : ∀ j, k ≤ j → (r.path.axi j).rvalid = false) (j : ℕ)
    (above : k ≤ j) : (r.path.bridge j).state = .rdData := by
  induction j, above using Nat.le_induction with
  | base => exact at_
  | succ j above inductionHypothesis =>
      rw [AxiRun.bridge_succ, AxiLiteM.next_rdData _ _ inductionHypothesis]
      simp [AxiLiteM.rFire, never j above, inductionHypothesis]

theorem wrResp_stays (at_ : (r.path.bridge k).state = .wrResp)
    (never : ∀ j, k ≤ j → (r.path.axi j).bvalid = false) (j : ℕ)
    (above : k ≤ j) : (r.path.bridge j).state = .wrResp := by
  induction j, above using Nat.le_induction with
  | base => exact at_
  | succ j above inductionHypothesis =>
      rw [AxiRun.bridge_succ, AxiLiteM.next_wrResp _ _ inductionHypothesis]
      simp [AxiLiteM.bFire, never j above, inductionHypothesis]

theorem awvalid_stays (valid : (r.path.bridge k).awvalid = true)
    (never : ∀ j, k ≤ j → (r.path.axi j).awready = false) (j : ℕ)
    (above : k ≤ j) : (r.path.bridge j).awvalid = true := by
  induction j, above using Nat.le_induction with
  | base => exact valid
  | succ j above inductionHypothesis =>
      have here := inductionHypothesis
      simp only [AxiLiteM.awvalid, Bool.and_eq_true, beq_iff_eq,
        Bool.not_eq_true'] at here
      rw [AxiRun.bridge_succ, AxiLiteM.next_wrAddr _ _ here.1]
      simp [AxiLiteM.awvalid, AxiLiteM.writeSent, AxiLiteM.awFire,
        never j above, here.2]

theorem wvalid_stays (valid : (r.path.bridge k).wvalid = true)
    (never : ∀ j, k ≤ j → (r.path.axi j).wready = false) (j : ℕ)
    (above : k ≤ j) : (r.path.bridge j).wvalid = true := by
  induction j, above using Nat.le_induction with
  | base => exact valid
  | succ j above inductionHypothesis =>
      have here := inductionHypothesis
      simp only [AxiLiteM.wvalid, Bool.and_eq_true, beq_iff_eq,
        Bool.not_eq_true'] at here
      rw [AxiRun.bridge_succ, AxiLiteM.next_wrAddr _ _ here.1]
      simp [AxiLiteM.wvalid, AxiLiteM.writeSent, AxiLiteM.wFire,
        never j above, here.2]

theorem exists_ar_free (r : AxiPlatformRun) (k : ℕ) :
    ∃ j, k ≤ j ∧ shouldStall r.stallRate (r.slave j).lfsrAr = false := by
  obtain ⟨j, above, free⟩ :=
    exists_later_not_stalled r.stallRate 0xACE1 6 (by decide) k
  exact ⟨j, above, by rw [(lfsr_eq j).1]; exact free⟩

theorem exists_aw_free (r : AxiPlatformRun) (k : ℕ) :
    ∃ j, k ≤ j ∧ shouldStall r.stallRate (r.slave j).lfsrAw = false := by
  obtain ⟨j, above, free⟩ :=
    exists_later_not_stalled r.stallRate 0xCAFE 0 (by decide) k
  exact ⟨j, above, by rw [(lfsr_eq j).2.1]; exact free⟩

theorem exists_w_free (r : AxiPlatformRun) (k : ℕ) :
    ∃ j, k ≤ j ∧ shouldStall r.stallRate (r.slave j).lfsrW = false := by
  obtain ⟨j, above, free⟩ :=
    exists_later_not_stalled r.stallRate 0xDEAD 3 (by decide) k
  exact ⟨j, above, by rw [(lfsr_eq j).2.2]; exact free⟩

theorem arReady (asks : (r.path.bridge k).arvalid = true) :
    ∃ j, k ≤ j ∧ (r.path.axi j).arready = true := by
  by_contra never
  push Not at never
  have at_ : (r.path.bridge k).state = .rdAddr := by
    simpa [AxiLiteM.arvalid] using asks
  obtain ⟨j, above, ready⟩ := exists_ar_free r k
  have stays := rdAddr_stays at_
    (fun j above => Bool.eq_false_iff.mpr (never j above)) j above
  have idle := (r.coupled j).rdIdle (by simp [stays])
  apply never j above
  simp [path_axi, out, arready, idle, ready]

theorem awReady (asks : (r.path.bridge k).awvalid = true) :
    ∃ j, k ≤ j ∧ (r.path.axi j).awready = true := by
  by_contra never
  push Not at never
  obtain ⟨j, above, ready⟩ := exists_aw_free r k
  have stays := awvalid_stays asks
    (fun j above => Bool.eq_false_iff.mpr (never j above)) j above
  simp only [AxiLiteM.awvalid, Bool.and_eq_true, beq_iff_eq,
    Bool.not_eq_true'] at stays
  apply never j above
  rcases (r.coupled j).writing stays.1 with
    ⟨place, -, -⟩ | ⟨-, sent, -, -⟩ | ⟨place, -, -, -, -⟩
  · simp [path_axi, out, awready, place, ready]
  · rw [stays.2] at sent
    exact absurd sent Bool.false_ne_true
  · simp [path_axi, out, awready, place, ready]

theorem wReady (asks : (r.path.bridge k).wvalid = true) :
    ∃ j, k ≤ j ∧ (r.path.axi j).wready = true := by
  by_contra never
  push Not at never
  obtain ⟨j, above, ready⟩ := exists_w_free r k
  have stays := wvalid_stays asks
    (fun j above => Bool.eq_false_iff.mpr (never j above)) j above
  simp only [AxiLiteM.wvalid, Bool.and_eq_true, beq_iff_eq,
    Bool.not_eq_true'] at stays
  apply never j above
  rcases (r.coupled j).writing stays.1 with
    ⟨place, -, -⟩ | ⟨place, -, -, -⟩ | ⟨-, -, sent, -, -⟩
  · simp [path_axi, out, wready, place, ready]
  · simp [path_axi, out, wready, place, ready]
  · rw [stays.2] at sent
    exact absurd sent Bool.false_ne_true

theorem rValid (asks : (r.path.bridge k).rready = true) :
    ∃ j, k ≤ j ∧ (r.path.axi j).rvalid = true := by
  by_contra never
  push Not at never
  have at_ : (r.path.bridge k).state = .rdData := by
    simpa [AxiLiteM.rready] using asks
  have silent (j : ℕ) (above : k ≤ j) : (r.slave j).rdState ≠ .resp := by
    intro offers
    apply never j above
    simp [path_axi, out, rvalid, offers]
  have waits (j : ℕ) (above : k ≤ j) : (r.slave j).rdState = .wait := by
    have stays := rdData_stays at_
      (fun j above => Bool.eq_false_iff.mpr (never j above)) j above
    rcases (r.coupled j).reading stays with ⟨waits, -⟩ | ⟨offers, -⟩
    · exact waits
    · exact absurd offers (silent j above)
  apply not_always_counting (fun j => (r.slave j).rdStallCnt) k
  intro j above
  have step := rd_succ (r := r) j
  rw [rdNext, waits j above] at step
  by_cases expired : (r.slave j).rdStallCnt = 0
  · simp only [expired, if_true] at step
    exact absurd (congrArg RdRegs.state step)
      (silent (j + 1) (Nat.le_succ_of_le above))
  · simp only [expired, if_false] at step
    exact ⟨expired, congrArg RdRegs.stall step⟩

theorem bValid (asks : (r.path.bridge k).bready = true) :
    ∃ j, k ≤ j ∧ (r.path.axi j).bvalid = true := by
  by_contra never
  push Not at never
  have at_ : (r.path.bridge k).state = .wrResp := by
    simpa [AxiLiteM.bready] using asks
  have silent (j : ℕ) (above : k ≤ j) : (r.slave j).wrState ≠ .resp := by
    intro offers
    apply never j above
    simp [path_axi, out, bvalid, offers]
  have waits (j : ℕ) (above : k + 1 ≤ j) : (r.slave j).wrState = .wait := by
    obtain ⟨i, rfl⟩ : ∃ i, j = i + 1 := ⟨j - 1, by omega⟩
    have stays := wrResp_stays at_
      (fun j above => Bool.eq_false_iff.mpr (never j above)) i (by omega)
    have later := silent (i + 1) (by omega)
    have step := congrArg WrRegs.state (wr_succ (r := r) i)
    rw [wrNext] at step
    change (r.slave (i + 1)).wrState = _ at step
    rcases (r.coupled i).written stays with executes | ⟨waits | offers, -⟩
    · rw [executes.exec] at step
      dsimp only at step
      split_ifs at step
      · exact step
      · exact absurd step later
    · rw [waits] at step
      dsimp only at step
      split_ifs at step
      · exact absurd step later
      · exact step.trans waits
    · exact absurd offers (silent i (by omega))
  apply not_always_counting (fun j => (r.slave j).wrStallCnt) (k + 1)
  intro j above
  have step := wr_succ (r := r) j
  rw [wrNext, waits j above] at step
  by_cases expired : (r.slave j).wrStallCnt = 0
  · simp only [expired, if_true] at step
    exact absurd (congrArg WrRegs.state step) (silent (j + 1) (by omega))
  · simp only [expired, if_false] at step
    exact ⟨expired, congrArg WrRegs.stall step⟩

theorem responsive (r : AxiPlatformRun) : r.path.Responsive :=
  ⟨fun _ => arReady, fun _ => rValid, fun _ => awReady, fun _ => wReady,
    fun _ => bValid⟩

/-- Every accepted request is answered, after the access, with the response
code of its address. -/
theorem answers {p : Port} {req : BusReq} {a : ℕ}
    (accepted : r.path.accept a = some (p, req)) :
    ∃ k, r.path.serving k = some ((p, req), a) ∧
      (r.path.rsp k p).valid = true ∧
      (r.path.rsp k p).err = (respOf req.addr != 0) ∧
      if req.we then r.HasWritten k req.addr req.wdata req.wstrb
      else r.HasRead k req.addr (r.path.rsp k p).rdata := by
  obtain ⟨k, now, at_⟩ := AxiRun.reaches_rsp r.responsive accepted
  have busy := AxiRun.busy_of_serving now
  obtain ⟨addr, data, strb⟩ := busy.payload
  have responds := (r.coupled k).responding at_
  have offered := AxiRun.rsp_of_owner _ busy.owner
  refine ⟨k, now, ?_, ?_, ?_⟩
  · rw [offered]
    simp [AxiLiteM.rsp, at_]
  · rw [offered, ← addr]
    exact responds.code
  · have access := responds.access p req a now
    rw [addr, data, strb] at access
    rw [offered]
    exact access

end AxiPlatformRun

end SisRv
