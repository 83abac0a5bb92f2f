import SisRv.Axi.Platform
import SisRv.Axi.SlaveDevices
import SisRv.Fabric.PathDevices
import SisRv.Fabric.Paths
import SisRv.Lib.Stutter

/-!
# The same devices on both platforms

Both platforms perform the accesses to their devices in the order in which
they accept them.  With the same accesses the devices are therefore in the same
state and give the same answers.
-/

namespace SisRv

open Sync

/-! ## The direct path -/

namespace DataPathRun

variable (r : DataPathRun)

/-- The request to a device that is accepted in a cycle. -/
def access (k : ℕ) : Option BusReq :=
  (r.accept k).filter fun req => namesDevice req.addr

/-- The requests to devices that are accepted before a cycle. -/
def accesses (k : ℕ) : List BusReq := emitted r.access k

/-- The devices, with the bytes sent up to a cycle. -/
def devices (k : ℕ) : DeviceState :=
  (r.state k).devices (emitted (fun j => (r.state j).sends) k)

/-- No request is accepted while another one waits for its response. -/
def OneAtATime : Prop := ∀ k, r.request k ≠ none → r.accept k = none

/-- The requests to devices go to the blocks that both platforms have. -/
def OnCommon : Prop :=
  ∀ k req, r.accept k = some req → namesDevice req.addr = true →
    Common req.addr

variable {r}

theorem devices_succ (common : r.OnCommon) (k : ℕ) :
    r.devices (k + 1) =
      (r.access k).elim (r.devices k) (r.devices k).access := by
  have step := DataPath.devices_next
    (emitted (fun j => (r.state j).sends) k)
    fun names accepted => common k _ (by rw [accept, if_pos accepted]) names
  refine Eq.trans step ?_
  rw [access, accept]
  cases (r.state k).accepts (r.inputs k) with
  | false => rfl
  | true =>
      rw [if_pos rfl, if_pos rfl, Option.filter_some]
      cases names : namesDevice (r.inputs k).req.addr with
      | true => rfl
      | false => exact DeviceState.access_elsewhere _ names

/-- The devices are what the accesses to them make of them. -/
theorem devices_eq (common : r.OnCommon) (k : ℕ) :
    r.devices k = (r.accesses k).foldl DeviceState.access .reset := by
  have start : r.devices 0 = .reset :=
    DataPath.devices_reset r.romInit r.ramInit
  rw [← start]
  exact foldl_of_stutter r.access DeviceState.access r.devices
    (devices_succ common) k

theorem routable_of_names (one : r.OneAtATime) {a : ℕ} {req : BusReq}
    (accepted : r.accept a = some req)
    (names : namesDevice req.addr = true) : r.Routable a := by
  have single : r.SingleRequest := fun k out accepts =>
    absurd (one k out) accepts
  have consistent := consistent_of_routable single a
    (routable_before single accepted)
  intro other taken
  rw [accepted] at taken
  obtain rfl := Option.some.inj taken
  constructor
  · rintro ⟨rom, -⟩
    rw [namesDevice, rom] at names
    cases names
  · intro waits
    have free : r.request a = none := by
      by_contra out
      rw [one a out] at accepted
      cases accepted
    rw [consistent.idle free] at waits
    cases waits

/-- A device is answered in the cycle after its request, and the response is
that of its user's view. -/
theorem rsp_of_names (one : r.OneAtATime) (common : r.OnCommon) {a k : ℕ}
    {req : BusReq} (out : r.request k = some (req, a))
    (names : namesDevice req.addr = true) :
    (r.rsp k).valid = true ∧ (r.rsp k).err = false ∧
      (req.we = false → (r.rsp k).rdata =
        (r.devices a).answer (r.inputs a).gpioIn req.addr) := by
  have single : r.SingleRequest := fun k out accepts =>
    absurd (one k out) accepts
  have accepted := accept_of_outstanding out
  have consistent := consistent_of_routable single k fun j below => by
    rcases Nat.lt_trichotomy j a with before | rfl | later
    · exact routable_before single accepted j before
    · exact routable_of_names one accepted names
    · intro other taken
      rw [silent_of_outstanding out later below] at taken
      cases taken
  rw [consistent.rsp_of_some out]
  obtain ⟨accepts, rfl⟩ := accept_eq_some accepted
  refine ⟨rfl, ?_, fun read => ?_⟩
  · rw [answer, DataPath.answer]
    cases named : addressMap (r.inputs a).req.addr with
    | none =>
        rw [namesDevice, named] at names
        cases names
    | some d => rfl
  · have answers : r.answer a = _ := DataPath.answer_of_common
      (emitted (fun j => (r.state j).sends) a)
      (common a _ accepted names) names read
    exact congrArg Prod.fst answers

end DataPathRun

/-! ## The AXI path -/

namespace AxiPlatformRun

variable (r : AxiPlatformRun)

/-- The request to a device that is accepted in a cycle, on either port. -/
def access (k : ℕ) : Option BusReq :=
  ((r.path.accept k).map Prod.snd).filter fun req => namesDevice req.addr

/-- The requests to devices that are accepted before a cycle. -/
def accesses (k : ℕ) : List BusReq := emitted r.access k

/-- The devices, with the bytes sent up to a cycle. -/
def devices (k : ℕ) : DeviceState :=
  (r.slave k).devices (emitted (fun j => (r.slave j).sends) k)

/-- What the accesses before a cycle make of the devices. -/
def accessed (k : ℕ) : DeviceState :=
  (r.accesses k).foldl DeviceState.access .reset

/-- The access that the slave performs in a cycle. -/
def performs (k : ℕ) : Option BusReq :=
  (r.slave k).performs r.stallRate (r.slaveIn k)

/-- The slave has not yet performed the access of the request in service. -/
def due (k : ℕ) : Bool :=
  match (r.path.bridge k).state with
  | .rdAddr | .wrAddr => true
  | .rdData => (r.slave k).rdState == .wait
  | .wrResp => (r.slave k).wrState == .exec
  | .idle | .rsp => false

/-- What a cycle does for the request in service. -/
inductive Advances (k : ℕ) (req : BusReq) : Prop
  | waits (before : r.due k = true) (after : r.due (k + 1) = true)
      (quiet : r.performs k = none)
  | acts (before : r.due k = true) (after : r.due (k + 1) = false)
      (performed : BusReq) (act : r.performs k = some performed)
      (same : ∀ s : DeviceState, s.access performed = s.access req)
  | rests (before : r.due k = false) (after : r.due (k + 1) = false)
      (quiet : r.performs k = none)

variable {r} {k a : ℕ} {p : Port} {req : BusReq}

/-! ### The access of a cycle -/

theorem reads_none_of_ne (address : (r.path.bridge k).state ≠ .rdAddr)
    (data : (r.path.bridge k).state ≠ .rdData) :
    (r.slave k).reads r.stallRate (r.slaveIn k) = none := by
  have idle := (r.coupled k).rdIdle data
  have silent : (r.slave k).arFire r.stallRate (r.slaveIn k) = false :=
    (slave_fires k).1.trans (arFire_of_ne address)
  rw [AxiLiteSlave.reads, idle]
  dsimp only
  rw [silent, Bool.false_and, if_neg Bool.false_ne_true]

theorem wrState_ne_exec (other : (r.path.bridge k).state ≠ .wrResp) :
    (r.slave k).wrState ≠ .exec := by
  intro exec
  by_cases address : (r.path.bridge k).state = .wrAddr
  · rcases (r.coupled k).writing address with
      ⟨at_, -, -⟩ | ⟨at_, -, -, -⟩ | ⟨at_, -, -, -, -⟩
    · rw [at_] at exec
      cases exec
    · rw [at_] at exec
      cases exec
    · rw [at_] at exec
      cases exec
  · rw [(r.coupled k).wrIdle address other] at exec
    cases exec

theorem reads_none_of_exec (exec : (r.slave k).wrState = .exec) :
    (r.slave k).reads r.stallRate (r.slaveIn k) = none := by
  have at_ : (r.path.bridge k).state = .wrResp := by
    by_contra other
    exact wrState_ne_exec other exec
  exact reads_none_of_ne (by simp [at_]) (by simp [at_])

theorem performs_of_read (other : (r.path.bridge k).state ≠ .wrResp) :
    r.performs k =
      ((r.slave k).reads r.stallRate (r.slaveIn k)).map
        fun addr => ⟨addr, false, 0, 0⟩ := by
  rw [performs, AxiLiteSlave.performs, if_neg (wrState_ne_exec other)]

theorem performs_none (address : (r.path.bridge k).state ≠ .rdAddr)
    (data : (r.path.bridge k).state ≠ .rdData)
    (other : (r.path.bridge k).state ≠ .wrResp) : r.performs k = none := by
  rw [performs_of_read other, reads_none_of_ne address data]
  rfl

theorem devices_succ (k : ℕ) :
    r.devices (k + 1) =
      (r.performs k).elim (r.devices k) (r.devices k).access :=
  AxiLiteSlave.devices_next reads_none_of_exec

theorem access_of_read (s : DeviceState) (read : req.we = false) :
    s.access ⟨req.addr, false, 0, 0⟩ = s.access req := by
  unfold DeviceState.access
  rw [read]
  cases DeviceReg.find req.addr <;> rfl

/-! ### One cycle of the request in service -/

section Service

variable (now : r.path.serving k = some ((p, req), a))
include now

theorem advances_of_rdAddr (at_ : (r.path.bridge k).state = .rdAddr) :
    r.Advances k req := by
  have busy := AxiRun.busy_of_serving now
  have read : req.we = false := by
    have progress := busy.progress
    rw [AxiRun.Progress, at_] at progress
    exact progress.1
  have before : r.due k = true := by rw [due, at_]
  have idle := (r.coupled k).rdIdle (by simp [at_])
  have step := AxiRun.bridge_succ r.path k
  rw [AxiLiteM.next_rdAddr _ _ at_] at step
  have fires := (slave_fires (r := r) k).1
  have address : (r.slaveIn k).araddr = req.addr :=
    (slaveIn_payload k).1.trans busy.payload.1
  have performed := performs_of_read (r := r) (k := k) (by simp [at_])
  have rdStep := congrArg AxiLiteSlave.RdRegs.state (rd_succ (r := r) k)
  rw [AxiLiteSlave.rdNext, idle] at rdStep
  rw [AxiLiteSlave.reads, idle] at performed
  dsimp only at rdStep performed
  rw [fires, address] at performed
  rw [fires] at rdStep
  cases sends : (r.path.bridge k).arFire (r.path.axi k) with
  | false =>
      rw [sends, if_neg Bool.false_ne_true] at step
      rw [sends, Bool.false_and, if_neg Bool.false_ne_true] at performed
      exact .waits before (by rw [due, step, at_]) performed
  | true =>
      rw [sends, if_pos rfl] at step rdStep
      rw [sends, Bool.true_and] at performed
      cases stalls : shouldStall r.stallRate (r.slave k).lfsrR with
      | true =>
          rw [stalls, if_pos rfl] at rdStep
          rw [stalls, Bool.not_true, if_neg Bool.false_ne_true] at performed
          have waits : (r.slave (k + 1)).rdState = .wait := rdStep
          exact .waits before (by rw [due, step, waits]; rfl) performed
      | false =>
          rw [stalls, if_neg Bool.false_ne_true] at rdStep
          rw [stalls, Bool.not_false, if_pos rfl] at performed
          have offers : (r.slave (k + 1)).rdState = .resp := rdStep
          exact .acts before (by rw [due, step, offers]; rfl) _ performed
            fun s => access_of_read s read

theorem advances_of_rdData (at_ : (r.path.bridge k).state = .rdData) :
    r.Advances k req := by
  have busy := AxiRun.busy_of_serving now
  have read : req.we = false := by
    have progress := busy.progress
    rw [AxiRun.Progress, at_] at progress
    exact progress.1
  have step := AxiRun.bridge_succ r.path k
  rw [AxiLiteM.next_rdData _ _ at_] at step
  have performed := performs_of_read (r := r) (k := k) (by simp [at_])
  have rdStep := congrArg AxiLiteSlave.RdRegs.state (rd_succ (r := r) k)
  rw [AxiLiteSlave.rdNext] at rdStep
  rw [AxiLiteSlave.reads] at performed
  rcases (r.coupled k).reading at_ with ⟨waits, addr⟩ | ⟨offers, -, -⟩
  · have silent : (r.path.bridge k).rFire (r.path.axi k) = false := by
      simp [AxiLiteM.rFire, path_axi, AxiLiteSlave.out, AxiLiteSlave.rvalid,
        waits]
    rw [silent, if_neg Bool.false_ne_true] at step
    have before : r.due k = true := by rw [due, at_, waits]; rfl
    rw [waits] at rdStep performed
    dsimp only at rdStep performed
    by_cases expired : (r.slave k).rdStallCnt = 0
    · rw [if_pos expired] at rdStep performed
      have offers : (r.slave (k + 1)).rdState = .resp := rdStep
      rw [addr, busy.payload.1] at performed
      exact .acts before (by rw [due, step, at_, offers]; rfl) _ performed
        fun s => access_of_read s read
    · rw [if_neg expired] at rdStep performed
      have still : (r.slave (k + 1)).rdState = .wait := rdStep.trans waits
      exact .waits before (by rw [due, step, at_, still]; rfl) performed
  · have fires : (r.path.bridge k).rFire (r.path.axi k) = true := by
      simp [AxiLiteM.rFire, AxiLiteM.rready, path_axi, AxiLiteSlave.out,
        AxiLiteSlave.rvalid, offers, at_]
    rw [fires, if_pos rfl] at step
    rw [offers] at performed
    exact .rests (by rw [due, at_, offers]; rfl) (by rw [due, step])
      performed

omit now in
/-- A write that is sent is executed first. -/
theorem unanswered_of_writing (writing : r.Writing k) :
    (r.slave (k + 1)).wrState ≠ .wait ∧ (r.slave (k + 1)).wrState ≠ .resp := by
  have step : (r.slave (k + 1)).wrState = _ :=
    congrArg AxiLiteSlave.WrRegs.state (wr_succ (r := r) k)
  rw [AxiLiteSlave.wrNext] at step
  rw [step]
  rcases writing with ⟨place, -, -⟩ | ⟨place, -, -, -⟩ | ⟨place, -, -, -, -⟩
  · rw [place]
    dsimp only
    split_ifs <;> simp [AxiLiteSlave.wr, place]
  · rw [place]
    dsimp only
    split_ifs <;> simp [AxiLiteSlave.wr, place]
  · rw [place]
    dsimp only
    split_ifs <;> simp [AxiLiteSlave.wr, place]

omit now in
theorem advances_of_wrAddr (at_ : (r.path.bridge k).state = .wrAddr) :
    r.Advances k req := by
  have before : r.due k = true := by rw [due, at_]
  have quiet := performs_none (r := r) (k := k) (by simp [at_])
    (by simp [at_]) (by simp [at_])
  refine .waits before ?_ quiet
  have step := congrArg AxiLiteM.state (AxiRun.bridge_succ r.path k)
  rw [AxiLiteM.next_wrAddr _ _ at_] at step
  dsimp only at step
  split_ifs at step with sent
  · rw [due, step]
    obtain ⟨notWait, notResp⟩ :=
      unanswered_of_writing ((r.coupled k).writing at_)
    rcases (r.coupled (k + 1)).written step with executes | ⟨place, -⟩
    · rw [executes.exec]
      rfl
    · rcases place with waits | offers
      · exact absurd waits notWait
      · exact absurd offers notResp
  · rw [due, step]

omit now in
/-- A write is executed in a single cycle. -/
theorem exec_once (place : (r.slave k).wrState = .exec ∨
      (r.slave k).wrState = .wait ∨ (r.slave k).wrState = .resp) :
    (r.slave (k + 1)).wrState ≠ .exec := by
  have step : (r.slave (k + 1)).wrState = _ :=
    congrArg AxiLiteSlave.WrRegs.state (wr_succ (r := r) k)
  rw [AxiLiteSlave.wrNext] at step
  rw [step]
  rcases place with at_ | at_ | at_
  · rw [at_]
    dsimp only
    split_ifs <;> simp
  · rw [at_]
    dsimp only
    split_ifs <;> simp [AxiLiteSlave.wr, at_]
  · rw [at_]
    dsimp only
    split_ifs <;> simp [AxiLiteSlave.wr, at_]

theorem advances_of_executes (at_ : (r.path.bridge k).state = .wrResp)
    (executes : r.Executes k (r.path.bridge k).addrReg
      (r.path.bridge k).wdataReg (r.path.bridge k).wstrbReg) :
    r.Advances k req := by
  have busy := AxiRun.busy_of_serving now
  have write : req.we = true := by
    have progress := busy.progress
    rw [AxiRun.Progress, at_] at progress
    exact progress.1
  obtain ⟨addr, data, strb⟩ := busy.payload
  have act : r.performs k = some req := by
    rw [performs, AxiLiteSlave.performs, if_pos executes.exec, executes.addr,
      executes.data, executes.strb, addr, data, strb, ← write]
  refine .acts (by rw [due, at_, executes.exec]; rfl) ?_ req act fun _ => rfl
  have silent : (r.path.bridge k).bFire (r.path.axi k) = false := by
    simp [AxiLiteM.bFire, path_axi, AxiLiteSlave.out, AxiLiteSlave.bvalid,
      executes.exec]
  have step := AxiRun.bridge_succ r.path k
  rw [AxiLiteM.next_wrResp _ _ at_, silent, if_neg Bool.false_ne_true] at step
  have after := exec_once (r := r) (.inl executes.exec)
  rw [due, step, at_]
  simpa using after

omit now in
theorem advances_of_executed (at_ : (r.path.bridge k).state = .wrResp)
    (place : (r.slave k).wrState = .wait ∨ (r.slave k).wrState = .resp) :
    r.Advances k req := by
  have past : (r.slave k).wrState ≠ .exec := by
    rcases place with waits | offers
    · simp [waits]
    · simp [offers]
  have quiet : r.performs k = none := by
    rw [performs, AxiLiteSlave.performs, if_neg past,
      reads_none_of_ne (by simp [at_]) (by simp [at_])]
    rfl
  have after := exec_once (r := r) (.inr place)
  have step := AxiRun.bridge_succ r.path k
  rw [AxiLiteM.next_wrResp _ _ at_] at step
  refine .rests ?_ ?_ quiet
  · rw [due, at_]
    simpa using past
  · rw [due, step]
    split_ifs
    · rfl
    · rw [at_]
      simpa using after

theorem advances_of_wrResp (at_ : (r.path.bridge k).state = .wrResp) :
    r.Advances k req := by
  rcases (r.coupled k).written at_ with executes | ⟨place, -, -⟩
  · exact advances_of_executes now at_ executes
  · exact advances_of_executed at_ place

/-- A request waits, is performed once and rests. -/
theorem advances : r.Advances k req := by
  cases at_ : (r.path.bridge k).state with
  | idle => exact absurd at_ (AxiRun.busy_of_serving now).not_idle
  | rdAddr => exact advances_of_rdAddr now at_
  | rdData => exact advances_of_rdData now at_
  | wrAddr => exact advances_of_wrAddr at_
  | wrResp => exact advances_of_wrResp now at_
  | rsp =>
      have quiet := performs_none (r := r) (k := k) (by simp [at_])
        (by simp [at_]) (by simp [at_])
      refine .rests (by rw [due, at_]) ?_ quiet
      have step := AxiRun.bridge_succ r.path k
      rw [AxiLiteM.next_rsp _ _ at_] at step
      rw [due, step]
      split_ifs
      · rfl
      · rw [at_]

end Service

/-! ### The devices and the accesses -/

/-- The devices are as the accesses leave them, without the one in service if
it is still due. -/
def Tracks (r : AxiPlatformRun) (k : ℕ) : Prop :=
  match r.path.serving k with
  | none => r.devices k = r.accessed k
  | some ((_, req), b) =>
      r.accessed k = (r.accessed b).access req ∧
        r.devices k = if r.due k then r.accessed b else r.accessed k

theorem accessed_succ (k : ℕ) :
    r.accessed (k + 1) =
      (r.access k).elim (r.accessed k) (r.accessed k).access := by
  rw [accessed, accesses, emitted, List.foldl_append]
  cases r.access k <;> rfl

theorem accessed_of_accept (accepted : r.path.accept k = some (p, req)) :
    r.accessed (k + 1) = (r.accessed k).access req := by
  rw [accessed_succ, access, accepted, Option.map_some, Option.filter_some]
  cases names : namesDevice req.addr with
  | true => rfl
  | false => exact (DeviceState.access_elsewhere _ names).symm

theorem accessed_of_silent (silent : r.path.accept k = none) :
    r.accessed (k + 1) = r.accessed k := by
  rw [accessed_succ, access, silent]
  rfl

theorem due_of_accept (free : r.path.Free k)
    (accepted : r.path.accept k = some (p, req)) : r.due (k + 1) = true := by
  have busy := free.accepts accepted
  have step := AxiRun.bridge_succ r.path k
  cases asked :
      ((r.path.state k).bridgeIn (r.path.inputs k)).reqValid with
  | false =>
      rw [AxiLiteM.next_idle _ _ free.idle asked] at step
      exact absurd (by rw [step, free.idle]) busy.not_idle
  | true =>
      obtain ⟨state, -, -⟩ := AxiLiteM.next_accept
        ((r.path.state k).bridgeIn (r.path.inputs k)) (r.path.axi k) free.idle
        asked
      rw [← step] at state
      rw [due, state]
      split_ifs <;> rfl

/-- A bridge without a request keeps the devices. -/
theorem tracks_succ_of_free (now : r.path.serving k = none)
    (same : r.devices k = r.accessed k) : r.Tracks (k + 1) := by
  have serves := r.path.serves k
  rw [AxiRun.Serves, now] at serves
  have free : r.path.Free k := serves
  have quiet := performs_none (r := r) (k := k) (by simp [free.idle])
    (by simp [free.idle]) (by simp [free.idle])
  have kept : r.devices (k + 1) = r.accessed k := by
    rw [devices_succ, quiet, ← same]
    rfl
  rw [Tracks]
  cases accepted : r.path.accept k with
  | none =>
      have still : r.path.serving (k + 1) = none :=
        (outstanding_of_idle accepted free.not_handover).trans now
      rw [still, accessed_of_silent accepted]
      exact kept
  | some tag =>
      obtain ⟨p, req⟩ := tag
      have asked : r.path.serving (k + 1) = some ((p, req), k) :=
        outstanding_of_accept accepted
      rw [asked]
      refine ⟨accessed_of_accept accepted, ?_⟩
      rw [due_of_accept free accepted, if_pos rfl]
      exact kept

/-- The access of the request in service is performed at most once, and before
the response is handed over. -/
theorem tracks_succ_of_busy (now : r.path.serving k = some ((p, req), a))
    (last : r.accessed k = (r.accessed a).access req)
    (same : r.devices k = if r.due k then r.accessed a else r.accessed k) :
    r.Tracks (k + 1) := by
  have busy := AxiRun.busy_of_serving now
  have silent := accessed_of_silent busy.silent
  have step := devices_succ (r := r) k
  rw [Tracks]
  cases taken : r.path.handover k with
  | true =>
      have gone : r.path.serving (k + 1) = none :=
        outstanding_of_handover busy.silent taken
      rw [AxiRun.handover_eq, Bool.and_eq_true] at taken
      have at_ : (r.path.bridge k).state = .rsp := by
        simpa [AxiLiteM.rsp] using taken.1
      have done : r.due k = false := by rw [due, at_]
      have quiet := performs_none (r := r) (k := k) (by simp [at_])
        (by simp [at_]) (by simp [at_])
      rw [quiet, same, done] at step
      rw [gone, silent]
      exact step
  | false =>
      have stays : r.path.serving (k + 1) = some ((p, req), a) :=
        (outstanding_of_idle busy.silent taken).trans now
      rw [stays, silent]
      refine ⟨last, ?_⟩
      rcases advances now with ⟨before, after, quiet⟩ |
        ⟨before, after, performed, act, does⟩ | ⟨before, after, quiet⟩
      · rw [quiet, same, before] at step
        rw [after]
        exact step
      · rw [act, same, before] at step
        rw [after, if_neg Bool.false_ne_true, last, ← does]
        exact step
      · rw [quiet, same, before] at step
        rw [after]
        exact step

theorem tracks (r : AxiPlatformRun) (k : ℕ) : r.Tracks k := by
  induction k with
  | zero => exact AxiLiteSlave.devices_reset r.romInit r.ramInit r.mtimeInit
  | succ k inductionHypothesis =>
      unfold Tracks at inductionHypothesis
      cases now : r.path.serving k with
      | none =>
          rw [now] at inductionHypothesis
          exact tracks_succ_of_free now inductionHypothesis
      | some request =>
          obtain ⟨⟨p, req⟩, b⟩ := request
          rw [now] at inductionHypothesis
          obtain ⟨last, same⟩ := inductionHypothesis
          exact tracks_succ_of_busy now last same

/-- Between requests the devices are what the accesses make of them. -/
theorem devices_of_idle (free : r.path.serving k = none) :
    r.devices k = r.accessed k := by
  have tracked := tracks r k
  rw [Tracks, free] at tracked
  exact tracked

/-! ### Answers -/

theorem due_of_reads {addr : BitVec 32}
    (reads : (r.slave k).reads r.stallRate (r.slaveIn k) = some addr) :
    r.due k = true := by
  rw [due]
  cases at_ : (r.path.bridge k).state with
  | rdAddr | wrAddr => rfl
  | rdData =>
      rcases (r.coupled k).reading at_ with ⟨waits, -⟩ | ⟨offers, -, -⟩
      · rw [waits]
        rfl
      · rw [AxiLiteSlave.reads, offers] at reads
        cases reads
  | idle | wrResp | rsp =>
      rw [reads_none_of_ne (by simp [at_]) (by simp [at_])] at reads
      cases reads

/-- The pins have a value as long as a request is in service. -/
def HoldsPins (r : AxiPlatformRun) (p : Port) (req : BusReq) (a : ℕ)
    (pins : BitVec 32) : Prop :=
  ∀ k, r.path.serving k = some ((p, req), a) → (r.inputs k).gpioIn = pins

/-- The slave decodes the common blocks. -/
theorem respOf_of_common {addr : BitVec 32} (common : Common addr) :
    (AxiLiteSlave.respOf addr != 0) = false := by
  rw [← Bool.not_eq_true, AxiLiteSlave.respOf_iff]
  obtain ⟨-, clint, -, mmio⟩ :=
    AxiLiteSlave.windows_of_region (rfl : AxiLiteSlave.regionOf addr = _)
  intro unnamed
  rw [unnamed] at clint mmio
  have notClint := mt clint.mp (by simp)
  have notMmio := mt mmio.mp (by simp)
  rw [AxiLiteSlave.isClint_iff] at notClint
  rw [not_or, AxiLiteSlave.isMmio_iff] at notMmio
  obtain ⟨-, outside⟩ := notMmio
  rcases common with inside | inside | inside | inside | inside <;> omega

/-- The word of a read is what the devices hold after the accesses before. -/
theorem word_of_hasRead {pins : BitVec 32} (holds : r.HoldsPins p req a pins)
    (out : r.path.serving k = some ((p, req), a)) (common : Common req.addr)
    {word : BitVec 32} (read : r.HasRead k req.addr word) :
    word = (r.accessed a).answer pins req.addr := by
  obtain ⟨j, -, serves, reads, rfl⟩ := read
  rw [out] at serves
  have tracked := tracks r j
  rw [Tracks, serves] at tracked
  obtain ⟨-, same⟩ := tracked
  rw [due_of_reads reads, if_pos rfl] at same
  have sampled : (r.slaveIn j).gpioIn = pins := holds j serves
  have answers := AxiLiteSlave.memRead_of_common (s := r.slave j)
    (i := r.slaveIn j) (emitted (fun m => (r.slave m).sends) j) common
  rw [answers, sampled, ← same]
  rfl

/-- The response to a request to a device is that of its user's view. -/
theorem rsp_of_common (out : r.path.serving k = some ((p, req), a))
    (valid : (r.path.rsp k p).valid = true) (common : Common req.addr) :
    (r.path.rsp k p).err = false ∧
      (req.we = false → ∀ pins, r.HoldsPins p req a pins →
        (r.path.rsp k p).rdata = (r.accessed a).answer pins req.addr) := by
  constructor
  · rw [err_of_valid out valid, respOf_of_common common]
  · intro read pins holds
    obtain ⟨other, b, now, at_, offered⟩ := AxiRun.rsp_of_valid valid
    have access := ((r.coupled k).responding at_).access p req a out
    rw [read, if_neg Bool.false_ne_true,
      (AxiRun.busy_of_serving out).payload.1] at access
    rw [offered]
    exact word_of_hasRead holds out common access

end AxiPlatformRun

/-! ## Comparison -/

variable (r : DataPathRun) (x : AxiPlatformRun)

/-- The accesses of two cycles are both answered, with the same error flag and
for a read with the same word. -/
structure AnsweredAlike (p : Port) (req : BusReq) (a b : ℕ) : Prop where
  direct : ∃ k, r.request k = some (req, a) ∧ (r.rsp k).valid = true
  axi : ∃ l, x.path.serving l = some ((p, req), b) ∧
    (x.path.rsp l p).valid = true
  alike : ∀ k l, r.request k = some (req, a) → (r.rsp k).valid = true →
    x.path.serving l = some ((p, req), b) → (x.path.rsp l p).valid = true →
      (r.rsp k).err = (x.path.rsp l p).err ∧
        (req.we = false → (r.rsp k).rdata = (x.path.rsp l p).rdata)

/-- After the same accesses the devices of both platforms are the same, while
one is in service those of the slave are as before or as after it, and with the
same pins the next access is answered alike. -/
structure DevicesAlike : Prop where
  devices : ∀ k l, r.accesses k = x.accesses l →
    x.path.serving l = none → r.devices k = x.devices l
  between : ∀ k k' l request b, x.path.serving l = some (request, b) →
    r.accesses k = x.accesses b → r.accesses k' = x.accesses l →
      x.devices l = r.devices k ∨ x.devices l = r.devices k'
  answers : ∀ a b p req, r.accept a = some req →
    x.path.accept b = some (p, req) → namesDevice req.addr = true →
    r.accesses a = x.accesses b →
    x.HoldsPins p req b (r.inputs a).gpioIn → AnsweredAlike r x p req a b

variable {r x}

/-- Accesses one at a time to the blocks that both platforms have. -/
theorem devices_alike (one : r.OneAtATime) (common : r.OnCommon) :
    DevicesAlike r x := by
  have known {k l : ℕ} (same : r.accesses k = x.accesses l) :
      r.devices k = x.accessed l := by
    rw [DataPathRun.devices_eq common, same]
    rfl
  constructor
  case devices =>
    intro k l same free
    rw [known same, AxiPlatformRun.devices_of_idle free]
  case between =>
    rintro k k' l ⟨p, req⟩ b now before after
    have tracked := AxiPlatformRun.tracks x l
    rw [AxiPlatformRun.Tracks, now] at tracked
    obtain ⟨-, same⟩ := tracked
    rw [known before, known after, same]
    split_ifs
    · exact .inl rfl
    · exact .inr rfl
  case answers =>
    intro a b p req accepted accepted' names same holds
    have inside := common a req accepted names
    refine ⟨⟨a + 1, DataPathRun.request_of_accept accepted, ?_⟩, ?_, ?_⟩
    · exact (DataPathRun.rsp_of_names one common
        (DataPathRun.request_of_accept accepted) names).1
    · obtain ⟨l, out, valid, -⟩ := AxiPlatformRun.answers accepted'
      exact ⟨l, out, valid⟩
    · intro k l out valid out' valid'
      obtain ⟨-, err, word⟩ := DataPathRun.rsp_of_names one common out names
      obtain ⟨err', word'⟩ := AxiPlatformRun.rsp_of_common out' valid' inside
      refine ⟨err.trans err'.symm, fun read => ?_⟩
      rw [word read, word' read _ holds, known same]

/-- A load of the pins. -/
theorem devices_alike_gpioIn :
    DevicesAlike (.firstRequest ⟨0x10003008, false, 0, 0⟩)
      (.firstRequest ⟨0x10003008, false, 0, 0⟩) := by
  refine devices_alike ?_ ?_
  · intro k out
    cases k with
    | zero => exact absurd rfl out
    | succ k => rfl
  · intro k req accepted _
    obtain ⟨-, rfl⟩ := DataPathRun.accept_eq_some accepted
    have block : Common 0x10003008 := .inl ⟨by decide, by decide⟩
    exact block

end SisRv
