import SisRv.Fabric.DevicesAlike
import SisRv.Platform.Store

/-!
# The AXI slave as a store

The slave performs the requests of both ports one after the other.  Its RAM
and its devices are what the requests before the one in service make of them,
and a response is what the store returns.
-/

namespace SisRv

open Sync

/-- The windows of the map begin and end at words. -/
theorem addressMap_word (addr : BitVec 32) :
    addressMap (addr.extractLsb' 2 30 ++ 0#2 : BitVec 32) =
      addressMap addr := by
  have value : (addr.extractLsb' 2 30 ++ 0#2 : BitVec 32).toNat =
      addr.toNat / 4 * 4 := by
    have bound := addr.isLt
    rw [Core.toNat_word, BitVec.extractLsb'_toNat, Nat.shiftRight_eq_div_pow]
    omega
  unfold addressMap
  rw [value]
  generalize addr.toNat = a
  dsimp only
  split_ifs <;> first | rfl | omega

theorem namesDevice_word (addr : BitVec 32) :
    namesDevice (addr.extractLsb' 2 30 ++ 0#2 : BitVec 32) =
      namesDevice addr := by
  rw [namesDevice, addressMap_word, namesDevice]

namespace Store

variable (s : Store) {req : BusReq}

/-- The lanes of a read do not matter. -/
theorem access_of_read (read : req.we = false) :
    s.access ⟨req.addr, false, 0, 0⟩ = s.access req := by
  have ram : accessRam s.ram ⟨req.addr, false, 0, 0⟩ =
      accessRam s.ram req := by
    rw [accessRam, accessRam, read]
    simp
  rw [access, access, ram, AxiPlatformRun.access_of_read _ read]

end Store

/-! ## One cycle of the slave -/

namespace AxiLiteSlave

variable {s : AxiLiteSlave} {stallRate : ℤ} {i : AxiSlaveIn}

section Ram

variable (t : AxiLiteSlave)

theorem readStep_ram : (s.readStep stallRate i t).ram = t.ram := by
  unfold readStep
  cases s.rdState <;> dsimp only <;> split_ifs <;> rfl

theorem plicStep_ram : (s.plicStep stallRate i t).ram = t.ram := by
  unfold plicStep
  dsimp only
  split_ifs <;> rfl

theorem writeTohost_ram : (s.writeTohost t).ram = t.ram := by
  unfold writeTohost
  split_ifs <;> rfl

theorem writeClint_ram : (s.writeClint t).ram = t.ram := by
  unfold writeClint
  dsimp only
  split_ifs <;> rfl

theorem writeGpio_ram : (s.writeGpio t).ram = t.ram := by
  unfold writeGpio
  dsimp only
  split_ifs <;> rfl

theorem writeUart_ram : (s.writeUart t).ram = t.ram := by
  unfold writeUart
  dsimp only
  split_ifs <;> rfl

theorem writePlic_ram : (s.writePlic t).ram = t.ram := by
  unfold writePlic
  dsimp only
  cases PlicState.prioIndex 8 (plicRel s.wrAddrReg) <;> dsimp only <;>
    split_ifs <;> rfl

/-- A write in the window of the RAM is the only one that changes it. -/
theorem execWrite_ram (same : t.ram = s.ram) :
    (s.execWrite t).ram =
      Store.accessRam s.ram
        ⟨s.wrAddrReg, true, s.wrDataReg, s.wrStrbReg⟩ := by
  have window : addressMap s.wrAddrReg = some .ram ↔
      isRam s.wrAddrReg = true := by
    rw [ram_iff, isRam_iff]
  rw [execWrite, writePlic_ram, writeUart_ram, writeGpio_ram, writeClint_ram,
    writeTohost_ram, writeRam, Store.accessRam]
  by_cases inRam : isRam s.wrAddrReg = true
  · rw [if_pos inRam, if_pos ⟨window.mpr inRam, rfl⟩]
    rfl
  · rw [if_neg inRam, if_neg fun both => inRam (window.mp both.1), same]

theorem writeStep_ram (same : t.ram = s.ram) :
    (s.writeStep stallRate i t).ram =
      if s.wrState = .exec then
        Store.accessRam s.ram ⟨s.wrAddrReg, true, s.wrDataReg, s.wrStrbReg⟩
      else s.ram := by
  rw [← execWrite_ram t same]
  unfold writeStep
  cases s.wrState <;> dsimp only <;> split_ifs <;>
    first | rfl | exact same | contradiction

end Ram

/-- A cycle of the slave is an access to its RAM or leaves it. -/
theorem next_ram :
    (s.next stallRate i).ram =
      (s.performs stallRate i).elim s.ram (Store.accessRam s.ram) := by
  have step : (s.next stallRate i).ram =
      (s.plicStep stallRate i (s.readStep stallRate i
        (s.writeStep stallRate i (s.tick stallRate i)))).ram := rfl
  have same : (s.tick stallRate i).ram = s.ram := rfl
  rw [step, plicStep_ram, readStep_ram, writeStep_ram _ same, performs]
  by_cases exec : s.wrState = .exec
  · rw [if_pos exec, if_pos exec]
    rfl
  · rw [if_neg exec, if_neg exec]
    cases s.reads stallRate i <;> simp [Store.accessRam]

/-- Outside the regions a read returns the pattern of the error response. -/
theorem memRead_of_none {addr : BitVec 32}
    (unnamed : regionOf addr = none) : s.memRead i addr = 0xDEADBEEF := by
  unfold regionOf at unnamed
  split_ifs at unnamed with rom ram clint mmio plic
  simp only [Bool.or_eq_true, not_or] at mmio
  simp [memRead, rom, ram, clint, mmio, plic]

end AxiLiteSlave

/-! ## Runs -/

namespace AxiPlatformRun

variable (r : AxiPlatformRun)

/-- RAM and devices, with the bytes sent up to a cycle. -/
def store (k : ℕ) : Store := ⟨(r.slave k).ram, r.devices k⟩

/-- The requests accepted before a cycle, on either port. -/
def requests (k : ℕ) : List BusReq :=
  emitted (fun j => (r.path.accept j).map Prod.snd) k

variable {r} {k a : ℕ} {p : Port} {req : BusReq}

theorem store_succ (k : ℕ) :
    r.store (k + 1) = (r.performs k).elim (r.store k) (r.store k).access := by
  have ram : (r.slave (k + 1)).ram = _ := AxiLiteSlave.next_ram
  have devices := devices_succ (r := r) k
  apply Store.ext
  · refine ram.trans ?_
    show ((r.performs k).elim _ _ : BitVec 16 → BitVec 32) = _
    cases r.performs k <;> rfl
  · refine devices.trans ?_
    cases r.performs k <;> rfl

/-- The access of a cycle is the one in service. -/
theorem access_of_performs (now : r.path.serving k = some ((p, req), a))
    {performed : BusReq} (act : r.performs k = some performed) (s : Store) :
    s.access performed = s.access req := by
  have busy := AxiRun.busy_of_serving now
  obtain ⟨addr, data, strb⟩ := busy.payload
  have progress := busy.progress
  by_cases exec : (r.slave k).wrState = .exec
  · have at_ : (r.path.bridge k).state = .wrResp := by
      by_contra other
      exact wrState_ne_exec other exec
    rw [AxiRun.Progress, at_] at progress
    rcases (r.coupled k).written at_ with executes | ⟨place, -⟩
    · rw [performs, AxiLiteSlave.performs, if_pos exec, executes.addr,
        executes.data, executes.strb, addr, data, strb, ← progress.1] at act
      rw [← Option.some.inj act]
    · rcases place with waits | offers
      · rw [waits] at exec
        cases exec
      · rw [offers] at exec
        cases exec
  · rw [performs, AxiLiteSlave.performs, if_neg exec, Option.map_eq_some_iff]
      at act
    obtain ⟨word, reads, rfl⟩ := act
    have place : (r.path.bridge k).state = .rdAddr ∨
        (r.path.bridge k).state = .rdData := by
      by_contra other
      rw [not_or] at other
      rw [reads_none_of_ne other.1 other.2] at reads
      cases reads
    suffices both : req.we = false ∧ word = req.addr by
      rw [both.2]
      exact s.access_of_read both.1
    rcases place with at_ | at_
    · rw [AxiRun.Progress, at_] at progress
      refine ⟨progress.1, ?_⟩
      have idle := (r.coupled k).rdIdle (by simp [at_])
      rw [AxiLiteSlave.reads, idle] at reads
      dsimp only at reads
      split_ifs at reads
      rw [← Option.some.inj reads, (slaveIn_payload k).1, addr]
    · rw [AxiRun.Progress, at_] at progress
      refine ⟨progress.1, ?_⟩
      rw [AxiLiteSlave.reads] at reads
      rcases (r.coupled k).reading at_ with ⟨waits, held⟩ | ⟨offers, -, -⟩
      · rw [waits] at reads
        dsimp only at reads
        split_ifs at reads
        rw [← Option.some.inj reads, held, addr]
      · rw [offers] at reads
        cases reads

/-! ### The store and the requests -/

/-- The store after the requests that were accepted before a cycle. -/
def requested (r : AxiPlatformRun) (k : ℕ) : Store :=
  (Store.reset r.ramInit).after (r.requests k)

theorem requested_of_accept (accepted : r.path.accept k = some (p, req)) :
    r.requested (k + 1) = (r.requested k).access req := by
  rw [requested, requests, emitted, accepted]
  exact Store.after_concat _ _ _

theorem requested_of_silent (silent : r.path.accept k = none) :
    r.requested (k + 1) = r.requested k := by
  rw [requested, requests, emitted, silent]
  exact congrArg _ (List.append_nil _)

/-- The store is that of the requests, without the one in service while it is
due. -/
structure Stored (r : AxiPlatformRun) (k : ℕ) : Prop where
  free : r.path.serving k = none → r.store k = r.requested k
  busy : ∀ p req a, r.path.serving k = some ((p, req), a) →
    r.requested k = (r.requested a).access req ∧
      r.store k = if r.due k then r.requested a else r.requested k

theorem Stored.succ_of_free (stored : r.Stored k)
    (now : r.path.serving k = none) : r.Stored (k + 1) := by
  have serves := r.path.serves k
  rw [AxiRun.Serves, now] at serves
  have free : r.path.Free k := serves
  have quiet := performs_none (r := r) (k := k) (by simp [free.idle])
    (by simp [free.idle]) (by simp [free.idle])
  have kept : r.store (k + 1) = r.requested k := by
    rw [store_succ, quiet, ← stored.free now]
    rfl
  cases accepted : r.path.accept k with
  | none =>
      have still : r.path.serving (k + 1) = none :=
        (outstanding_of_idle accepted free.not_handover).trans now
      refine ⟨fun _ => kept.trans (requested_of_silent accepted).symm, ?_⟩
      intro p req a out
      rw [still] at out
      cases out
  | some tag =>
      obtain ⟨q, other⟩ := tag
      have asked : r.path.serving (k + 1) = some ((q, other), k) :=
        outstanding_of_accept accepted
      constructor
      · intro none
        rw [asked] at none
        cases none
      · intro p req a out
        rw [asked] at out
        cases out
        refine ⟨requested_of_accept accepted, ?_⟩
        rw [due_of_accept free accepted, if_pos rfl]
        exact kept

theorem Stored.succ_of_busy (stored : r.Stored k)
    (now : r.path.serving k = some ((p, req), a)) : r.Stored (k + 1) := by
  obtain ⟨last, same⟩ := stored.busy p req a now
  have busy := AxiRun.busy_of_serving now
  have silent := requested_of_silent busy.silent
  have step := store_succ (r := r) k
  cases taken : r.path.handover k with
  | true =>
      have gone : r.path.serving (k + 1) = none :=
        outstanding_of_handover busy.silent taken
      rw [AxiRun.handover_eq, Bool.and_eq_true] at taken
      have at_ : (r.path.bridge k).state = .rsp := by
        simpa [AxiLiteM.rsp] using taken.1
      have done : r.due k = false := by rw [due, at_]
      have quiet := performs_none (r := r) (k := k) (by simp [at_])
        (by simp [at_]) (by simp [at_])
      rw [quiet, same, done] at step
      refine ⟨fun _ => step.trans silent.symm, ?_⟩
      intro p req a out
      rw [gone] at out
      cases out
  | false =>
      have stays : r.path.serving (k + 1) = some ((p, req), a) :=
        (outstanding_of_idle busy.silent taken).trans now
      constructor
      · intro none
        rw [stays] at none
        cases none
      · intro q other b out
        rw [stays] at out
        cases out
        refine ⟨silent.trans last, ?_⟩
        rw [silent]
        rcases advances now with ⟨before, after, quiet⟩ |
          ⟨before, after, performed, act, -⟩ | ⟨before, after, quiet⟩
        · rw [quiet, same, before] at step
          rw [after]
          exact step
        · rw [act, same, before] at step
          rw [after, if_neg Bool.false_ne_true, last,
            ← access_of_performs now act]
          exact step
        · rw [quiet, same, before] at step
          rw [after]
          exact step

theorem stored (r : AxiPlatformRun) (k : ℕ) : r.Stored k := by
  induction k with
  | zero =>
      have devices : r.devices 0 = DeviceState.reset :=
        AxiLiteSlave.devices_reset r.romInit r.ramInit r.mtimeInit
      have slave : r.slave 0 =
        AxiLiteSlave.reset r.romInit r.ramInit r.mtimeInit := rfl
      have before : r.requests 0 = [] := rfl
      constructor
      · intro _
        rw [requested, before, store, devices, slave]
        rfl
      · rintro p req a ⟨⟩
  | succ k inductionHypothesis =>
      cases now : r.path.serving k with
      | none => exact inductionHypothesis.succ_of_free now
      | some request => exact inductionHypothesis.succ_of_busy now

/-! ### Responses -/

/-- The slave has a region exactly for the addresses of the map, on regular
accesses. -/
theorem regionOf_of_regular (fine : req.Regular) :
    AxiLiteSlave.regionOf req.addr =
      (addressMap req.addr).map Device.region := by
  apply AxiLiteSlave.regionOf_eq
  intro beyond
  have rom := addressMap_of_beyond beyond
  rw [BusReq.Regular, rom] at fine
  exact absurd fine.2 (Nat.not_lt_of_le beyond.1)

/-- A regular read returns what the store holds. -/
theorem memRead_of_regular (fine : req.Regular) {pins : BitVec 32}
    (held : (r.inputs k).gpioIn = pins) :
    (r.slave k).memRead (r.slaveIn k) req.addr =
      (r.store k).read r.romInit pins req.addr := by
  have region := regionOf_of_regular fine
  have rom := rom_eq (r := r) k
  rw [Store.read]
  unfold BusReq.Regular at fine
  cases named : addressMap req.addr with
  | none =>
      rw [named] at region
      exact AxiLiteSlave.memRead_of_none region
  | some d =>
      rw [named] at fine region
      cases d with
      | rom =>
          rw [AxiLiteSlave.memRead_of_region _ _ region]
          exact congrFun rom _
      | ram =>
          rw [AxiLiteSlave.memRead_of_region _ _ region]
          rfl
      | plic => exact fine.elim
      | tohost | gpio | uart | clint =>
          rw [AxiLiteSlave.memRead_of_common
            (emitted (fun m => (r.slave m).sends) k) fine, ← held]
          rfl

/-- The response to a regular request is that of the store before it. -/
theorem rsp_of_regular (out : r.path.serving k = some ((p, req), a))
    (valid : (r.path.rsp k p).valid = true) (fine : req.Regular) :
    (r.path.rsp k p).err = (addressMap req.addr).isNone ∧
      (req.we = false → ∀ pins, r.HoldsPins p req a pins →
        (r.path.rsp k p).rdata =
          (r.requested a).read r.romInit pins req.addr) := by
  constructor
  · rw [err_of_valid out valid, Bool.eq_iff_iff, AxiLiteSlave.respOf_iff,
      regionOf_of_regular fine, Option.map_eq_none_iff,
      Option.isNone_iff_eq_none]
  · intro read pins holds
    obtain ⟨other, b, now, at_, offered⟩ := AxiRun.rsp_of_valid valid
    have access := ((r.coupled k).responding at_).access p req a out
    rw [read, if_neg Bool.false_ne_true,
      (AxiRun.busy_of_serving out).payload.1] at access
    obtain ⟨j, -, serves, reads, word⟩ := access
    have due := due_of_reads reads
    have store := ((stored r j).busy p req a (serves.trans out)).2
    rw [due, if_pos rfl] at store
    rw [offered, ← store,
      ← memRead_of_regular fine (holds j (serves.trans out))]
    exact word

end AxiPlatformRun

end SisRv
