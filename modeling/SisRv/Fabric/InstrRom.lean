import SisRv.Fabric.Devices
import SisRv.Lib.Trajectory

/-!
# Fetches on the direct path

The instruction side of the direct path answers every fetch in the next cycle:
with a word of the instruction ROM, or with an error.
-/

namespace SisRv

open Sync

/-- A run of the instruction side of the direct path after reset. -/
structure InstrPathRun where
  romInit : BitVec 19 → BitVec 32
  inputs : ℕ → InstrPathIn

theorem iromSel_iff (addr : BitVec 32) :
    iromSel addr = true ↔ addr.toNat < 0x200000 := by
  have digit := field_beq_iff addr 21 11 0 (by decide)
  have bound := addr.isLt
  rw [iromSel]
  refine digit.trans ?_
  omega

namespace InstrPathRun

variable (r : InstrPathRun)

/-- The registers in cycle `k`. -/
def state : ℕ → InstrPath :=
  trajectory InstrPath.next (InstrPath.reset r.romInit) r.inputs

theorem state_succ (k : ℕ) :
    r.state (k + 1) = (r.state k).next (r.inputs k) := rfl

def rsp (k : ℕ) : SlaveRsp := (r.state k).rsp

/-- The address accepted in a cycle. -/
def accept (k : ℕ) : Option (BitVec 32) :=
  if (r.inputs k).reqValid && (r.state k).reqReady (r.inputs k) then
    some (r.inputs k).addr
  else none

/-- The response of a cycle is taken. -/
def handover (k : ℕ) : Bool := (r.rsp k).valid && (r.inputs k).rspReady

/-- The fetch without a response before a cycle and the cycle that accepted
it. -/
def request (k : ℕ) : Option (BitVec 32 × ℕ) :=
  outstanding r.accept r.handover k

/-- The master has at most one fetch outstanding. -/
def SingleRequest : Prop :=
  ∀ k, r.request k ≠ none → r.accept k ≠ none → r.handover k = true

/-- The fetch of cycle `a` has a word or an error as its response. -/
def Fetches (a : ℕ) (word : Option (BitVec 32)) : Prop :=
  ∃ addr k, r.request k = some (addr, a) ∧ (r.rsp k).valid = true ∧
    (if (r.rsp k).err then none else some (r.rsp k).rdata) = word

/-- The response to a fetch. -/
def answer (addr : BitVec 32) : SlaveRsp :=
  if iromSel addr then ⟨true, r.romInit (addr.extractLsb' 2 19), false⟩
  else ⟨true, 0xDEADBEEF, true⟩

/-- The registers belong to the outstanding fetch. -/
structure Consistent (k : ℕ) : Prop where
  mem : (r.state k).irom.mem = r.romInit
  idle : r.request k = none →
    (r.state k).iromBadPending = false ∧ (r.state k).irom.pending = false
  rom : ∀ addr a, r.request k = some (addr, a) → iromSel addr = true →
    (r.state k).iromBadPending = false ∧ (r.state k).irom.pending = true ∧
      (r.state k).irom.rdataReg = r.romInit (addr.extractLsb' 2 19)
  bad : ∀ addr a, r.request k = some (addr, a) → iromSel addr = false →
    (r.state k).iromBadPending = true ∧ (r.state k).irom.pending = false

variable {r} {k a : ℕ} {addr : BitVec 32}

theorem Consistent.of_none (mem : (r.state k).irom.mem = r.romInit)
    (silent : r.request k = none)
    (good : (r.state k).iromBadPending = false)
    (empty : (r.state k).irom.pending = false) : r.Consistent k where
  mem := mem
  idle := fun _ => ⟨good, empty⟩
  rom := fun _ _ asked => by
    rw [silent] at asked
    cases asked
  bad := fun _ _ asked => by
    rw [silent] at asked
    cases asked

theorem Consistent.of_some (mem : (r.state k).irom.mem = r.romInit)
    (asked : r.request k = some (addr, a))
    (rom : iromSel addr = true →
      (r.state k).iromBadPending = false ∧
        (r.state k).irom.pending = true ∧
        (r.state k).irom.rdataReg = r.romInit (addr.extractLsb' 2 19))
    (bad : iromSel addr = false →
      (r.state k).iromBadPending = true ∧
        (r.state k).irom.pending = false) : r.Consistent k where
  mem := mem
  idle := fun silent => by
    rw [asked] at silent
    cases silent
  rom := fun _ _ same => by
    rw [asked] at same
    obtain ⟨rfl, rfl⟩ := Prod.mk.inj (Option.some.inj same)
    exact rom
  bad := fun _ _ same => by
    rw [asked] at same
    obtain ⟨rfl, rfl⟩ := Prod.mk.inj (Option.some.inj same)
    exact bad

theorem Consistent.rsp_of_some (consistent : r.Consistent k)
    (out : r.request k = some (addr, a)) : r.rsp k = r.answer addr := by
  unfold rsp InstrPath.rsp answer
  cases sel : iromSel addr with
  | true =>
      obtain ⟨good, pending, word⟩ := consistent.rom addr a out sel
      simp [good, RomState.rsp, pending, word]
  | false =>
      obtain ⟨bad, -⟩ := consistent.bad addr a out sel
      simp [bad]

theorem Consistent.rsp_of_none (consistent : r.Consistent k)
    (silent : r.request k = none) : (r.rsp k).valid = false := by
  obtain ⟨good, empty⟩ := consistent.idle silent
  simp [rsp, InstrPath.rsp, RomState.rsp, good, empty]

/-- Nothing is left of an older fetch when another one is accepted. -/
theorem Consistent.cleared (consistent : r.Consistent k)
    (single : r.SingleRequest) (accepted : r.accept k = some addr) :
    ((r.state k).iromBadPending = true → (r.inputs k).rspReady = true) ∧
      ((r.state k).irom.pending = true →
        (r.inputs k).rspReady = true ∧
          (r.state k).iromBadPending = false) := by
  cases out : r.request k with
  | none =>
      obtain ⟨good, empty⟩ := consistent.idle out
      exact ⟨by simp [good], by simp [empty]⟩
  | some fetch =>
      obtain ⟨older, a⟩ := fetch
      have hands := single k (by simp [out]) (by simp [accepted])
      rw [handover, Bool.and_eq_true] at hands
      refine ⟨fun _ => hands.2, fun pending => ⟨hands.2, ?_⟩⟩
      cases sel : iromSel older with
      | true => exact (consistent.rom older a out sel).1
      | false =>
          rw [(consistent.bad older a out sel).2] at pending
          exact absurd pending Bool.false_ne_true

theorem Consistent.succ_of_accept (consistent : r.Consistent k)
    (single : r.SingleRequest) (accepted : r.accept k = some addr) :
    r.Consistent (k + 1) := by
  obtain ⟨badTaken, romTaken⟩ := consistent.cleared single accepted
  have asked : r.request (k + 1) = some (addr, k) :=
    outstanding_of_accept accepted
  unfold accept at accepted
  split_ifs at accepted with fires
  obtain rfl := Option.some.inj accepted
  rw [Bool.and_eq_true] at fires
  obtain ⟨valid, ready⟩ := fires
  have memory := consistent.mem
  cases sel : iromSel (r.inputs k).addr with
  | true =>
      have loads : (r.state k).irom.reqFire
          ((r.state k).iromIn (r.inputs k)) = true := by
        simpa [RomState.reqFire, InstrPath.iromIn, valid, sel,
          InstrPath.reqReady] using ready
      have irom : (r.state (k + 1)).irom =
          ⟨(r.state k).irom.mem,
            true, r.romInit ((r.inputs k).addr.extractLsb' 2 19)⟩ := by
        rw [state_succ, InstrPath.next, RomState.next, loads]
        simp [InstrPath.iromIn, RomState.answer, memory]
      have bad : (r.state (k + 1)).iromBadPending = false := by
        change (r.state k).iromBadPendingNext (r.inputs k) = false
        cases waits : (r.state k).iromBadPending with
        | false => simp [InstrPath.iromBadPendingNext, sel, waits]
        | true =>
            simp [InstrPath.iromBadPendingNext, sel, waits, InstrPath.rsp,
              badTaken waits]
      refine .of_some (by rw [irom]; exact memory) asked (fun _ => ?_)
        fun notRom => ?_
      · rw [irom]
        exact ⟨bad, rfl, rfl⟩
      · rw [sel] at notRom
        cases notRom
  | false =>
      have quiet : (r.state k).irom.reqFire
          ((r.state k).iromIn (r.inputs k)) = false := by
        simp [RomState.reqFire, InstrPath.iromIn, sel]
      have bad : (r.state (k + 1)).iromBadPending = true := by
        change (r.state k).iromBadPendingNext (r.inputs k) = true
        simp [InstrPath.iromBadPendingNext, valid, ready, sel]
      have irom : (r.state (k + 1)).irom.mem = r.romInit ∧
          (r.state (k + 1)).irom.pending = false := by
        rw [state_succ, InstrPath.next, RomState.next, quiet]
        cases waits : (r.state k).irom.pending with
        | false => simp [waits, memory]
        | true =>
            obtain ⟨taken, good⟩ := romTaken waits
            simp [InstrPath.iromIn, taken, good, memory]
      refine .of_some irom.1 asked (fun rom => ?_) fun _ => ⟨bad, irom.2⟩
      rw [sel] at rom
      cases rom

theorem Consistent.succ_of_silent (consistent : r.Consistent k)
    (silent : r.accept k = none) : r.Consistent (k + 1) := by
  have fires : ((r.inputs k).reqValid &&
      (r.state k).reqReady (r.inputs k)) = false := by
    unfold accept at silent
    split_ifs at silent with fires
    simpa using fires
  have quiet : (r.state k).irom.reqFire
      ((r.state k).iromIn (r.inputs k)) = false := by
    cases sel : iromSel (r.inputs k).addr with
    | false => simp [RomState.reqFire, InstrPath.iromIn, sel]
    | true =>
        simpa [RomState.reqFire, InstrPath.iromIn, sel,
          InstrPath.reqReady] using fires
  have bad : (r.state (k + 1)).iromBadPending =
      ((r.state k).iromBadPending && !r.handover k) := by
    change (r.state k).iromBadPendingNext (r.inputs k) = _
    rw [InstrPath.iromBadPendingNext, fires, Bool.false_and,
      if_neg Bool.false_ne_true]
    change (if r.handover k && (r.state k).iromBadPending then false
      else (r.state k).iromBadPending) = _
    cases r.handover k <;> cases (r.state k).iromBadPending <;> rfl
  have irom : (r.state (k + 1)).irom =
      if (r.state k).irom.pending &&
          ((r.inputs k).rspReady && !(r.state k).iromBadPending) then
        { (r.state k).irom with pending := false }
      else (r.state k).irom := by
    rw [state_succ, InstrPath.next, RomState.next, quiet, Bool.false_and,
      if_neg Bool.false_ne_true]
    rfl
  have mem : (r.state (k + 1)).irom.mem = r.romInit := by
    rw [irom, ← consistent.mem]
    split_ifs <;> rfl
  cases out : r.request k with
  | none =>
      obtain ⟨good, empty⟩ := consistent.idle out
      have idle : r.handover k = false := by
        rw [handover, consistent.rsp_of_none out, Bool.false_and]
      have same : r.request (k + 1) = none :=
        (outstanding_of_idle silent idle).trans out
      rw [empty, Bool.false_and, if_neg Bool.false_ne_true] at irom
      refine .of_none mem same ?_ (by rw [irom, empty])
      rw [bad, good, Bool.false_and]
  | some fetch =>
      obtain ⟨addr, a⟩ := fetch
      have offered : (r.rsp k).valid = true := by
        rw [consistent.rsp_of_some out, answer]
        split_ifs <;> rfl
      cases taken : r.handover k with
      | true =>
          have gone : r.request (k + 1) = none :=
            outstanding_of_handover silent taken
          have ready : (r.inputs k).rspReady = true := by
            rw [handover, offered, Bool.true_and] at taken
            exact taken
          refine .of_none mem gone ?_ ?_
          · rw [bad, taken, Bool.not_true, Bool.and_false]
          · rw [irom, ready, Bool.true_and]
            cases sel : iromSel addr with
            | true =>
                obtain ⟨good, pending, -⟩ := consistent.rom addr a out sel
                rw [good, pending]
                rfl
            | false =>
                obtain ⟨wrong, empty⟩ := consistent.bad addr a out sel
                rw [wrong, empty]
                exact empty
      | false =>
          have same : r.request (k + 1) = some (addr, a) :=
            (outstanding_of_idle silent taken).trans out
          have refused : (r.inputs k).rspReady = false := by
            rw [handover, offered, Bool.true_and] at taken
            exact taken
          rw [refused, Bool.false_and, Bool.and_false,
            if_neg Bool.false_ne_true] at irom
          rw [taken, Bool.not_false, Bool.and_true] at bad
          refine .of_some mem same (fun sel => ?_) fun sel => ?_
          · rw [bad, irom]
            exact consistent.rom addr a out sel
          · rw [bad, irom]
            exact consistent.bad addr a out sel

theorem Consistent.succ (consistent : r.Consistent k)
    (single : r.SingleRequest) : r.Consistent (k + 1) := by
  cases accepted : r.accept k with
  | none => exact consistent.succ_of_silent accepted
  | some addr => exact consistent.succ_of_accept single accepted

theorem consistent (single : r.SingleRequest) (k : ℕ) : r.Consistent k := by
  induction k with
  | zero =>
      exact .of_none rfl rfl rfl rfl
  | succ k inductionHypothesis => exact inductionHypothesis.succ single

theorem fetches_iff (single : r.SingleRequest)
    (accepted : r.accept a = some addr) (word : Option (BitVec 32)) :
    r.Fetches a word ↔
      word =
        if iromSel addr then some (r.romInit (addr.extractLsb' 2 19))
        else none := by
  have result {k : ℕ} (out : r.request k = some (addr, a)) :
      (r.rsp k).valid = true ∧
        (if (r.rsp k).err then none else some (r.rsp k).rdata) =
          if iromSel addr then some (r.romInit (addr.extractLsb' 2 19))
          else none := by
    rw [(consistent single k).rsp_of_some out, answer]
    split_ifs <;> simp_all
  constructor
  · rintro ⟨other, k, out, -, fetched⟩
    obtain rfl : addr = other :=
      Option.some.inj (accepted.symm.trans (accept_of_outstanding out))
    rw [← fetched]
    exact (result out).2
  · rintro rfl
    have out : r.request (a + 1) = some (addr, a) :=
      outstanding_of_accept accepted
    exact ⟨addr, a + 1, out, result out⟩

/-- One fetch after reset. -/
def firstFetch (addr : BitVec 32) : InstrPathRun where
  romInit := fun _ => 0x13
  inputs := fun k => ⟨k == 0, addr, true⟩

theorem singleRequest_firstFetch (addr : BitVec 32) :
    (firstFetch addr).SingleRequest := by
  intro k out accepted
  cases k with
  | zero => exact absurd rfl out
  | succ k => exact absurd rfl accepted

end InstrPathRun

end SisRv
