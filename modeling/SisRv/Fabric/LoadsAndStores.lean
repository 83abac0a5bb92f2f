import SisRv.Fabric.RamBytes
import SisRv.Fabric.Responses

/-!
# Loads and stores through the router

The core with the data path on its data port.  Loads and stores that name the
RAM see it as a byte memory.
-/

namespace SisRv

open Sync Riscv Fabric

namespace Core

variable {p : Params} {s : Core p} {i : CoreIn}

/-- EX waits for the answer to a request that has just been accepted, or goes
on waiting, and it keeps the request on its port. -/
theorem waits_cases (sound : s.ExSound)
    (waits : (s.step i).dRspReady = true) :
    (s.step i).dReq = s.dReq ∧
      (s.dataReqFire i = true ∨
        s.dRspReady = true ∧ s.dataRspFire i = false) := by
  simp only [dRspReady, Bool.and_eq_true, Bool.or_eq_true, beq_iff_eq]
    at waits
  obtain ⟨still, phase⟩ := waits
  have later : (s.step i).ex.state ≠ .exExec := by
    rcases phase with wait | wait <;> rw [wait] <;> decide
  cases s.exCycle i with
  | issued _ next =>
      rw [step_ex, next] at later
      exact absurd rfl later
  | emptied _ empty =>
      rw [step_ex, empty] at still
      exact absurd still (by decide)
  | accesses quiet _ valid first access next =>
      have same : SameInstr (s.step i).ex s.ex := exNext_sameInstr s i quiet
      have fire : s.dataReqFire i = true := by
        by_contra refused
        simp [next, refused] at phase
      have result := exExecResult_of_access (sound.coherent valid)
        (isAccess_of_exMemAccess access)
      refine ⟨dReq_congr same ?_ ?_ ?_, Or.inl fire⟩
      · simp [exMemReqAddr, next, first, access, fire, result]
      · simp only [amoStorePhase, step_ex, next, first, fire]
        rfl
      · exact amoOldVal_of_silent (not_atomicRspOk_of_state (by simp [first]))
  | waits quiet _ valid later' _ state rdata err next clean move =>
      have same : SameInstr (s.step i).ex s.ex := exNext_sameInstr s i quiet
      have address : (s.step i).exMemReqAddr = s.exMemReqAddr := by
        have target := later
        rw [step_ex, next] at target
        simp [exMemReqAddr, next, later', target]
      rw [step_ex, next] at phase
      cases move with
      | stays noReq noRsp =>
          refine ⟨dReq_congr same address ?_ ?_, Or.inr ⟨?_, noRsp⟩⟩
          · simp [amoStorePhase, next]
          · exact amoOldVal_of_silent (by simp [atomicRspOk, noRsp])
          · simpa [dRspReady, valid] using phase
      | accepted requesting fire =>
          refine ⟨dReq_congr same address ?_ ?_, Or.inl fire⟩
          · simp only [amoStorePhase, step_ex, next, requesting]
            rfl
          · exact amoOldVal_of_silent
              (not_atomicRspOk_of_state (by simp [requesting]))
      | amoRead => simp at phase
      | amoAccepted requesting fire =>
          refine ⟨dReq_congr same address ?_ ?_, Or.inl fire⟩
          · simp only [amoStorePhase, step_ex, next, requesting]
            rfl
          · exact amoOldVal_of_silent
              (not_atomicRspOk_of_state (by simp [requesting]))

end Core

/-- The registers of the core and of the data path. -/
structure MemPlatform (p : Params) where
  core : Core p
  path : DataPath

/-- The pins of the core and of the data path.  The data port of the core is
driven by the data path. -/
structure MemIn where
  ports : CoreIn := {}
  gpioIn : BitVec 32 := 0
  irqSrc : Fin 8 → Bool := fun _ => false

namespace MemPlatform

variable {p : Params} (s : MemPlatform p) (i : MemIn)

def pathIn : DataPathIn where
  reqValid := s.core.dReqValid
  req := s.core.dReq
  rspReady := s.core.dRspReady
  gpioIn := i.gpioIn
  irqSrc := i.irqSrc

def coreIn : CoreIn :=
  { i.ports with
    dReqReady := s.path.mReqReady (s.pathIn i)
    dRspValid := s.path.mRsp.valid
    dRspRdata := s.path.mRsp.rdata
    dRspErr := s.path.mRsp.err }

/-- One clock edge. -/
def next : MemPlatform p :=
  { core := s.core.step (s.coreIn i)
    path := s.path.next (s.pathIn i) }

end MemPlatform

/-- A run of both after reset. -/
structure MemRun (p : Params) where
  power : PowerOn
  romInit : BitVec 19 → BitVec 32
  ramInit : BitVec 16 → BitVec 32
  inputs : ℕ → MemIn

namespace MemRun

variable {p : Params} (r : MemRun p)

/-- The registers in cycle `n`. -/
def state : ℕ → MemPlatform p :=
  trajectory MemPlatform.next
    ⟨Core.reset p r.power, DataPath.reset r.romInit r.ramInit⟩ r.inputs

/-- The run of the core. -/
def core : Run p :=
  ⟨r.power, fun n => (r.state n).coreIn (r.inputs n)⟩

def path (n : ℕ) : DataPath := (r.state n).path

def ram (n : ℕ) : RamState := (r.path n).ram

/-- The bytes last stored before cycle `n`, initially those of the RAM. -/
def memory (n : ℕ) : BitVec 32 → BitVec 8 :=
  ByteMemory.after (RamState.reset r.ramInit).byte BusReq.stored
    (r.core.asked n)

/-- Every request that the data path accepts before cycle `n` names the
RAM. -/
def NamesRam (n : ℕ) : Prop :=
  ∀ req ∈ r.core.asked n, addressMap req.addr = some .ram

/-- The router points at the RAM, which has the word for the request that EX
waits for. -/
structure Sound (n : ℕ) : Prop where
  slave : (r.path n).hasPending = true → (r.path n).activeSlave = 1
  pending : (r.path n).hasPending = (r.ram n).pending
  waits : (r.core.state n).dRspReady = true → (r.path n).hasPending = true
  read : (r.core.state n).dRspReady = true →
    (r.core.state n).dReqWe = false →
    (r.ram n).rdataReg = (r.ram n).answer (r.core.state n).dReq
  contents : ∀ a, addressMap a = some .ram →
    (r.ram n).byte a = r.memory n a

/-- Before cycle `N` the RAM is a byte memory for the loads and stores that
leave EX without an exception. -/
structure IsByteMemory (N : ℕ) : Prop where
  contents : ∀ n ≤ N, ∀ a, addressMap a = some .ram →
    (r.ram n).byte a = r.memory n a
  load : ∀ {n x : ℕ} {op : LoadOp} {rd rs1 : BitVec 5} {imm : BitVec 12},
    x < N → r.core.LeavesAt n x →
    (r.core.state n).ex.state = .exExec →
    (r.core.state x).exException (r.core.inputs x) = false →
    (r.core.state n).ex.instr = (Base.load op rd rs1 imm).encode →
    r.memory (x + 1) = r.memory n ∧
      ∀ j rf, (r.core.state (x + 1)).wbWrite j rf =
        if rd = 0 then rf
        else Function.update rf rd (op.value (r.memory n)
          (moved (r.core.state n).ex.rs1Val imm.toInt))
  store : ∀ {n x : ℕ} {op : StoreOp} {rs1 rs2 : BitVec 5} {imm : BitVec 12},
    x < N → r.core.LeavesAt n x →
    (r.core.state n).ex.state = .exExec →
    (r.core.state x).exException (r.core.inputs x) = false →
    (r.core.state n).ex.instr = (Base.store op rs1 rs2 imm).encode →
    r.memory (x + 1) =
      ByteMemory.write (r.memory n)
        (moved (r.core.state n).ex.rs1Val imm.toInt)
        (op.bytes (r.core.state n).ex.rs2Val)

variable {r} {n : ℕ}

theorem core_state (n : ℕ) : r.core.state n = (r.state n).core := by
  induction n with
  | zero => rfl
  | succ n inductionHypothesis =>
      rw [Run.state_succ, inductionHypothesis]
      rfl

theorem path_succ (n : ℕ) :
    r.path (n + 1) = (r.path n).next ((r.state n).pathIn (r.inputs n)) := rfl

theorem sound_zero (r : MemRun p) : r.Sound 0 where
  slave := fun bad => absurd bad Bool.false_ne_true
  pending := rfl
  waits := fun bad => absurd bad (by
    simp [Run.state_zero, Core.reset, ExRegs.reset, Core.dRspReady])
  read := fun bad => absurd bad (by
    simp [Run.state_zero, Core.reset, ExRegs.reset, Core.dRspReady])
  contents := fun _ _ => rfl

section Step

/-- The data path accepts what the core requests. -/
theorem accepts_eq (n : ℕ) :
    (r.path n).accepts ((r.state n).pathIn (r.inputs n)) =
      (r.core.state n).dataReqFire (r.core.inputs n) := by
  rw [core_state]
  rfl

/-- The data path hands over what the core takes. -/
theorem handsOver_eq (n : ℕ) :
    (r.path n).handsOver ((r.state n).pathIn (r.inputs n)) =
      (r.core.state n).dataRspFire (r.core.inputs n) := by
  rw [core_state]
  rfl

/-- The port of the RAM. -/
def ramIn (r : MemRun p) (n : ℕ) : SlaveIn :=
  (r.path n).ramIn ((r.state n).pathIn (r.inputs n))

theorem ram_succ (n : ℕ) : r.ram (n + 1) = (r.ram n).next (r.ramIn n) := rfl

theorem ramIn_req (n : ℕ) : (r.ramIn n).req = (r.core.state n).dReq := by
  rw [core_state]
  rfl

theorem ramFire_eq (n : ℕ) :
    (r.ram n).reqFire (r.ramIn n) =
      ((r.core.state n).dataReqFire (r.core.inputs n) &&
        decide (addressMap (r.core.state n).dReq.addr = some .ram)) := by
  rw [← accepts_eq, ← ramIn_req]
  exact DataPath.fires_eq _ _ .ram

variable (sound : r.Sound n)
include sound

/-- The answer on the port is the one of the RAM. -/
theorem Sound.rsp (waits : (r.core.state n).dRspReady = true) :
    (r.path n).mRsp = ⟨true, (r.ram n).rdataReg, false⟩ := by
  have busy := sound.waits waits
  have full : (r.ram n).pending = true := by rw [← sound.pending, busy]
  rw [DataPath.mRsp, sound.slave busy, if_neg (by decide), if_pos rfl]
  show (r.ram n).rsp = _
  rw [RamState.rsp, full]

/-- A cycle that accepts a request. -/
theorem Sound.succ_of_fire
    (fire : (r.core.state n).dataReqFire (r.core.inputs n) = true)
    (names : addressMap (r.core.state n).dReq.addr = some .ram) :
    r.Sound (n + 1) := by
  have ramFire : (r.ram n).reqFire (r.ramIn n) = true := by
    rw [ramFire_eq, fire, names, decide_eq_true rfl, Bool.and_self]
  have quiet : (r.core.state n).dRspReady = false := by
    by_contra waits
    rw [Core.not_reqFire_of_rspReady (by simpa using waits)] at fire
    exact Bool.false_ne_true fire
  have free : (r.path n).hasPending = false := by
    have ready := ramFire
    have closed : (r.ramIn n).rspReady = false := by
      simp [ramIn, DataPath.ramIn, DataPath.slaveIn, MemPlatform.pathIn,
        ← core_state, quiet]
    simp only [RamState.reqFire, RamState.reqReady, slaveReqReady, closed,
      Bool.and_eq_true, Bool.or_false, Bool.not_eq_true'] at ready
    rw [sound.pending, ready.2]
  have accepts := (accepts_eq (r := r) n).trans fire
  have points : slaveSelect (r.core.state n).dReq = 1 := by
    rw [addressMap_eq] at names
    exact DataPath.slave_of_selectDevice names
  have next : r.ram (n + 1) =
      { mem := if (r.core.state n).dReq.we then
          (r.ram n).write (r.core.state n).dReq else (r.ram n).mem
        pending := true
        rdataReg := (r.ram n).answer (r.core.state n).dReq } := by
    rw [ram_succ, RamState.next, if_pos ramFire, ramIn_req]
  have pending : (r.path (n + 1)).hasPending = true := by
    rw [path_succ]
    show (r.path n).hasPendingNext _ = true
    rw [DataPath.hasPendingNext, accepts, free]
    rfl
  refine ⟨fun _ => ?_, ?_, fun _ => pending, fun waits reads => ?_, ?_⟩
  · rw [path_succ]
    show (r.path n).activeSlaveNext _ = 1
    rw [DataPath.activeSlaveNext, accepts, free, ← points, core_state]
    rfl
  · rw [pending, next]
  · obtain ⟨same, -⟩ := Core.waits_cases (r.core.exSound n) waits
    have before : (r.core.state n).dReq.we = false := by
      rw [← same]
      exact reads
    rw [r.core.state_succ, same, next, before]
    rfl
  · intro a inRam
    rw [ram_succ, RamState.byte_next _ inRam (by
      rw [ramIn_req]
      exact fun _ => names), if_pos ramFire, ramIn_req, memory,
      Run.asked_of_fire fire, ByteMemory.after_concat,
      sound.contents a inRam, memory]

/-- A cycle that accepts none takes the answer that EX waits for. -/
theorem Sound.succ_of_silence
    (silent : (r.core.state n).dataReqFire (r.core.inputs n) = false) :
    r.Sound (n + 1) := by
  have ramSilent : ¬ (r.ram n).reqFire (r.ramIn n) = true := by
    rw [ramFire_eq, silent, Bool.false_and]
    exact Bool.false_ne_true
  have accepts := (accepts_eq (r := r) n).trans silent
  have takes : (r.path n).handsOver ((r.state n).pathIn (r.inputs n)) =
      (r.core.state n).dRspReady := by
    rw [handsOver_eq]
    show ((r.path n).mRsp.valid && _) = _
    cases waits : (r.core.state n).dRspReady with
    | true => rw [sound.rsp waits, Bool.and_self]
    | false => rw [Bool.and_false]
  have idle : ¬ (r.core.state (n + 1)).dRspReady = true := by
    intro waits
    obtain ⟨-, fire | ⟨before, noRsp⟩⟩ :=
      Core.waits_cases (r.core.exSound n) waits
    · rw [silent] at fire
      exact Bool.false_ne_true fire
    · rw [← handsOver_eq, takes, before] at noRsp
      exact Bool.false_ne_true noRsp.symm
  have pending : (r.path (n + 1)).hasPending =
      ((r.path n).hasPending && !(r.core.state n).dRspReady) := by
    rw [path_succ]
    show (r.path n).hasPendingNext _ = _
    rw [DataPath.hasPendingNext, accepts, takes]
    cases (r.path n).hasPending <;> cases (r.core.state n).dRspReady <;> rfl
  refine ⟨fun busy => ?_, ?_, fun waits => absurd waits idle,
    fun waits => absurd waits idle, fun a inRam => ?_⟩
  · rw [pending, Bool.and_eq_true] at busy
    rw [path_succ]
    show (r.path n).activeSlaveNext _ = _
    rw [DataPath.activeSlaveNext, accepts]
    exact sound.slave busy.1
  · have ready : ((r.ram n).pending && (r.ramIn n).rspReady) =
        ((r.ram n).pending && (r.core.state n).dRspReady) := by
      rw [← sound.pending]
      cases busy : (r.path n).hasPending with
      | false => rfl
      | true =>
          simp [ramIn, DataPath.ramIn, DataPath.slaveIn, MemPlatform.pathIn,
            ← core_state, sound.slave busy]
    rw [pending, sound.pending, ram_succ, RamState.next, if_neg ramSilent,
      ready]
    cases full : (r.ram n).pending <;>
      cases (r.core.state n).dRspReady <;> simp [full]
  · rw [ram_succ, RamState.byte_next _ inRam (fun fire =>
      absurd fire ramSilent), if_neg ramSilent, sound.contents a inRam,
      memory, memory, Run.asked_of_silence silent]

end Step

theorem NamesRam.mono {m : ℕ} (names : r.NamesRam n) (below : m ≤ n) :
    r.NamesRam m := by
  induction n, below using Nat.le_induction with
  | base => exact names
  | succ n below inductionHypothesis =>
      refine inductionHypothesis fun req asked => names req ?_
      rw [Run.asked, emitted]
      exact List.mem_append_left _ asked

theorem sound (names : r.NamesRam n) : r.Sound n := by
  induction n with
  | zero => exact sound_zero r
  | succ n inductionHypothesis =>
      have before := inductionHypothesis (names.mono (Nat.le_succ n))
      cases fire : (r.core.state n).dataReqFire (r.core.inputs n) with
      | true =>
          refine before.succ_of_fire fire (names _ ?_)
          rw [Run.asked_of_fire fire]
          exact List.mem_append_right _ (List.mem_singleton_self _)
      | false => exact before.succ_of_silence fire

/-! ## One load and one store -/

section Access

variable {x : ℕ} (stay : r.core.LeavesAt n x)
  (first : (r.core.state n).ex.state = .exExec)
  (normal : (r.core.state x).exException (r.core.inputs x) = false)
include stay first normal

section Load

variable {op : LoadOp} {rd rs1 : BitVec 5} {imm : BitVec 12}
  (word : (r.core.state n).ex.instr = (Base.load op rd rs1 imm).encode)
include word

/-- A load has asked for the word at its address, which is aligned, and waits
for it. -/
theorem load_waits :
    n < x ∧ (r.core.state x).dRspReady = true ∧
      (r.core.state x).ex.state = .exMemWait ∧
      (r.core.state x).ex.memAddrReg =
        moved (r.core.state n).ex.rs1Val imm.toInt ∧
      r.core.asked (x + 1) =
        r.core.asked n ++ [(r.core.state n).dReq] ∧
      (r.core.state n).dReq.addr =
        moved (r.core.state n).ex.rs1Val imm.toInt ∧
      (r.core.state n).dReq.we = false ∧
      isMemMisaligned (moved (r.core.state n).ex.rs1Val imm.toInt)
        op.funct3 = false := by
  have decoded := (r.core.exSound n).decoded (stay.valid le_rfl stay.le)
  rw [word] at decoded
  obtain ⟨load, notStore, notAtomic, -, funct3, -, address⟩ :=
    Core.load_of_word decoded
  have access := stay.access_of_normal first
    (by simp [Core.exDAccessRaw, load]) normal
  obtain ⟨later, ex, asks, -⟩ := stay.of_single first access
    (by simp [Core.exIsAmoOp, notAtomic])
  have state : (r.core.state x).ex.state = .exMemWait := by rw [ex]; rfl
  have aligned := Core.aligned_of_exMemAccess access
  rw [Core.exMemAligned, address, funct3, Bool.not_eq_true'] at aligned
  refine ⟨later, ?_, state, ?_, asks, ?_, ?_, aligned⟩
  · simp [Core.dRspReady, state, Core.valid_of_leave stay.leaves]
  · rw [ex, ← address]
    rfl
  · simp [Core.dReq, Core.dReqAddr, Core.exMemReqAddr, first, access, address]
  · simp [Core.dReq, Core.dReqWe, notAtomic, notStore]

/-- The memory is the same at the end of a load. -/
theorem memory_of_load :
    r.memory (x + 1) = r.memory n ∧ r.memory x = r.memory n := by
  obtain ⟨-, waits, -, -, asks, -, reads, -⟩ :=
    load_waits stay first normal word
  have unchanged : r.memory (x + 1) = r.memory n := by
    funext a
    rw [memory, asks, ByteMemory.after_concat]
    simp [BusReq.stored, reads, memory]
  refine ⟨unchanged, ?_⟩
  rw [← unchanged, memory, memory,
    Run.asked_of_silence (Core.not_reqFire_of_rspReady waits)]

/-- The answer is the word of the RAM. -/
theorem read_of_load (names : r.NamesRam x) :
    (r.core.inputs x).dRspRdata =
      (r.ram x).mem
        ((moved (r.core.state n).ex.rs1Val imm.toInt).extractLsb' 2 16) := by
  obtain ⟨-, waits, state, latched, -⟩ := load_waits stay first normal word
  have decoded := (r.core.exSound n).decoded (stay.valid le_rfl stay.le)
  rw [word] at decoded
  obtain ⟨-, notStore, notAtomic, -⟩ := Core.load_of_word decoded
  have launched := (r.core.exSound x).launched
    (Core.valid_of_leave stay.leaves) (by rw [state]; decide)
  have sound := MemRun.sound names
  have answer := sound.read waits (by
    simp [Core.dReqWe, stay.same.toDecoded, notAtomic, notStore])
  have port : (r.core.inputs x).dRspRdata = (r.ram x).rdataReg :=
    congrArg SlaveRsp.rdata (sound.rsp waits)
  have target : (r.core.state x).exMemReqAddr =
      (r.core.state x).ex.memAddrReg := by
    rw [launched.memAddr, ← launched.address]
    simp [Core.exMemReqAddr, state]
  rw [port, answer, RamState.answer, RamState.wordIndex, ← latched, ← target]
  rfl

/-- A plain load changes nothing and gets its value from the bytes last
stored. -/
theorem load_right (names : r.NamesRam (x + 1)) :
    r.memory (x + 1) = r.memory n ∧
      ∀ j rf, (r.core.state (x + 1)).wbWrite j rf =
        if rd = 0 then rf
        else Function.update rf rd (op.value (r.memory n)
          (moved (r.core.state n).ex.rs1Val imm.toInt)) := by
  obtain ⟨later, -, state, latched, asks, target, -, aligned⟩ :=
    load_waits stay first normal word
  obtain ⟨unchanged, same⟩ := memory_of_load stay first normal word
  have before : r.NamesRam x := names.mono (Nat.le_succ x)
  have read := read_of_load stay first normal word before
  have decoded := (r.core.exSound n).decoded (stay.valid le_rfl stay.le)
  rw [word] at decoded
  obtain ⟨load, -, -, -, funct3, dest, -⟩ := Core.load_of_word decoded
  have inRam := names (r.core.state n).dReq (by
    rw [asks]
    exact List.mem_append_right _ (List.mem_singleton_self _))
  refine ⟨unchanged, fun j rf => ?_⟩
  rw [r.core.state_succ, Core.wbWrite_of_load stay.leaves (stay.goes later)
    normal (by rw [stay.same.toDecoded, load]), stay.same.toDecoded, dest,
    Core.wbLoadResult_of_leave (r.ram x) stay.leaves (stay.goes later) state
      (by rw [stay.same.toDecoded, funct3]) (by rw [latched, aligned])
      (by rw [latched, read]),
    latched]
  rw [LoadOp.value_congr fun k below => ?_]
  rw [(MemRun.sound before).contents _ (ram_add (target ▸ inRam) ?_), same]
  have fits := lane_add_size aligned
  omega

end Load

theorem store_right {op : StoreOp} {rs1 rs2 : BitVec 5} {imm : BitVec 12}
    (word : (r.core.state n).ex.instr =
      (Base.store op rs1 rs2 imm).encode) :
    r.memory (x + 1) =
      ByteMemory.write (r.memory n)
        (moved (r.core.state n).ex.rs1Val imm.toInt)
        (op.bytes (r.core.state n).ex.rs2Val) := by
  have valid := stay.valid le_rfl stay.le
  have decoded := (r.core.exSound n).decoded valid
  rw [word] at decoded
  obtain ⟨store, other, funct3, address⟩ := Core.store_of_word decoded
  have access := stay.access_of_normal first
    (by simp [Core.exDAccessRaw, store]) normal
  obtain ⟨-, -, asks, -⟩ := stay.of_single first access
    (by simp [Core.exIsAmoOp, other])
  have target : (r.core.state n).exMemReqAddr =
      moved (r.core.state n).ex.rs1Val imm.toInt := by
    rw [Core.exMemReqAddr, if_pos ⟨first, access⟩, address]
  have aligned := Core.aligned_of_exMemAccess access
  rw [Core.exMemAligned, address, ← target, Bool.not_eq_true'] at aligned
  have size : storeSize (r.core.state n).ex.funct3 = op.size := by
    rw [funct3]
    cases op <;> rfl
  funext a
  rw [memory, asks, ByteMemory.after_concat,
    Core.stored_of_store aligned store other, target, size]
  rfl

end Access

/-- As long as every accepted data request names the RAM, loads get the
little-endian value of the bytes last stored at their addresses, initially
those of the RAM, and stores replace their own bytes only. -/
theorem byte_memory {N : ℕ} (names : r.NamesRam N) : r.IsByteMemory N where
  contents := fun _ within => (sound (names.mono within)).contents
  load := fun before stay first normal word =>
    load_right stay first normal word (names.mono before)
  store := fun _ stay first normal word =>
    store_right stay first normal word

/-- A run of finitely many prescribed cycles, followed by idle ones, over a
RAM that repeats one word. -/
def script (word : BitVec 32) (inputs : List CoreIn) : MemRun {} where
  power := {}
  romInit := fun _ => 0
  ramInit := fun _ => word
  inputs := fun n => { ports := inputs.getD n {} }

end MemRun

/-- `lui x1, 0x80000`, `sb x1, 1(x1)`, `lhu x2, 0(x1)`. -/
def storesInWord : MemRun {} :=
  MemRun.script 0x11223344
    (CoreIn.fetch [(Base.lui 1 0x80000).encode,
      (Base.store .sb 1 1 1).encode, (Base.load .lhu 2 1 0).encode])

theorem storesInWord_store : storesInWord.core.LeavesAt 5 6 where
  le := by decide
  leaves := by decide
  stays := fun m above below => by
    interval_cases m
    decide
  same := by constructor <;> decide

theorem storesInWord_load : storesInWord.core.LeavesAt 8 9 where
  le := by decide
  leaves := by decide
  stays := fun m above below => by
    interval_cases m
    decide
  same := by constructor <;> decide

theorem byte_memory_storesInWord :
    storesInWord.memory 7 =
        ByteMemory.write (storesInWord.memory 5) 0x80000001 [0] ∧
      ∀ j rf, (storesInWord.core.state 10).wbWrite j rf =
        Function.update rf 2 0x44 := by
  have names : storesInWord.NamesRam 10 := by
    unfold MemRun.NamesRam
    decide
  have right := MemRun.byte_memory names
  have base : (storesInWord.core.state 8).ex.rs1Val = 0x80000000 := by
    decide
  have address : (storesInWord.core.state 5).ex.rs1Val = 0x80000000 := by
    decide
  have data : (storesInWord.core.state 5).ex.rs2Val = 0x80000000 := by
    decide
  have store := right.store (by decide) storesInWord_store (by decide)
    (by decide)
    (show _ = (Base.store .sb 1 1 1).encode by decide)
  have load := (right.load (by decide) storesInWord_load (by decide)
    (by decide)
    (show _ = (Base.load .lhu 2 1 0).encode by decide)).2
  have value : LoadOp.lhu.value (storesInWord.memory 8) 0x80000000 =
      0x44 := by
    decide
  rw [address, data] at store
  rw [base] at load
  refine ⟨store, fun j rf => ?_⟩
  rw [load j rf, if_neg (by decide), ← value]
  rfl

end SisRv
