import SisRv.Fabric.RamBytes
import SisRv.Lib.Trajectory
import SisRv.Plic.EnableLayout

/-!
# Bytes and half words of device registers

The devices compare whole byte offsets and the core drives byte addresses.
The module says which accesses to a part of a register act on that part.
-/

namespace SisRv

open Riscv

/-! ## Words as bytes -/

/-- The bytes of the word at an address. -/
def laneBytes (word : BitVec 32) : BitVec 32 → BitVec 8 := fun x =>
  word.extractLsb' (8 * lane x) 8

theorem word_laneBytes (word : BitVec 32) {a : BitVec 32}
    (aligned : lane a = 0) : ByteMemory.word (laneBytes word) a = word :=
  word_eq ⟨fun _ => word, false, 0⟩ aligned

theorem getLsbD_applyWstrb (old new : BitVec 32) (strb : BitVec 4) {j : ℕ}
    (inside : j < 32) :
    (applyWstrb old new strb).getLsbD j =
      if strb.getLsbD (j / 8) then new.getLsbD j else old.getLsbD j := by
  have bit (word : BitVec 32) : word.getLsbD j =
      (word.extractLsb' (8 * (j / 8)) 8).getLsbD (j % 8) := by
    rw [BitVec.getLsbD_extractLsb', decide_eq_true (Nat.mod_lt j (by decide)),
      Bool.true_and, Nat.div_add_mod]
  rw [bit, RamState.applyWstrb_lane _ _ _ (by omega)]
  split_ifs <;> exact (bit _).symm

theorem and_eq_and_iff (v w mask : BitVec 32) :
    v &&& mask = w &&& mask ↔
      ∀ j < 32, mask.getLsbD j = true → v.getLsbD j = w.getLsbD j := by
  constructor
  · intro same j _ set
    have bit := congrArg (fun x => x.getLsbD j) same
    simpa [set] using bit
  · intro same
    apply BitVec.eq_of_getLsbD_eq
    intro j inside
    rw [BitVec.getLsbD_and, BitVec.getLsbD_and]
    rcases set : mask.getLsbD j
    · rw [Bool.and_false, Bool.and_false]
    · rw [same j inside set]

/-- The address of a byte in an aligned word. -/
theorem toNat_add_lane {a : BitVec 32} (aligned : lane a = 0) {k : ℕ}
    (inWord : k < 4) : (a + BitVec.ofNat 32 k).toNat = a.toNat + k := by
  have bound := a.isLt
  rw [lane] at aligned
  rw [BitVec.toNat_add, BitVec.toNat_ofNat]
  omega

theorem lane_add {a : BitVec 32} (aligned : lane a = 0) {k : ℕ}
    (inWord : k < 4) : lane (a + BitVec.ofNat 32 k) = k := by
  rw [lane] at aligned ⊢
  rw [toNat_add_lane aligned inWord]
  omega

theorem add_lane_eq_iff {a : BitVec 32} (aligned : lane a = 0) {k : ℕ}
    (inWord : k < 4) : a + BitVec.ofNat 32 k = a ↔ k = 0 := by
  rw [← BitVec.toNat_inj, toNat_add_lane aligned inWord]
  omega

namespace Core

variable {q : Params} (c : Core q)

/-- A word after the bytes of a store. -/
def storedWord (old : BitVec 32) (a : BitVec 32) : BitVec 32 :=
  ByteMemory.word
    (ByteMemory.write (laneBytes old) c.exMemReqAddr
      ((ByteMemory.bytes c.ex.rs2Val).take (storeSize c.ex.funct3))) a

/-- A store of a byte or half word at an address. -/
structure StoresPart (a : BitVec 32) : Prop where
  store : c.ex.isStore = true
  other : c.ex.isAtomic = false
  part : storeSize c.ex.funct3 = 1 ∨ storeSize c.ex.funct3 = 2
  aligned : isMemMisaligned a c.ex.funct3 = false
  address : c.exMemReqAddr = a

variable {c} {a : BitVec 32} {k : ℕ}

theorem StoresPart.dReq_eq (stores : c.StoresPart a) :
    c.dReq = ⟨a, true, c.storeData, c.storeStrb⟩ := by
  simp [dReq, dReqAddr, dReqWe, dReqWdata, dReqWstrb, stores.store,
    stores.other, stores.address]

/-- The lanes of a store are its bytes. -/
theorem storedWord_eq (aligned : lane a = 0) (inWord : k < 4)
    (stores : c.StoresPart (a + BitVec.ofNat 32 k)) (old : BitVec 32) :
    c.storedWord old a = applyWstrb old c.storeData c.storeStrb := by
  have fits : isMemMisaligned c.exMemReqAddr c.ex.funct3 = false := by
    rw [stores.address]
    exact stores.aligned
  rw [← word_laneBytes (applyWstrb old c.storeData c.storeStrb) aligned]
  refine ByteMemory.word_congr fun l small => ?_
  have word : (a + BitVec.ofNat 32 l).toNat / 4 =
      (a + BitVec.ofNat 32 k).toNat / 4 := by
    rw [toNat_add_lane aligned small, toNat_add_lane aligned inWord]
    rw [lane] at aligned
    omega
  rw [ByteMemory.write,
    ← stored_of_store fits stores.store stores.other, stores.dReq_eq]
  simp only [BusReq.stored, word, true_and, laneBytes,
    lane_add aligned small, RamState.applyWstrb_lane _ _ _ small]
  split_ifs <;> rfl

section Store

variable (aligned : lane a = 0) (inWord : k < 4)
  (stores : c.StoresPart (a + BitVec.ofNat 32 k))
include aligned inWord stores

theorem StoresPart.strobe_iff {l : ℕ} (bound : l < 4) :
    c.storeStrb.getLsbD l = true ↔
      k ≤ l ∧ l < k + storeSize c.ex.funct3 := by
  have fits := stores.aligned
  rw [← stores.address] at fits
  rw [storeStrb_lane fits bound, stores.address, lane_add aligned inWord]

theorem StoresPart.storeData_bit {j : ℕ} (above : 8 * k ≤ j)
    (below : j < 8 * (k + storeSize c.ex.funct3)) (inside : j < 32) :
    c.storeData.getLsbD j = c.ex.rs2Val.getLsbD (j - 8 * k) := by
  have fits := stores.aligned
  rw [← stores.address] at fits
  have place : lane c.exMemReqAddr = k := by
    rw [stores.address, lane_add aligned inWord]
  have byte := storeData_lane fits (l := j / 8) (by omega) (by omega)
    (by omega)
  have bit := congrArg (fun x => x.getLsbD (j % 8)) byte
  have low : j % 8 < 8 := Nat.mod_lt j (by decide)
  simp only [BitVec.getLsbD_extractLsb', decide_eq_true low, Bool.true_and,
    Nat.div_add_mod, place] at bit
  rw [bit]
  congr 1
  omega

end Store

/-- The other lanes of a store at the start of a word are zero. -/
theorem StoresPart.storeData_high (aligned : lane a = 0)
    (stores : c.StoresPart a) {j : ℕ}
    (above : 8 * storeSize c.ex.funct3 ≤ j) :
    c.storeData.getLsbD j = false := by
  have zero : lane c.exMemReqAddr = 0 := by rw [stores.address, aligned]
  have lower : c.exMemReqAddr.getLsbD 1 = false := by
    rw [← Bool.not_eq_true, bit_one_iff, zero]
    decide
  unfold storeData
  simp only [lane_eq, zero, lower, Nat.mul_zero, BitVec.shiftLeft_zero,
    Bool.false_eq_true, if_false]
  by_cases one : c.ex.funct3.extractLsb' 0 2 = 0b00
  · rw [storeSize, if_pos one] at above
    have high : ¬ j < 8 := by omega
    simp [one, high]
  by_cases two : c.ex.funct3.extractLsb' 0 2 = 0b01
  · rw [storeSize, if_neg one, if_pos two] at above
    have high : ¬ j < 16 := by omega
    simp [two, high]
  · have part := stores.part
    rw [storeSize, if_neg one, if_neg two] at part
    split_ifs at part <;> simp at part

/-- `c` has the load of `e` from an address of part of a word in WB, with the
word that the bus returned. -/
structure LoadsPart (e c : Core q) (op : LoadOp) (a rdata : BitVec 32) :
    Prop where
  load : e.ex.isLoad = true
  noStore : e.ex.isStore = false
  noAtomic : e.ex.isAtomic = false
  part : op.size = 1 ∨ op.size = 2
  aligned : isMemMisaligned a op.funct3 = false
  address : e.exMemReqAddr = a
  funct3 : c.wb.funct3 = op.funct3
  memAddr : c.wb.memAddr = a
  memRdata : c.wb.memRdata = rdata

end Core

/-! ## Devices and registers -/

/-- A device with a port on the bus. -/
structure Peripheral (State Pins : Type) where
  reset : State
  next : State → SlaveIn → Pins → State
  pending : State → Bool
  rdataReg : State → BitVec 32
  /-- The state without what belongs to the response. -/
  bare : State → State

namespace Peripheral

variable {State Pins : Type} (p : Peripheral State Pins) (s : State)
  (ready : Bool) (pins : Pins)

/-- A state of some run after reset. -/
def Reachable : Prop :=
  ∃ (inputs : ℕ → SlaveIn × Pins) (k : ℕ),
    s = Sync.trajectory (fun s i => p.next s i.1 i.2) p.reset inputs k

/-- The device can accept a request. -/
def Free : Prop := slaveReqReady (p.pending s) ready = true

/-- The state after a cycle with a request. -/
def after (req : BusReq) : State := p.next s ⟨true, req, ready⟩ pins

/-- The state after a cycle without one. -/
def idle : State :=
  p.bare (p.next s ⟨false, ⟨0, false, 0, 0⟩, ready⟩ pins)

end Peripheral

/-- How a device finds a register and what a write brings to it. -/
inductive Decoding
  | strobed
  | unstrobed
  | never
  deriving DecidableEq

/-- The register after a write to its word. -/
def Decoding.written (addr old : BitVec 32) (req : BusReq) :
    Decoding → BitVec 32
  | .strobed =>
      if req.addr = addr then applyWstrb old req.wdata req.wstrb else old
  | .unstrobed => if req.addr = addr then req.wdata else old
  | .never => old

/-- A register that can be read and written, as part of the state of its
device. -/
structure Register {State Pins : Type} (p : Peripheral State Pins) where
  addr : BitVec 32
  implemented : BitVec 32
  get : State → BitVec 32
  put : State → BitVec 32 → State
  decoding : Decoding
  /-- What a load of the word returns. -/
  word : State → BitVec 32
  aligned : lane addr = 0
  get_put : ∀ s w, get (put s w) = w &&& implemented
  put_get : ∀ s, put s (get s) = s
  put_implemented : ∀ s w, put s (w &&& implemented) = put s w
  write : ∀ s ready pins req k, p.Free s ready → req.we = true → k < 4 →
    req.addr = addr + BitVec.ofNat 32 k →
      p.bare (p.after s ready pins req) = put (p.idle s ready pins)
        (decoding.written addr (get (p.idle s ready pins)) req)
  read : ∀ s ready pins req k, p.Free s ready → req.we = false → k < 4 →
    req.addr = addr + BitVec.ofNat 32 k →
      p.rdataReg (p.after s ready pins req) =
        if req.addr = addr then word s else 0

/-! ### Low parts of a word -/

/-- The lowest bits of a word. -/
def lowMask (len : ℕ) : BitVec 32 := (BitVec.allOnes len).setWidth 32

theorem setWidth_low (w : BitVec 32) (len : ℕ) :
    (w.extractLsb' 0 len).setWidth 32 = w &&& lowMask len := by
  ext j inside
  simp [lowMask, BitVec.getElem_setWidth, inside, Bool.and_comm]

theorem low_and_lowMask (w : BitVec 32) {len : ℕ} (short : len ≤ 32) :
    (w &&& lowMask len).extractLsb' 0 len = w.extractLsb' 0 len := by
  ext j inside
  have bound : j < 32 := by omega
  simp [lowMask, inside, bound]

theorem bit_and_lowMask (w : BitVec 32) :
    (w &&& lowMask 1).getLsbD 0 = w.getLsbD 0 := by
  simp [lowMask]

theorem setWidth_bit (w : BitVec 32) :
    (BitVec.ofBool (w.getLsbD 0)).setWidth 32 = w &&& lowMask 1 := by
  rw [← BitField.extract_one, setWidth_low]

theorem bit_setWidth (b : Bool) :
    ((BitVec.ofBool b).setWidth 32).getLsbD 0 = b := by
  cases b <;> decide

theorem low_setWidth (x : BitVec 8) :
    (x.setWidth 32).extractLsb' 0 8 = x := by
  ext j inside
  have bound : j < 32 := by omega
  simp [bound, BitVec.getLsbD_eq_getElem inside]

/-- A register of one bit takes the strobed bit. -/
theorem applyWstrb_bit (b : Bool) (new : BitVec 32) (strb : BitVec 4) :
    (applyWstrb ((BitVec.ofBool b).setWidth 32) new strb)[0] =
      if strb[0] then new[0] else b := by
  have bit := getLsbD_applyWstrb ((BitVec.ofBool b).setWidth 32) new strb
    (j := 0) (by decide)
  rw [bit_setWidth] at bit
  exact bit

/-! ### `sisClint` -/

def clintDevice : Peripheral ClintState Unit where
  reset := ClintState.reset
  next s i _ := s.next i
  pending s := s.pending
  rdataReg s := s.rdataReg
  bare s := { s with pending := false, rdataReg := 0 }

namespace ClintState

open Clint

variable (s : ClintState) {req : BusReq} {ready : Bool} (pins : Unit)

theorem bare_after_write (free : clintDevice.Free s ready)
    (page : addrMatch req = true) (we : req.we = true) :
    clintDevice.bare (clintDevice.after s ready pins req) =
    { mtime :=
        if rel req = offMtime then writeLow (s.mtime + 1) req
        else if rel req = offMtime + 4 then writeHigh (s.mtime + 1) req
        else s.mtime + 1
      mtimecmp :=
        if rel req = offMsip ∧ req.wstrb.getLsbD 0 then s.mtimecmp
        else if rel req = offMtimecmp then writeLow s.mtimecmp req
        else if rel req = offMtimecmp + 4 then writeHigh s.mtimecmp req
        else s.mtimecmp
      msipReg :=
        if rel req == offMsip && req.wstrb.getLsbD 0 then
          req.wdata.getLsbD 0
        else s.msipReg
      pending := false
      rdataReg := 0 } := by
  have writes : s.writes ⟨true, req, ready⟩ = true := by
    have fire : s.reqFire ⟨true, req, ready⟩ = true := free
    rw [ClintState.writes, fire, page, we]
    rfl
  simp only [Peripheral.after, clintDevice, next, mtimeNext, mtimecmpNext,
    msipNext, writes, if_true, Bool.true_and]

theorem idle_eq :
    clintDevice.idle s ready pins =
      ⟨s.mtime + 1, s.mtimecmp, s.msipReg, false, 0⟩ := rfl

theorem rdataReg_after (free : clintDevice.Free s ready) :
    clintDevice.rdataReg (clintDevice.after s ready pins req) =
      s.answer req := by
  have fire : s.reqFire ⟨true, req, ready⟩ = true := free
  simp only [Peripheral.after, clintDevice, next, fire, if_true]

end ClintState

section Clint

open Clint ClintState

/-- `msip`. -/
def msipRegister : Register clintDevice where
  addr := 0x02000000
  implemented := lowMask 1
  get s := (BitVec.ofBool s.msipReg).setWidth 32
  put s w := { s with msipReg := w.getLsbD 0 }
  decoding := .strobed
  word s := (BitVec.ofBool s.msipReg).setWidth 32
  aligned := by decide
  get_put _ w := setWidth_bit w
  put_get s := by rw [bit_setWidth]
  put_implemented s w := by rw [bit_and_lowMask]
  write := by
    intro s ready pins req k free we small place
    have page : addrMatch req = true := by
      rw [addrMatch, place]
      interval_cases k <;> decide
    rw [bare_after_write s pins free page we, idle_eq]
    interval_cases k <;>
      simp [rel, place, baseAddr, offMsip, offMtime, offMtimecmp,
        Decoding.written, applyWstrb_bit]
  read := by
    intro s ready pins req k free we small place
    rw [rdataReg_after s pins free]
    interval_cases k <;>
      simp [answer, addrMatch, place, we, rel, baseAddr, offMsip, offMtime,
        offMtimecmp]

/-- One half of a register of 64 bits. -/
def half (upper : Bool) (word : BitVec 64) : BitVec 32 :=
  if upper then highWord word else lowWord word

def putHalf (upper : Bool) (word : BitVec 64) (w : BitVec 32) : BitVec 64 :=
  if upper then w ++ lowWord word else highWord word ++ w

theorem half_putHalf (upper : Bool) (word : BitVec 64) (w : BitVec 32) :
    half upper (putHalf upper word w) = w := by
  cases upper
  · exact BitVec.extractLsb'_append_eq_right
  · exact BitVec.extractLsb'_append_eq_left

theorem highWord_append_lowWord (word : BitVec 64) :
    (highWord word ++ lowWord word : BitVec 64) = word := by
  rw [highWord, lowWord,
    BitVec.extractLsb'_append_extractLsb'_eq_extractLsb' (by decide)]
  exact BitVec.extractLsb'_eq_self

theorem putHalf_half (upper : Bool) (word : BitVec 64) :
    putHalf upper word (half upper word) = word := by
  cases upper <;> exact highWord_append_lowWord word

/-- The place of a half of a register. -/
def halfOffset (upper : Bool) : BitVec 32 := if upper then 4 else 0

/-- `mtimecmp`. -/
def mtimecmpRegister (upper : Bool) : Register clintDevice where
  addr := 0x02004000 + halfOffset upper
  implemented := BitVec.allOnes 32
  get s := half upper s.mtimecmp
  put s w := { s with mtimecmp := putHalf upper s.mtimecmp w }
  decoding := .strobed
  word s := half upper s.mtimecmp
  aligned := by cases upper <;> decide
  get_put s w := by rw [half_putHalf, BitVec.and_allOnes]
  put_get s := by rw [putHalf_half]
  put_implemented s w := by rw [BitVec.and_allOnes]
  write := by
    intro s ready pins req k free we small place
    have page : addrMatch req = true := by
      rw [addrMatch, place]
      cases upper <;> interval_cases k <;> decide
    rw [bare_after_write s pins free page we, idle_eq]
    cases upper <;> interval_cases k <;>
      simp [rel, place, halfOffset, baseAddr, offMsip, offMtime,
        offMtimecmp, Decoding.written, half, putHalf, writeLow, writeHigh,
        highWord_append_lowWord]
  read := by
    intro s ready pins req k free we small place
    rw [rdataReg_after s pins free]
    cases upper <;> interval_cases k <;>
      simp [answer, addrMatch, place, halfOffset, we, rel, baseAddr,
        offMsip, offMtime, offMtimecmp, half]

/-- `mtime`, which ticks in every cycle. -/
def mtimeRegister (upper : Bool) : Register clintDevice where
  addr := 0x0200BFF8 + halfOffset upper
  implemented := BitVec.allOnes 32
  get s := half upper s.mtime
  put s w := { s with mtime := putHalf upper s.mtime w }
  decoding := .strobed
  word s := half upper s.mtime
  aligned := by cases upper <;> decide
  get_put s w := by rw [half_putHalf, BitVec.and_allOnes]
  put_get s := by rw [putHalf_half]
  put_implemented s w := by rw [BitVec.and_allOnes]
  write := by
    intro s ready pins req k free we small place
    have page : addrMatch req = true := by
      rw [addrMatch, place]
      cases upper <;> interval_cases k <;> decide
    rw [bare_after_write s pins free page we, idle_eq]
    cases upper <;> interval_cases k <;>
      simp [rel, place, halfOffset, baseAddr, offMsip, offMtime,
        offMtimecmp, Decoding.written, half, putHalf, writeLow, writeHigh,
        highWord_append_lowWord]
  read := by
    intro s ready pins req k free we small place
    rw [rdataReg_after s pins free]
    cases upper <;> interval_cases k <;>
      simp [answer, addrMatch, place, halfOffset, we, rel, baseAddr,
        offMsip, offMtime, offMtimecmp, half]

end Clint

/-! ### `sisGpio` -/

def gpioDevice : Peripheral GpioState (BitVec 32) where
  reset := GpioState.reset
  next s i pins := s.next ⟨i, pins⟩
  pending s := s.pending
  rdataReg s := s.rdataReg
  bare s := { s with pending := false, rdataReg := 0 }

namespace GpioState

variable (s : GpioState) {req : BusReq} {ready : Bool} (pins : BitVec 32)

theorem idle_eq :
    gpioDevice.idle s ready pins = ⟨false, 0, s.gpioOut, s.gpioOe⟩ := by
  simp only [Peripheral.idle, gpioDevice, next, reqFire, Bool.false_and,
    Bool.false_eq_true, if_false]
  split_ifs <;> rfl

theorem bare_after (free : gpioDevice.Free s ready) :
    gpioDevice.bare (gpioDevice.after s ready pins req) =
      ⟨false, 0, s.outNext req, s.oeNext req⟩ := by
  have fire : s.reqFire ⟨⟨true, req, ready⟩, pins⟩ = true := free
  simp only [Peripheral.after, gpioDevice, next, fire, if_true]

theorem rdataReg_after (free : gpioDevice.Free s ready) :
    gpioDevice.rdataReg (gpioDevice.after s ready pins req) =
      s.answer pins req := by
  have fire : s.reqFire ⟨⟨true, req, ready⟩, pins⟩ = true := free
  simp only [Peripheral.after, gpioDevice, next, fire, if_true]

end GpioState

section Gpio

open Gpio GpioState

/-- `DATA`. -/
def dataRegister : Register gpioDevice where
  addr := 0x10003000
  implemented := BitVec.allOnes 32
  get s := s.gpioOut
  put s w := { s with gpioOut := w }
  decoding := .strobed
  word s := s.gpioOut
  aligned := by decide
  get_put s w := by rw [BitVec.and_allOnes]
  put_get s := rfl
  put_implemented s w := by rw [BitVec.and_allOnes]
  write := by
    intro s ready pins req k free we small place
    rw [bare_after s pins free, idle_eq]
    interval_cases k <;>
      simp [outNext, oeNext, addrMatch, regOffset, place, we, baseAddr,
        offData, offDir, offSet, offClr, Decoding.written]
  read := by
    intro s ready pins req k free we small place
    rw [rdataReg_after s pins free]
    interval_cases k <;>
      simp [answer, addrMatch, regOffset, place, we, baseAddr, offData,
        offDir, offIn]

/-- `DIR`. -/
def dirRegister : Register gpioDevice where
  addr := 0x10003004
  implemented := BitVec.allOnes 32
  get s := s.gpioOe
  put s w := { s with gpioOe := w }
  decoding := .strobed
  word s := s.gpioOe
  aligned := by decide
  get_put s w := by rw [BitVec.and_allOnes]
  put_get s := rfl
  put_implemented s w := by rw [BitVec.and_allOnes]
  write := by
    intro s ready pins req k free we small place
    rw [bare_after s pins free, idle_eq]
    interval_cases k <;>
      simp [outNext, oeNext, addrMatch, regOffset, place, we, baseAddr,
        offData, offDir, offSet, offClr, Decoding.written]
  read := by
    intro s ready pins req k free we small place
    rw [rdataReg_after s pins free]
    interval_cases k <;>
      simp [answer, addrMatch, regOffset, place, we, baseAddr, offData,
        offDir, offIn]

end Gpio

/-! ### `sisUart` -/

def uartDevice : Peripheral UartState Unit where
  reset := UartState.reset
  next s i _ := s.next i
  pending s := s.pending
  rdataReg s := s.rdataReg
  bare s := { s with pending := false, rdataReg := 0 }

namespace UartState

open Uart

variable (s : UartState) {req : BusReq} {ready : Bool} (pins : Unit)

theorem idle_eq :
    uartDevice.idle s ready pins =
      { s with pending := false, rdataReg := 0, uartTxValid := false } := by
  simp only [Peripheral.idle, uartDevice, next, reqFire, Bool.false_and,
    Bool.false_eq_true, if_false]
  split_ifs <;> rfl

/-- A write to another register than `TXDATA`. -/
theorem bare_after_write (free : uartDevice.Free s ready)
    (we : req.we = true) (other : regOffset req ≠ offTxdata) :
    uartDevice.bare (uartDevice.after s ready pins req) =
      { s with
        pending := false
        rdataReg := 0
        ctrlReg := regNext offCtrl s.ctrlReg req
        bauddivReg := regNext offBauddiv s.bauddivReg req
        uartTxValid := false } := by
  have fire : s.reqFire ⟨true, req, ready⟩ = true := free
  have silent : s.transmits req = false := by simp [transmits, other]
  have unread : receives req = false := by simp [receives, we]
  simp only [Peripheral.after, uartDevice, next, fire, silent, unread,
    if_true, Bool.false_and, Bool.false_eq_true, if_false]

theorem rdataReg_after (free : uartDevice.Free s ready) :
    uartDevice.rdataReg (uartDevice.after s ready pins req) =
      s.answer req := by
  have fire : s.reqFire ⟨true, req, ready⟩ = true := free
  simp only [Peripheral.after, uartDevice, next, fire, if_true]

end UartState

section Uart

open Uart UartState

/-- `CTRL`. -/
def ctrlRegister : Register uartDevice where
  addr := 0x1000400C
  implemented := BitVec.allOnes 32
  get s := s.ctrlReg
  put s w := { s with ctrlReg := w }
  decoding := .strobed
  word s := s.ctrlReg
  aligned := by decide
  get_put s w := by rw [BitVec.and_allOnes]
  put_get s := rfl
  put_implemented s w := by rw [BitVec.and_allOnes]
  write := by
    intro s ready pins req k free we small place
    have other : regOffset req ≠ offTxdata := by
      rw [regOffset, place]
      interval_cases k <;> decide
    rw [bare_after_write s pins free we other, idle_eq]
    interval_cases k <;>
      simp [regNext, addrMatch, regOffset, place, we, baseAddr, offCtrl,
        offBauddiv, Decoding.written]
  read := by
    intro s ready pins req k free we small place
    rw [rdataReg_after s pins free]
    interval_cases k <;>
      simp [answer, addrMatch, regOffset, place, we, baseAddr, offTxdata,
        offRxdata, offStatus, offCtrl, offBauddiv]

/-- `BAUDDIV`. -/
def bauddivRegister : Register uartDevice where
  addr := 0x10004010
  implemented := BitVec.allOnes 32
  get s := s.bauddivReg
  put s w := { s with bauddivReg := w }
  decoding := .strobed
  word s := s.bauddivReg
  aligned := by decide
  get_put s w := by rw [BitVec.and_allOnes]
  put_get s := rfl
  put_implemented s w := by rw [BitVec.and_allOnes]
  write := by
    intro s ready pins req k free we small place
    have other : regOffset req ≠ offTxdata := by
      rw [regOffset, place]
      interval_cases k <;> decide
    rw [bare_after_write s pins free we other, idle_eq]
    interval_cases k <;>
      simp [regNext, addrMatch, regOffset, place, we, baseAddr, offCtrl,
        offBauddiv, Decoding.written]
  read := by
    intro s ready pins req k free we small place
    rw [rdataReg_after s pins free]
    interval_cases k <;>
      simp [answer, addrMatch, regOffset, place, we, baseAddr, offTxdata,
        offRxdata, offStatus, offCtrl, offBauddiv]

end Uart

/-! ### `sisPlic` -/

def plicDevice (n : ℕ) : Peripheral (PlicState n) (Fin n → Bool) where
  reset := PlicState.reset n
  next s i pins := s.next Plic.baseAddr ⟨i, pins⟩
  pending s := s.pending
  rdataReg s := s.rdataReg
  bare s := { s with pending := false, rdataReg := 0 }

namespace PlicState

open Plic

variable {n : ℕ} (s : PlicState n) {req : BusReq} {ready : Bool}
  (pins : Fin n → Bool)

/-- The gateways after a cycle without a completion. -/
def latched (e : Fin n) : Bool := if pins e then true else s.gatewayPending e

theorem gatewayNext_of_other {i : PlicIn n}
    (other : s.completes baseAddr i = false) :
    s.gatewayNext baseAddr i = s.latched i.irqSrc := by
  funext e
  simp [gatewayNext, latched, other]

theorem idle_eq :
    (plicDevice n).idle s ready pins =
      { s with
        gatewayPending := s.latched pins
        pending := false
        rdataReg := 0 } := by
  have silent : s.completes baseAddr
      ⟨⟨false, ⟨0, false, 0, 0⟩, ready⟩, pins⟩ = false := by
    simp [completes, reqFire]
  simp only [Peripheral.idle, plicDevice, next,
    gatewayNext_of_other s silent, access, reqFire, Bool.false_and,
    Bool.false_eq_true, if_false]
  split_ifs <;> rfl

/-- A write to another register than the claim register. -/
theorem bare_after_write (free : (plicDevice n).Free s ready)
    (we : req.we = true) (other : rel baseAddr req ≠ offClaim) :
    (plicDevice n).bare ((plicDevice n).after s ready pins req) =
      { (if addrMatch baseAddr req then
          s.writeReg (rel baseAddr req) req { s with pending := true }
        else s) with
        gatewayPending := s.latched pins
        pending := false
        rdataReg := 0 } := by
  have fire : s.reqFire ⟨⟨true, req, ready⟩, pins⟩ = true := free
  have silent : s.completes baseAddr ⟨⟨true, req, ready⟩, pins⟩ =
      false := by
    simp [completes, other]
  simp only [Peripheral.after, plicDevice, next,
    gatewayNext_of_other s silent, access, fire, we, if_true,
    Bool.and_true, Bool.not_true, Bool.and_false, Bool.false_eq_true,
    if_false]
  split_ifs <;> rfl

theorem rdataReg_after_read (free : (plicDevice n).Free s ready)
    (we : req.we = false) :
    (plicDevice n).rdataReg ((plicDevice n).after s ready pins req) =
      if addrMatch baseAddr req then
        (s.readReg (rel baseAddr req) { s with pending := true }).rdataReg
      else 0 := by
  have fire : s.reqFire ⟨⟨true, req, ready⟩, pins⟩ = true := free
  simp only [Peripheral.after, plicDevice, next, access, fire, we, if_true,
    Bool.and_true, Bool.not_false, Bool.and_false, Bool.false_eq_true,
    if_false]
  split_ifs <;> rfl

section Enable

variable (small : n ≤ 15) (bits : Fin n → Bool)
include small

/-- A word with bit `i` for source `i`. -/
theorem getLsbD_shifted {j : ℕ} (inside : j < 32) :
    (packSources bits <<< 1).getLsbD j =
      if h : 1 ≤ j ∧ j - 1 < n then bits ⟨j - 1, h.2⟩ else false := by
  rw [BitVec.getLsbD_shiftLeft, getLsbD_packSources small]
  by_cases low : j < 1
  · simp [low]
  · by_cases source : j - 1 < n
    · simp [low, source, inside, Nat.le_of_not_lt low]
    · simp [source]

theorem sourceBits_shifted : sourceBits (packSources bits <<< 1) = bits := by
  funext e
  have bound := e.isLt
  rw [sourceBits, getLsbD_shifted small bits (by omega),
    dif_pos ⟨by omega, by omega⟩]
  rfl

theorem packSources_sourceBits (w : BitVec 32) :
    packSources (sourceBits w : Fin n → Bool) <<< 1 =
      w &&& (packSources (fun _ : Fin n => true) <<< 1) := by
  apply BitVec.eq_of_getLsbD_eq
  intro j inside
  rw [BitVec.getLsbD_and, getLsbD_shifted small _ inside,
    getLsbD_shifted small _ inside]
  by_cases source : 1 ≤ j ∧ j - 1 < n
  · rw [dif_pos source, dif_pos source, Bool.and_true, sourceBits,
      Nat.sub_add_cancel source.1]
  · rw [dif_neg source, dif_neg source, Bool.and_false]

end Enable

end PlicState

section Plic

open Plic PlicState

variable {n : ℕ}

/-- `ENABLE`, written without strobes. -/
def enableRegister (small : n ≤ 15) : Register (plicDevice n) where
  addr := 0x0C002000
  implemented := packSources (fun _ : Fin n => true) <<< 1
  get s := packSources s.enabled <<< 1
  put s w := { s with enabled := sourceBits w }
  decoding := .unstrobed
  word s := packSources s.enabled
  aligned := by decide
  get_put s w := packSources_sourceBits small w
  put_get s := by rw [sourceBits_shifted small]
  put_implemented s w := by
    rw [← packSources_sourceBits small w, sourceBits_shifted small]
  write := by
    intro s ready pins req k free we low place
    have other : rel baseAddr req ≠ offClaim := by
      rw [rel, place]
      interval_cases k <;> decide
    rw [bare_after_write s pins free we other, idle_eq]
    interval_cases k
    · simp [addrMatch, rel, place, baseAddr, offEnable, writeReg,
        Decoding.written]
      rfl
    all_goals
      simp [addrMatch, rel, place, baseAddr, offEnable, offThreshold,
        offClaim, offPriority, offPending, prioIndex, writeReg,
        Decoding.written, sourceBits_shifted small]
  read := by
    intro s ready pins req k free we low place
    rw [rdataReg_after_read s pins free we]
    interval_cases k <;>
      simp [addrMatch, rel, place, baseAddr, offEnable, offThreshold,
        offClaim, offPriority, offPending, prioIndex, readReg]

/-- The address of a priority register. -/
def prioAddr (e : Fin n) : BitVec 32 :=
  baseAddr + BitVec.ofNat 32 (4 * (e.val + 1))

section Priority

variable (small : n ≤ 15) (e : Fin n)
include small

theorem toNat_prioAddr :
    (prioAddr e).toNat = 0x0C000000 + 4 * (e.val + 1) := by
  have bound := e.isLt
  have base : baseAddr.toNat = 0x0C000000 := rfl
  rw [prioAddr, BitVec.toNat_add, BitVec.toNat_ofNat]
  omega

theorem lane_prioAddr : lane (prioAddr e) = 0 := by
  rw [lane, toNat_prioAddr small]
  omega

variable {req : BusReq} {k : ℕ} (low : k < 4)
  (place : req.addr = prioAddr e + BitVec.ofNat 32 k)
include low place

theorem toNat_rel_prio : (rel baseAddr req).toNat = 4 * (e.val + 1) + k := by
  have bound := e.isLt
  have offset : rel baseAddr req =
      BitVec.ofNat 32 (4 * (e.val + 1)) + BitVec.ofNat 32 k := by
    rw [rel, place, prioAddr, BitVec.add_assoc, BitVec.add_comm,
      BitVec.add_sub_cancel]
  rw [offset, BitVec.toNat_add, BitVec.toNat_ofNat, BitVec.toNat_ofNat]
  omega

theorem addrMatch_prio : addrMatch baseAddr req = true := by
  have bound := e.isLt
  have value : req.addr.toNat = 0x0C000000 + 4 * (e.val + 1) + k := by
    rw [place, toNat_add_lane (lane_prioAddr small e) low,
      toNat_prioAddr small]
  rw [addrMatch, beq_iff_eq, ← BitVec.toNat_inj, BitVec.extractLsb'_toNat,
    value, Nat.shiftRight_eq_div_pow]
  change _ = 0x0C00
  omega

theorem prioIndex_rel :
    prioIndex n (rel baseAddr req) = if k = 0 then some e else none := by
  have bound := e.isLt
  have value := toNat_rel_prio small e low place
  have lowBits : (rel baseAddr req).extractLsb' 0 2 = 0 ↔ k = 0 := by
    rw [← BitVec.toNat_inj, BitVec.extractLsb'_toNat, value,
      Nat.shiftRight_zero]
    change _ = 0 ↔ _
    omega
  unfold prioIndex
  by_cases first : k = 0
  · have above : offPriority ≤ rel baseAddr req := by
      rw [BitVec.le_def, value]
      change 4 ≤ _
      omega
    have below : rel baseAddr req < offPending := by
      rw [BitVec.lt_def, value]
      change _ < 0x1000
      omega
    have index : ((rel baseAddr req).extractLsb' 2 30).toNat =
        e.val + 1 := by
      rw [BitVec.extractLsb'_toNat, value, Nat.shiftRight_eq_div_pow]
      omega
    rw [if_pos ⟨lowBits.mpr first, above, below⟩, if_pos first]
    dsimp only
    rw [dif_pos (by omega)]
    simp only [index, Nat.add_sub_cancel]
  · rw [if_neg fun all => first (lowBits.mp all.1), if_neg first]

theorem rel_prio_ne {offset : BitVec 32} (far : 0x1000 ≤ offset.toNat) :
    rel baseAddr req ≠ offset := by
  have bound := e.isLt
  have value := toNat_rel_prio small e low place
  intro same
  rw [same] at value
  omega

end Priority

/-- The priority of a source. -/
def priorityRegister (small : n ≤ 15) (e : Fin n) :
    Register (plicDevice n) where
  addr := prioAddr e
  implemented := lowMask 8
  get s := (s.irqPrio e).setWidth 32
  put s w :=
    { s with irqPrio := Function.update s.irqPrio e (w.extractLsb' 0 8) }
  decoding := .strobed
  word s := (s.irqPrio e).setWidth 32
  aligned := lane_prioAddr small e
  get_put s w := by
    simp only [Function.update_self]
    exact setWidth_low w 8
  put_get s := by rw [low_setWidth, Function.update_eq_self]
  put_implemented s w := by rw [low_and_lowMask w (by decide)]
  write := by
    intro s ready pins req k free we low place
    have apart {offset : BitVec 32} (far : 0x1000 ≤ offset.toNat) :
        rel baseAddr req ≠ offset := rel_prio_ne small e low place far
    rw [bare_after_write s pins free we (apart (by decide)), idle_eq,
      if_pos (addrMatch_prio small e low place), writeReg,
      if_neg (apart (by decide)), if_neg (apart (by decide)),
      if_neg (apart (by decide)), prioIndex_rel small e low place,
      Decoding.written, place,
      if_congr (add_lane_eq_iff (lane_prioAddr small e) low) rfl rfl]
    by_cases first : k = 0
    · have byte := RamState.applyWstrb_lane ((s.irqPrio e).setWidth 32)
        req.wdata req.wstrb (l := 0) (by decide)
      rw [Nat.mul_zero, low_setWidth] at byte
      rw [if_pos first, if_pos first, byte]
      dsimp only
      split_ifs
      · congr 1
        funext x
        exact (Function.update_apply _ _ _ x).symm
      · rw [Function.update_eq_self]
    · rw [if_neg first, if_neg first, low_setWidth,
        Function.update_eq_self]
  read := by
    intro s ready pins req k free we low place
    have apart {offset : BitVec 32} (far : 0x1000 ≤ offset.toNat) :
        rel baseAddr req ≠ offset := rel_prio_ne small e low place far
    rw [rdataReg_after_read s pins free we,
      if_pos (addrMatch_prio small e low place), readReg,
      if_neg (apart (by decide)), if_neg (apart (by decide)),
      if_neg (apart (by decide)), if_neg (apart (by decide)),
      prioIndex_rel small e low place, place,
      if_congr (add_lane_eq_iff (lane_prioAddr small e) low) rfl rfl]
    by_cases first : k = 0
    · rw [if_pos first, if_pos first]
    · rw [if_neg first, if_neg first]

/-- `THRESHOLD`, which lies outside the decoded page. -/
def thresholdRegister (n : ℕ) : Register (plicDevice n) where
  addr := 0x0C200000
  implemented := lowMask 8
  get s := s.threshold.setWidth 32
  put s w := { s with threshold := w.extractLsb' 0 8 }
  decoding := .never
  word _ := 0
  aligned := by decide
  get_put s w := setWidth_low w 8
  put_get s := by rw [low_setWidth]
  put_implemented s w := by rw [low_and_lowMask w (by decide)]
  write := by
    intro s ready pins req k free we low place
    have other : rel baseAddr req ≠ offClaim := by
      rw [rel, place]
      interval_cases k <;> decide
    rw [bare_after_write s pins free we other, idle_eq]
    interval_cases k <;>
      simp [addrMatch, place, baseAddr, Decoding.written, low_setWidth]
  read := by
    intro s ready pins req k free we low place
    rw [rdataReg_after_read s pins free we]
    interval_cases k <;> simp [addrMatch, place, baseAddr]

end Plic

/-! ## Bytes of a load -/

section LoadBytes

variable {w : ℕ}

theorem signExtend_eq_iff (x y : BitVec w) (fits : w ≤ 32) :
    x.signExtend 32 = y.signExtend 32 ↔ x = y := by
  refine ⟨fun same => ?_, congrArg _⟩
  have low := congrArg (fun v => v.extractLsb' 0 w) same
  simpa only [BitField.extract_signExtend _ le_rfl fits,
    BitVec.extractLsb'_eq_self] using low

theorem setWidth_eq_iff (x y : BitVec w) (fits : w ≤ 32) :
    x.setWidth 32 = y.setWidth 32 ↔ x = y := by
  refine ⟨fun same => ?_, congrArg _⟩
  have low := congrArg (fun v => v.setWidth w) same
  simpa only [BitVec.setWidth_setWidth_of_le _ fits,
    BitVec.setWidth_eq] using low

theorem half_eq_iff (m m' : BitVec 32 → BitVec 8) (a : BitVec 32) :
    ByteMemory.half m a = ByteMemory.half m' a ↔
      m a = m' a ∧ m (a + 1) = m' (a + 1) := by
  constructor
  · intro same
    have low := congrArg (fun v => v.extractLsb' 0 8) same
    have high := congrArg (fun v => v.extractLsb' 8 8) same
    exact ⟨BitVec.extractLsb'_append_eq_right.symm.trans
        (low.trans BitVec.extractLsb'_append_eq_right),
      BitVec.extractLsb'_append_eq_left.symm.trans
        (high.trans BitVec.extractLsb'_append_eq_left)⟩
  · rintro ⟨low, high⟩
    rw [ByteMemory.half, ByteMemory.half, low, high]

/-- A load of part of a word returns its bytes. -/
theorem value_eq_iff {op : LoadOp} (part : op.size = 1 ∨ op.size = 2)
    (m m' : BitVec 32 → BitVec 8) (a : BitVec 32) :
    op.value m a = op.value m' a ↔ ∀ l < op.size,
      m (a + BitVec.ofNat 32 l) = m' (a + BitVec.ofNat 32 l) := by
  have one : (∀ l < 1, m (a + BitVec.ofNat 32 l) =
      m' (a + BitVec.ofNat 32 l)) ↔ m a = m' a := by simp
  have two : (∀ l < 2, m (a + BitVec.ofNat 32 l) =
      m' (a + BitVec.ofNat 32 l)) ↔ m a = m' a ∧ m (a + 1) = m' (a + 1) := by
    rw [Nat.forall_lt_succ_right, one]
    rfl
  cases op with
  | lb => exact (signExtend_eq_iff _ _ (by decide)).trans one.symm
  | lbu => exact (setWidth_eq_iff _ _ (by decide)).trans one.symm
  | lh =>
      exact (signExtend_eq_iff _ _ (by decide)).trans
        ((half_eq_iff m m' a).trans two.symm)
  | lhu =>
      exact (setWidth_eq_iff _ _ (by decide)).trans
        ((half_eq_iff m m' a).trans two.symm)
  | lw => simp [LoadOp.size] at part

end LoadBytes

/-! ## Accesses to a part -/

section Accesses

variable {q : Params} {State Pins : Type} {p : Peripheral State Pins}

namespace Register

variable (R : Register p) (c : Core q) (s : State) (ready : Bool)
  (pins : Pins)

/-- A store changes the implemented bits of its bytes and nothing else. -/
def StoreActs : Prop :=
  p.bare (p.after s ready pins c.dReq) =
    R.put (p.idle s ready pins)
      (c.storedWord (R.get (p.idle s ready pins)) R.addr)

/-- A load finds its bytes of the word. -/
def LoadActs (op : LoadOp) : Prop :=
  c.wbLoadResult = op.value (laneBytes (R.word s)) c.wb.memAddr

/-- The implemented bits of some bytes of the register agree with a value. -/
def Agrees (old v : BitVec 32) (k size : ℕ) : Prop :=
  ∀ j, R.implemented.getLsbD j = true → 8 * k ≤ j → j < 8 * (k + size) →
    v.getLsbD (j - 8 * k) = old.getLsbD j

/-- When a store to the bytes from `k` on acts on them. -/
def StoreReaches (old v : BitVec 32) (k size : ℕ) : Prop :=
  match R.decoding with
  | .strobed => k = 0 ∨ R.Agrees old v k size
  | .unstrobed =>
      if k = 0 then
        ∀ j < 32, R.implemented.getLsbD j = true → 8 * size ≤ j →
          old.getLsbD j = false
      else R.Agrees old v k size
  | .never => R.Agrees old v k size

/-- When a load of the bytes from `k` on finds them. -/
def LoadReaches (s : State) (k size : ℕ) : Prop :=
  k = 0 ∨ ∀ l, k ≤ l → l < k + size →
    (R.word s).extractLsb' (8 * l) 8 = 0

variable {R c s ready pins} {k : ℕ}

theorem put_eq_iff (s : State) (v w : BitVec 32) :
    R.put s v = R.put s w ↔ v &&& R.implemented = w &&& R.implemented := by
  constructor
  · intro same
    rw [← R.get_put s v, ← R.get_put s w, same]
  · intro same
    rw [← R.put_implemented s v, ← R.put_implemented s w, same]

/-- The bytes of a store are where the lanes put them. -/
theorem agrees_iff (inWord : k < 4)
    (stores : c.StoresPart (R.addr + BitVec.ofNat 32 k))
    (old : BitVec 32) :
    old &&& R.implemented =
        applyWstrb old c.storeData c.storeStrb &&& R.implemented ↔
      R.Agrees old c.ex.rs2Val k (storeSize c.ex.funct3) := by
  rw [and_eq_and_iff]
  constructor
  · intro same j set above below
    have inside : j < 32 := by
      by_contra outside
      rw [BitVec.getLsbD_of_ge _ _ (Nat.not_lt.mp outside)] at set
      exact Bool.false_ne_true set
    have bit := same j inside set
    rw [getLsbD_applyWstrb _ _ _ inside, if_pos ((stores.strobe_iff R.aligned
      inWord (by omega)).mpr ⟨by omega, by omega⟩),
      stores.storeData_bit R.aligned inWord above below inside] at bit
    exact bit.symm
  · intro agrees j inside set
    rw [getLsbD_applyWstrb _ _ _ inside]
    split_ifs with strobe
    · obtain ⟨above, below⟩ := (stores.strobe_iff R.aligned inWord
        (by omega)).mp strobe
      have low : 8 * k ≤ j := by omega
      have high : j < 8 * (k + storeSize c.ex.funct3) := by omega
      rw [stores.storeData_bit R.aligned inWord low high inside]
      exact (agrees j set low high).symm
    · rfl

/-- A write without strobes clears the bits above a store. -/
theorem written_iff (stores : c.StoresPart R.addr) (old : BitVec 32) :
    (∀ j < 32, R.implemented.getLsbD j = true → c.storeData.getLsbD j =
        (applyWstrb old c.storeData c.storeStrb).getLsbD j) ↔
      ∀ j < 32, R.implemented.getLsbD j = true →
        8 * storeSize c.ex.funct3 ≤ j → old.getLsbD j = false := by
  have first : c.StoresPart (R.addr + BitVec.ofNat 32 0) := by
    simpa using stores
  have strobe {j : ℕ} (inside : j < 32) :
      c.storeStrb.getLsbD (j / 8) = true ↔
        j < 8 * storeSize c.ex.funct3 := by
    rw [first.strobe_iff R.aligned (by decide) (by omega)]
    omega
  constructor
  · intro same j inside set above
    have bit := same j inside set
    rw [getLsbD_applyWstrb _ _ _ inside,
      if_neg ((strobe inside).not.mpr (Nat.not_lt.mpr above)),
      stores.storeData_high R.aligned above] at bit
    exact bit.symm
  · intro clear j inside set
    rw [getLsbD_applyWstrb _ _ _ inside]
    split_ifs with below
    · rfl
    · have above := Nat.not_lt.mp ((strobe inside).not.mp below)
      rw [stores.storeData_high R.aligned above,
        clear j inside set above]

theorem storeActs_iff (free : p.Free s ready) (inWord : k < 4)
    (stores : c.StoresPart (R.addr + BitVec.ofNat 32 k)) :
    R.StoreActs c s ready pins ↔
      R.StoreReaches (R.get (p.idle s ready pins)) c.ex.rs2Val k
        (storeSize c.ex.funct3) := by
  have place : c.dReq.addr = R.addr + BitVec.ofNat 32 k := by
    rw [stores.dReq_eq]
  have we : c.dReq.we = true := by rw [stores.dReq_eq]
  rw [StoreActs, R.write s ready pins c.dReq k free we inWord place,
    put_eq_iff, Core.storedWord_eq R.aligned inWord stores]
  generalize R.get (p.idle s ready pins) = old
  have agrees := agrees_iff inWord stores old
  have first : c.dReq.addr = R.addr ↔ k = 0 := by
    rw [place, add_lane_eq_iff R.aligned inWord]
  unfold StoreReaches
  cases R.decoding with
  | strobed =>
      dsimp only [Decoding.written]
      rw [if_congr first rfl rfl, stores.dReq_eq]
      by_cases zero : k = 0
      · rw [if_pos zero]
        exact iff_of_true rfl (Or.inl zero)
      · rw [if_neg zero, agrees]
        exact (or_iff_right zero).symm
  | unstrobed =>
      dsimp only [Decoding.written]
      rw [if_congr first rfl rfl, stores.dReq_eq]
      by_cases zero : k = 0
      · subst zero
        rw [if_pos rfl, if_pos rfl, and_eq_and_iff]
        exact written_iff (by simpa using stores) old
      · rw [if_neg zero, if_neg zero, agrees]
  | never => exact agrees

theorem loadActs_iff {e : Core q} {op : LoadOp} (free : p.Free s ready)
    (inWord : k < 4)
    (loads : e.LoadsPart c op (R.addr + BitVec.ofNat 32 k)
      (p.rdataReg (p.after s ready pins e.dReq))) :
    R.LoadActs c s op ↔ R.LoadReaches s k op.size := by
  have place : e.dReq.addr = R.addr + BitVec.ofNat 32 k := loads.address
  have we : e.dReq.we = false := by
    change e.dReqWe = false
    simp [Core.dReqWe, loads.noStore, loads.noAtomic]
  have read := R.read s ready pins e.dReq k free we inWord place
  rw [place, if_congr (add_lane_eq_iff R.aligned inWord) rfl rfl] at read
  have fits := loads.aligned
  rw [← loads.memAddr] at fits
  have result := Core.wbLoadResult_of_word ⟨fun _ => c.wb.memRdata, false, 0⟩
    loads.funct3 fits rfl
  have bytes : c.wbLoadResult =
      op.value (laneBytes c.wb.memRdata) c.wb.memAddr := result
  rw [LoadActs, bytes, loads.memRdata, read, value_eq_iff loads.part,
    loads.memAddr]
  unfold LoadReaches
  by_cases zero : k = 0
  · rw [if_pos zero]
    exact iff_of_true (fun _ _ => rfl) (Or.inl zero)
  · have within := lane_add_size loads.aligned
    rw [lane_add R.aligned inWord] at within
    have byte (word : BitVec 32) {l : ℕ} (inside : l < op.size) :
        laneBytes word
          (R.addr + BitVec.ofNat 32 k + BitVec.ofNat 32 l) =
            word.extractLsb' (8 * (k + l)) 8 := by
      rw [BitVec.add_assoc, ← BitVec.ofNat_add, laneBytes,
        lane_add R.aligned (by omega)]
    rw [if_neg zero, or_iff_right zero]
    constructor
    · intro same l above below
      have bytes := same (l - k) (by omega)
      rw [byte _ (by omega), byte _ (by omega),
        Nat.add_sub_cancel' above] at bytes
      simpa using bytes.symm
    · intro clear l inside
      rw [byte _ inside, byte _ inside, clear (k + l) (by omega) (by omega)]
      simp

/-- Every access of the core to a part of the register acts on that part. -/
def ActsOnParts (R : Register p) (q : Params) : Prop :=
  ∀ s ready pins k, p.Reachable s → p.Free s ready → k < 4 →
    (∀ c : Core q, c.StoresPart (R.addr + BitVec.ofNat 32 k) →
      R.StoreActs c s ready pins) ∧
    ∀ (e c : Core q) op,
      e.LoadsPart c op (R.addr + BitVec.ofNat 32 k)
        (p.rdataReg (p.after s ready pins e.dReq)) →
      R.LoadActs c s op

end Register

end Accesses

/-! ## All registers -/

/-- The registers that are both read and written. -/
inductive DeviceRegister (n : ℕ)
  | msip
  | mtimecmp (upper : Bool)
  | mtime (upper : Bool)
  | gpioData
  | gpioDir
  | uartCtrl
  | uartBauddiv
  | plicPriority (e : Fin n)
  | plicEnable
  | plicThreshold

/-- A register of some device. -/
structure SomeRegister where
  {State : Type}
  {Pins : Type}
  {device : Peripheral State Pins}
  register : Register device

/-- The register in its device. -/
def DeviceRegister.place {n : ℕ} (small : n ≤ 15) :
    DeviceRegister n → SomeRegister
  | .msip => ⟨msipRegister⟩
  | .mtimecmp upper => ⟨mtimecmpRegister upper⟩
  | .mtime upper => ⟨mtimeRegister upper⟩
  | .gpioData => ⟨dataRegister⟩
  | .gpioDir => ⟨dirRegister⟩
  | .uartCtrl => ⟨ctrlRegister⟩
  | .uartBauddiv => ⟨bauddivRegister⟩
  | .plicPriority e => ⟨priorityRegister small e⟩
  | .plicEnable => ⟨enableRegister small⟩
  | .plicThreshold => ⟨thresholdRegister n⟩

/-- A store or load of part of a device register acts on its bytes exactly if
it goes to the first byte, without bits lost by a missing strobe, or could not
make a difference. -/
theorem acts_iff {q : Params} {n : ℕ} (small : n ≤ 15)
    (r : DeviceRegister n) (s : (r.place small).State) (ready : Bool)
    (pins : (r.place small).Pins) (k : ℕ)
    (free : (r.place small).device.Free s ready) (inWord : k < 4) :
    let R := (r.place small).register
    (∀ c : Core q, c.StoresPart (R.addr + BitVec.ofNat 32 k) →
      (R.StoreActs c s ready pins ↔
        R.StoreReaches (R.get ((r.place small).device.idle s ready pins))
          c.ex.rs2Val k (storeSize c.ex.funct3))) ∧
    ∀ (e c : Core q) op,
      e.LoadsPart c op (R.addr + BitVec.ofNat 32 k)
        ((r.place small).device.rdataReg
          ((r.place small).device.after s ready pins e.dReq)) →
      (R.LoadActs c s op ↔ R.LoadReaches s k op.size) :=
  ⟨fun _ stores => Register.storeActs_iff free inWord stores,
    fun _ _ _ loads => Register.loadActs_iff free inWord loads⟩

/-- A core with the request of `sb` in EX. -/
def storingByte (a value : BitVec 32) : Core {} :=
  { Core.reset {} {} with
    ex :=
      { ExRegs.reset 0b11 with
        isStore := true
        funct3 := 0b000
        state := .exMemReq
        valid := true
        rs2Val := value
        aluResultReg := a } }

theorem storesPart_storingByte (a value : BitVec 32) :
    (storingByte a value).StoresPart a where
  store := rfl
  other := rfl
  part := Or.inl rfl
  aligned := by simp [isMemMisaligned, storingByte]
  address := rfl

/-- The first byte of the output register. -/
theorem acts_iff_gpioData :
    dataRegister.StoreActs (storingByte 0x10003000 0xAB) GpioState.reset
      true 0 :=
  ((acts_iff (n := 8) (by decide) .gpioData GpioState.reset true
    (0 : BitVec 32) 0 rfl (by decide)).1 _
      (storesPart_storingByte _ _)).mpr (Or.inl rfl)

/-- A byte stored to the second byte of the output register is lost. -/
theorem not_actsOnParts :
    ¬ ∀ (q : Params) (n : ℕ) (small : n ≤ 15) (r : DeviceRegister n),
      (r.place small).register.ActsOnParts q := by
  intro acts
  have start : gpioDevice.Reachable GpioState.reset :=
    ⟨fun _ => (⟨false, ⟨0, false, 0, 0⟩, false⟩, 0), 0, rfl⟩
  have free : gpioDevice.Free GpioState.reset true := rfl
  have stores : (storingByte 0x10003001 0xAB).StoresPart
      (dataRegister.addr + BitVec.ofNat 32 1) :=
    storesPart_storingByte 0x10003001 0xAB
  have store : dataRegister.StoreActs (storingByte 0x10003001 0xAB)
      GpioState.reset true 0 :=
    (acts {} 8 (by decide) .gpioData GpioState.reset true (0 : BitVec 32) 1
      start free (by decide)).1 _ stores
  rcases (Register.storeActs_iff free (by decide) stores).mp store with
    first | agrees
  · exact absurd first (by decide)
  · exact absurd (agrees 8 (by decide) (by decide) (by decide)) (by decide)

end SisRv
