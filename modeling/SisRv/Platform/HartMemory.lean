import SisRv.Isa.Outcomes
import SisRv.Platform.Store

/-!
# The memory of a hart on the platform

The ROM, the bytes of the RAM and the registers of the devices, as a program
sees them, and the accesses to the store that they stand for.
-/

namespace SisRv

open Riscv

/-! ## Bytes -/

/-- The byte under a byte address in a memory of words. -/
def byteOf {w : ℕ} (mem : BitVec w → BitVec 32) (a : BitVec 32) : BitVec 8 :=
  (mem (a.extractLsb' 2 w)).extractLsb' (8 * lane a) 8

/-- An aligned load finds its bytes in one word. -/
theorem value_of_word {w : ℕ} (mem : BitVec w → BitVec 32) {op : LoadOp}
    {a : BitVec 32} (within : lane a + op.size ≤ 4) :
    op.value (wordBytes (mem (a.extractLsb' 2 w))) a =
      op.value (byteOf mem) a := by
  apply LoadOp.value_congr
  intro k inside
  have bound := a.isLt
  simp only [lane] at within
  have value : (a + BitVec.ofNat 32 k).toNat = a.toNat + k := by
    rw [BitVec.toNat_add, BitVec.toNat_ofNat]
    omega
  have index : (a + BitVec.ofNat 32 k).extractLsb' 2 w =
      a.extractLsb' 2 w := by
    rw [← BitVec.toNat_inj, BitVec.extractLsb'_toNat,
      BitVec.extractLsb'_toNat, Nat.shiftRight_eq_div_pow,
      Nat.shiftRight_eq_div_pow, value]
    congr 1
    omega
  rw [byteOf, index]
  rfl

/-- An access at a multiple of its size. -/
def IsAligned (size : ℕ) (a : BitVec 32) : Prop := a.toNat % size = 0

instance (size : ℕ) (a : BitVec 32) : Decidable (IsAligned size a) :=
  inferInstanceAs (Decidable (_ = _))

theorem not_misaligned_of_isAligned {funct3 : BitVec 3} {a : BitVec 32}
    (isAligned : IsAligned (storeSize funct3) a) :
    isMemMisaligned a funct3 = false := by
  unfold IsAligned storeSize at isAligned
  unfold isMemMisaligned
  split_ifs at isAligned with byte half word
  · simp [byte]
  · rw [if_pos half, ← Bool.not_eq_true, bit_zero_iff, lane]
    omega
  · rw [if_neg half, if_pos word, bne_eq_false_iff_eq, lane_eq_zero_iff, lane]
    exact isAligned
  · rw [if_neg half, if_neg word]

theorem size_of_load (op : LoadOp) : storeSize op.funct3 = op.size := by
  cases op <;> rfl

theorem size_of_store (op : StoreOp) : storeSize op.funct3 = op.size := by
  cases op <;> rfl

theorem lane_of_isAligned {size : ℕ} (known : size ∈ [1, 2, 4])
    {a : BitVec 32} (isAligned : IsAligned size a) : lane a + size ≤ 4 := by
  have range := lane_lt a
  simp only [List.mem_cons, List.not_mem_nil, or_false] at known
  unfold IsAligned lane at *
  rcases known with rfl | rfl | rfl <;> omega

/-! ## What a program can change -/

/-- The bytes of the RAM, 0 at all other addresses, and the devices. -/
@[ext]
structure Contents where
  ram : BitVec 32 → BitVec 8
  devices : DeviceState

/-- The bytes of a store. -/
def Store.contents (s : Store) : Contents where
  ram := fun a => if addressMap a = some .ram then byteOf s.ram a else 0
  devices := s.devices

namespace Contents

variable (c : Contents)

/-- A load from ROM or RAM, or of a register of a device. -/
def load (b : Backing) (op : LoadOp) (a : BitVec 32) :
    Option (BitVec 32 × Contents) :=
  if IsAligned op.size a then
    match addressMap a with
    | some .rom =>
        if a.toNat < 0x10000 then some (op.value (byteOf b.rom) a, c) else none
    | some .ram => some (op.value c.ram a, c)
    | _ =>
        (DeviceReg.find a).map fun reg =>
          (op.value (wordBytes (c.devices.read b.pins reg)) a,
            { c with devices := c.devices.take reg })
  else none

/-- A store to the RAM, or to a register of a device. -/
def store (op : StoreOp) (a v : BitVec 32) : Option Contents :=
  if IsAligned op.size a then
    match addressMap a with
    | some .rom => none
    | some .ram => some { c with ram := ByteMemory.write c.ram a (op.bytes v) }
    | _ =>
        (DeviceReg.find a).map fun reg =>
          let req := op.request a v
          { c with devices := c.devices.write req.wdata req.wstrb reg }
  else none

variable {c} {c' : Contents}

theorem isAligned_of_load {b : Backing} {op : LoadOp} {a v : BitVec 32}
    (loads : c.load b op a = some (v, c')) : IsAligned op.size a := by
  by_contra misaligned
  rw [load, if_neg misaligned] at loads
  cases loads

theorem isAligned_of_store {op : StoreOp} {a v : BitVec 32}
    (stores : c.store op a v = some c') : IsAligned op.size a := by
  by_contra misaligned
  rw [store, if_neg misaligned] at stores
  cases stores

end Contents

namespace Backing

variable (b : Backing)

/-- The half words of the ROM. -/
def half (a : BitVec 32) : Option (BitVec 16) :=
  if IsAligned 2 a ∧ a.toNat < 0x10000 then some (b.instrs.half a) else none

/-- The memory of a hart. -/
def memory : Memory Contents :=
  ⟨fun _ => b.half, fun c => c.load b, Contents.store⟩

variable {b}

/-- A register of a device lies apart from the memories. -/
theorem apart_of_find {a : BitVec 32} {reg : DeviceReg}
    (found : DeviceReg.find a = some reg) :
    addressMap a = some reg.device ∧ Common a ∧ lane a = 0 := by
  rw [DeviceReg.eq_of_find found]
  refine ⟨reg.addressMap_addr, ?_, ?_⟩
  · cases reg <;> (unfold Common; decide)
  · cases reg <;> rfl

theorem regular_of_find {req : BusReq} {reg : DeviceReg}
    (found : DeviceReg.find req.addr = some reg) : req.Regular := by
  obtain ⟨named, common, -⟩ := apart_of_find found
  unfold BusReq.Regular
  rw [named]
  cases reg <;> exact common

/-- A request is regular and answered without an error. -/
structure Serves (log : List BusReq) (req : BusReq) (c : Contents) : Prop where
  regular : req.Regular
  ok : (b.answer (log ++ [req])).2 = false
  contents : (b.store (log ++ [req])).contents = c

theorem answer_of_ram {log : List BusReq} {req : BusReq}
    (named : addressMap req.addr = some .ram) :
    b.answer (log ++ [req]) =
      ((b.store log).ram (req.addr.extractLsb' 2 16), false) := by
  rw [answer_concat, Store.read, named]
  rfl

theorem store_of_read {log : List BusReq} {req : BusReq}
    (read : req.we = false) (silent : namesDevice req.addr = false) :
    b.store (log ++ [req]) = b.store log := by
  rw [Backing.store, Store.after_concat]
  exact Store.access_of_silent _ read silent

/-- What a load of the hart gets is in the response to its request. -/
theorem serves_load {log : List BusReq} {op : LoadOp} {a v : BitVec 32}
    {c : Contents} (loads : (b.store log).contents.load b op a = some (v, c))
    {req : BusReq} (addr : req.addr = a) (read : req.we = false) :
    b.Serves log req c ∧
      op.value (wordBytes (b.answer (log ++ [req])).1) a = v := by
  subst addr
  have isAligned := Contents.isAligned_of_load loads
  have within : lane req.addr + op.size ≤ 4 :=
    lane_of_isAligned (by cases op <;> decide) isAligned
  rw [Contents.load, if_pos isAligned] at loads
  split at loads
  case h_1 named =>
    split_ifs at loads with low
    obtain ⟨rfl, rfl⟩ := Prod.mk.inj (Option.some.inj loads)
    have silent : namesDevice req.addr = false := by simp [namesDevice, named]
    refine ⟨⟨?_, ?_, ?_⟩, ?_⟩
    · unfold BusReq.Regular
      rw [named]
      exact ⟨read, low⟩
    · rw [answer_concat, named]
      rfl
    · rw [store_of_read read silent]
    · rw [answer_concat, Store.read, named]
      exact value_of_word b.rom within
  case h_2 named =>
    obtain ⟨rfl, rfl⟩ := Prod.mk.inj (Option.some.inj loads)
    have silent : namesDevice req.addr = false := by simp [namesDevice, named]
    refine ⟨⟨?_, ?_, ?_⟩, ?_⟩
    · unfold BusReq.Regular
      rw [named]
      exact trivial
    · rw [answer_of_ram named]
    · rw [store_of_read read silent]
    · rw [answer_of_ram named, value_of_word _ within]
      refine LoadOp.value_congr fun k inside => ?_
      have inRam := ram_add named (k := k) (by omega)
      exact (if_pos inRam).symm
  case h_3 =>
    obtain ⟨reg, found, result⟩ := Option.map_eq_some_iff.mp loads
    obtain ⟨rfl, rfl⟩ := Prod.mk.inj result
    obtain ⟨named, -, -⟩ := apart_of_find found
    refine ⟨⟨regular_of_find found, ?_, ?_⟩, ?_⟩
    · rw [answer_concat, named]
      rfl
    · rw [Backing.store, Store.after_concat]
      show ((b.store log).access req).contents = _
      simp [Store.access, Store.contents, Store.accessRam, read,
        DeviceState.access, found]
    · rw [answer_concat, Store.read, named]
      have answered : (b.store log).devices.answer b.pins req.addr =
          (b.store log).devices.read b.pins reg := by
        rw [DeviceState.answer, found]
      cases reg <;> simp only [DeviceReg.device, answered] <;> rfl

/-- A write to the RAM replaces the bytes that it stores. -/
theorem byteOf_accessRam {ram : BitVec 16 → BitVec 32} {req : BusReq}
    {x : BitVec 32} (named : addressMap req.addr = some .ram)
    (write : req.we = true) (inRam : addressMap x = some .ram) :
    byteOf (Store.accessRam ram req) x =
      (req.stored x).getD (byteOf ram x) := by
  have same : x.extractLsb' 2 16 = RamState.wordIndex req ↔
      x.toNat / 4 = req.addr.toNat / 4 := RamState.wordIndex_iff inRam named
  simp only [byteOf, Store.accessRam, BusReq.stored, named, write, true_and,
    if_true]
  by_cases word : x.toNat / 4 = req.addr.toNat / 4
  · rw [if_pos (same.mpr word), RamState.applyWstrb_lane _ _ _ (lane_lt x)]
    simp only [word, true_and]
    split_ifs <;> rfl
  · simp [same, word]

/-- No byte of an aligned store lies beside the RAM. -/
theorem bytes_in_ram {op : StoreOp} {a v x : BitVec 32}
    (named : addressMap a = some .ram) (isAligned : IsAligned op.size a)
    (outside : addressMap x ≠ some .ram) :
    (op.bytes v)[(x - a).toNat]? = none := by
  have within : lane a + op.size ≤ 4 :=
    lane_of_isAligned (by cases op <;> decide) isAligned
  have size : op.size ≤ 4 := by omega
  rw [StoreOp.bytes, ByteMemory.getElem?_take_bytes size, if_neg]
  intro inside
  have inRam := ram_add named (k := (x - a).toNat) (by omega)
  rw [BitVec.ofNat_toNat, BitVec.setWidth_eq, add_sub_cancel] at inRam
  exact outside inRam

/-- What a store of the hart changes is what its request changes. -/
theorem serves_store {log : List BusReq} {op : StoreOp} {a v : BitVec 32}
    {c : Contents} (stores : (b.store log).contents.store op a v = some c)
    {req : BusReq} (addr : req.addr = a) (write : req.we = true)
    (bytes : ∀ x, req.stored x = (op.bytes v)[(x - a).toNat]?)
    (lowest : lane a = 0 → req = op.request a v) :
    b.Serves log req c := by
  subst addr
  have isAligned := Contents.isAligned_of_store stores
  rw [Contents.store, if_pos isAligned] at stores
  have after : (b.store (log ++ [req])).contents =
      ((b.store log).access req).contents := by
    rw [Backing.store, Store.after_concat]
    rfl
  split at stores
  case h_1 => cases stores
  case h_2 named =>
    obtain rfl := Option.some.inj stores
    have silent : namesDevice req.addr = false := by simp [namesDevice, named]
    refine ⟨?_, ?_, ?_⟩
    · unfold BusReq.Regular
      rw [named]
      exact trivial
    · rw [answer_of_ram named]
    · rw [after]
      ext1
      · funext x
        simp only [Store.contents, Store.access, ByteMemory.write]
        by_cases inRam : addressMap x = some .ram
        · rw [if_pos inRam, if_pos inRam, byteOf_accessRam named write inRam,
            bytes]
        · rw [if_neg inRam, if_neg inRam,
            bytes_in_ram named isAligned inRam]
          rfl
      · exact DeviceState.access_elsewhere _ silent
  case h_3 =>
    obtain ⟨reg, found, rfl⟩ := Option.map_eq_some_iff.mp stores
    obtain ⟨named, -, zero⟩ := apart_of_find found
    have request := lowest zero
    refine ⟨regular_of_find found, ?_, ?_⟩
    · rw [answer_concat, named]
      rfl
    · have notRam : addressMap req.addr ≠ some .ram := by
        rw [named]
        cases reg <;> decide
      have devices : (b.store log).devices.access req =
          (b.store log).devices.write req.wdata req.wstrb reg := by
        rw [DeviceState.access, found, write]
        rfl
      rw [after, ← request]
      simp only [Store.contents, Store.access, devices, Store.accessRam,
        notRam, false_and, if_false]

end Backing

end SisRv
