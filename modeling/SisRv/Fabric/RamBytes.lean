import SisRv.Core.Atomics
import SisRv.Fabric.Devices

/-!
# The RAM as a byte memory

The bytes of the RAM under their addresses, what a request does to them, and
the lanes in which the core puts and finds them.
-/

namespace SisRv

open Riscv

/-! ## Bytes of the RAM -/

/-- The lane of a byte address in its word. -/
def lane (a : BitVec 32) : ℕ := a.toNat % 4

theorem lane_eq (a : BitVec 32) : (a.extractLsb' 0 2).toNat = lane a := by
  rw [BitVec.extractLsb'_toNat, Nat.shiftRight_zero]
  rfl

/-- The byte that a request stores under an address. -/
def BusReq.stored (req : BusReq) (a : BitVec 32) : Option (BitVec 8) :=
  if req.we = true ∧ a.toNat / 4 = req.addr.toNat / 4 ∧
      req.wstrb.getLsbD (lane a) = true then
    some (req.wdata.extractLsb' (8 * lane a) 8)
  else none

theorem lane_lt (a : BitVec 32) : lane a < 4 := Nat.mod_lt _ (by decide)

theorem ram_iff (a : BitVec 32) :
    addressMap a = some .ram ↔
      0x80000000 ≤ a.toNat ∧ a.toNat ≤ 0x8003FFFF := by
  unfold addressMap
  dsimp only
  split_ifs <;> simp <;> omega

/-- The word of an address of the RAM lies in the RAM. -/
theorem ram_add {a : BitVec 32} {k : ℕ} (inRam : addressMap a = some .ram)
    (within : lane a + k < 4) :
    addressMap (a + BitVec.ofNat 32 k) = some .ram := by
  rw [ram_iff] at inRam ⊢
  rw [lane] at within
  rw [BitVec.toNat_add, BitVec.toNat_ofNat]
  omega

namespace RamState

variable (s : RamState)

/-- The byte under a byte address. -/
def byte (a : BitVec 32) : BitVec 8 :=
  (s.mem (a.extractLsb' 2 16)).extractLsb' (8 * lane a) 8

/-- In the RAM two addresses with the same word index lie in one word. -/
theorem wordIndex_iff {a b : BitVec 32} (left : addressMap a = some .ram)
    (right : addressMap b = some .ram) :
    a.extractLsb' 2 16 = b.extractLsb' 2 16 ↔
      a.toNat / 4 = b.toNat / 4 := by
  have above := (ram_iff a).mp left
  have below := (ram_iff b).mp right
  rw [← BitVec.toNat_inj, BitVec.extractLsb'_toNat, BitVec.extractLsb'_toNat,
    Nat.shiftRight_eq_div_pow, Nat.shiftRight_eq_div_pow]
  omega

theorem applyWstrb_lane (old new : BitVec 32) (strb : BitVec 4) {l : ℕ}
    (bound : l < 4) :
    (applyWstrb old new strb).extractLsb' (8 * l) 8 =
      if strb.getLsbD l then new.extractLsb' (8 * l) 8
      else old.extractLsb' (8 * l) 8 := by
  rw [applyWstrb]
  interval_cases l <;>
    simp (disch := omega) only [BitVec.extractLsb'_append_eq_of_add_le,
      BitVec.extractLsb'_append_eq_of_le] <;> simp

/-- An accepted request replaces the bytes that it stores. -/
theorem byte_next {i : SlaveIn} {a : BitVec 32}
    (inRam : addressMap a = some .ram)
    (names : s.reqFire i = true → addressMap i.req.addr = some .ram) :
    (s.next i).byte a =
      if s.reqFire i then (i.req.stored a).getD (s.byte a)
      else s.byte a := by
  by_cases fire : s.reqFire i = true
  · have same : a.extractLsb' 2 16 = wordIndex i.req ↔
        a.toNat / 4 = i.req.addr.toNat / 4 := wordIndex_iff inRam (names fire)
    rw [next, if_pos fire, if_pos fire]
    simp only [byte, BusReq.stored]
    by_cases we : i.req.we = true
    · by_cases word : a.toNat / 4 = i.req.addr.toNat / 4
      · simp only [we, word, if_true, write, if_pos (same.mpr word),
          applyWstrb_lane _ _ _ (lane_lt a), true_and]
        split_ifs <;> rfl
      · simp [we, word, write, same]
    · simp [we]
  · rw [next, if_neg fire, if_neg fire]
    split_ifs <;> rfl

/-- A byte of the word that an address lies in. -/
theorem byte_add {a : BitVec 32} {k : ℕ} (within : lane a + k < 4) :
    s.byte (a + BitVec.ofNat 32 k) =
      (s.mem (a.extractLsb' 2 16)).extractLsb' (8 * (lane a + k)) 8 := by
  have bound := a.isLt
  simp only [lane] at within ⊢
  have value : (a + BitVec.ofNat 32 k).toNat = a.toNat + k := by
    rw [BitVec.toNat_add, BitVec.toNat_ofNat]
    omega
  have word : (a + BitVec.ofNat 32 k).extractLsb' 2 16 =
      a.extractLsb' 2 16 := by
    rw [← BitVec.toNat_inj, BitVec.extractLsb'_toNat,
      BitVec.extractLsb'_toNat, Nat.shiftRight_eq_div_pow,
      Nat.shiftRight_eq_div_pow, value]
    omega
  have place : (a.toNat + k) % 4 = a.toNat % 4 + k := by omega
  rw [byte, word, lane, value, place]

end RamState

/-! ## Store lanes -/

/-- The number of bytes of a store, also of one with a reserved `funct3`. -/
def storeSize (funct3 : BitVec 3) : ℕ :=
  if funct3.extractLsb' 0 2 = 0b00 then 1
  else if funct3.extractLsb' 0 2 = 0b01 then 2
  else if funct3.extractLsb' 0 2 = 0b10 then 4
  else 0

theorem bit_zero_iff (a : BitVec 32) :
    a.getLsbD 0 = true ↔ lane a % 2 = 1 := by
  rw [← BitVec.testBit_toNat, Nat.testBit_eq_decide_div_mod_eq,
    decide_eq_true_eq, lane]
  omega

theorem bit_one_iff (a : BitVec 32) :
    a.getLsbD 1 = true ↔ lane a / 2 = 1 := by
  rw [← BitVec.testBit_toNat, Nat.testBit_eq_decide_div_mod_eq,
    decide_eq_true_eq, lane]
  omega

theorem lane_eq_zero_iff (a : BitVec 32) :
    a.extractLsb' 0 2 = 0 ↔ lane a = 0 := by
  rw [← BitVec.toNat_inj, lane_eq]
  rfl

/-- The lane of an access of two or four bytes that is not misaligned. -/
theorem lane_of_half {a : BitVec 32} {funct3 : BitVec 3}
    (size : funct3.extractLsb' 0 2 = 0b01)
    (aligned : isMemMisaligned a funct3 = false) : lane a % 2 = 0 := by
  rw [isMemMisaligned, if_pos size] at aligned
  have odd := (bit_zero_iff a).not.mp
    (by rw [aligned]; exact Bool.false_ne_true)
  omega

theorem lane_of_word {a : BitVec 32} {funct3 : BitVec 3}
    (size : funct3.extractLsb' 0 2 = 0b10)
    (aligned : isMemMisaligned a funct3 = false) : lane a = 0 := by
  rw [isMemMisaligned, size, if_neg (by decide), if_pos rfl] at aligned
  exact (lane_eq_zero_iff a).mp (by simpa using aligned)

/-- A byte of the low part of a value that is moved up to a lane. -/
theorem extractLsb'_moved (v : BitVec 32) {w k j : ℕ} (inside : j + 8 ≤ w)
    (within : k + j + 8 ≤ 32) :
    ((v.extractLsb' 0 w).setWidth 32 <<< k).extractLsb' (k + j) 8 =
      v.extractLsb' j 8 := by
  ext b bound
  have reaches : k + j + b < 32 := by omega
  have above : ¬ k + j + b < k := by omega
  have offset : k + j + b - k = j + b := by omega
  have low : j + b < w := by omega
  have short : j + b < 32 := by omega
  simp [reaches, above, offset, low, short]

namespace Core

variable {p : Params} {s : Core p}

/-- The strobes of a store are the lanes of its bytes. -/
theorem storeStrb_lane
    (aligned : isMemMisaligned s.exMemReqAddr s.ex.funct3 = false) {l : ℕ}
    (bound : l < 4) :
    s.storeStrb.getLsbD l = true ↔ lane s.exMemReqAddr ≤ l ∧
      l < lane s.exMemReqAddr + storeSize s.ex.funct3 := by
  have range := lane_lt s.exMemReqAddr
  have high := bit_one_iff s.exMemReqAddr
  have half := @lane_of_half s.exMemReqAddr s.ex.funct3
  have word := @lane_of_word s.exMemReqAddr s.ex.funct3
  simp only [storeStrb, storeSize, lane_eq]
  generalize lane s.exMemReqAddr = d at *
  split_ifs with one two upper four
  · interval_cases d <;> interval_cases l <;> decide
  · have place : d = 2 := by
      have even := half two aligned
      have top := high.mp upper
      omega
    subst place
    interval_cases l <;> decide
  · have place : d = 0 := by
      have even := half two aligned
      have bottom := high.not.mp upper
      omega
    subst place
    interval_cases l <;> decide
  · rw [word four aligned]
    interval_cases l <;> decide
  · simp

theorem lane_add_storeSize
    (aligned : isMemMisaligned s.exMemReqAddr s.ex.funct3 = false) :
    lane s.exMemReqAddr + storeSize s.ex.funct3 ≤ 4 := by
  have range := lane_lt s.exMemReqAddr
  have half := @lane_of_half s.exMemReqAddr s.ex.funct3
  have word := @lane_of_word s.exMemReqAddr s.ex.funct3
  unfold storeSize
  split_ifs with one two four
  · omega
  · have even := half two aligned
    omega
  · rw [word four aligned]
  · omega

/-- The byte of a store in one of its lanes. -/
theorem storeData_lane
    (aligned : isMemMisaligned s.exMemReqAddr s.ex.funct3 = false) {l : ℕ}
    (above : lane s.exMemReqAddr ≤ l)
    (within : l < lane s.exMemReqAddr + storeSize s.ex.funct3)
    (bound : l < 4) :
    s.storeData.extractLsb' (8 * l) 8 =
      s.ex.rs2Val.extractLsb' (8 * (l - lane s.exMemReqAddr)) 8 := by
  have range := lane_lt s.exMemReqAddr
  have high := bit_one_iff s.exMemReqAddr
  have half := @lane_of_half s.exMemReqAddr s.ex.funct3
  have word := @lane_of_word s.exMemReqAddr s.ex.funct3
  obtain ⟨k, rfl⟩ := Nat.exists_eq_add_of_le above
  rw [Nat.add_sub_cancel_left]
  simp only [storeSize] at within
  simp only [storeData, lane_eq]
  generalize lane s.exMemReqAddr = d at *
  split_ifs with one two upper four
  · rw [if_pos one] at within
    have first : k = 0 := by omega
    subst first
    exact extractLsb'_moved _ (k := 8 * d) (j := 0) (by omega) (by omega)
  · rw [if_neg one, if_pos two] at within
    have place : d = 2 := by
      have even := half two aligned
      have top := high.mp upper
      omega
    subst place
    rw [Nat.mul_add]
    exact extractLsb'_moved _ (k := 16) (by omega) (by omega)
  · rw [if_neg one, if_pos two] at within
    have place : d = 0 := by
      have even := half two aligned
      have bottom := high.not.mp upper
      omega
    subst place
    have low := extractLsb'_moved s.ex.rs2Val (w := 16) (k := 0)
      (j := 8 * k) (by omega) (by omega)
    simpa using low
  · rw [word four aligned, Nat.zero_add]
  · rw [if_neg one, if_neg two, if_neg four] at within
    omega

/-- A store puts its bytes at its address and after it. -/
theorem stored_of_store
    (aligned : isMemMisaligned s.exMemReqAddr s.ex.funct3 = false)
    (store : s.ex.isStore = true) (other : s.ex.isAtomic = false)
    (a : BitVec 32) :
    s.dReq.stored a =
      ((ByteMemory.bytes s.ex.rs2Val).take (storeSize s.ex.funct3))[
        (a - s.exMemReqAddr).toNat]? := by
  have fits := lane_add_storeSize aligned
  have reached : (a - s.exMemReqAddr).toNat < storeSize s.ex.funct3 ↔
      a.toNat / 4 = s.exMemReqAddr.toNat / 4 ∧
        lane s.exMemReqAddr ≤ lane a ∧
        lane a < lane s.exMemReqAddr + storeSize s.ex.funct3 :=
    ByteMemory.offset_lt_iff fits
  have request : s.dReq =
      ⟨s.exMemReqAddr, true, s.storeData, s.storeStrb⟩ := by
    simp [dReq, dReqAddr, dReqWe, dReqWdata, dReqWstrb, store, other]
  rw [request, ByteMemory.getElem?_take_bytes (by omega)]
  simp only [BusReq.stored, storeStrb_lane aligned (lane_lt a), true_and]
  by_cases inside : (a - s.exMemReqAddr).toNat < storeSize s.ex.funct3
  · obtain ⟨word, above, below⟩ := reached.mp inside
    rw [if_pos ⟨word, above, below⟩, if_pos inside,
      storeData_lane aligned above below (lane_lt a),
      ByteMemory.offset_eq word above]
    rfl
  · rw [if_neg (reached.not.mp inside), if_neg inside]

end Core

/-! ## Load lanes -/

section Loads

variable (ram : RamState) {a : BitVec 32}

theorem byte_eq :
    ram.byte a =
      (ram.mem (a.extractLsb' 2 16)).extractLsb' (8 * lane a) 8 := rfl

/-- An aligned half word of the RAM is the upper or the lower one. -/
theorem half_eq (aligned : lane a % 2 = 0) :
    ByteMemory.half ram.byte a =
      (ram.mem (a.extractLsb' 2 16)).extractLsb'
        (if a.getLsbD 1 then 16 else 0) 16 := by
  have range := lane_lt a
  have next : ram.byte (a + 1) = _ := ram.byte_add (k := 1) (by omega)
  rw [ByteMemory.half, next, byte_eq]
  generalize ram.mem (a.extractLsb' 2 16) = word
  rcases bit : a.getLsbD 1
  · have place : lane a = 0 := by
      have bottom := (bit_one_iff a).not.mp
        (by rw [bit]; exact Bool.false_ne_true)
      omega
    rw [place]
    simp (disch := decide) only
      [BitVec.extractLsb'_append_extractLsb'_eq_extractLsb']
    rfl
  · have place : lane a = 2 := by
      have top := (bit_one_iff a).mp bit
      omega
    rw [place]
    simp (disch := decide) only
      [BitVec.extractLsb'_append_extractLsb'_eq_extractLsb']
    rfl

theorem word_eq (aligned : lane a = 0) :
    ByteMemory.word ram.byte a = ram.mem (a.extractLsb' 2 16) := by
  have one : ram.byte (a + 1) = _ := ram.byte_add (k := 1) (by omega)
  have two : ram.byte (a + 2) = _ := ram.byte_add (k := 2) (by omega)
  have three : ram.byte (a + 3) = _ := ram.byte_add (k := 3) (by omega)
  rw [ByteMemory.word, one, two, three, byte_eq, aligned]
  generalize ram.mem (a.extractLsb' 2 16) = word
  simp (disch := decide) only
    [BitVec.extractLsb'_append_extractLsb'_eq_extractLsb']
  simp

theorem lane_add_size {op : LoadOp}
    (aligned : isMemMisaligned a op.funct3 = false) :
    lane a + op.size ≤ 4 := by
  have range := lane_lt a
  cases op with
  | lb => exact range
  | lbu => exact range
  | lh =>
      have even := lane_of_half (by decide) aligned
      simp only [LoadOp.size]
      omega
  | lhu =>
      have even := lane_of_half (by decide) aligned
      simp only [LoadOp.size]
      omega
  | lw =>
      have zero := lane_of_word (by decide) aligned
      simp [LoadOp.size, zero]

end Loads

/-- What a load finds in the word read is its value. -/
theorem Core.wbLoadResult_of_word {p : Params} {s : Core p} (ram : RamState)
    {op : LoadOp} (funct3 : s.wb.funct3 = op.funct3)
    (aligned : isMemMisaligned s.wb.memAddr op.funct3 = false)
    (read : s.wb.memRdata = ram.mem (s.wb.memAddr.extractLsb' 2 16)) :
    s.wbLoadResult = op.value ram.byte s.wb.memAddr := by
  simp only [wbLoadResult, funct3, read, lane_eq]
  cases op with
  | lb => rfl
  | lbu => rfl
  | lh =>
      rw [LoadOp.value, half_eq ram (lane_of_half rfl aligned)]
      rfl
  | lhu =>
      rw [LoadOp.value, half_eq ram (lane_of_half rfl aligned)]
      rfl
  | lw => exact (word_eq ram (lane_of_word rfl aligned)).symm

/-- A load that leaves with the answer of the RAM. -/
theorem Core.wbLoadResult_of_leave {p : Params} {s : Core p} {i : CoreIn}
    (ram : RamState) {op : LoadOp} (leaves : s.exToWbFire i = true)
    (goes : s.wbSingleStepStop = false) (state : s.ex.state = .exMemWait)
    (funct3 : s.ex.funct3 = op.funct3)
    (aligned : isMemMisaligned s.ex.memAddrReg op.funct3 = false)
    (read : i.dRspRdata = ram.mem (s.ex.memAddrReg.extractLsb' 2 16)) :
    (s.step i).wbLoadResult = op.value ram.byte s.ex.memAddrReg := by
  have wb := step_wb_of_leave leaves goes
  have later : s.exExecToWb = false := by simp [exExecToWb, state]
  have answers : s.exMemToWb i = true := by
    rw [leave_of_memWait state] at leaves
    simpa [exMemToWb, state, and_assoc] using leaves
  have address : (s.step i).wb.memAddr = s.ex.memAddrReg := by
    rw [wb]
    simp [completedWb, exCompleteMemAddr, later]
  rw [← address] at aligned read ⊢
  refine wbLoadResult_of_word ram ?_ aligned ?_
  · rw [wb]
    exact funct3
  · rw [← read, wb]
    simp [completedWb, exCompleteMemRdata, answers]

end SisRv
