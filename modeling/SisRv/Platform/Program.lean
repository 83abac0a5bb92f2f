import SisRv.Core.Ordinary
import SisRv.Platform.HartMemory

/-!
# Programs in the ROM

An instruction that lies in the ROM arrives in EX with its operands, and the
front end does not run so far ahead of it that it reads a device.
-/

namespace SisRv

open Riscv Sync

/-! ## Instructions in memory -/

/-- The low bits tell short from full instructions. -/
theorem Riscv.Instr.encode_low (i : Instr) :
    i.encode.extractLsb' 0 2 = 0b11 := by
  have low : (i.encode.extractLsb' 0 7).extractLsb' 0 2 =
      i.encode.extractLsb' 0 2 :=
    BitField.extract_extract _ (by decide)
  rw [← low]
  cases i with
  | base i => cases i <;> simp [Instr.encode, Base.encode]
  | _ => simp [Instr.encode]

theorem Riscv.Rvc.encode_low {i : Rvc} (proper : i.wellFormed = true) :
    i.encode.extractLsb' 0 2 ≠ 0b11 := by
  intro full
  have decoded := Rvc.candidate_encode proper
  rw [Rvc.candidate, full] at decoded
  exact absurd decoded (by simp)

/-- The expander takes the instruction. -/
def Riscv.Parcel.Accepted : Parcel → Prop
  | short i => i.shiftHint = false
  | full _ => True

/-- What is latched into IF/ID for it. -/
def Riscv.Parcel.latched (pc : BitVec 32) : Parcel → IfId
  | short i => Core.compressedParcel pc i.encode
  | full i => Core.fullParcel pc i.encode false

/-- The instruction at a PC is the one that lies there. -/
theorem parcelAt_of_liesAt {mem : InstrMemory} {denied : BitVec 30 → Bool}
    {half : BitVec 32 → Option (BitVec 16)} {pc : BitVec 32} {parcel : Parcel}
    (read : ∀ {a h}, half a = some h → mem.half a = h)
    (accepts : ∀ addr, mem.refused denied addr = false)
    (lies : parcel.LiesAt half pc) :
    mem.parcelAt true denied pc = parcel.latched pc := by
  rw [InstrMemory.parcelAt, accepts, accepts, if_neg Bool.false_ne_true]
  cases parcel with
  | short i =>
      obtain ⟨proper, at_⟩ := lies
      have short : mem.compressed true pc = true := by
        rw [InstrMemory.compressed, read at_,
          bne_iff_ne.mpr (Rvc.encode_low proper)]
        rfl
      rw [if_pos short, read at_]
      rfl
  | full i =>
      obtain ⟨low, high⟩ := lies
      have full : mem.compressed true pc = false := by
        have bits := i.encode_low
        rw [InstrMemory.compressed, read low,
          BitField.extract_extract _ (by decide)]
        simp [bits]
      rw [full, if_neg Bool.false_ne_true, read low, read high,
        InstrMemory.word_of_halves]
      rfl

/-! ## The instruction in EX -/

namespace Arch

variable {p : Params} (m : Arch p)

/-- The registers as instructions read them. -/
def operands : BitVec 5 → BitVec 32 := fun a => if a = 0 then 0 else m.regs a

variable {m} {mem : InstrMemory} {parcel : Parcel}
  {half : BitVec 32 → Option (BitVec 16)}

section Latched

variable (latched : (m.fetching mem).fe.ifId = parcel.latched m.pc)
  (lies : parcel.LiesAt half m.pc) (accepted : parcel.Accepted)
include latched lies accepted

theorem decoded_of_latched :
    (m.fetching mem).decodedInstr = parcel.word ∧
      ((m.fetching mem).fe.ifId.isCompressed &&
        (m.fetching mem).decomp.illegalO) = false := by
  cases parcel with
  | short i =>
      have encoded : (m.fetching mem).decomp = sisDecompress i.encode := by
        rw [Core.decomp, latched]
        show sisDecompress ((0#16 ++ i.encode).extractLsb' 0 16) = _
        rw [BitVec.extractLsb'_append_eq_right]
      constructor
      · rw [Core.decodedInstr, encoded, latched]
        exact instrO_of_encode lies.1 accepted rfl
      · rw [encoded, sisDecompress, expandParcel_of_encode lies.1 rfl,
          Rvc.expansion_of lies.1 accepted]
        simp
  | full i =>
      constructor
      · rw [Core.decodedInstr, latched]
        rfl
      · rw [latched]
        rfl

/-- EX gets the instruction with its operands. -/
theorem holds_of_latched :
    (m.begun mem).Holds parcel m.operands ∧ (m.begun mem).ex.pc = m.pc ∧
      (m.begun mem).ex.illegalCompressed = false ∧
      (m.begun mem).ex.fetchErr = false := by
  obtain ⟨word, expanded⟩ := decoded_of_latched latched lies accepted
  have pc : (m.begun mem).ex.pc = m.pc := by
    show (m.fetching mem).fe.ifId.pc = m.pc
    rw [latched]
    cases parcel <;> rfl
  have operand (rs : BitVec 5) :
      (m.fetching mem).idOperand {} rs = m.operands rs :=
    Run.idOperand_fetching mem rs
  refine ⟨⟨⟨?_, ?_, ?_⟩, word, ?_⟩, pc, expanded, ?_⟩
  · rw [← word]
    rfl
  · rw [← word]
    exact operand _
  · rw [← word]
    exact operand _
  · have len : (m.begun mem).ex.len = (parcel.latched m.pc).len := by
      rw [← latched]
      rfl
    rw [Core.exLength, len]
    cases parcel <;> rfl
  · show (m.fetching mem).fe.ifId.fetchErr = false
    rw [latched]
    cases parcel <;> rfl

end Latched

end Arch

/-! ## Fetches -/

namespace Backing

variable {b : Backing} {a : BitVec 32} {h : BitVec 16}

theorem half_eq_some (at_ : b.half a = some h) :
    b.instrs.half a = h ∧ a.toNat % 2 = 0 ∧ a.toNat < 0x10000 := by
  unfold Backing.half at at_
  split_ifs at at_ with inside
  exact ⟨Option.some.inj at_, inside.1, inside.2⟩

theorem inRom_of_half (at_ : b.half a = some h) :
    InRom (a.extractLsb' 2 30) := by
  obtain ⟨-, -, low⟩ := half_eq_some at_
  rw [InRom, BitVec.extractLsb'_toNat, Nat.shiftRight_eq_div_pow]
  omega

/-- The first half word of an instruction. -/
theorem half_of_liesAt {parcel : Parcel} (lies : parcel.LiesAt b.half a) :
    ∃ h, b.half a = some h := by
  cases parcel with
  | short i => exact ⟨_, lies.2⟩
  | full i => exact ⟨_, lies.1⟩

end Backing

namespace Run

variable {p : Params} {r : Run p} {b : Backing} {store : ℕ → Store}
  {parcel : Parcel} {n : ℕ}

/-- A word of the ROM is read as it is. -/
theorem readAs_of_inRom (backed : r.BackedBy b store) {w : Fetch}
    (fetched : r.IsFetch w) (inRom : InRom w.addr) : r.ReadAs b.instrs w :=
  backed.fetch fetched.1 fetched.2 inRom

/-- The words of an instruction in the ROM. -/
theorem readAs_of_assembled (enableC : p.enableC = true)
    (backed : r.BackedBy b store) {fetches : List Fetch} {ifId : IfId}
    (assembled : r.Assembled n fetches ifId)
    (lies : parcel.LiesAt b.half ifId.pc) :
    ∀ w ∈ fetches, r.ReadAs b.instrs w := by
  have first {w : Fetch} (fetched : r.IsFetch w)
      (address : w.addr = ifId.pc.extractLsb' 2 30) :
      r.ReadAs b.instrs w := by
    obtain ⟨h, at_⟩ := Backing.half_of_liesAt lies
    refine readAs_of_inRom backed fetched ?_
    rw [address]
    exact Backing.inRom_of_half at_
  cases assembled with
  | word w pc live address complete =>
      intro v member
      obtain rfl := List.mem_singleton.mp member
      exact first live.fetched (by rw [address, wordParcel_pc])
  | straddle w v pc live nextLive address nextAddress half =>
      have lies : parcel.LiesAt b.half pc := lies
      have read : r.ReadAs b.instrs w := first live.fetched address
      simp only [wordCompletes, Bool.or_eq_false_iff, Bool.not_eq_false',
        enableC, Bool.true_and, bne_eq_false_iff_eq] at half
      obtain ⟨⟨-, upper⟩, long⟩ := half
      obtain ⟨nextWord, -⟩ := InstrMemory.next_of_upper upper
      -- the first half says that a second one follows
      have second : ∃ h, b.half (pc + 2) = some h := by
        cases parcel with
        | full i => exact ⟨_, lies.2⟩
        | short i =>
            have at_ := (Backing.half_eq_some lies.2).1
            rw [InstrMemory.half_of_upper upper, ← address, ← read.1] at at_
            have bits := Rvc.encode_low lies.1
            rw [← at_, slice_of_slice (by decide)] at bits
            exact absurd long bits
      obtain ⟨h, at_⟩ := second
      intro u member
      rcases List.mem_pair.mp member with rfl | rfl
      · exact read
      · refine readAs_of_inRom backed nextLive.fetched ?_
        rw [nextAddress, ← nextWord]
        exact Backing.inRom_of_half at_

/-! ### How far the front end is ahead -/

theorem toNat_sequential (pc : BitVec 32) (len : BitVec 2) :
    (pc + lenBytes len).toNat ≤ pc.toNat + 4 := by
  have small : (lenBytes len).toNat ≤ 4 := by
    unfold lenBytes
    split_ifs <;> decide
  rw [BitVec.toNat_add]
  have bound := Nat.mod_le (pc.toNat + (lenBytes len).toNat) (2 ^ 32)
  omega

theorem toNat_fetchPc (r : Run p) (n : ℕ) :
    (r.state n).fe.fetchPc.toNat ≤ (r.state n).oldestPc.toNat + 8 := by
  have front : (r.state n).frontPc.toNat ≤
      (r.state n).oldestPc.toNat + 4 := by
    rw [Core.oldestPc]
    by_cases valid : (r.state n).ex.valid = true
    · rw [if_pos valid, r.exFollowed n valid]
      exact toNat_sequential _ _
    · rw [if_neg valid]
      omega
  rw [Core.frontPc] at front
  by_cases full : (r.state n).fe.ifId.valid = true
  · rw [if_pos full] at front
    have next := (r.feSound n).nextPc full
    have ahead := toNat_sequential (r.state n).fe.ifId.pc
      (r.state n).fe.ifId.len
    rw [next, IfId.nextPc]
    omega
  · rw [if_neg full] at front
    omega

/-- A fetch is of the word at the fetch address or of the next one. -/
theorem word_of_iAccepts {addr : BitVec 30}
    (accepts : r.iAccepts n = some addr) :
    addr = (r.state n).fe.fetchPc.extractLsb' 2 30 ∨
      addr = (r.state n).fe.fetchPc.extractLsb' 2 30 + 1 := by
  unfold iAccepts at accepts
  split_ifs at accepts with fire
  obtain rfl := Option.some.inj accepts
  rw [Bool.and_eq_true] at fire
  rcases Core.accepted_request fire.1 fire.2 with
    ⟨-, -, demand⟩ | ⟨-, -, prefetch⟩
  · rw [demand, Core.demandAddr]
    by_cases second : (r.state n).fe.ifState = .ifSecondReq
    · rw [if_pos second]
      have keeps : (r.state n).fe.ifDiscardRsp = false := by
        by_contra discards
        have waits := (r.feSound n).discard (by simpa using discards)
        simp [Core.ifWaiting, second] at waits
      rw [(r.feSound n).fetchReqPc (by simp [second]) keeps]
      exact Or.inr rfl
    · rw [if_neg second]
      exact Or.inl rfl
  · rw [prefetch]
    exact Or.inr rfl

/-- In the ROM no fetch goes so far ahead that it names a device. -/
theorem fetch_of_low (low : (r.state n).oldestPc.toNat < 0x10000)
    {addr : BitVec 30} (accepts : r.iAccepts n = some addr) :
    namesDevice (addr ++ 0#2 : BitVec 32) = false := by
  have ahead := r.toNat_fetchPc n
  have small : (addr ++ 0#2 : BitVec 32).toNat ≤ 0x1FFFFF := by
    have word : ((r.state n).fe.fetchPc.extractLsb' 2 30).toNat =
        (r.state n).fe.fetchPc.toNat / 4 % 2 ^ 30 := by
      rw [BitVec.extractLsb'_toNat, Nat.shiftRight_eq_div_pow]
    have bound := Nat.mod_le ((r.state n).fe.fetchPc.toNat / 4) (2 ^ 30)
    rw [Core.toNat_word]
    rcases word_of_iAccepts accepts with rfl | rfl
    · omega
    · have one : (1 : BitVec 30).toNat = 1 := rfl
      rw [BitVec.toNat_add, word, one]
      omega
  have rom : addressMap (addr ++ 0#2 : BitVec 32) = some .rom := by
    rw [addressMap, if_pos small]
  rw [namesDevice, rom]

end Run

end SisRv
