import SisRv.Isa.Compressed
import SisRv.Isa.Multiply
import SisRv.Lib.Riscv.Hart

/-!
# The outcome of any instruction of RV32IMC

What EX holds in its first cycle decides what the instruction asks for, where
it goes and what it writes.
-/

namespace SisRv

open Riscv

/-! ## RV32M -/

section Multiply

variable (a b : BitVec 32) (x : BitVec 64)

theorem high_of_toInt : x.extractLsb' 32 32 =
    BitVec.ofInt 32 (x.toInt / 2 ^ 32) := by
  have bound := (x.extractLsb' 0 32).isLt
  have high : x.toInt / 2 ^ 32 = (x.extractLsb' 32 32).toInt := by
    rw [toInt_words x]
    omega
  rw [high, BitVec.ofInt_toInt]

theorem high_of_toNat : x.extractLsb' 32 32 =
    BitVec.ofNat 32 (x.toNat / 2 ^ 32) := by
  have bound := (x.extractLsb' 0 32).isLt
  have high : x.toNat / 2 ^ 32 = (x.extractLsb' 32 32).toNat := by
    rw [toNat_words x]
    omega
  rw [high, BitVec.ofNat_toNat, BitVec.setWidth_eq]

/-- The quotient that does not fit is the least number again. -/
theorem quotient_of_word :
    (if b = 0 then 0xFFFFFFFF#32
      else if a = 0x80000000 ∧ b = 0xFFFFFFFF then 0x80000000
      else a.sdiv b) = MulOp.div.apply a b := by
  rw [MulOp.apply]
  by_cases none : b = 0
  · rw [if_pos none, if_pos none]
    rfl
  rw [if_neg none, if_neg none]
  by_cases overflow : a = 0x80000000 ∧ b = 0xFFFFFFFF
  · rw [if_pos overflow, overflow.1, overflow.2]
    rfl
  · rw [if_neg overflow, ← toInt_sdiv a b overflow, BitVec.ofInt_toInt]

theorem remainder_of_word :
    (if b = 0 then a
      else if a = 0x80000000 ∧ b = 0xFFFFFFFF then 0
      else a.srem b) = MulOp.rem.apply a b := by
  rw [MulOp.apply]
  by_cases none : b = 0
  · rw [if_pos none, if_pos none]
  rw [if_neg none, if_neg none]
  by_cases overflow : a = 0x80000000 ∧ b = 0xFFFFFFFF
  · rw [if_pos overflow, overflow.1, overflow.2]
    rfl
  · rw [if_neg overflow, ← BitVec.toInt_srem, BitVec.ofInt_toInt]

theorem rv32mResult_apply (op : MulOp) :
    rv32mResult a b op.funct3 = op.apply a b := by
  cases op with
  | mul =>
      show (a.signExtend 64 * b.signExtend 64).extractLsb' 0 32 = _
      rw [low_product, low_signExtend, low_signExtend, MulOp.apply,
        BitVec.ofInt_mul, BitVec.ofInt_toInt, BitVec.ofInt_toInt]
  | mulh =>
      show (a.signExtend 64 * b.signExtend 64).extractLsb' 32 32 = _
      rw [high_of_toInt, toInt_ssProduct, MulOp.apply]
  | mulhsu =>
      show (a.signExtend 64 * b.zeroExtend 64).extractLsb' 32 32 = _
      rw [high_of_toInt, toInt_suProduct, MulOp.apply]
  | mulhu =>
      show (a.zeroExtend 64 * b.zeroExtend 64).extractLsb' 32 32 = _
      rw [high_of_toNat, toNat_uuProduct, MulOp.apply]
  | div => exact quotient_of_word a b
  | rem => exact remainder_of_word a b
  | divu =>
      show (if b = 0 then 0xFFFFFFFF#32 else a / b) = _
      rw [MulOp.apply, ← BitVec.toNat_udiv, BitVec.ofNat_toNat,
        BitVec.setWidth_eq]
      rfl
  | remu =>
      show (if b = 0 then a else a % b) = _
      rw [MulOp.apply, ← BitVec.toNat_umod, BitVec.ofNat_toNat,
        BitVec.setWidth_eq]

end Multiply

/-! ## What an instruction does -/

/-- The bytes of a word under the addresses of its lanes. -/
def wordBytes (word a : BitVec 32) : BitVec 8 :=
  word.extractLsb' (8 * lane a) 8

/-- The value that a load gets from the word read. -/
def Riscv.Effect.loaded (e : Effect) (word : BitVec 32) : BitVec 32 :=
  match e with
  | loads op _ a => op.value (wordBytes word) a
  | _ => word

/-- The address of an access. -/
def Riscv.Effect.addr : Effect → Option (BitVec 32)
  | loads _ _ a => some a
  | stores _ a _ => some a
  | _ => none

/-- The request of a store to the lowest lane of a word. -/
def Riscv.StoreOp.request (op : StoreOp) (a v : BitVec 32) : BusReq :=
  match op with
  | sb => ⟨a, true, (v.extractLsb' 0 8).setWidth 32, 0b0001⟩
  | sh => ⟨a, true, (v.extractLsb' 0 16).setWidth 32, 0b0011⟩
  | sw => ⟨a, true, v, 0b1111⟩

namespace Core

variable {p : Params} {s : Core p} {x : BitVec 5 → BitVec 32}

variable (s) in
/-- EX holds the instruction of a parcel with operands of a register file. -/
structure Holds (parcel : Parcel) (x : BitVec 5 → BitVec 32) : Prop where
  executes : s.Executes parcel.word x
  instr : s.ex.instr = parcel.word
  length : s.exLength = parcel.length

variable (s) in
/-- The instruction in EX is an ordinary one with the given outcome. -/
structure Does (o : Outcome) : Prop where
  legal : s.ex.isLegal = true
  notAtomic : s.ex.isAtomic = false
  notSystem : s.ex.isSystem = false
  requests : s.Requests o.effect
  address : ∀ {a}, o.effect.addr = some a → s.aluResult = a
  stores : ∀ {op a v}, o.effect = .stores op a v → lane a = 0 →
    s.ex.state = .exExec → s.exMemAccess = true → s.dReq = op.request a v
  next : ∀ {t i}, s.Ends t i → t.irqPending i = false → t.exPcNext i = o.next
  regs : ∀ {t i}, s.Ends t i → ∀ j rf,
    (t.step i).wbWrite j rf = o.effect.regs (o.effect.loaded i.dRspRdata) rf

theorem does_of_performs {o : Outcome} (performs : s.Performs o)
    (legal : s.ex.isLegal = true) (notAtomic : s.ex.isAtomic = false)
    (notSystem : s.ex.isSystem = false)
    (computes : o.effect.silent = true) : s.Does o where
  legal := legal
  notAtomic := notAtomic
  notSystem := notSystem
  requests := performs.requests
  address := fun is => by
    cases effect : o.effect with
    | loads | stores =>
        rw [effect] at computes
        cases computes
    | _ =>
        rw [effect] at is
        cases is
  stores := fun is => by
    rw [is] at computes
    cases computes
  next := fun ends idle => by
    rw [performs.next ends idle, if_neg]
    intro breaks
    rw [breaks] at computes
    cases computes
  regs := fun ends j rf => by
    rw [performs.regs ends j rf]
    cases effect : o.effect with
    | loads =>
        rw [effect] at computes
        cases computes
    | _ => rfl

theorem legal_of_executes {w : BitVec 32} (executes : s.Executes w x)
    (legal : (sisDecode p.enableM p.enableA w).isLegal = true) :
    s.ex.isLegal = true := by
  rw [executes.decoded]
  exact legal

section Classes

variable {rd rs1 rs2 : BitVec 5} {imm : BitVec 12}

theorem does_of_computes {b : Base} (computes : b.computes = true)
    (executes : s.Executes b.encode x) :
    s.Does (b.outcome x s.ex.pc s.exLength) := by
  obtain ⟨-, -, notAtomic, notSystem, -⟩ :=
    classes_of_computes computes executes
  refine does_of_performs (performs_of_computes computes executes)
    (legal_of_executes executes (legal_of_base b)) notAtomic notSystem ?_
  cases b with
  | load => exact absurd computes (by simp [Base.computes])
  | store => exact absurd computes (by simp [Base.computes])
  | _ => rfl

/-- A load gets its bytes from the word in the response. -/
theorem does_of_load {op : LoadOp}
    (executes : s.Executes (Base.load op rd rs1 imm).encode x) :
    s.Does ((Base.load op rd rs1 imm).outcome x s.ex.pc s.exLength) := by
  obtain ⟨load, noStore, notAtomic, notSystem, funct3, dest, address⟩ :=
    load_of_word executes.decoded
  have base := executes.rs1
  simp only [Base.encode, iType_fields] at base
  rw [base] at address
  have raw : s.exDAccessRaw = true := by simp [exDAccessRaw, load]
  refine ⟨legal_of_executes executes (legal_of_base _), notAtomic, notSystem,
    ⟨raw, funct3, fun first access => ⟨?_, ?_⟩⟩,
    fun is => address.trans (Option.some.inj is), (fun is => by cases is),
    fun {t i} ends idle => ?_, fun {t i} ends j rf => ?_⟩
  · rw [← address, dReq, dReqAddr, exMemReqAddr, if_pos ⟨first, access⟩]
  · simp [dReq, dReqWe, notAtomic, noStore]
  · rw [next_of_straight executes
      (show _ = opLoad by simp [Base.encode, opLoad]) (by decide) ends idle]
    rfl
  · have access := ends.access raw notAtomic
    have launched : t.ex = s.launched.ex := by
      rw [ends.ex, access, if_pos rfl]
    have place : t.ex.memAddrReg = moved (x rs1) imm.toInt := by
      rw [launched, ← address]
      rfl
    have aligned := aligned_of_exMemAccess access
    rw [exMemAligned, Bool.not_eq_true', address, ← place, funct3] at aligned
    have loaded := wbLoadResult_of_leave ⟨fun _ => i.dRspRdata, false, 0⟩
      ends.leaves ends.goes (by rw [launched]; rfl)
      (by rw [ends.same.toDecoded, funct3]) aligned rfl
    rw [wbWrite_of_load ends.leaves ends.goes ends.normal
      (by rw [ends.same.toDecoded, load]), ends.same.toDecoded, dest, loaded,
      place]
    rfl

/-- In the lowest lane the bytes are where they come from. -/
theorem dReq_of_store {op : StoreOp} (store : s.ex.isStore = true)
    (notAtomic : s.ex.isAtomic = false) (funct3 : s.ex.funct3 = op.funct3)
    (lowest : lane s.exMemReqAddr = 0) :
    s.dReq = op.request s.exMemReqAddr s.ex.rs2Val := by
  have even : s.exMemReqAddr.getLsbD 1 = false := by
    rw [← Bool.not_eq_true, bit_one_iff, lowest]
    decide
  simp only [dReq, dReqAddr, dReqWe, dReqWdata, dReqWstrb, notAtomic, store,
    storeData, storeStrb, lane_eq, lowest, funct3, even]
  cases op with
  | sb => simp +decide [StoreOp.request]
  | sh => simp +decide [StoreOp.request]
  | sw => simp +decide [StoreOp.request]

theorem does_of_store {op : StoreOp}
    (executes : s.Executes (Base.store op rs1 rs2 imm).encode x) :
    s.Does ((Base.store op rs1 rs2 imm).outcome x s.ex.pc s.exLength) := by
  obtain ⟨store, notAtomic, funct3, address⟩ := store_of_word executes.decoded
  have flags := executes.flags opStore (by simp [Base.encode, opStore])
  have base := executes.rs1
  have data := executes.rs2
  simp only [Base.encode, sType_fields] at base data
  rw [base] at address
  have raw : s.exDAccessRaw = true := by simp [exDAccessRaw, store]
  refine ⟨legal_of_executes executes (legal_of_base _), notAtomic,
    by simp +decide [flags], ⟨raw, funct3, fun first access => ?_⟩,
    fun is => address.trans (Option.some.inj is), ?_, fun {t i} ends idle => ?_, fun {t i} ends j rf => ?_⟩
  · have target : s.exMemReqAddr = moved (x rs1) imm.toInt := by
      rw [exMemReqAddr, if_pos ⟨first, access⟩, address]
    have aligned := aligned_of_exMemAccess access
    rw [exMemAligned, Bool.not_eq_true', address, ← target] at aligned
    have size : storeSize op.funct3 = op.size := by cases op <;> rfl
    refine ⟨target, by simp [dReq, dReqWe, notAtomic, store], fun b => ?_⟩
    rw [stored_of_store aligned store notAtomic, target, data, funct3, size]
    rfl
  · rintro op' a v is lowest first access
    cases is
    have target : s.exMemReqAddr = moved (x rs1) imm.toInt := by
      rw [exMemReqAddr, if_pos ⟨first, access⟩, address]
    rw [dReq_of_store store notAtomic funct3 (by rw [target]; exact lowest),
      target, data]
  · rw [next_of_straight executes
      (show _ = opStore by simp [Base.encode, opStore]) (by decide) ends idle]
    rfl
  · refine ends.wbWrite_of_silent ?_ j rf
    have later := (ends.executes executes).flags opStore
      (by simp [Base.encode, opStore])
    simp +decide [exWritesRd, exIsCsrOp, exIsLr, exIsSc, exIsAmoOp, later]

/-- FENCE does nothing on a core that makes one access at a time. -/
theorem does_of_fence {fields : BitVec 12}
    (executes : s.Executes (Instr.fence fields rd rs1).encode x) :
    s.Does ⟨.nothing, moved s.ex.pc s.exLength⟩ := by
  have opcode : (Instr.fence fields rd rs1).encode.extractLsb' 0 7 =
      opFence := by
    simp [Instr.encode, opFence]
  have flags := executes.flags opFence opcode
  have legal : (sisDecode p.enableM p.enableA
      (Instr.fence fields rd rs1).encode).isLegal = true := by
    rw [isLegal_of_opcode rfl]
    simp +decide [Instr.encode]
  have plain : s.exDAccessRaw = false := by
    simp +decide [exDAccessRaw, exIsLr, exIsSc, exIsAmoOp, flags]
  refine ⟨legal_of_executes executes legal, by simp +decide [flags],
    by simp +decide [flags], plain, (fun is => by cases is),
    (fun is => by cases is), fun {t i} ends idle => ?_, fun {t i} ends j rf => ?_⟩
  · exact next_of_straight executes opcode (by decide) ends idle
  · refine ends.wbWrite_of_silent ?_ j rf
    have later := (ends.executes executes).flags opFence opcode
    simp +decide [exWritesRd, exIsCsrOp, exIsLr, exIsSc, exIsAmoOp, later]

theorem does_of_mul {op : MulOp} (enableM : p.enableM = true)
    (executes : s.Executes (Instr.mul op rd rs1 rs2).encode x) :
    s.Does ⟨.writes rd (op.apply (x rs1) (x rs2)),
      moved s.ex.pc s.exLength⟩ := by
  have opcode : (Instr.mul op rd rs1 rs2).encode.extractLsb' 0 7 =
      opAluReg := by
    simp [Instr.encode, opAluReg]
  have flags := executes.flags opAluReg opcode
  have legal : (sisDecode p.enableM p.enableA
      (Instr.mul op rd rs1 rs2).encode).isLegal = true := by
    rw [isLegal_of_opcode rfl]
    simp +decide [Instr.encode]
    exact legalAluReg_iff.mpr (.inr ⟨enableM, rfl⟩)
  have plain : s.exDAccessRaw = false := by
    simp +decide [exDAccessRaw, exIsLr, exIsSc, exIsAmoOp, flags]
  refine ⟨legal_of_executes executes legal, by simp +decide [flags],
    by simp +decide [flags], plain, (fun is => by cases is),
    (fun is => by cases is), fun {t i} ends idle => ?_, fun {t i} ends j rf => ?_⟩
  · exact next_of_straight executes opcode (by decide) ends idle
  · have runs := ends.executes executes
    have later := runs.flags opAluReg opcode
    have fields := runs.fields
    have left := runs.rs1
    have right := runs.rs2
    simp only [Instr.encode, rType_fields] at left right fields
    obtain ⟨dest, code, seven⟩ := fields
    have state : t.ex.state = .exExec := by
      rw [ends.ex_of_plain plain, ends.first]
    have value : t.exExecResult = op.apply (x rs1) (x rs2) := by
      have isMul : t.exIsMOp = true := by
        simp +decide [exIsMOp, enableM, later, seven]
      rw [exExecResult, isMul, if_pos rfl, mResult, left, right, code,
        rv32mResult_apply]
    have exits : t.exExecToWb = true := by
      have leaves := ends.leaves
      rw [leave_of_exec state] at leaves
      simpa [exExecToWb, state] using leaves
    obtain ⟨writes, same⟩ := wbWritesRd_of_leave ends.leaves ends.goes
    have written : t.exWritesRd i = true := by
      simp [exWritesRd, ends.normal, later]
    have result : (t.step i).wbResult j = op.apply (x rs1) (x rs2) := by
      rw [← value, wbResult, step_wb_of_leave ends.leaves ends.goes]
      simp +decide [completedWb, exIsLr, exIsSc, exIsAmoOp, exIsCsrOp, later,
        exCompleteAluResult, exits]
    rw [wbWrite, writes, written, same, dest, result]
    by_cases zero : rd = 0 <;> simp [Effect.regs, zero]

end Classes

/-! ## All instructions -/

/-- A write to x0 is none. -/
theorem does_of_kept {o o' : Outcome} (does : s.Does o)
    (same : o.kept = o'.kept) : s.Does o' := by
  have effect : o.effect.kept = o'.effect.kept := congrArg Outcome.effect same
  have next : o.kept.next = o'.kept.next := congrArg Outcome.next same
  have requests (e : Effect) : s.Requests e.kept ↔ s.Requests e := by
    cases e with
    | writes rd value =>
        rw [Effect.kept]
        split_ifs <;> exact Iff.rfl
    | _ => exact Iff.rfl
  have regs (e : Effect) (word : BitVec 32) (rf : BitVec 5 → BitVec 32) :
      e.kept.regs (e.kept.loaded word) rf = e.regs (e.loaded word) rf := by
    cases e with
    | writes rd value =>
        rw [Effect.kept]
        split_ifs with zero
        · simp [Effect.regs, zero]
        · rfl
    | _ => rfl
  exact {
    legal := does.legal
    notAtomic := does.notAtomic
    notSystem := does.notSystem
    requests := by
      rw [← requests, ← effect, requests]
      exact does.requests
    address := fun {a} is => by
      apply does.address
      have kept (e : Effect) : e.kept.addr = e.addr := by
        cases e with
        | writes rd value =>
            rw [Effect.kept]
            split_ifs <;> rfl
        | _ => rfl
      rw [← kept, effect, kept, is]
    stores := fun {op a v} is => by
      rw [is] at effect
      apply does.stores
      cases given : o.effect with
      | stores =>
          rw [given] at effect
          exact effect
      | writes =>
          rw [given] at effect
          simp only [Effect.kept] at effect
          split_ifs at effect
      | _ =>
          rw [given] at effect
          cases effect
    next := fun ends idle => (does.next ends idle).trans next
    regs := fun ends j rf => by
      rw [does.regs ends j rf, ← regs, effect, regs] }

theorem does_of_base {b : Base} (executes : s.Executes b.encode x) :
    s.Does (b.outcome x s.ex.pc s.exLength) := by
  cases b with
  | load => exact does_of_load executes
  | store => exact does_of_store executes
  | _ => exact does_of_computes rfl executes

/-- EX does what the architecture says of the instruction that it holds. -/
theorem does_of_holds {parcel : Parcel} {o : Outcome}
    (enableM : p.enableM = true) (zero : x 0 = 0) (holds : s.Holds parcel x)
    (outcome : parcel.outcome? x s.ex.pc = some o) : s.Does o := by
  obtain ⟨executes, instr, length⟩ := holds
  cases parcel with
  | short i =>
      have goesOn : i ≠ .ebreak := by
        rintro rfl
        exact absurd outcome (by simp [Parcel.outcome?])
      have same : i.outcome x s.ex.pc = o := by
        cases i with
        | ebreak => exact absurd rfl goesOn
        | _ => exact Option.some.inj outcome
      have base {b : Base} (is : i.expand = .base b) : s.Does o := by
        rw [Parcel.word, is] at executes
        have does := does_of_base executes
        rw [length] at does
        rw [← same]
        exact does_of_kept does (i.outcome_expand zero is)
      rcases i.expand_cases with
        ⟨b, is, -⟩ | ⟨rd, rs1, imm, is⟩ | ⟨rs1, rs2, imm, is⟩ | is
      · exact base is
      · exact base is
      · exact base is
      · exact absurd is goesOn
  | full i =>
      have four : s.exLength = 4 := length
      cases i with
      | base b =>
          have does := does_of_base executes
          rw [four] at does
          exact (Option.some.inj outcome) ▸ does
      | fence =>
          have does := does_of_fence executes
          rw [four] at does
          exact (Option.some.inj outcome) ▸ does
      | mul =>
          have does := does_of_mul enableM executes
          rw [four] at does
          exact (Option.some.inj outcome) ▸ does
      | _ => exact absurd outcome (by simp [Parcel.outcome?])

end Core

end SisRv
