import SisRv.Lib.Trajectory
import SisRv.Rtl.AxiLiteSlave

/-!
# The steps of the slave

What a clock edge does to the registers of the read and of the write FSM, and
why no stall rate keeps a channel from being ready for ever.
-/

namespace SisRv

open Sync

/-! ## The stall registers -/

theorem lfsrNext_zero (lfsr : BitVec 16) :
    (lfsrNext lfsr).getLsbD 0 =
      (lfsr.getLsbD 15 ^^ lfsr.getLsbD 13 ^^ lfsr.getLsbD 12 ^^
        lfsr.getLsbD 10) := by
  rw [lfsrNext, BitVec.getLsbD_append]
  simp

theorem lfsrNext_succ (lfsr : BitVec 16) {j : ℕ} (below : j < 15) :
    (lfsrNext lfsr).getLsbD (j + 1) = lfsr.getLsbD j := by
  rw [lfsrNext, BitVec.getLsbD_append]
  simp [below]

/-- A shift loses the top bit, which the feedback gives back. -/
theorem lfsrNext_injective : Function.Injective lfsrNext := by
  intro a b same
  have low {j : ℕ} (below : j < 15) : a.getLsbD j = b.getLsbD j := by
    rw [← lfsrNext_succ a below, same, lfsrNext_succ b below]
  have feedback := lfsrNext_zero a
  rw [same, lfsrNext_zero b, low (by decide : 13 < 15),
    low (by decide : 12 < 15), low (by decide : 10 < 15)] at feedback
  apply BitVec.eq_of_getLsbD_eq
  intro j below
  rcases Nat.lt_succ_iff_lt_or_eq.mp below with lower | rfl
  · exact low lower
  · simpa using feedback.symm

theorem stallRateClamped_le (stallRate : ℤ) :
    0 ≤ stallRateClamped stallRate ∧ stallRateClamped stallRate ≤ 100 := by
  unfold stallRateClamped
  dsimp only
  constructor <;> split_ifs <;> omega

/-- A sample of 100 or more never stalls. -/
theorem not_shouldStall (stallRate : ℤ) {lfsr : BitVec 16}
    (high : 100 ≤ (lfsr.extractLsb' 0 7).toNat) :
    shouldStall stallRate lfsr = false := by
  obtain ⟨least, most⟩ := stallRateClamped_le stallRate
  have rate : (BitVec.ofInt 8 (stallRateClamped stallRate)).toNat =
      (stallRateClamped stallRate).toNat := by
    have width : ((2 ^ 8 : ℕ) : ℤ) = 256 := rfl
    rw [BitVec.toNat_ofInt, Int.emod_eq_of_lt least (by omega)]
  have sample : (0#1 ++ lfsr.extractLsb' 0 7 : BitVec 8).toNat =
      (lfsr.extractLsb' 0 7).toNat := by
    rw [BitVec.toNat_append]
    simp
  simp only [shouldStall, decide_eq_false_iff_not, BitVec.lt_def, sample, rate]
  omega

/-- From a seed that reaches a high sample the register reaches one again and
again. -/
theorem exists_later_not_stalled (stallRate : ℤ) (seed : BitVec 16) (n : ℕ)
    (high : 100 ≤ ((lfsrNext^[n] seed).extractLsb' 0 7).toNat) (k : ℕ) :
    ∃ m, k ≤ m ∧ shouldStall stallRate (lfsrNext^[m] seed) = false := by
  have finite : Finite (BitVec 16) :=
    Finite.of_injective BitVec.toFin fun _ _ same => BitVec.eq_of_toFin_eq same
  obtain ⟨m, later, same⟩ := exists_later_iterate lfsrNext_injective seed n k
  refine ⟨m, later, not_shouldStall stallRate ?_⟩
  rw [same]
  exact high

namespace AxiLiteSlave

variable (s : AxiLiteSlave) (stallRate : ℤ) (i : AxiSlaveIn)

/-! ## The registers of the two FSMs -/

/-- The registers of the read FSM. -/
structure RdRegs where
  state : RdState
  addr : BitVec 32
  data : BitVec 32
  resp : BitVec 2
  stall : BitVec 4

/-- The registers of the write FSM. -/
structure WrRegs where
  state : WrState
  addr : BitVec 32
  data : BitVec 32
  strb : BitVec 4
  resp : BitVec 2
  stall : BitVec 4

def rd : RdRegs :=
  ⟨s.rdState, s.rdAddrReg, s.rdDataReg, s.rdRespReg, s.rdStallCnt⟩

def wr : WrRegs :=
  ⟨s.wrState, s.wrAddrReg, s.wrDataReg, s.wrStrbReg, s.wrRespReg,
    s.wrStallCnt⟩

/-- The registers of the read FSM after the clock edge. -/
def rdNext : RdRegs :=
  match s.rdState with
  | .idle =>
      if s.arFire stallRate i then
        if shouldStall stallRate s.lfsrR then
          { s.rd with
            state := .wait
            addr := i.araddr
            stall := s.lfsrR.extractLsb' 0 4 &&& 0xF }
        else
          { s.rd with
            state := .resp
            addr := i.araddr
            data := s.memRead i i.araddr
            resp := respOf i.araddr }
      else s.rd
  | .wait =>
      if s.rdStallCnt = 0 then
        { s.rd with
          state := .resp
          data := s.memRead i s.rdAddrReg
          resp := respOf s.rdAddrReg }
      else { s.rd with stall := s.rdStallCnt - 1 }
  | .resp => if i.rready then { s.rd with state := .idle } else s.rd

/-- The registers of the write FSM after the clock edge. -/
def wrNext : WrRegs :=
  match s.wrState with
  | .idle =>
      if s.awFire stallRate i && s.wFire stallRate i then
        { s.wr with
          state := .exec, addr := i.awaddr, data := i.wdata, strb := i.wstrb }
      else if s.awFire stallRate i then
        { s.wr with state := .gotAw, addr := i.awaddr }
      else if s.wFire stallRate i then
        { s.wr with state := .gotW, data := i.wdata, strb := i.wstrb }
      else s.wr
  | .gotAw =>
      if s.wFire stallRate i then
        { s.wr with state := .exec, data := i.wdata, strb := i.wstrb }
      else s.wr
  | .gotW =>
      if s.awFire stallRate i then
        { s.wr with state := .exec, addr := i.awaddr }
      else s.wr
  | .exec =>
      if shouldStall stallRate s.lfsrB then
        { s.wr with
          state := .wait
          resp := respOf s.wrAddrReg
          stall := s.lfsrB.extractLsb' 0 4 &&& 0x7 }
      else { s.wr with state := .resp, resp := respOf s.wrAddrReg }
  | .wait =>
      if s.wrStallCnt = 0 then { s.wr with state := .resp }
      else { s.wr with stall := s.wrStallCnt - 1 }
  | .resp => if i.bready then { s.wr with state := .idle } else s.wr

variable {s stallRate i}

/-! ### Blocks that leave them alone -/

section Frame

/-- The FSM registers and the ROM agree. -/
structure Framed (t u : AxiLiteSlave) : Prop where
  rd : t.rd = u.rd
  wr : t.wr = u.wr
  rom : t.rom = u.rom

theorem Framed.trans {t u v : AxiLiteSlave} (first : Framed t u)
    (second : Framed u v) : Framed t v :=
  ⟨first.rd.trans second.rd, first.wr.trans second.wr,
    first.rom.trans second.rom⟩

variable (t : AxiLiteSlave)

theorem writeRam_framed : Framed (s.writeRam t) t := by
  unfold writeRam
  split_ifs <;> exact ⟨rfl, rfl, rfl⟩

theorem writeTohost_framed : Framed (s.writeTohost t) t := by
  unfold writeTohost
  split_ifs <;> exact ⟨rfl, rfl, rfl⟩

theorem writeClint_framed : Framed (s.writeClint t) t := by
  unfold writeClint
  dsimp only
  split_ifs <;> exact ⟨rfl, rfl, rfl⟩

theorem writeGpio_framed : Framed (s.writeGpio t) t := by
  unfold writeGpio
  dsimp only
  split_ifs <;> exact ⟨rfl, rfl, rfl⟩

theorem writeUart_framed : Framed (s.writeUart t) t := by
  unfold writeUart
  dsimp only
  split_ifs <;> exact ⟨rfl, rfl, rfl⟩

theorem writePlic_framed : Framed (s.writePlic t) t := by
  unfold writePlic
  dsimp only
  cases PlicState.prioIndex 8 (plicRel s.wrAddrReg) <;> dsimp only <;>
    split_ifs <;> exact ⟨rfl, rfl, rfl⟩

theorem execWrite_framed : Framed (s.execWrite t) t :=
  (writePlic_framed _).trans <| (writeUart_framed _).trans <|
    (writeGpio_framed _).trans <| (writeClint_framed _).trans <|
      (writeTohost_framed _).trans (writeRam_framed t)

theorem plicStep_framed : Framed (s.plicStep stallRate i t) t := by
  unfold plicStep
  dsimp only
  split_ifs <;> exact ⟨rfl, rfl, rfl⟩

theorem lfsrStep_framed : Framed (s.lfsrStep t) t := ⟨rfl, rfl, rfl⟩

theorem readStep_wr :
    (s.readStep stallRate i t).wr = t.wr ∧
      (s.readStep stallRate i t).rom = t.rom := by
  unfold readStep
  cases s.rdState <;> dsimp only <;> split_ifs <;> exact ⟨rfl, rfl⟩

theorem writeStep_rd :
    (s.writeStep stallRate i t).rd = t.rd ∧
      (s.writeStep stallRate i t).rom = t.rom := by
  have executed := execWrite_framed (s := s) t
  unfold writeStep
  cases s.wrState <;> dsimp only <;> split_ifs <;>
    first
    | exact ⟨rfl, rfl⟩
    | exact ⟨executed.rd, executed.rom⟩

/-! ### The blocks that change them -/

theorem readStep_rd (same : t.rd = s.rd) :
    (s.readStep stallRate i t).rd = s.rdNext stallRate i := by
  obtain ⟨state, addr, data, resp, stall⟩ := RdRegs.mk.inj same
  unfold readStep rdNext
  cases at_ : s.rdState <;> dsimp only <;> split_ifs <;>
    simp_all [rd, rvalid]

theorem writeStep_wr (same : t.wr = s.wr) :
    (s.writeStep stallRate i t).wr = s.wrNext stallRate i := by
  have executed := execWrite_framed (s := s) t
  obtain ⟨state, addr, data, strb, resp, stall⟩ := WrRegs.mk.inj same
  obtain ⟨state', addr', data', strb', resp', stall'⟩ :=
    WrRegs.mk.inj executed.wr
  unfold writeStep wrNext
  cases at_ : s.wrState <;> dsimp only <;> split_ifs <;>
    simp_all [wr, bvalid]

end Frame

/-! ## One clock edge -/

theorem next_rd : (s.next stallRate i).rd = s.rdNext stallRate i := by
  have before : (s.writeStep stallRate i (s.tick stallRate i)).rd = s.rd :=
    (writeStep_rd _).1
  calc (s.next stallRate i).rd
      = (s.readStep stallRate i
          (s.writeStep stallRate i (s.tick stallRate i))).rd :=
        ((lfsrStep_framed _).trans (plicStep_framed _)).rd
    _ = s.rdNext stallRate i := readStep_rd _ before

theorem next_wr : (s.next stallRate i).wr = s.wrNext stallRate i := by
  calc (s.next stallRate i).wr
      = (s.readStep stallRate i
          (s.writeStep stallRate i (s.tick stallRate i))).wr :=
        ((lfsrStep_framed _).trans (plicStep_framed _)).wr
    _ = (s.writeStep stallRate i (s.tick stallRate i)).wr := (readStep_wr _).1
    _ = s.wrNext stallRate i := writeStep_wr _ rfl

theorem next_rom : (s.next stallRate i).rom = s.rom := by
  calc (s.next stallRate i).rom
      = (s.readStep stallRate i
          (s.writeStep stallRate i (s.tick stallRate i))).rom :=
        ((lfsrStep_framed _).trans (plicStep_framed _)).rom
    _ = (s.writeStep stallRate i (s.tick stallRate i)).rom := (readStep_wr _).2
    _ = s.rom := (writeStep_rd _).2

end AxiLiteSlave

end SisRv
