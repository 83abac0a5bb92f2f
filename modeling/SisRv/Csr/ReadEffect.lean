import SisRv.Csr.PrivilegeStack

/-!
# Reads that write back

A set or clear instruction with a zero operand writes back the value it has
read.  The module says which register keeps its value under that write, in
every reachable state of the unit.
-/

namespace SisRv

/-! ## What every write keeps -/

namespace CsrState

/-- The registers hold values that their own write rules leave alone. -/
structure WriteClosed {p : Params} (c : CsrState p) : Prop where
  counteren : c.mcounteren &&& 0xFFFFFFFD = c.mcounteren
  select : c.tselect.toNat < 2 ^ 32
  triggers : ∀ t, c.tdata1 t &&& tdata1Wmask = c.tdata1 t
  config : ∀ e, warlPmpcfgByte (c.pmpcfg e) = c.pmpcfg e
  modes : p.enableU = false →
    c.mstatus.getLsbD 17 = false ∧ c.mstatus.getLsbD 21 = false

variable {p : Params} {c n : CsrState p}

theorem warlPmpcfgByte_idem (val : BitVec 8) :
    warlPmpcfgByte (warlPmpcfgByte val) = warlPmpcfgByte val := by
  revert val
  decide

theorem and_and_self (word mask : BitVec 32) :
    word &&& mask &&& mask = word &&& mask := by
  rw [BitVec.and_assoc, BitVec.and_self]

/-- Without ENABLE_U a write clears MPRV and TW. -/
theorem applyMstatusWarl_modes (oldVal newVal : BitVec 32) :
    (applyMstatusWarl false oldVal newVal).getLsbD 17 = false ∧
      (applyMstatusWarl false oldVal newVal).getLsbD 21 = false := by
  simp only [applyMstatusWarl, Bool.false_eq_true, if_false, setField_getLsbD]
  simp

theorem WriteClosed.writeIndexed (closed : c.WriteClosed)
    (kept : n.WriteClosed) (addr : BitVec 12) (val : BitVec 32) :
    (c.writeIndexed n addr val).WriteClosed := by
  unfold CsrState.writeIndexed
  split
  · refine ⟨kept.counteren, kept.select, kept.triggers, fun e => ?_,
      kept.modes⟩
    dsimp only [writePmpcfg]
    split_ifs
    · exact warlPmpcfgByte_idem _
    · exact closed.config e
  · split
    · exact ⟨kept.counteren, kept.select, kept.triggers, kept.config,
        kept.modes⟩
    · split
      · exact ⟨kept.counteren, kept.select, kept.triggers, kept.config,
          kept.modes⟩
      · split
        · exact ⟨kept.counteren, kept.select, kept.triggers, kept.config,
            kept.modes⟩
        · exact kept

theorem WriteClosed.writeCsr (closed : c.WriteClosed)
    (kept : n.WriteClosed) (addr : BitVec 12) (val : BitVec 32) :
    (c.writeCsr n addr val).WriteClosed := by
  apply writeCsr_cases (P := fun _ t => t.WriteClosed)
  case indexed => exact fun _ => closed.writeIndexed kept addr val
  case mcounteren =>
    exact ⟨and_and_self _ _, kept.select, kept.triggers, kept.config,
      kept.modes⟩
  case mstatus =>
    refine ⟨kept.counteren, kept.select, kept.triggers, kept.config,
      fun noUser => ?_⟩
    rw [noUser]
    exact applyMstatusWarl_modes _ _
  case tselect =>
    split_ifs
    · refine ⟨kept.counteren, ?_, kept.triggers, kept.config, kept.modes⟩
      exact lt_of_le_of_lt (by
        rw [BitVec.toNat_setWidth]
        exact Nat.mod_le _ _) val.isLt
    · exact kept
  case tdata1 =>
    refine ⟨kept.counteren, kept.select, fun t => ?_, kept.config,
      kept.modes⟩
    dsimp only [setTrigSelected]
    split_ifs
    · exact and_and_self _ _
    · exact kept.triggers t
  case mcycle =>
    exact fun _ => ⟨kept.counteren, kept.select, kept.triggers, kept.config,
      kept.modes⟩
  case minstret =>
    exact fun _ => ⟨kept.counteren, kept.select, kept.triggers, kept.config,
      kept.modes⟩
  all_goals
    exact ⟨kept.counteren, kept.select, kept.triggers, kept.config,
      kept.modes⟩

theorem writeClosed_reset (p : Params) : (reset p).WriteClosed := by
  refine ⟨?_, Nat.two_pow_pos 32, fun _ => BitVec.zero_and, fun _ => ?_,
    fun _ => ?_⟩
  · show (0 : BitVec 32) &&& 0xFFFFFFFD = 0
    decide
  · show warlPmpcfgByte 0 = 0
    decide
  · show (0 : BitVec 32).getLsbD 17 = false ∧
      (0 : BitVec 32).getLsbD 21 = false
    decide

theorem WriteClosed.tick (closed : c.WriteClosed) (x : CsrIn p) :
    (c.tickCounters x).WriteClosed :=
  ⟨closed.counteren, closed.select, closed.triggers, closed.config,
    closed.modes⟩

theorem WriteClosed.latch (closed : c.WriteClosed) (x : CsrIn p) :
    (latchHits x c).WriteClosed := by
  refine ⟨closed.counteren, closed.select, fun t => ?_, closed.config,
    closed.modes⟩
  dsimp only [latchHits]
  split_ifs
  · have hit : BitVec.twoPow 32 mcHit &&& tdata1Wmask =
        BitVec.twoPow 32 mcHit := by decide
    rw [BitVec.and_or_distrib_right, closed.triggers t, hit]
  · exact closed.triggers t

theorem WriteClosed.commit (closed : c.WriteClosed) (irq : IrqLines)
    (x : CsrIn p) : (c.commit irq x (c.tickCounters x)).WriteClosed := by
  have kept := closed.tick x
  unfold CsrState.commit
  split_ifs
  · refine ⟨kept.counteren, kept.select, kept.triggers, kept.config,
      fun noUser => ?_⟩
    obtain ⟨mprv, tw⟩ := closed.modes noUser
    refine ⟨c.mstatusTrap_bits.2.2.trans mprv, Eq.trans ?_ tw⟩
    simp only [mstatusTrap, BitVec.getLsbD_append, BitVec.getLsbD_extractLsb']
    simp
  · refine ⟨kept.counteren, kept.select, kept.triggers, kept.config,
      fun noUser => ?_⟩
    obtain ⟨mprv, tw⟩ := closed.modes noUser
    refine ⟨c.mstatusMret_bits.2.trans (by rw [mprv, ite_self]),
      Eq.trans ?_ tw⟩
    simp only [mstatusMret, BitVec.getLsbD_append, BitVec.getLsbD_extractLsb']
    simp
  · exact closed.writeCsr kept _ _
  · exact kept

end CsrState

theorem CsrRun.writeClosed {p : Params} (r : CsrRun p) (n : ℕ) :
    (r.state n).WriteClosed := by
  induction n with
  | zero => exact CsrState.writeClosed_reset p
  | succ n inductionHypothesis =>
      rw [CsrRun.state_succ]
      exact (inductionHypothesis.commit _ _).latch _

/-! ## Writing back what is read -/

namespace CsrState

variable {p : Params} {c n : CsrState p} {x : CsrIn p}

theorem merged_self (word : BitVec 32) :
    (word &&& ~~~mstatusWmask) ||| (word &&& mstatusWmask) = word := by
  rw [← BitVec.and_or_distrib_left]
  have all : ~~~mstatusWmask ||| mstatusWmask = BitVec.allOnes 32 := by decide
  rw [all, BitVec.and_allOnes]

theorem setField_self {w : ℕ} (word : BitVec 32) (lo : ℕ) :
    setField word lo (word.extractLsb' lo w) = word := by
  apply BitVec.eq_of_getLsbD_eq
  intro i below
  rw [setField_getLsbD]
  split_ifs with inside
  · rw [BitVec.getLsbD_extractLsb']
    have sum : lo + (i - lo) = i := by omega
    simp [sum, show i - lo < w by omega]
  · rfl

theorem applyMstatusWarl_self_user {word : BitVec 32}
    (mode : word.extractLsb' 11 2 = privM ∨ word.extractLsb' 11 2 = privU) :
    applyMstatusWarl true word word = word := by
  have kept : (if word.extractLsb' 11 2 = 0b01 ∨ word.extractLsb' 11 2 = 0b10
      then privU else word.extractLsb' 11 2) = word.extractLsb' 11 2 := by
    rcases mode with mode | mode <;> rw [mode] <;> decide
  simp only [applyMstatusWarl, merged_self, if_true, kept, setField_self]

theorem applyMstatusWarl_self_iff {word : BitVec 32}
    (mprv : word.getLsbD 17 = false) (tw : word.getLsbD 21 = false) :
    applyMstatusWarl false word word = word ↔
      word.extractLsb' 11 2 = privU := by
  constructor
  · intro same
    rw [← same]
    exact applyMstatusWarl_mpp_of_no_user word word
  · intro cleared
    have mpp : setField word 11 0b00#2 = word := by
      have fieldSelf := setField_self (w := 2) word 11
      rwa [cleared] at fieldSelf
    have mprvField : word.extractLsb' 17 1 = 0#1 := by
      apply BitVec.eq_of_getLsbD_eq
      intro i below
      obtain rfl : i = 0 := by omega
      simpa using mprv
    have twField : word.extractLsb' 21 1 = 0#1 := by
      apply BitVec.eq_of_getLsbD_eq
      intro i below
      obtain rfl : i = 0 := by omega
      simpa using tw
    have mprvKept : setField word 17 0#1 = word := by
      have fieldSelf := setField_self (w := 1) word 17
      rwa [mprvField] at fieldSelf
    have twKept : setField word 21 0#1 = word := by
      have fieldSelf := setField_self (w := 1) word 21
      rwa [twField] at fieldSelf
    simp only [applyMstatusWarl, merged_self, Bool.false_eq_true, if_false,
      mpp, mprvKept, twKept]

/-! ### Counters -/

/-- Ticking leaves a half of a counter alone. -/
def HalfKept (counter : BitVec 64) (ticks high : Bool) : Prop :=
  ticks = false ∨
    high = true ∧ counter.extractLsb' 0 32 ≠ BitVec.allOnes 32

theorem counterHalf_toNat (counter : BitVec 64) (high : Bool) :
    (counterHalf counter high).toNat =
      if high then counter.toNat / 2 ^ 32 else counter.toNat % 2 ^ 32 := by
  have bound := counter.isLt
  cases high with
  | false => simp [counterHalf, BitVec.extractLsb'_toNat]
  | true =>
      simp only [counterHalf, if_true, BitVec.extractLsb'_toNat,
        Nat.shiftRight_eq_div_pow]
      omega

theorem setCounterHalf_toNat (counter : BitVec 64) (high : Bool)
    (val : BitVec 32) :
    (setCounterHalf counter high val).toNat =
      if high then val.toNat * 2 ^ 32 + counter.toNat % 2 ^ 32
      else counter.toNat / 2 ^ 32 * 2 ^ 32 + val.toNat := by
  have low := counterHalf_toNat counter false
  have upper := counterHalf_toNat counter true
  simp only [counterHalf, if_true, Bool.false_eq_true, if_false] at low upper
  have bound := val.isLt
  have lowBound := Nat.mod_lt counter.toNat (Nat.two_pow_pos 32)
  cases high with
  | false =>
      simp only [setCounterHalf, Bool.false_eq_true, if_false,
        BitVec.toNat_append, upper, Nat.shiftLeft_eq]
      rw [Nat.mul_comm, ← Nat.two_pow_add_eq_or_of_lt bound]
  | true =>
      simp only [setCounterHalf, if_true, BitVec.toNat_append, low,
        Nat.shiftLeft_eq]
      rw [Nat.mul_comm, ← Nat.two_pow_add_eq_or_of_lt lowBound]

/-- Writing back a half that was read earlier. -/
theorem setCounterHalf_iff (counter : BitVec 64) (high : Bool)
    (val : BitVec 32) :
    setCounterHalf counter high val = counter ↔
      counterHalf counter high = val := by
  have bound := counter.isLt
  have valBound := val.isLt
  rw [← BitVec.toNat_inj, ← BitVec.toNat_inj, setCounterHalf_toNat,
    counterHalf_toNat]
  cases high with
  | false =>
      simp only [Bool.false_eq_true, if_false]
      omega
  | true =>
      simp only [if_true]
      omega

/-- The tick leaves a half alone. -/
theorem counterHalf_ticked_iff (counter : BitVec 64) (ticks high : Bool) :
    counterHalf (if ticks then counter + 1 else counter) high =
        counterHalf counter high ↔
      HalfKept counter ticks high := by
  have bound := counter.isLt
  have low := counterHalf_toNat counter false
  simp only [counterHalf, Bool.false_eq_true, if_false] at low
  rw [← BitVec.toNat_inj, counterHalf_toNat, counterHalf_toNat, HalfKept,
    ne_eq, ← BitVec.toNat_inj (x := counter.extractLsb' 0 32), low,
    BitVec.toNat_allOnes]
  cases ticks with
  | false =>
      cases high <;> simp only [Bool.false_eq_true, if_false, if_true] <;>
        simp
  | true =>
      have sum : (counter + 1).toNat = (counter.toNat + 1) % 2 ^ 64 := by
        rw [BitVec.toNat_add]
        rfl
      cases high with
      | false =>
          simp only [Bool.false_eq_true, Bool.true_eq_false, if_false,
            if_true, sum, false_or, false_and, iff_false]
          omega
      | true =>
          simp only [Bool.true_eq_false, if_true, sum, false_or, true_and]
          omega

/-! ### Which registers keep their value -/

/-- The registers that the read multiplexer names and no write reaches. -/
def fixedCsrs : List (BitVec 12) :=
  [csrMisa, csrMip, csrMvendorid, csrMarchid, csrMimpid, csrMhartid,
    csrMconfigptr, csrCycle, csrCycleh, csrInstret, csrInstreth, csrTinfo]

/-- Writing back keeps the register behind an address that has no name.  The
PMP windows of more than 64 entries cover addresses that are read
elsewhere. -/
def indexedKept (c : CsrState p) (irq : IrqLines) (x : CsrIn p) : Prop :=
  match csrIsPmpcfg p.pmpEntries x.csrAddr,
    (csrIsPmpaddr p.pmpEntries x.csrAddr).filter
      (fun idx => !c.pmpaddrWriteBlocked idx.val),
    csrIsMhpmcounter x.csrAddr with
  | some slot, _, _ => x.csrAddr ∈ fixedCsrs →
      c.writePmpcfg slot (c.csrRdata irq x.csrAddr) = c.pmpcfg
  | none, some idx, _ => x.csrAddr ∈ fixedCsrs →
      c.pmpaddr idx = c.csrRdata irq x.csrAddr
  | none, none, some (hi, high) =>
      if csrIsPmpaddr p.pmpEntries x.csrAddr = none then
        HalfKept (c.mhpmcounter hi)
          (!c.mcountinhibit.getLsbD hi.val.val &&
            (c.mhpmevent hi &&& x.hpmEvents) != 0) high
      else counterHalf ((c.tickCounters x).mhpmcounter hi) high =
        c.csrRdata irq x.csrAddr
  | none, none, none => True

/-- Writing back what is read keeps the register. -/
def readKeeps (c : CsrState p) (irq : IrqLines) (x : CsrIn p) : Prop :=
  if x.csrAddr = csrMstatus then p.enableU = true ∨ c.mpp = privU
  else if x.csrAddr = csrMepc then
    c.mepc &&& (if p.enableC then 0xFFFFFFFE else 0xFFFFFFFC) = c.mepc
  else if x.csrAddr = csrMcycle then
    HalfKept c.mcycle (!c.mcountinhibit.getLsbD 0) false
  else if x.csrAddr = csrMcycleh then
    HalfKept c.mcycle (!c.mcountinhibit.getLsbD 0) true
  else if x.csrAddr = csrMinstret then
    HalfKept c.minstret (x.instrRetire && !c.mcountinhibit.getLsbD 2) false
  else if x.csrAddr = csrMinstreth then
    HalfKept c.minstret (x.instrRetire && !c.mcountinhibit.getLsbD 2) true
  else if x.csrAddr ∈ namedCsrs then True
  else c.indexedKept irq x

/-- At an address without a name the read multiplexer decodes as the write
case does. -/
theorem csrRdata_of_indexed (irq : IrqLines) {addr : BitVec 12}
    (named : addr ∉ namedCsrs) (fixed : addr ∉ fixedCsrs) :
    c.csrRdata irq addr =
      match csrIsPmpcfg p.pmpEntries addr, csrIsPmpaddr p.pmpEntries addr,
        csrIsMhpmcounter addr, csrIsHpmcounter addr, csrIsMhpmevent addr with
      | some slot, _, _, _, _ => c.packPmpcfgCsr slot
      | none, some idx, _, _, _ => c.pmpaddr idx
      | none, none, some (hi, high), _, _ =>
          counterHalf (c.mhpmcounter hi) high
      | none, none, none, some (hi, high), _ =>
          counterHalf (c.mhpmcounter hi) high
      | none, none, none, none, some hi => c.mhpmevent hi
      | none, none, none, none, none => 0 := by
  simp only [namedCsrs, fixedCsrs, List.mem_cons, List.not_mem_nil, or_false,
    not_or] at named fixed
  unfold csrRdata
  cases csrIsPmpcfg p.pmpEntries addr with
  | some slot => simp only [named, fixed, if_false, or_self]
  | none =>
      cases csrIsPmpaddr p.pmpEntries addr with
      | some idx => simp only [named, fixed, if_false, or_self]
      | none =>
          cases csrIsMhpmcounter addr with
          | some window => simp only [named, fixed, if_false, or_self]
          | none =>
              cases csrIsHpmcounter addr with
              | some window => simp only [named, fixed, if_false, or_self]
              | none =>
                  cases csrIsMhpmevent addr <;>
                    simp only [named, fixed, if_false, or_self]

theorem byte_of_word (bytes : ℕ → BitVec 8) (k : ℕ) (below : k < 4) :
    (bytes 3 ++ bytes 2 ++ bytes 1 ++ bytes 0 : BitVec 32).extractLsb'
      (8 * k) 8 = bytes k := by
  apply BitVec.eq_of_getLsbD_eq
  intro i bound
  simp only [BitVec.getLsbD_extractLsb', BitVec.getLsbD_append, bound,
    decide_true, Bool.true_and]
  obtain rfl | rfl | rfl | rfl : k = 0 ∨ k = 1 ∨ k = 2 ∨ k = 3 := by omega
  · simp [bound]
  · simp [show ¬ 8 * 1 + i < 8 by omega, show 8 * 1 + i - 8 = i by omega,
      bound]
  · simp [show ¬ 8 * 2 + i < 8 by omega, show 8 * 2 + i - 8 - 8 = i by omega,
      show ¬ 8 * 2 + i - 8 < 8 by omega, bound]
  · simp [show ¬ 8 * 3 + i < 8 by omega, show ¬ 8 * 3 + i - 8 < 8 by omega,
      show ¬ 8 * 3 + i - 8 - 8 < 8 by omega,
      show 8 * 3 + i - 8 - 8 - 8 = i by omega]

/-- A slot of the PMP configuration survives writing back. -/
theorem WriteClosed.writePmpcfg_pack (closed : c.WriteClosed) (slot : ℕ) :
    c.writePmpcfg slot (c.packPmpcfgCsr slot) = c.pmpcfg := by
  funext e
  dsimp only [writePmpcfg]
  split_ifs with written
  · obtain ⟨low, high, -⟩ := written
    have byte : (c.packPmpcfgCsr slot).extractLsb' (8 * (e.val - slot * 4)) 8 =
        c.pmpcfg e := by
      have bytes := byte_of_word (fun k => c.pmpcfgByte (slot * 4 + k))
        (e.val - slot * 4) (by omega)
      have sum : slot * 4 + (e.val - slot * 4) = e.val := by omega
      simp only [sum, pmpcfgByte, e.isLt, dite_true] at bytes
      exact bytes
    rw [byte, closed.config e]
  · rfl

/-- An entry of the trigger arrays survives writing back. -/
theorem setTrigSelected_trigSelected (tdata : Fin p.nTrigger → BitVec 32) :
    c.setTrigSelected tdata (c.trigSelected tdata) = tdata := by
  funext t
  dsimp only [setTrigSelected]
  split_ifs with selected
  · have below : c.tselect.toNat < p.nTrigger := selected ▸ t.isLt
    rw [trigSelected, dif_pos below]
    congr 1
    exact Fin.ext selected.symm
  · rfl

theorem WriteClosed.tdata1Read_mask (closed : c.WriteClosed) :
    tdata1Read (c.trigSelected c.tdata1) &&& tdata1Wmask =
      c.trigSelected c.tdata1 := by
  have kept : c.trigSelected c.tdata1 &&& tdata1Wmask =
      c.trigSelected c.tdata1 := by
    unfold trigSelected
    split_ifs
    · exact closed.triggers _
    · decide
  have kind : (0x20000000 : BitVec 32) &&& tdata1Wmask = 0 := by decide
  rw [tdata1Read, BitVec.and_or_distrib_right, BitVec.and_assoc,
    BitVec.and_self, kept, kind]
  exact BitVec.zero_or

theorem WriteClosed.setTrigSelected_read (closed : c.WriteClosed)
    (irq : IrqLines) :
    c.setTrigSelected c.tdata1 (c.csrRdata irq csrTdata1 &&& tdata1Wmask) =
      c.tdata1 := by
  have value : c.csrRdata irq csrTdata1 =
      tdata1Read (c.trigSelected c.tdata1) := rfl
  rw [value, closed.tdata1Read_mask]
  exact c.setTrigSelected_trigSelected c.tdata1

/-! ### The write-back as a whole -/

theorem hpmSlot_bounds {base addr : BitVec 12} {hi : HpmIndex}
    (found : hpmSlot base addr = some hi) :
    base.toNat + 3 ≤ addr.toNat ∧ addr.toNat ≤ base.toNat + 31 := by
  unfold hpmSlot at found
  split_ifs at found with range
  exact range

theorem csrIsMhpmcounter_bounds {addr : BitVec 12} {half : HpmIndex × Bool}
    (found : csrIsMhpmcounter addr = some half) :
    0xB03 ≤ addr.toNat ∧ addr.toNat ≤ 0xB9F := by
  unfold csrIsMhpmcounter hpmHalf at found
  split at found
  case h_1 low =>
    have bounds := hpmSlot_bounds low
    simp only [BitVec.reduceToNat, Nat.reduceAdd] at bounds
    omega
  case h_2 =>
    split at found
    case h_1 high =>
      have bounds := hpmSlot_bounds high
      simp only [BitVec.reduceToNat, Nat.reduceAdd] at bounds
      omega
    case h_2 => cases found

/-- The fixed registers stand outside the counters and the events. -/
theorem not_mem_fixedCsrs {addr : BitVec 12}
    (range : 0xB03 ≤ addr.toNat ∧ addr.toNat ≤ 0xB9F ∨
      0x323 ≤ addr.toNat ∧ addr.toNat ≤ 0x33F) :
    addr ∉ fixedCsrs := by
  intro fixed
  simp only [fixedCsrs, List.mem_cons, List.not_mem_nil, or_false] at fixed
  rcases fixed with rfl | rfl | rfl | rfl | rfl | rfl | rfl | rfl | rfl |
    rfl | rfl | rfl <;> revert range <;> decide

/-- An event register has no other decoding. -/
theorem csrIsMhpmevent_only {addr : BitVec 12} {hi : HpmIndex}
    (found : csrIsMhpmevent addr = some hi) :
    csrIsPmpaddr p.pmpEntries addr = none ∧ csrIsHpmcounter addr = none ∧
      addr ∉ fixedCsrs := by
  have bounds := hpmSlot_bounds found
  simp only [BitVec.reduceToNat, Nat.reduceAdd] at bounds
  refine ⟨?_, ?_, not_mem_fixedCsrs (Or.inr (by omega))⟩
  · unfold csrIsPmpaddr
    rw [dif_neg]
    rintro ⟨low, -⟩
    rw [BitVec.le_def] at low
    simp only [BitVec.reduceToNat] at low
    omega
  · have below (base : BitVec 12) (outside : 0x33F < base.toNat) :
        hpmSlot base addr = none := by
      unfold hpmSlot
      rw [dif_neg]
      omega
    rw [csrIsHpmcounter, hpmHalf, below 0xC00 (by decide),
      below 0xC80 (by decide)]

/-- A half of a counter is written back over the tick. -/
theorem tick_mhpmcounter_iff (x : CsrIn p) (hi : HpmIndex) (high : Bool)
    (val : BitVec 32) :
    ({ c.tickCounters x with
        mhpmcounter := fun e =>
          if e = hi then
            setCounterHalf ((c.tickCounters x).mhpmcounter e) high val
          else (c.tickCounters x).mhpmcounter e } : CsrState p) =
        c.tickCounters x ↔
      counterHalf ((c.tickCounters x).mhpmcounter hi) high = val := by
  rw [← setCounterHalf_iff]
  constructor
  · intro same
    have back := congrFun (congrArg CsrState.mhpmcounter same) hi
    simpa only [if_true] using back
  · intro kept
    have all : (fun e => if e = hi then
          setCounterHalf ((c.tickCounters x).mhpmcounter e) high val
        else (c.tickCounters x).mhpmcounter e) =
        (c.tickCounters x).mhpmcounter := by
      funext e
      split_ifs with here
      · rw [here]
        exact kept
      · rfl
    simp only [all]

theorem put_back {ι α : Type} [DecidableEq ι] (f : ι → α) (i : ι) :
    (fun e => if e = i then f i else f e) = f := by
  funext e
  split_ifs with here
  · rw [here]
  · rfl

/-- Writing back at an address that has no name. -/
theorem WriteClosed.writeIndexed_read_iff (closed : c.WriteClosed)
    (irq : IrqLines) (x : CsrIn p) (named : x.csrAddr ∉ namedCsrs) :
    c.writeIndexed (c.tickCounters x) x.csrAddr (c.csrRdata irq x.csrAddr) =
        c.tickCounters x ↔
      c.indexedKept irq x := by
  unfold CsrState.writeIndexed indexedKept
  cases cfg : csrIsPmpcfg p.pmpEntries x.csrAddr with
  | some slot =>
      constructor
      · exact fun same _ => congrArg CsrState.pmpcfg same
      · intro kept
        have back : c.writePmpcfg slot (c.csrRdata irq x.csrAddr) =
            c.pmpcfg := by
          by_cases fixed : x.csrAddr ∈ fixedCsrs
          · exact kept fixed
          · rw [csrRdata_of_indexed irq named fixed, cfg]
            exact closed.writePmpcfg_pack slot
        simp only [back]
        rfl
  | none =>
      cases entry : (csrIsPmpaddr p.pmpEntries x.csrAddr).filter
          (fun idx => !c.pmpaddrWriteBlocked idx.val) with
      | some idx =>
          have decoded := (Option.filter_eq_some_iff.mp entry).1
          constructor
          · intro same fixed
            have back := congrFun (congrArg CsrState.pmpaddr same) idx
            simp only [if_true] at back
            exact back.symm
          · intro kept
            have back : c.csrRdata irq x.csrAddr = c.pmpaddr idx := by
              by_cases fixed : x.csrAddr ∈ fixedCsrs
              · exact (kept fixed).symm
              · rw [csrRdata_of_indexed irq named fixed, cfg, decoded]
            have all := put_back (c.tickCounters x).pmpaddr idx
            rw [back]
            exact congrArg (fun entries => { c.tickCounters x with
              pmpaddr := entries }) all
      | none =>
          cases counter : csrIsMhpmcounter x.csrAddr with
          | some half =>
              obtain ⟨hi, high⟩ := half
              have fixed := not_mem_fixedCsrs
                (Or.inl (csrIsMhpmcounter_bounds counter))
              refine Iff.trans (tick_mhpmcounter_iff x hi high _) ?_
              dsimp only
              split_ifs with window
              · rw [csrRdata_of_indexed irq named fixed, cfg, window, counter]
                exact counterHalf_ticked_iff _ _ _
              · exact Iff.rfl
          | none =>
              cases event : csrIsMhpmevent x.csrAddr with
              | some hi =>
                  obtain ⟨window, unread, fixed⟩ :=
                    csrIsMhpmevent_only (p := p) event
                  have back : c.csrRdata irq x.csrAddr = c.mhpmevent hi := by
                    rw [csrRdata_of_indexed irq named fixed, cfg, window,
                      counter, unread, event]
                  have all := put_back (c.tickCounters x).mhpmevent hi
                  rw [back]
                  exact iff_of_true (congrArg (fun events =>
                    { c.tickCounters x with mhpmevent := events }) all) trivial
              | none => exact ⟨fun _ => trivial, fun _ => rfl⟩

/-- Both halves of a named counter. -/
theorem setCounterHalf_read_iff (counter : BitVec 64) (ticks high : Bool) :
    setCounterHalf (if ticks then counter + 1 else counter) high
        (counterHalf counter high) =
      (if ticks then counter + 1 else counter) ↔
      HalfKept counter ticks high :=
  (setCounterHalf_iff _ high _).trans (counterHalf_ticked_iff _ _ _)

theorem readKeeps_of_plain {irq : IrqLines} {x : CsrIn p}
    (named : x.csrAddr ∈ namedCsrs)
    (plain : x.csrAddr ∉ [csrMstatus, csrMepc, csrMcycle, csrMcycleh,
      csrMinstret, csrMinstreth]) :
    c.readKeeps irq x := by
  simp only [List.mem_cons, List.not_mem_nil, or_false, not_or] at plain
  simp only [readKeeps, plain, if_false, named, if_true]

theorem WriteClosed.mstatus_read_iff (closed : c.WriteClosed)
    (modes : p.enableU = true → c.mpp = privM ∨ c.mpp = privU) :
    applyMstatusWarl p.enableU c.mstatus c.mstatus = c.mstatus ↔
      p.enableU = true ∨ c.mpp = privU := by
  cases user : p.enableU with
  | true =>
      exact iff_of_true (applyMstatusWarl_self_user (modes user))
        (Or.inl rfl)
  | false =>
      obtain ⟨mprv, tw⟩ := closed.modes user
      rw [applyMstatusWarl_self_iff mprv tw]
      exact ⟨Or.inr, fun either => either.resolve_left Bool.false_ne_true⟩

/-- Writing back at any address. -/
theorem WriteClosed.writeCsr_read_iff (closed : c.WriteClosed)
    (modes : p.enableU = true → c.mpp = privM ∨ c.mpp = privU)
    (irq : IrqLines) (x : CsrIn p) :
    c.writeCsr (c.tickCounters x) x.csrAddr (c.csrRdata irq x.csrAddr) =
        c.tickCounters x ↔
      c.readKeeps irq x := by
  have plain {addr : BitVec 12} {t : CsrState p}
      (here : x.csrAddr = addr) (named : addr ∈ namedCsrs)
      (other : addr ∉ [csrMstatus, csrMepc, csrMcycle, csrMcycleh,
        csrMinstret, csrMinstreth])
      (same : t = c.tickCounters x) :
      t = c.tickCounters x ↔ c.readKeeps irq x :=
    iff_of_true same (c.readKeeps_of_plain (here ▸ named) (here ▸ other))
  refine writeCsr_cases (P := fun addr t => x.csrAddr = addr →
    (t = c.tickCounters x ↔ c.readKeeps irq x)) ?mstatus ?mie ?mtvec
    ?mcounteren ?mcountinhibit ?mscratch ?mepc ?mcause ?mtval ?mcycle
    ?minstret ?tselect ?tdata1 ?tdata2 ?indexed rfl
  case mstatus =>
    intro here
    have kept : c.readKeeps irq x ↔ (p.enableU = true ∨ c.mpp = privU) := by
      simp only [readKeeps, here, if_true]
    rw [kept, here, ← closed.mstatus_read_iff modes]
    exact ⟨fun same => congrArg CsrState.mstatus same, fun same =>
      congrArg (fun mstatus => { c.tickCounters x with mstatus := mstatus })
        same⟩
  case mepc =>
    intro here
    have kept : c.readKeeps irq x ↔ c.mepc &&&
        (if p.enableC then 0xFFFFFFFE else 0xFFFFFFFC) = c.mepc := by
      rw [readKeeps, here, if_neg (by decide), if_pos rfl]
    rw [kept, here]
    exact ⟨fun same => congrArg CsrState.mepc same, fun same =>
      congrArg (fun mepc => { c.tickCounters x with mepc := mepc }) same⟩
  case mcycle =>
    intro high here
    have kept : c.readKeeps irq x ↔
        HalfKept c.mcycle (!c.mcountinhibit.getLsbD 0) high := by
      cases high <;> simp [readKeeps, here, csrMcycle, csrMcycleh, csrMstatus,
        csrMepc]
    have value : c.csrRdata irq x.csrAddr = counterHalf c.mcycle high := by
      cases high <;> rw [here] <;> rfl
    have ticked : (c.tickCounters x).mcycle =
        if !c.mcountinhibit.getLsbD 0 then c.mcycle + 1 else c.mcycle := by
      dsimp only [tickCounters]
      cases c.mcountinhibit.getLsbD 0 <;> rfl
    rw [kept, value, ← setCounterHalf_read_iff, ← ticked]
    exact ⟨fun same => congrArg CsrState.mcycle same, fun same =>
      congrArg (fun mcycle => { c.tickCounters x with mcycle := mcycle })
        same⟩
  case minstret =>
    intro high here
    have kept : c.readKeeps irq x ↔ HalfKept c.minstret
        (x.instrRetire && !c.mcountinhibit.getLsbD 2) high := by
      cases high <;> simp [readKeeps, here, csrMcycle, csrMcycleh, csrMstatus,
        csrMepc, csrMinstret, csrMinstreth]
    have value : c.csrRdata irq x.csrAddr = counterHalf c.minstret high := by
      cases high <;> rw [here] <;> rfl
    rw [kept, value, ← setCounterHalf_read_iff]
    exact ⟨fun same => congrArg CsrState.minstret same, fun same =>
      congrArg (fun minstret => { c.tickCounters x with minstret := minstret })
        same⟩
  case mcounteren =>
    intro here
    refine plain here (by decide) (by decide) ?_
    rw [here]
    exact congrArg (fun counteren => { c.tickCounters x with
      mcounteren := counteren }) closed.counteren
  case tselect =>
    intro here
    refine plain here (by decide) (by decide) ?_
    have back : (c.csrRdata irq x.csrAddr).setWidth (tselW p.nTrigger) =
        c.tselect := by
      have value : c.csrRdata irq csrTselect = c.tselect.setWidth 32 := rfl
      rw [here, value]
      apply BitVec.eq_of_toNat_eq
      rw [BitVec.toNat_setWidth, BitVec.toNat_setWidth,
        Nat.mod_eq_of_lt closed.select, Nat.mod_eq_of_lt c.tselect.isLt]
    rw [back]
    exact ite_self _
  case tdata1 =>
    intro here
    refine plain here (by decide) (by decide) ?_
    rw [here]
    exact congrArg (fun tdata1 => { c.tickCounters x with tdata1 := tdata1 })
      (closed.setTrigSelected_read irq)
  case tdata2 =>
    intro here
    refine plain here (by decide) (by decide) ?_
    have value : c.csrRdata irq x.csrAddr = c.trigSelected c.tdata2 := by
      rw [here]
      rfl
    rw [value]
    exact congrArg (fun tdata2 => { c.tickCounters x with tdata2 := tdata2 })
      (c.setTrigSelected_trigSelected c.tdata2)
  case indexed =>
    intro named _
    have kept : c.readKeeps irq x ↔ c.indexedKept irq x := by
      have others := named
      simp only [namedCsrs, List.mem_cons, List.not_mem_nil, or_false,
        not_or] at others
      simp only [readKeeps, others, if_false, named]
    rw [kept]
    exact closed.writeIndexed_read_iff irq x named
  all_goals
    intro here
    refine plain here (by decide) (by decide) ?_
    rw [here]
    rfl

theorem latchHits_inj {a b : CsrState p} (same : a.tdata1 = b.tdata1) :
    latchHits x a = latchHits x b ↔ a = b := by
  constructor
  · intro latched
    cases a
    cases b
    simp only [latchHits, CsrState.mk.injEq] at latched
    simp only at same
    simp only [same, latched]
  · intro equal
    rw [equal]

theorem writeIndexed_tdata1 (addr : BitVec 12) (val : BitVec 32) :
    (c.writeIndexed n addr val).tdata1 = n.tdata1 := by
  unfold CsrState.writeIndexed
  repeat' split
  all_goals rfl

/-- Writing back leaves the triggers alone. -/
theorem WriteClosed.writeCsr_read_tdata1 (closed : c.WriteClosed)
    (irq : IrqLines) (x : CsrIn p) :
    (c.writeCsr (c.tickCounters x) x.csrAddr
      (c.csrRdata irq x.csrAddr)).tdata1 = (c.tickCounters x).tdata1 := by
  refine writeCsr_cases (P := fun addr t => x.csrAddr = addr →
    t.tdata1 = (c.tickCounters x).tdata1) ?mstatus ?mie ?mtvec
    ?mcounteren ?mcountinhibit ?mscratch ?mepc ?mcause ?mtval ?mcycle
    ?minstret ?tselect ?tdata1 ?tdata2 ?indexed rfl
  case tdata1 =>
    intro here
    rw [here]
    exact closed.setTrigSelected_read irq
  case tselect =>
    intro _
    split_ifs <;> rfl
  case indexed => exact fun _ _ => c.writeIndexed_tdata1 _ _
  case mcycle => exact fun _ _ => rfl
  case minstret => exact fun _ _ => rfl
  all_goals exact fun _ => rfl

end CsrState

/-! ## A read in a cycle -/

/-- A set or clear instruction with a zero operand is in the cycle. -/
def CsrIn.Reads {p : Params} (x : CsrIn p) : Prop :=
  x.csrWen = true ∧ (x.csrOp = 0b10 ∨ x.csrOp = 0b11) ∧ x.csrWdata = 0

instance {p : Params} (x : CsrIn p) : Decidable x.Reads :=
  inferInstanceAs (Decidable (_ ∧ (_ ∨ _) ∧ _))

theorem CsrIn.Reads.csrNewVal {p : Params} {x : CsrIn p} (reads : x.Reads)
    (c : CsrState p) (irq : IrqLines) :
    c.csrNewVal irq x = c.csrRdata irq x.csrAddr := by
  obtain ⟨-, op, data⟩ := reads
  rcases op with op | op
  · simp [CsrState.csrNewVal, op, data]
  · have all : ~~~(0 : BitVec 32) = BitVec.allOnes 32 := by decide
    have neither : (0b11 : BitVec 2) ≠ 0b01 ∧ (0b11 : BitVec 2) ≠ 0b10 := by
      decide
    rw [CsrState.csrNewVal, op, data, if_neg neither.1, if_neg neither.2,
      if_pos rfl, all, BitVec.and_allOnes]

/-- A read leaves the unit as if it had not happened exactly when the register
it reads keeps its value under the write-back. -/
theorem next_of_read_iff {p : Params} (r : CsrRun p) (n : ℕ)
    (irq : IrqLines) (x : CsrIn p) (reads : x.Reads) :
    (r.state n).next irq x =
        (r.state n).next irq { x with csrWen := false } ↔
      x.trapEnter = true ∨ x.mretExec = true ∨
        (r.state n).readKeeps irq x := by
  have closed := r.writeClosed n
  have modes (user : p.enableU = true) := (CsrRun.modesOnly user (r := r) n).mpp
  generalize r.state n = c at closed modes
  show CsrState.latchHits x (c.commit irq x (c.tickCounters x)) =
      CsrState.latchHits x
        (c.commit irq { x with csrWen := false } (c.tickCounters x)) ↔ _
  by_cases enter : x.trapEnter = true
  · simp [CsrState.commit, enter]
  · by_cases mret : x.mretExec = true
    · simp [CsrState.commit, enter, mret]
    · have written : c.commit irq x (c.tickCounters x) =
          c.writeCsr (c.tickCounters x) x.csrAddr
            (c.csrRdata irq x.csrAddr) := by
        simp only [CsrState.commit, enter, mret, reads.1, Bool.false_eq_true,
          if_false, if_true, reads.csrNewVal]
      have unwritten :
          c.commit irq { x with csrWen := false } (c.tickCounters x) =
            c.tickCounters x := by
        simp only [CsrState.commit, enter, mret, Bool.false_eq_true, if_false]
      rw [written, unwritten, CsrState.latchHits_inj
        (closed.writeCsr_read_tdata1 irq x),
        closed.writeCsr_read_iff modes irq x]
      simp only [enter, mret, Bool.false_eq_true, false_or]

/-- `csrrs` of a register with `x0`. -/
def csrRead {p : Params} (addr : BitVec 12) : CsrIn p :=
  { CsrRun.idle with csrAddr := addr, csrOp := 0b10, csrWen := true }

theorem next_of_read_iff_mscratch :
    ((CsrRun.script [] : CsrRun {}).state 0).next ⟨false, false, false⟩
        (csrRead csrMscratch) =
      ((CsrRun.script [] : CsrRun {}).state 0).next ⟨false, false, false⟩
        { csrRead csrMscratch with csrWen := false } :=
  (next_of_read_iff (CsrRun.script []) 0 ⟨false, false, false⟩
    (csrRead csrMscratch) (by decide)).mpr
    (Or.inr (Or.inr trivial))

/-- Reading the cycle counter loses the cycle. -/
theorem not_next_of_read :
    ¬ ∀ (p : Params) (r : CsrRun p) (n : ℕ) (irq : IrqLines) (x : CsrIn p),
      x.Reads → (r.state n).next irq x =
        (r.state n).next irq { x with csrWen := false } := by
  intro all
  have same := congrArg CsrState.mcycle
    (all {} (CsrRun.script []) 0 ⟨false, false, false⟩ (csrRead csrMcycle)
      (by decide))
  revert same
  decide

end SisRv
