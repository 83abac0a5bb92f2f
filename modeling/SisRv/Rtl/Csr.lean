import SisRv.Rtl.Pmp
import Mathlib.Data.Nat.Log

/-!
# `sisCsr`

The CSR unit of `rtl/core/sisCsr.sv`: trap state, privilege, PMP
configuration, counters and the debug triggers, with its read multiplexer
and its clocked update.
-/

namespace SisRv

/-- The parameters of `sisRvCore`, handed down to `sisCsr` and `sisPmp`. -/
structure Params where
  resetVector : BitVec 32 := 0
  enableA : Bool := true
  enableM : Bool := true
  enableC : Bool := true
  nTrigger : ℕ := 2
  enableU : Bool := true
  pmpEntries : ℕ := 8

/-! ## CSR addresses -/

def csrMstatus : BitVec 12 := 0x300
def csrMisa : BitVec 12 := 0x301
def csrMie : BitVec 12 := 0x304
def csrMtvec : BitVec 12 := 0x305
def csrMcounteren : BitVec 12 := 0x306
def csrMcountinhibit : BitVec 12 := 0x320
def csrMscratch : BitVec 12 := 0x340
def csrMepc : BitVec 12 := 0x341
def csrMcause : BitVec 12 := 0x342
def csrMtval : BitVec 12 := 0x343
def csrMip : BitVec 12 := 0x344
def csrMvendorid : BitVec 12 := 0xF11
def csrMarchid : BitVec 12 := 0xF12
def csrMimpid : BitVec 12 := 0xF13
def csrMhartid : BitVec 12 := 0xF14
def csrMconfigptr : BitVec 12 := 0xF15
def csrMcycle : BitVec 12 := 0xB00
def csrMinstret : BitVec 12 := 0xB02
def csrMcycleh : BitVec 12 := 0xB80
def csrMinstreth : BitVec 12 := 0xB82
def csrCycle : BitVec 12 := 0xC00
def csrCycleh : BitVec 12 := 0xC80
def csrInstret : BitVec 12 := 0xC02
def csrInstreth : BitVec 12 := 0xC82
def csrTselect : BitVec 12 := 0x7A0
def csrTdata1 : BitVec 12 := 0x7A1
def csrTdata2 : BitVec 12 := 0x7A2
def csrTinfo : BitVec 12 := 0x7A4

/-- MIE, MPIE, MPP, MPRV and TW. -/
def mstatusWmask : BitVec 32 := 0x00221888

/-- The hit, m, u, x, s and l bits of `mcontrol`. -/
def tdata1Wmask : BitVec 32 := 0x0010004F

def mcHit : ℕ := 20

/-- `TSEL_W`. -/
def tselW (nTrigger : ℕ) : ℕ :=
  if nTrigger ≤ 1 then 1 else Nat.log2 (nTrigger - 1) + 1

/-- `PMPCFG_CSRS`. -/
def pmpcfgCsrs (pmpEntries : ℕ) : ℕ := (pmpEntries + 3) / 4

/-- The index range `[3:31]` of `mhpmcounter` and `mhpmevent`. -/
abbrev HpmIndex := { hi : Fin 32 // 3 ≤ hi.val }

/-- The registers of `sisCsr`. -/
structure CsrState (p : Params) where
  mstatus : BitVec 32
  mie : BitVec 32
  mtvec : BitVec 32
  mcounteren : BitVec 32
  mscratch : BitVec 32
  mepc : BitVec 32
  mcause : BitVec 32
  mtval : BitVec 32
  mip : BitVec 32
  mcountinhibit : BitVec 32
  mcycle : BitVec 64
  minstret : BitVec 64
  mhpmcounter : HpmIndex → BitVec 64
  mhpmevent : HpmIndex → BitVec 32
  priv : BitVec 2
  pmpcfg : Fin p.pmpEntries → BitVec 8
  pmpaddr : Fin p.pmpEntries → BitVec 32
  tselect : BitVec (tselW p.nTrigger)
  tdata1 : Fin p.nTrigger → BitVec 32
  tdata2 : Fin p.nTrigger → BitVec 32

/-- The inputs of `sisCsr` that its clocked update reads, besides the external
interrupt lines. -/
structure CsrIn (p : Params) where
  csrAddr : BitVec 12
  csrWdata : BitVec 32
  csrOp : BitVec 2
  csrWen : Bool
  trapEnter : Bool
  trapCause : BitVec 32
  trapVal : BitVec 32
  trapEpc : BitVec 32
  mretExec : Bool
  instrRetire : Bool
  hpmEvents : BitVec 32
  trigHitSet : Fin p.nTrigger → Bool

/-- The external interrupt lines. -/
structure IrqLines where
  extMsip : Bool
  extMtip : Bool
  extMeip : Bool
  deriving DecidableEq, Repr

/-! ## Address classes -/

/-- The counter index of an address in `[base + 3, base + 31]`. -/
def hpmSlot (base addr : BitVec 12) : Option HpmIndex :=
  if h : base.toNat + 3 ≤ addr.toNat ∧ addr.toNat ≤ base.toNat + 31 then
    some ⟨⟨addr.toNat - base.toNat, by omega⟩,
      show 3 ≤ addr.toNat - base.toNat by omega⟩
  else none

/-- A counter CSR: its index, and whether it is the upper half. -/
def hpmHalf (low high addr : BitVec 12) : Option (HpmIndex × Bool) :=
  match hpmSlot low addr with
  | some hi => some (hi, false)
  | none =>
    match hpmSlot high addr with
    | some hi => some (hi, true)
    | none => none

def csrIsMhpmcounter (addr : BitVec 12) : Option (HpmIndex × Bool) :=
  hpmHalf 0xB00 0xB80 addr

def csrIsHpmcounter (addr : BitVec 12) : Option (HpmIndex × Bool) :=
  hpmHalf 0xC00 0xC80 addr

def csrIsMhpmevent (addr : BitVec 12) : Option HpmIndex :=
  hpmSlot 0x320 addr

/-- `csr_is_pmpcfg`: the slot of four entries.  The upper bound of the range
is truncated to twelve bits. -/
def csrIsPmpcfg (pmpEntries : ℕ) (addr : BitVec 12) : Option ℕ :=
  if 0x3A0 ≤ addr ∧
      addr < BitVec.ofNat 12 (0x3A0 + pmpcfgCsrs pmpEntries) ∧
      addr.toNat - 0x3A0 < pmpcfgCsrs pmpEntries then
    some (addr.toNat - 0x3A0)
  else none

/-- `csr_is_pmpaddr`, with the same truncation. -/
def csrIsPmpaddr (pmpEntries : ℕ) (addr : BitVec 12) :
    Option (Fin pmpEntries) :=
  if h : 0x3B0 ≤ addr ∧ addr < BitVec.ofNat 12 (0x3B0 + pmpEntries) ∧
      addr.toNat - 0x3B0 < pmpEntries then
    some ⟨addr.toNat - 0x3B0, h.2.2⟩
  else none

/-! ## WARL functions -/

/-- `warl_pmpcfg_byte`: bits 6:5 are zero. -/
def warlPmpcfgByte (val : BitVec 8) : BitVec 8 :=
  (val.extractLsb' 7 1 ++ 0b00#2 ++ val.extractLsb' 3 2 ++
    val.extractLsb' 0 3 : BitVec 8)

/-- Replace bits `lo .. lo + w - 1` of a word. -/
def setField {w : ℕ} (word : BitVec 32) (lo : ℕ) (field : BitVec w) :
    BitVec 32 :=
  (word &&& ~~~((BitVec.allOnes w).setWidth 32 <<< lo)) |||
    (field.setWidth 32 <<< lo)

/-- `apply_mstatus_warl`. -/
def applyMstatusWarl (enableU : Bool) (oldVal newVal : BitVec 32) :
    BitVec 32 :=
  let merged := (oldVal &&& ~~~mstatusWmask) ||| (newVal &&& mstatusWmask)
  if enableU then
    let mppIn := merged.extractLsb' 11 2
    let mppOut := if mppIn = 0b01 ∨ mppIn = 0b10 then privU else mppIn
    setField merged 11 mppOut
  else
    setField (setField (setField merged 11 0b00#2) 17 0#1) 21 0#1

/-- `tdata1_read`. -/
def tdata1Read (w : BitVec 32) : BitVec 32 :=
  0x20000000 ||| (w &&& tdata1Wmask)

namespace CsrState

variable {p : Params} (c : CsrState p)

/-! ## PMP locks -/

/-- `pmpcfg_locked`. -/
def pmpcfgLocked (idx : ℕ) : Bool :=
  if h : idx < p.pmpEntries then (c.pmpcfg ⟨idx, h⟩).getLsbD 7 else false

/-- `pmpaddr_write_blocked`. -/
def pmpaddrWriteBlocked (idx : ℕ) : Bool :=
  if p.pmpEntries ≤ idx then true
  else if c.pmpcfgLocked idx then true
  else if h : idx + 1 < p.pmpEntries then
    (c.pmpcfg ⟨idx + 1, h⟩).extractLsb' 3 2 == 0b01 &&
      (c.pmpcfg ⟨idx + 1, h⟩).getLsbD 7
  else false

/-- Byte `base + j` of `pack_pmpcfg_csr`, zero beyond the last entry. -/
def pmpcfgByte (idx : ℕ) : BitVec 8 :=
  if h : idx < p.pmpEntries then c.pmpcfg ⟨idx, h⟩ else 0

/-- `pack_pmpcfg_csr`. -/
def packPmpcfgCsr (slot : ℕ) : BitVec 32 :=
  (c.pmpcfgByte (slot * 4 + 3) ++ c.pmpcfgByte (slot * 4 + 2) ++
    c.pmpcfgByte (slot * 4 + 1) ++ c.pmpcfgByte (slot * 4) : BitVec 32)

/-! ## Read multiplexer -/

/-- An element of the trigger arrays at `tselect`. -/
def trigSelected (tdata : Fin p.nTrigger → BitVec 32) : BitVec 32 :=
  if h : c.tselect.toNat < p.nTrigger then tdata ⟨c.tselect.toNat, h⟩ else 0

/-- One half of a 64-bit counter. -/
def counterHalf (counter : BitVec 64) (high : Bool) : BitVec 32 :=
  if high then counter.extractLsb' 32 32 else counter.extractLsb' 0 32

def misaValue (p : Params) : BitVec 32 :=
  0x40001100 ||| (if p.enableA then 0x00000001 else 0) |||
    (if p.enableC then 0x00000004 else 0) |||
    (if p.enableU then 0x00100000 else 0)

/-- `mip_effective`: the external lines replace bits 11, 7 and 3. -/
def mipEffective (irq : IrqLines) : BitVec 32 :=
  (c.mip.extractLsb' 12 20 ++ BitVec.ofBool irq.extMeip ++
    c.mip.extractLsb' 8 3 ++ BitVec.ofBool irq.extMtip ++
    c.mip.extractLsb' 4 3 ++ BitVec.ofBool irq.extMsip ++
    c.mip.extractLsb' 0 3 : BitVec 32)

/-- `csr_rdata`. -/
def csrRdata (irq : IrqLines) (addr : BitVec 12) : BitVec 32 :=
  if addr = csrMstatus then c.mstatus
  else if addr = csrMisa then misaValue p
  else if addr = csrMie then c.mie
  else if addr = csrMtvec then c.mtvec
  else if addr = csrMcounteren then c.mcounteren
  else if addr = csrMcountinhibit then c.mcountinhibit
  else if addr = csrMscratch then c.mscratch
  else if addr = csrMepc then c.mepc
  else if addr = csrMcause then c.mcause
  else if addr = csrMtval then c.mtval
  else if addr = csrMip then c.mipEffective irq
  else if addr = csrMvendorid ∨ addr = csrMarchid ∨ addr = csrMimpid ∨
      addr = csrMhartid ∨ addr = csrMconfigptr then 0
  else if addr = csrMcycle ∨ addr = csrCycle then counterHalf c.mcycle false
  else if addr = csrMcycleh ∨ addr = csrCycleh then counterHalf c.mcycle true
  else if addr = csrMinstret ∨ addr = csrInstret then
    counterHalf c.minstret false
  else if addr = csrMinstreth ∨ addr = csrInstreth then
    counterHalf c.minstret true
  else if addr = csrTselect then c.tselect.setWidth 32
  else if addr = csrTdata1 then tdata1Read (c.trigSelected c.tdata1)
  else if addr = csrTdata2 then c.trigSelected c.tdata2
  else if addr = csrTinfo then 0x00000004
  else
    match csrIsPmpcfg p.pmpEntries addr, csrIsPmpaddr p.pmpEntries addr,
      csrIsMhpmcounter addr, csrIsHpmcounter addr, csrIsMhpmevent addr with
    | some slot, _, _, _, _ => c.packPmpcfgCsr slot
    | none, some idx, _, _, _ => c.pmpaddr idx
    | none, none, some (hi, high), _, _ => counterHalf (c.mhpmcounter hi) high
    | none, none, none, some (hi, high), _ =>
        counterHalf (c.mhpmcounter hi) high
    | none, none, none, none, some hi => c.mhpmevent hi
    | none, none, none, none, none => 0

/-- `csr_new_val`. -/
def csrNewVal (irq : IrqLines) (x : CsrIn p) : BitVec 32 :=
  let csrRdata := c.csrRdata irq x.csrAddr
  if x.csrOp = 0b01 then x.csrWdata
  else if x.csrOp = 0b10 then csrRdata ||| x.csrWdata
  else if x.csrOp = 0b11 then csrRdata &&& ~~~x.csrWdata
  else csrRdata

/-! ## Clocked update -/

/-- The state after `rst_n`. -/
def reset (p : Params) : CsrState p :=
  { mstatus := 0
    mie := 0
    mtvec := 0
    mcounteren := 0
    mscratch := 0
    mepc := 0
    mcause := 0
    mtval := 0
    mip := 0
    mcountinhibit := 0
    mcycle := 0
    minstret := 0
    mhpmcounter := fun _ => 0
    mhpmevent := fun _ => 0
    priv := privM
    pmpcfg := fun _ => 0
    pmpaddr := fun _ => 0
    tselect := 0
    tdata1 := fun _ => 0
    tdata2 := fun _ => 0 }

/-- The free-running counters, which tick before anything else is assigned. -/
def tickCounters (x : CsrIn p) : CsrState p :=
  { c with
    mcycle := if c.mcountinhibit.getLsbD 0 then c.mcycle else c.mcycle + 1
    minstret :=
      if x.instrRetire && !c.mcountinhibit.getLsbD 2 then c.minstret + 1
      else c.minstret
    mhpmcounter := fun hi =>
      if !c.mcountinhibit.getLsbD hi.val.val &&
          (c.mhpmevent hi &&& x.hpmEvents) != 0 then
        c.mhpmcounter hi + 1
      else c.mhpmcounter hi }

/-- `mstatus` on trap entry: MPP and MPIE are saved and MIE is cleared. -/
def mstatusTrap : BitVec 32 :=
  (c.mstatus.extractLsb' 13 19 ++ c.priv ++ c.mstatus.extractLsb' 8 3 ++
    c.mstatus.extractLsb' 3 1 ++ c.mstatus.extractLsb' 4 3 ++ 0#1 ++
    c.mstatus.extractLsb' 0 3 : BitVec 32)

/-- `mret_next_priv`. -/
def mretNextPriv : BitVec 2 := c.mstatus.extractLsb' 11 2

/-- `mstatus` on MRET: MPRV is kept only when returning to M-mode. -/
def mstatusMret : BitVec 32 :=
  (c.mstatus.extractLsb' 18 14 ++
    (if c.mretNextPriv = privM then c.mstatus.extractLsb' 17 1 else 0#1) ++
    c.mstatus.extractLsb' 13 4 ++ (if p.enableU then privU else privM) ++
    c.mstatus.extractLsb' 8 3 ++ 1#1 ++ c.mstatus.extractLsb' 4 3 ++
    c.mstatus.extractLsb' 7 1 ++ c.mstatus.extractLsb' 0 3 : BitVec 32)

/-- Replace one half of a 64-bit counter. -/
def setCounterHalf (counter : BitVec 64) (high : Bool) (val : BitVec 32) :
    BitVec 64 :=
  if high then (val ++ counter.extractLsb' 0 32 : BitVec 64)
  else (counter.extractLsb' 32 32 ++ val : BitVec 64)

/-- Replace the element of a trigger array at `tselect`. -/
def setTrigSelected (tdata : Fin p.nTrigger → BitVec 32) (val : BitVec 32) :
    Fin p.nTrigger → BitVec 32 :=
  fun t => if t.val = c.tselect.toNat then val else tdata t

/-- The `pmpcfg` array after a write of `val` to a slot; every byte checks its
own lock. -/
def writePmpcfg (slot : ℕ) (val : BitVec 32) :
    Fin p.pmpEntries → BitVec 8 :=
  fun e =>
    if slot * 4 ≤ e.val ∧ e.val < slot * 4 + 4 ∧
        c.pmpcfgLocked e.val = false then
      warlPmpcfgByte (val.extractLsb' (8 * (e.val - slot * 4)) 8)
    else c.pmpcfg e

/-- The `default` arm of the write case, over the ticked state `n`. -/
def writeIndexed (n : CsrState p) (addr : BitVec 12) (val : BitVec 32) :
    CsrState p :=
  match csrIsPmpcfg p.pmpEntries addr with
  | some slot => { n with pmpcfg := c.writePmpcfg slot val }
  | none =>
    match (csrIsPmpaddr p.pmpEntries addr).filter
        (fun idx => !c.pmpaddrWriteBlocked idx.val) with
    | some idx =>
        { n with
          pmpaddr := fun e => if e = idx then val else n.pmpaddr e }
    | none =>
      match csrIsMhpmcounter addr with
      | some (hi, high) =>
          { n with
            mhpmcounter := fun e =>
              if e = hi then setCounterHalf (n.mhpmcounter e) high val
              else n.mhpmcounter e }
      | none =>
        match csrIsMhpmevent addr with
        | some hi =>
            { n with
              mhpmevent := fun e => if e = hi then val else n.mhpmevent e }
        | none => n

/-- The write case.  Right-hand sides read the old state `c`, counters are
assigned by halves over the ticked state `n`. -/
def writeCsr (n : CsrState p) (addr : BitVec 12) (val : BitVec 32) :
    CsrState p :=
  if addr = csrMstatus then
    { n with mstatus := applyMstatusWarl p.enableU c.mstatus val }
  else if addr = csrMie then { n with mie := val }
  else if addr = csrMtvec then { n with mtvec := val }
  else if addr = csrMcounteren then
    { n with mcounteren := val &&& 0xFFFFFFFD }
  else if addr = csrMcountinhibit then { n with mcountinhibit := val }
  else if addr = csrMscratch then { n with mscratch := val }
  else if addr = csrMepc then
    { n with mepc := val &&& (if p.enableC then 0xFFFFFFFE else 0xFFFFFFFC) }
  else if addr = csrMcause then { n with mcause := val }
  else if addr = csrMtval then { n with mtval := val }
  else if addr = csrMcycle then
    { n with mcycle := setCounterHalf n.mcycle false val }
  else if addr = csrMcycleh then
    { n with mcycle := setCounterHalf n.mcycle true val }
  else if addr = csrMinstret then
    { n with minstret := setCounterHalf n.minstret false val }
  else if addr = csrMinstreth then
    { n with minstret := setCounterHalf n.minstret true val }
  else if addr = csrTselect then
    if val.toNat < p.nTrigger then
      { n with tselect := val.setWidth (tselW p.nTrigger) }
    else n
  else if addr = csrTdata1 then
    { n with tdata1 := c.setTrigSelected n.tdata1 (val &&& tdata1Wmask) }
  else if addr = csrTdata2 then
    { n with tdata2 := c.setTrigSelected n.tdata2 val }
  else c.writeIndexed n addr val

/-- Trap entry, MRET or CSR write, in this priority. -/
def commit (irq : IrqLines) (x : CsrIn p) (n : CsrState p) : CsrState p :=
  if x.trapEnter then
    { n with
      mepc := x.trapEpc
      mcause := x.trapCause
      mtval := x.trapVal
      mstatus := c.mstatusTrap
      priv := privM }
  else if x.mretExec then
    { n with priv := c.mretNextPriv, mstatus := c.mstatusMret }
  else if x.csrWen then c.writeCsr n x.csrAddr (c.csrNewVal irq x)
  else n

/-- The hit bits, assigned last. -/
def latchHits (x : CsrIn p) (n : CsrState p) : CsrState p :=
  { n with
    tdata1 := fun t =>
      if x.trigHitSet t then n.tdata1 t ||| BitVec.twoPow 32 mcHit
      else n.tdata1 t }

/-- One clock edge of `sisCsr`. -/
def next (irq : IrqLines) (x : CsrIn p) : CsrState p :=
  latchHits x (c.commit irq x (c.tickCounters x))

/-! ## Interrupt request -/

/-- One source of `irq_pending`: globally enabled, enabled in `mie`, high. -/
def irqOn (bit : ℕ) (line : Bool) : Bool :=
  c.mstatus.getLsbD 3 && c.mie.getLsbD bit && line

def meipOn (irq : IrqLines) : Bool := c.irqOn 11 irq.extMeip
def mtipOn (irq : IrqLines) : Bool := c.irqOn 7 irq.extMtip
def msipOn (irq : IrqLines) : Bool := c.irqOn 3 irq.extMsip

/-- `irq_pending`. -/
def irqPending (irq : IrqLines) : Bool :=
  c.meipOn irq || c.mtipOn irq || c.msipOn irq

/-- `irq_cause`. -/
def irqCause (irq : IrqLines) : BitVec 32 :=
  if c.meipOn irq then 0x8000000B
  else if c.mtipOn irq then 0x80000007
  else if c.msipOn irq then 0x80000003
  else 0

end CsrState

end SisRv
