import SisRv.Core.DataPort
import SisRv.Fabric.DeviceModel
import SisRv.Fabric.RamBytes

/-!
# The memory that a program sees

ROM, RAM and devices as one store that performs one access after the other,
and what it means that it is behind the ports of a core, whatever the timing
of its answers.
-/

namespace SisRv

/-! ## The store -/

/-- What accesses change: the words of the RAM and the devices. -/
@[ext]
structure Store where
  ram : BitVec 16 → BitVec 32
  devices : DeviceState

namespace Store

/-- The store at reset. -/
def reset (ram : BitVec 16 → BitVec 32) : Store := ⟨ram, .reset⟩

/-- The RAM after an access. -/
def accessRam (ram : BitVec 16 → BitVec 32) (req : BusReq) :
    BitVec 16 → BitVec 32 :=
  if addressMap req.addr = some .ram ∧ req.we = true then fun word =>
    if word = RamState.wordIndex req then
      applyWstrb (ram word) req.wdata req.wstrb
    else ram word
  else ram

variable (s : Store)

def access (req : BusReq) : Store :=
  ⟨accessRam s.ram req, s.devices.access req⟩

/-- The store after accesses in the order of a list. -/
def after (log : List BusReq) : Store := log.foldl access s

/-- The word that a read returns, also where nothing has the address. -/
def read (rom : BitVec 19 → BitVec 32) (pins addr : BitVec 32) : BitVec 32 :=
  match addressMap addr with
  | none => 0xDEADBEEF
  | some .rom => rom (addr.extractLsb' 2 19)
  | some .ram => s.ram (addr.extractLsb' 2 16)
  | _ => s.devices.answer pins addr

theorem after_concat (log : List BusReq) (req : BusReq) :
    s.after (log ++ [req]) = (s.after log).access req := by
  rw [after, List.foldl_append]
  rfl

/-- The two parts do not depend on each other. -/
theorem ram_after (log : List BusReq) :
    (s.after log).ram = log.foldl accessRam s.ram := by
  induction log generalizing s with
  | nil => rfl
  | cons req log inductionHypothesis => exact inductionHypothesis _

theorem devices_after (log : List BusReq) :
    (s.after log).devices = log.foldl DeviceState.access s.devices := by
  induction log generalizing s with
  | nil => rfl
  | cons req log inductionHypothesis => exact inductionHypothesis _

/-- Only an access that names a device changes the devices. -/
theorem devices_after_filter (log : List BusReq) :
    (s.after log).devices =
      (log.filter fun req => namesDevice req.addr).foldl DeviceState.access
        s.devices := by
  rw [devices_after]
  have acts : (fun (d : DeviceState) req =>
      if namesDevice req.addr then d.access req else d) =
        DeviceState.access := by
    funext d req
    split_ifs with names
    · rfl
    · exact (d.access_elsewhere (by simpa using names)).symm
  rw [List.foldl_filter, acts]

/-- A read beside the devices changes nothing. -/
theorem access_of_silent {req : BusReq} (read : req.we = false)
    (names : namesDevice req.addr = false) : s.access req = s := by
  rw [access, DeviceState.access_elsewhere _ names, accessRam, read,
    if_neg (by simp)]

end Store

/-! ## Accesses that both platforms perform alike -/

/-- An access beside the PLIC and the part of the ROM that only one of the
platforms has: no write to the ROM, and the registers that both have. -/
def BusReq.Regular (req : BusReq) : Prop :=
  match addressMap req.addr with
  | none | some .ram => True
  | some .rom => req.we = false ∧ req.addr.toNat < 0x10000
  | some .plic => False
  | some _ => Common req.addr

/-- Word addresses in the part of the ROM that both platforms have. -/
def InRom (addr : BitVec 30) : Prop := addr.toNat < 0x4000

theorem BusReq.Regular.common {req : BusReq} (regular : req.Regular)
    (names : namesDevice req.addr = true) : Common req.addr := by
  unfold BusReq.Regular at regular
  unfold namesDevice at names
  cases named : addressMap req.addr with
  | none =>
      rw [named] at names
      cases names
  | some d =>
      rw [named] at regular names
      cases d with
      | rom | ram | plic => cases names
      | tohost | gpio | uart | clint => exact regular

/-- What the accesses of a program meet: the two memories at reset and the
level of the GPIO pins. -/
structure Backing where
  rom : BitVec 19 → BitVec 32
  ram : BitVec 16 → BitVec 32
  pins : BitVec 32

namespace Backing

variable (b : Backing)

/-- The store after the given accesses. -/
def store (log : List BusReq) : Store := (Store.reset b.ram).after log

/-- The response to the last of the given accesses: the word of a read and
whether nothing has the address. -/
def answer (log : List BusReq) : BitVec 32 × Bool :=
  match log.getLast? with
  | none => (0, false)
  | some req =>
      ((b.store log.dropLast).read b.rom b.pins req.addr,
        (addressMap req.addr).isNone)

/-- The ROM as instruction memory. -/
def instrs : InstrMemory where
  data := fun addr => b.rom (addr.setWidth 19)
  err := fun _ => false

theorem answer_concat (log : List BusReq) (req : BusReq) :
    b.answer (log ++ [req]) =
      ((b.store log).read b.rom b.pins req.addr,
        (addressMap req.addr).isNone) := by
  rw [answer, List.getLast?_concat, List.dropLast_concat]

end Backing

/-! ## Behind a core -/

namespace Run

variable {p : Params} (r : Run p)

/-- The requests made before a cycle are regular, and no fetch names a device:
on the AXI path such a fetch is a read of the device. -/
structure RegularUntil (n : ℕ) : Prop where
  data : ∀ req ∈ r.asked n, req.Regular
  fetch : ∀ k < n, ∀ addr, r.iAccepts k = some addr →
    namesDevice (addr ++ 0#2 : BitVec 32) = false

/-- The store that the accesses to a backing make, in the order in which they
are accepted, is behind the ports of the core: it answers with its words, and
it is the one given when no access is under way.  On regular accesses it keeps
the core going. -/
structure BackedBy (b : Backing) (store : ℕ → Store) : Prop where
  bus : r.InstrBus
  fetch : ∀ {n addr a}, r.iOutstanding n = some (addr, a) →
    (r.inputs n).iRspValid = true → InRom addr →
      (r.inputs n).iRspRdata = b.instrs.data addr ∧
        (r.inputs n).iRspErr = false
  answer : ∀ {n req a}, r.RegularUntil n →
    r.dOutstanding n = some (req, a) → (r.inputs n).dRspValid = true →
      (r.inputs n).dRspErr = (b.answer (r.asked n)).2 ∧
        (req.we = false →
          (r.inputs n).dRspRdata = (b.answer (r.asked n)).1)
  contents : ∀ {n}, r.RegularUntil n → (r.state n).dRspReady = false →
    store n = b.store (r.asked n)
  goes : (∀ n, r.RegularUntil n) →
    ∀ n, ∃ m, n ≤ m ∧ r.completes m = true

variable {r}

theorem RegularUntil.mono {m n : ℕ} (regular : r.RegularUntil n)
    (below : m ≤ n) : r.RegularUntil m := by
  induction n, below using Nat.le_induction with
  | base => exact regular
  | succ n below inductionHypothesis =>
      refine inductionHypothesis ⟨fun req asked => regular.data req ?_,
        fun k earlier => regular.fetch k (Nat.lt_succ_of_lt earlier)⟩
      rw [asked_succ]
      exact List.mem_append_left _ asked

end Run

end SisRv
