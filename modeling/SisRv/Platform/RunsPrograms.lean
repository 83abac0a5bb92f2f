import SisRv.Platform.Axil
import SisRv.Platform.Corebus
import SisRv.Platform.Execution

/-!
# Both platforms run programs

With the memories and devices of either `generate` arm behind the core a
program in the ROM runs as on a hart, and the pins show what it has made of the
devices.
-/

namespace SisRv

open Riscv Sync

/-! ## Pins -/

namespace PlatformRun

variable {p : Params} {σ : Type} (r : PlatformRun p σ)

def out (n : ℕ) : PlatformOut := r.side.out (r.state n).mem

/-- The byte that the UART hands to the pins in a cycle. -/
def sends (n : ℕ) : Option (BitVec 8) :=
  if (r.out n).uartTxValid then some (r.out n).uartTxData else none

/-- The pins show the devices, and the UART has sent their bytes. -/
structure PinsShow (d : DeviceState) (n : ℕ) : Prop where
  pass : (r.out n).tohostPass = d.pass
  fail : (r.out n).tohostFail = d.fail
  code : (r.out n).tohostCode = d.lastCode
  gpioOut : (r.out n).gpioOut = d.gpioOut
  gpioOe : (r.out n).gpioOe = d.gpioOe
  sent : emitted r.sends (n + 1) = d.sent

/-- The platform runs a program, on its pins too. -/
structure RunsProgram {b : Backing} {count : ℕ} (store : ℕ → Store)
    (program : b.Program p r.power.regs count) : Prop
    extends r.core.Follows store program where
  pins : ∀ n, occurrences r.core.completes n < count →
    (r.core.state n).dRspReady = false →
      r.PinsShow
        (program.hart (occurrences r.core.completes n)).memory.devices n

/-- It does if it is backed by a store that its pins show. -/
theorem runsProgram_of_backedBy {b : Backing} {count : ℕ} {store : ℕ → Store}
    (enableC : p.enableC = true) (enableM : p.enableM = true)
    (backed : r.core.BackedBy b store)
    (shows_ : ∀ n, r.PinsShow (store n).devices n)
    (program : b.Program p r.power.regs count) :
    r.RunsProgram store program where
  toFollows := Run.follows_program enableC enableM
    ⟨noSingleStep, noAbstractWrite, backed.bus⟩ backed program
  pins := by
    intro n within idle
    have follows := Run.follows_program enableC enableM
      ⟨noSingleStep, noAbstractWrite, backed.bus⟩ backed program
    rw [← follows.memory n within idle]
    exact shows_ n

end PlatformRun

namespace Setup

variable (t : Setup) (p : Params) (stallRate : ℤ) (n : ℕ)

theorem corebus_pins :
    (t.corebus p).PinsShow (corebusStore t p n).devices n := by
  have at_ (k : ℕ) := accesses_state (t := t) (p := p) k
  have devices : (corebusStore t p n).devices =
      ((t.corebus p).state n).mem.data.devices
        (emitted (fun j => ((t.corebus p).state j).mem.data.sends) n) := by
    simp only [corebusStore, DataPathRun.devices, at_]
  rw [devices]
  constructor <;> rfl

theorem axil_pins :
    (t.axil p stallRate).PinsShow (axilStore t p stallRate n).devices n := by
  have at_ (k : ℕ) : (t.memory p stallRate).state k =
      ((t.axil p stallRate).state k).mem := memory_state k
  have devices : (axilStore t p stallRate n).devices =
      ((t.axil p stallRate).state n).mem.slave.devices
        (emitted (fun j => ((t.axil p stallRate).state j).mem.slave.sends)
          n) := by
    simp only [axilStore, AxiPlatformRun.store, AxiPlatformRun.devices,
      AxiPlatformRun.slave, at_]
  rw [devices]
  constructor <;> rfl

end Setup

/-- With constant GPIO inputs the same store is behind the core on both
platforms, at every stall rate of the AXI slave: as long as the accesses are
regular, the responses and the contents are those of the store. -/
theorem platforms_backed
    {p : Params} (t : Setup) (stallRate : ℤ) {pins : BitVec 32}
    (held : ∀ k, (t.pins k).gpioIn = pins) :
    (t.corebus p).core.BackedBy ⟨t.rom, t.ram, pins⟩
        (Setup.corebusStore t p) ∧
      (t.axil p stallRate).core.BackedBy ⟨t.rom, t.ram, pins⟩
        (Setup.axilStore t p stallRate) :=
  ⟨Setup.corebus_backedBy t p held, Setup.axil_backedBy t p stallRate held⟩

/-- Both platforms run every program of ordinary instructions in the ROM, the
one with AXI-Lite at every stall rate, with constant GPIO inputs, whatever the
interrupt and JTAG pins do. -/
theorem runs_programs {p : Params} (t : Setup) (stallRate : ℤ)
    (enableC : p.enableC = true) (enableM : p.enableM = true)
    {pins : BitVec 32} (held : ∀ k, (t.pins k).gpioIn = pins) {count : ℕ}
    (program :
      (⟨t.rom, t.ram, pins⟩ : Backing).Program p t.power.regs count) :
    (t.corebus p).RunsProgram (Setup.corebusStore t p) program ∧
      (t.axil p stallRate).RunsProgram (Setup.axilStore t p stallRate)
        program :=
  ⟨PlatformRun.runsProgram_of_backedBy _ enableC enableM
      (Setup.corebus_backedBy t p held) (Setup.corebus_pins t p) program,
    PlatformRun.runsProgram_of_backedBy _ enableC enableM
      (Setup.axil_backedBy t p stallRate held)
      (Setup.axil_pins t p stallRate) program⟩

/-- Nine, shifted by three, is the letter H, which goes to the UART. -/
def greeting : List Parcel :=
  [.short (.li 8 9), .short (.slli 8 3), .full (.base (.lui 9 0x10004)),
    .full (.base (.store .sw 9 8 0)), .full (.base (.jal 0 0))]

def greetingAt (k : ℕ) : Parcel := greeting.getD k (.full .fencei)

def greetingRom (word : BitVec 19) : BitVec 32 :=
  match word.toNat with
  | 0 => (Rvc.slli 8 3).encode ++ (Rvc.li 8 9).encode
  | 1 => (Base.lui 9 0x10004).encode
  | 2 => (Base.store .sw 9 8 0).encode
  | 3 => (Base.jal 0 0).encode
  | _ => 0

def greetingSetup : Setup where
  power := {}
  rom := greetingRom
  ram := fun _ => 0
  mtime := 0
  pins := fun n => { jtagTck := n % 2 == 1, plicIrq := 1 }

def greetingBacking : Backing :=
  ⟨greetingSetup.rom, greetingSetup.ram, 0⟩

def greetingStart : Hart Contents :=
  ⟨0, fun _ => 0, (greetingBacking.store []).contents⟩

theorem platforms_backed_greeting :
    (greetingSetup.corebus {}).core.BackedBy greetingBacking
        (Setup.corebusStore greetingSetup {}) ∧
      (greetingSetup.axil {} 80).core.BackedBy greetingBacking
        (Setup.axilStore greetingSetup {} 80) :=
  platforms_backed greetingSetup 80 (fun _ => rfl)

theorem greeting_executes (k : ℕ) (below : k < 5) :
    (greetingStart.after greetingBacking.memory greetingAt k).Executes
      greetingBacking.memory
      (greetingStart.after greetingBacking.memory greetingAt (k + 1))
      (greetingAt k) := by
  apply Hart.executes_after
  · interval_cases k
    · exact ⟨rfl, rfl⟩
    · exact ⟨rfl, rfl⟩
    · exact ⟨rfl, rfl⟩
    · exact ⟨rfl, rfl⟩
    · exact ⟨rfl, rfl⟩
  · interval_cases k <;> rfl

theorem greeting_accepted (k : ℕ) : (greetingAt k).Accepted := by
  have every : ∀ parcel ∈ greeting, Parcel.Accepted parcel := by
    simp [greeting, Parcel.Accepted, Rvc.shiftHint]
  by_cases inside : k < greeting.length
  · rw [greetingAt, List.getD_eq_getElem _ _ inside]
    exact every _ (List.getElem_mem inside)
  · rw [greetingAt, List.getD_eq_default _ _ (by omega)]
    trivial

def greetingProgram :
    greetingBacking.Program {} greetingSetup.power.regs 5 where
  hart := greetingStart.after greetingBacking.memory greetingAt
  parcel := greetingAt
  starts := by
    ext1
    · rfl
    · funext a
      exact (ite_self _).symm
    · rfl
  executes := greeting_executes
  accepted := fun k _ => greeting_accepted k

theorem runs_programs_greeting :
    (∃ n, emitted (greetingSetup.corebus {}).sends (n + 1) = [0x48]) ∧
      ∃ n, emitted (greetingSetup.axil {} 80).sends (n + 1) = [0x48] := by
  obtain ⟨corebus, axil⟩ :=
    runs_programs greetingSetup 80 rfl rfl (fun _ => rfl) greetingProgram
  constructor
  · obtain ⟨n, reached, idle⟩ := corebus.begins 4 (by decide)
    have shown := corebus.pins n (by rw [reached]; decide) idle
    rw [reached] at shown
    exact ⟨n, shown.sent⟩
  · obtain ⟨n, reached, idle⟩ := axil.begins 4 (by decide)
    have shown := axil.pins n (by rw [reached]; decide) idle
    rw [reached] at shown
    exact ⟨n, shown.sent⟩

end SisRv
