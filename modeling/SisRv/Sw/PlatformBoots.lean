import SisRv.Platform.RunsPrograms
import SisRv.Sw.Boot

/-!
# The platform boots

From reset both platforms run the startup code, call `main` on the memory that
the linker script describes and, when `main` returns, raise the pass pin.
-/

namespace SisRv

open Riscv Sync

namespace PlatformRun

variable {p : Params} {σ : Type} (r : PlatformRun p σ)

/-- The core gets to `main` and, when that has left a memory with `result`, to
a cycle in which the pins report a pass. -/
structure Boots (store : ℕ → Store) (l : Link) (b : Backing) (ret : BitVec 32)
    (result : Contents → Prop) : Prop where
  calls : ∃ n, (r.core.state n).oldestPc = l.main ∧
    r.core.regsBehind n 1 = ret ∧ r.core.regsBehind n 2 = Link.stackTop ∧
    (store n).contents = l.booted b (b.store []).contents
  passes : ∃ n c, result c ∧ (store n).contents = c.passed ∧
    r.PinsShow c.passed.devices n

variable {r} {b : Backing} {store : ℕ → Store} {l : Link}
  {place : ℕ → BitVec 32} {result : Contents → Prop}

/-- A run in which the hart of every program is followed. -/
theorem boots_of_runsProgram
    (assembled : Assembled b.memory Parcel.Accepted place l.crt0)
    (vector : p.resetVector = place 0)
    (returns : Hart.Leads b.memory Parcel.Accepted
      (l.Calls b place (b.store []).contents)
      (fun h => h.pc = place 17 ∧ result h.memory))
    (runs : ∀ {count} (program : b.Program p r.power.regs count),
      r.RunsProgram store program) :
    r.Boots store l b (place 17) result := by
  obtain ⟨main, toMain, called⟩ := Link.calls assembled
    (x := fun a => if a = 0 then 0 else r.power.regs a) rfl _ rfl
  obtain ⟨⟨_, x, c⟩, toReturn, rfl, done⟩ := returns main called
  have zero : x 0 = 0 :=
    (Hart.regs_zero_of_reaches toReturn).trans called.zero
  obtain ⟨⟨_, y, _⟩, toReport, rfl, zeroThere, rfl⟩ :=
    Link.reports assembled zero _ rfl
  -- the loop at label 5 goes on, so that the report is within the program
  have goesOn := assembled.means
    (show l.crt0[20]? = some (.j 20) from rfl)
    (h := ⟨place 20, y, c.passed⟩) zeroThere rfl rfl
  obtain ⟨first, ⟨s⟩⟩ := Hart.exists_sequence toMain
  obtain ⟨second, ⟨t⟩⟩ := Hart.exists_sequence toReturn
  obtain ⟨third, ⟨u⟩⟩ := Hart.exists_sequence toReport
  obtain ⟨last, ⟨v⟩⟩ := Hart.exists_sequence_succ goesOn
  let whole := s.append (t.append (u.append v))
  let program : b.Program p r.power.regs
      (first + (second + (third + (1 + last)))) :=
    { hart := whole.hart
      parcel := whole.parcel
      starts := whole.starts.trans (by rw [vector])
      executes := whole.executes
      accepted := whole.taken }
  have follows := runs program
  have atMain : program.hart first = main := by
    have here := s.append_hart (t.append (u.append v)) 0
    exact here.trans (t.append (u.append v)).starts
  have atReport : program.hart (first + (second + (third + 0))) =
      ⟨place 20, y, c.passed⟩ := by
    have here := s.append_hart (t.append (u.append v)) (second + (third + 0))
    rw [t.append_hart, u.append_hart] at here
    exact here.trans v.starts
  constructor
  · obtain ⟨n, reached, idle⟩ := follows.begins first (by omega)
    have within : occurrences r.core.completes n <
        first + (second + (third + (1 + last))) := by omega
    have regs := follows.regs n within
    have pc := follows.pc n within
    have memory := follows.memory n within idle
    rw [reached, atMain] at regs pc memory
    exact ⟨n, pc.trans called.pc, (regs 1 (by decide)).trans called.ra,
      (regs 2 (by decide)).trans called.sp, memory.trans called.memory⟩
  · obtain ⟨n, reached, idle⟩ :=
      follows.begins (first + (second + (third + 0))) (by omega)
    have within : occurrences r.core.completes n <
        first + (second + (third + (1 + last))) := by omega
    have pins := follows.pins n within idle
    have memory := follows.memory n within idle
    rw [reached, atReport] at pins memory
    exact ⟨n, c, done, memory, pins⟩

end PlatformRun

/-- With constant GPIO inputs both platforms boot every image whose startup code
is `crt0.S`, however it is encoded, and whose `main` consists of ordinary
instructions. -/
theorem platforms_boot {p : Params} (t : Setup) (stallRate : ℤ)
    (enableC : p.enableC = true) (enableM : p.enableM = true)
    {pins : BitVec 32} (held : ∀ k, (t.pins k).gpioIn = pins) {l : Link}
    {place : ℕ → BitVec 32} {result : Contents → Prop}
    (assembled : Assembled (⟨t.rom, t.ram, pins⟩ : Backing).memory
      Parcel.Accepted place l.crt0)
    (vector : p.resetVector = place 0)
    (returns : Hart.Leads (⟨t.rom, t.ram, pins⟩ : Backing).memory
      Parcel.Accepted
      (l.Calls ⟨t.rom, t.ram, pins⟩ place
        (Backing.store ⟨t.rom, t.ram, pins⟩ []).contents)
      (fun h => h.pc = place 17 ∧ result h.memory)) :
    (t.corebus p).Boots (Setup.corebusStore t p) l ⟨t.rom, t.ram, pins⟩
        (place 17) result ∧
      (t.axil p stallRate).Boots (Setup.axilStore t p stallRate) l
        ⟨t.rom, t.ram, pins⟩ (place 17) result :=
  ⟨PlatformRun.boots_of_runsProgram assembled vector returns
      (PlatformRun.runsProgram_of_backedBy _ enableC enableM
        (Setup.corebus_backedBy t p held) (Setup.corebus_pins t p)),
    PlatformRun.boots_of_runsProgram assembled vector returns
      (PlatformRun.runsProgram_of_backedBy _ enableC enableM
        (Setup.axil_backedBy t p stallRate held)
        (Setup.axil_pins t p stallRate))⟩

/-! ### A small image -/

/-- One word of data, one word of BSS, and a `main` that returns at once. -/
def smallLink : Link where
  dataLma := 120
  dataStart := 0x80000000
  dataEnd := 0x80000004
  bssStart := 0x80000004
  bssEnd := 0x80000008
  main := 116
  ordered := by decide
  inRom := by decide
  aligned := by decide

/-- The addresses of the lines, of which four bytes a short one takes. -/
def smallPlace (n : ℕ) : BitVec 32 :=
  [0, 8, 16, 24, 32, 36, 40, 44, 48, 52, 56, 64, 72, 76, 80, 84, 88, 92, 100,
    108, 112].getD n 116

def smallRom : List (BitVec 32) :=
  (smallLink.crt0.zipIdx.flatMap fun (line, n) =>
    (line.expand smallPlace n).map Base.encode) ++
      [(Base.jalr 0 1 0).encode, 0x11223344]

def smallSetup : Setup where
  power := {}
  rom := fun word => smallRom.getD word.toNat 0
  ram := fun _ => 0xFFFFFFFF
  mtime := 0
  pins := fun _ => {}

def smallBacking : Backing := ⟨smallSetup.rom, smallSetup.ram, 0⟩

theorem small_lies :
    ∀ n (below : n < smallLink.crt0.length),
      ∀ k (inside : k < (smallLink.crt0[n].expand smallPlace n).length),
        (Parcel.full
          (.base (smallLink.crt0[n].expand smallPlace n)[k])).LiesAt
            smallBacking.half (moved (smallPlace n) (k * 4 : ℕ)) := by
  decide

theorem small_assembled :
    Assembled smallBacking.memory Parcel.Accepted smallPlace
      smallLink.crt0 := by
  refine Assembled.of_stands (fun _ => trivial) fun n line at_ => ?_
  obtain ⟨below, rfl⟩ := List.getElem?_eq_some_iff.mp at_
  have short : n < 21 := below
  have half (c : _) :
      smallBacking.memory.half c = smallBacking.half := rfl
  refine Line.stands_of_half half ?_ ?_ (small_lies n below)
  · interval_cases n <;> trivial
  · interval_cases n <;> rfl

/-- What is in the RAM then. -/
def SmallResult (c : Contents) : Prop :=
  c.ram 0x80000000 = 0x44 ∧ c.ram 0x80000004 = 0 ∧ c.ram 0x80000008 = 0xFF

/-- `main` is `ret`. -/
theorem small_returns :
    Hart.Leads smallBacking.memory Parcel.Accepted
      (smallLink.Calls smallBacking smallPlace
        (smallBacking.store []).contents)
      (fun h => h.pc = smallPlace 17 ∧ SmallResult h.memory) := by
  rintro ⟨_, x, _⟩ ⟨rfl, ra, -, -, rfl⟩
  have back : BitVec.ofInt 32 (((x 1).toInt + (0 : BitVec 12).toInt) / 2 * 2) =
      smallPlace 17 := by
    rw [show x 1 = smallPlace 17 from ra]
    rfl
  have steps : Hart.Steps smallBacking.memory Parcel.Accepted
      ⟨smallLink.main, x,
        smallLink.booted smallBacking (smallBacking.store []).contents⟩
      ⟨smallPlace 17, x,
        smallLink.booted smallBacking (smallBacking.store []).contents⟩ := by
    have lies : (Parcel.full (.base (.jalr 0 1 0))).LiesAt smallBacking.half
        smallLink.main := by decide
    refine Hart.steps_of_base (i := .jalr 0 1 0) trivial lies ?_
    rw [← back]
    rfl
  exact ⟨_, Relation.ReflTransGen.single steps, rfl, rfl, rfl, rfl⟩

theorem platforms_boot_small :
    (∃ n, ((smallSetup.corebus {}).out n).tohostPass = true ∧
      (Setup.corebusStore smallSetup {} n).contents.ram 0x80000000 = 0x44) ∧
      ∃ n, ((smallSetup.axil {} 50).out n).tohostPass = true ∧
        (Setup.axilStore smallSetup {} 50 n).contents.ram 0x80000000 =
          0x44 := by
  obtain ⟨corebus, axil⟩ := platforms_boot (p := {}) smallSetup 50 rfl rfl
    (fun _ => rfl) small_assembled rfl small_returns
  obtain ⟨n, c, ⟨data, -⟩, memory, pins⟩ := corebus.passes
  obtain ⟨n', c', ⟨data', -⟩, memory', pins'⟩ := axil.passes
  exact ⟨⟨n, pins.pass, by rw [memory]; exact data⟩,
    n', pins'.pass, by rw [memory']; exact data'⟩

end SisRv
