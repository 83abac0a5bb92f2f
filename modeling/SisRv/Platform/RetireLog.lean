import SisRv.Core.Counting
import SisRv.Lib.MarkLog
import SisRv.Platform.RunsPrograms

/-!
# The retire log of a program

The core reports the instructions of a program one after the other, each with
its PC, its encoding and the register that it writes.
-/

namespace SisRv

open Riscv Sync

/-! ## One report -/

/-- The encoding, a short one in the low half word. -/
def Riscv.Parcel.bits : Parcel → BitVec 32
  | short i => i.encode.setWidth 32
  | full i => i.encode

namespace Run.RetireInsn

variable (e : RetireInsn)

/-- The encoding that is reported. -/
def bits : BitVec 32 :=
  if e.isCompressed then e.rawInsnVal &&& 0xFFFF else e.rawInsnVal

/-- The registers after the write that is reported. -/
def write (regs : BitVec 5 → BitVec 32) : BitVec 5 → BitVec 32 :=
  if e.wrEn && e.rdVal != 0 then Function.update regs e.rdVal e.wdataVal
  else regs

/-- The report is of an instruction that takes a hart from `h` to `h'`. -/
structure Reports {σ : Type} (h h' : Hart σ) (parcel : Parcel) : Prop where
  pc : e.pcVal = h.pc
  bits : e.bits = parcel.bits
  write : e.write h.regs = h'.regs

end Run.RetireInsn

/-- An ordinary instruction retires in WB. -/
theorem Core.retires_of_ends {p : Params} {s t : Core p} {i : CoreIn}
    (ends : s.Ends t i) (sane : s.Sane)
    (idle : t.irqPending i = false) : (t.step i).instrRetire = true := by
  have notSystem : t.ex.isSystem = false := by
    rw [ends.same.toDecoded, sane.notSystem]
  have normal := ends.normal
  simp only [exException, Bool.or_eq_false_iff, Bool.not_eq_false'] at normal
  obtain ⟨⟨⟨⟨⟨trigger, fetchErr⟩, memErr⟩, misaligned⟩, target⟩, legal⟩ :=
    normal
  rw [instrRetire, wbControl_of_ends ends sane idle]
  show (t.step i).wbRetires = true
  rw [wbRetires, step_wb_of_leave ends.leaves ends.goes]
  simp [completedWb, trigger, fetchErr, memErr, misaligned, target, legal,
    exIsEcall, exIsEbreak, exIsSystemImm, notSystem, idle]

/-! ## The instruction that leaves EX -/

section Leave

variable {p : Params} {r : Run p} {b : Backing} {store : ℕ → Store}
  {m : Arch p} {h h' : Hart Contents} {o : Outcome} {parcel : Parcel} {n : ℕ}

/-- What a latched instruction is reported as. -/
theorem bits_latched (pc : BitVec 32) :
    (if (parcel.latched pc).isCompressed = true then
        (parcel.latched pc).raw &&& 0xFFFF
      else (parcel.latched pc).raw) = parcel.bits := by
  cases parcel with
  | short i =>
      have small := i.encode.isLt
      show (0#16 ++ i.encode : BitVec 32) &&& 0xFFFF = i.encode.setWidth 32
      apply BitVec.eq_of_toNat_eq
      rw [BitVec.toNat_and, BitVec.toNat_append, BitVec.toNat_setWidth]
      show (0 <<< 16 ||| i.encode.toNat) &&& 2 ^ 16 - 1 = _
      rw [Nat.and_two_pow_sub_one_eq_mod, Nat.zero_shiftLeft, Nat.zero_or]
      omega
  | full i => rfl

namespace Run

theorem retireInsn_of_busy
    (busy : (r.state n).exToWbFire (r.inputs n) = false) :
    r.retireInsn (n + 1) = none := by
  have empty : (r.state (n + 1)).wb.valid = false := Core.wb_of_stay busy
  simp [retireInsn, empty]

/-- An instruction of a program is reported in the cycle after it has left
EX. -/
theorem reports_of_leave (single : r.NoSingleStep)
    (backed : r.BackedBy b store) (enableC : p.enableC = true)
    (at_ : r.IsAt b m h n) (ready : m.Ready b h h' o)
    (latched : (m.fetching b.instrs).fe.ifId = parcel.latched m.pc)
    (leaves : (r.state n).exToWbFire (r.inputs n) = true) :
    ∃ e, r.retireInsn (n + 1) = some e ∧ e.Reports h h' parcel := by
  have finish := at_.finishes single backed enableC ready leaves
  have idle := Core.idle_of_untouched (at_.untouched n le_rfl) (r.inputs n)
  have retires := Core.retires_of_ends finish.ends ready.sane idle
  have wb : (r.state (n + 1)).wb = (r.state n).completedWb (r.inputs n) :=
    Core.step_wb_of_leave leaves finish.ends.goes
  have same := finish.ends.same
  rw [← r.state_succ] at retires
  have logs := r.retireInsn_isSome (n + 1)
  rw [retires, Option.isSome_iff_exists] at logs
  obtain ⟨e, reported⟩ := logs
  refine ⟨e, reported, ?_⟩
  rw [retireInsn, retires, wb] at reported
  obtain rfl := Option.some.inj reported
  refine ⟨?_, ?_, ?_⟩
  · show (r.state n).ex.pc = h.pc
    rw [same.pc, ← at_.pc]
    show (m.fetching b.instrs).fe.ifId.pc = m.pc
    rw [latched]
    cases parcel <;> rfl
  · rw [← bits_latched m.pc, ← latched]
    show (if (r.state n).ex.isCompressed = true then
      (r.state n).ex.raw &&& 0xFFFF else (r.state n).ex.raw) = _
    rw [same.isCompressed, same.raw]
    rfl
  · have written := ready.does.regs finish.ends (r.inputs (n + 1)) h.regs
    rw [finish.regs, ready.regs, ← written, ← r.state_succ, Core.wbWrite, wb]
    rfl

end Run

end Leave

/-! ## The log of a program -/

namespace Backing.Program

variable {b : Backing} {p : Params} {regs : BitVec 5 → BitVec 32} {count : ℕ}

/-- PC and encoding of the first instructions. -/
def trace (program : b.Program p regs count) (k : ℕ) :
    List (BitVec 32 × BitVec 32) :=
  (List.range k).map fun j => ((program.hart j).pc, (program.parcel j).bits)

end Backing.Program

namespace Run

variable {p : Params} {r : Run p} {b : Backing} {store : ℕ → Store}
  {count : ℕ}

variable (r) in
/-- The log is the trace of a program, and the registers that it writes are
those of the hart. -/
structure Logs (program : b.Program p r.power.regs count) : Prop where
  trace : ∀ n, occurrences r.completes n ≤ count →
    (r.retireLog (n + 1)).map (fun e => (e.pcVal, e.bits)) =
      program.trace (occurrences r.completes n)
  regs : ∀ n, occurrences r.completes n ≤ count →
    (r.retireLog (n + 1)).foldl (fun regs e => e.write regs) (program.hart 0).regs =
      (program.hart (occurrences r.completes n)).regs

section Program

variable (enableC : p.enableC = true) (enableM : p.enableM = true)
  (free : r.FreeRuns) (backed : r.BackedBy b store)
  (program : b.Program p r.power.regs count)
include enableC enableM free backed

theorem reports_program (n : ℕ) (mark : r.completes n = true)
    (within : occurrences r.completes n < count) :
    ∃ e, r.retireInsn (n + 1) = some e ∧
      e.Reports (program.hart (occurrences r.completes n))
        (program.hart (occurrences r.completes n + 1))
        (program.parcel (occurrences r.completes n)) := by
  obtain ⟨m, o, at_, ready⟩ :=
    ready_program enableC enableM free backed program n within
  have leaves : (r.state n).exToWbFire (r.inputs n) = true := by
    simpa [completes, at_.noDrop ready] using mark
  have lies := (program.executes _ within).liesAt
  have latched := Arch.latched_of_liesAt enableC at_.arch_untouched
    (by rw [at_.pc]; exact lies)
  exact reports_of_leave free.single backed enableC at_ ready latched leaves

/-- Every instruction that has left EX has its entry. -/
theorem entries_program (n : ℕ)
    (within : occurrences r.completes n ≤ count) :
    List.Forall₂
      (fun k (e : RetireInsn) =>
        e.Reports (program.hart k) (program.hart (k + 1)) (program.parcel k))
      (List.range (occurrences r.completes n)) (r.retireLog (n + 1)) := by
  have silent (k : ℕ) (unmarked : r.completes k = false) :
      r.retireInsn (k + 1) = none := by
    rw [completes, Bool.or_eq_false_iff] at unmarked
    exact retireInsn_of_busy unmarked.1
  exact forall₂_emitted rfl silent
    (reports_program enableC enableM free backed program) n within

theorem logs_program : r.Logs program where
  trace := by
    intro n within
    have entries := entries_program enableC enableM free backed program n within
    exact map_eq_of_forall₂ (entries.imp fun k e reports =>
      Prod.ext reports.pc reports.bits)
  regs := by
    intro n within
    have entries := entries_program enableC enableM free backed program n within
    exact foldl_of_forall₂ (fun regs (e : RetireInsn) => e.write regs)
      (fun k => (program.hart k).regs)
      (entries.imp fun k e reports => reports.write)

end Program

end Run

/-! ## Both platforms -/

namespace Setup

variable {p : Params} (t : Setup) (stallRate : ℤ)
  (enableC : p.enableC = true) (enableM : p.enableM = true)
  {pins : BitVec 32} (held : ∀ k, (t.pins k).gpioIn = pins) {count : ℕ}
  (program : (⟨t.rom, t.ram, pins⟩ : Backing).Program p t.power.regs count)
include enableC enableM held

theorem corebus_logs : (t.corebus p).core.Logs program := by
  have backed := corebus_backedBy t p held
  exact Run.logs_program enableC enableM
    ⟨PlatformRun.noSingleStep, PlatformRun.noAbstractWrite, backed.bus⟩ backed
    program

theorem axil_logs : (t.axil p stallRate).core.Logs program := by
  have backed := axil_backedBy t p stallRate held
  exact Run.logs_program enableC enableM
    ⟨PlatformRun.noSingleStep, PlatformRun.noAbstractWrite, backed.bus⟩ backed
    program

end Setup

/-- On both platforms, with constant GPIO inputs, the retire log of a program
is its trace. -/
theorem platforms_log_programs {p : Params} (t : Setup) (stallRate : ℤ)
    (enableC : p.enableC = true) (enableM : p.enableM = true)
    {pins : BitVec 32} (held : ∀ k, (t.pins k).gpioIn = pins) {count : ℕ}
    (program :
      (⟨t.rom, t.ram, pins⟩ : Backing).Program p t.power.regs count) :
    (t.corebus p).core.Logs program ∧
      (t.axil p stallRate).core.Logs program :=
  ⟨Setup.corebus_logs t enableC enableM held program,
    Setup.axil_logs t stallRate enableC enableM held program⟩

/-- The greeting gets through on both platforms. -/
theorem greeting_completes :
    (∃ n, occurrences (greetingSetup.corebus {}).core.completes n = 4) ∧
      ∃ n, occurrences (greetingSetup.axil {} 80).core.completes n = 4 := by
  have corebus := PlatformRun.runsProgram_of_backedBy _ rfl rfl
    (Setup.corebus_backedBy greetingSetup {} fun _ => rfl)
    (Setup.corebus_pins greetingSetup {}) greetingProgram
  have axil := PlatformRun.runsProgram_of_backedBy _ rfl rfl
    (Setup.axil_backedBy greetingSetup {} 80 fun _ => rfl)
    (Setup.axil_pins greetingSetup {} 80) greetingProgram
  obtain ⟨n, reached, -⟩ := corebus.begins 4 (by decide)
  obtain ⟨n', reached', -⟩ := axil.begins 4 (by decide)
  exact ⟨⟨n, reached⟩, n', reached'⟩

theorem trace_greeting : greetingProgram.trace 4 =
    [(0, 0x4425), (2, 0x040E), (4, 0x100044B7), (8, 0x0084A023)] := rfl

theorem platforms_log_programs_greeting :
    (∃ n, ((greetingSetup.corebus {}).core.retireLog (n + 1)).map
        (fun e => (e.pcVal, e.bits)) =
      [(0, 0x4425), (2, 0x040E), (4, 0x100044B7), (8, 0x0084A023)]) ∧
      ∃ n, ((greetingSetup.axil {} 80).core.retireLog (n + 1)).map
          (fun e => (e.pcVal, e.bits)) =
        [(0, 0x4425), (2, 0x040E), (4, 0x100044B7), (8, 0x0084A023)] := by
  obtain ⟨corebus, axil⟩ := platforms_log_programs greetingSetup 80 rfl rfl
    (fun _ => rfl) greetingProgram
  obtain ⟨⟨n, reached⟩, n', reached'⟩ := greeting_completes
  have logged := corebus.trace n (by rw [reached]; decide)
  have logged' := axil.trace n' (by rw [reached']; decide)
  rw [reached] at logged
  rw [reached'] at logged'
  exact ⟨⟨n, logged.trans trace_greeting⟩, n', logged'.trans trace_greeting⟩

end SisRv
