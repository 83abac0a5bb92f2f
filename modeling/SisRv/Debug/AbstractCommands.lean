import SisRv.Debug.Platform
import Mathlib.Tactic.IntervalCases

/-!
# Abstract commands

A debugger sees the register file and DATA0 and changes them by writing DATA0
and COMMAND.  `sisDm` takes the register from bits 20 to 16 of the command,
which include the write flag, and not from its `regno` field.
-/

namespace SisRv

/-- The registers and DATA0. -/
@[ext]
structure RegisterView where
  regs : BitVec 5 → BitVec 32
  data0 : BitVec 32

/-- What a debugger asks for. -/
inductive RegisterAccess where
  | setData (data : BitVec 32)
  | write (n : BitVec 5)
  | read (n : BitVec 5)
  deriving DecidableEq, Repr

/-- An access-register command for register `n`; `x0` is not written. -/
structure AccessRegister (word : BitVec 32) (n : BitVec 5) : Prop where
  cmdtype : word.extractLsb' 24 8 = 0
  regno : word.extractLsb' 0 16 = 0x1000 + n.setWidth 16
  writable : word.getLsbD 16 = true → n ≠ 0

/-- The register that `regno` names. -/
def commandReg (word : BitVec 32) : BitVec 5 := word.extractLsb' 0 5

/-- What an accepted DMI write asks for. -/
def registerAccess (addr : BitVec 7) (word : BitVec 32) :
    Option RegisterAccess :=
  if addr = dmiData0 then some (.setData word)
  else if addr = dmiCommand then
    if word.getLsbD 16 then some (.write (commandReg word))
    else some (.read (commandReg word))
  else none

namespace RegisterView

variable (v : RegisterView)

def reg (n : BitVec 5) : BitVec 32 := if n = 0 then 0 else v.regs n

def set (n : BitVec 5) : RegisterView :=
  { v with regs := Function.update v.regs n v.data0 }

def get (n : BitVec 5) : RegisterView := { v with data0 := v.reg n }

/-- The effect of an access. -/
def after : RegisterAccess → RegisterView
  | .setData data => { v with data0 := data }
  | .write n => v.set n
  | .read n => v.get n

/-- What the platform does for a command. -/
def served (word : BitVec 32) : RegisterView :=
  let m := word.extractLsb' 16 5
  if word.getLsbD 16 then v.set m else v.get m

/-- The register that bits 20 to 16 name is the one of `regno`, or cannot be
told from it. -/
def Fits (word : BitVec 32) : Prop :=
  let m := word.extractLsb' 16 5
  let n := commandReg word
  if word.getLsbD 16 then
    m = n ∨ v.regs m = v.data0 ∧ v.regs n = v.data0
  else v.reg m = v.reg n

variable {v}

theorem set_eq_iff {m n : BitVec 5} :
    v.set m = v.set n ↔
      m = n ∨ v.regs m = v.data0 ∧ v.regs n = v.data0 := by
  constructor
  · intro same
    by_cases equal : m = n
    · exact Or.inl equal
    have regs := congrArg RegisterView.regs same
    have first := congrFun regs m
    have second := congrFun regs n
    simp only [set, Function.update_self, Function.update_of_ne equal,
      Function.update_of_ne (Ne.symm equal)] at first second
    exact Or.inr ⟨first.symm, second⟩
  · rintro (rfl | ⟨first, second⟩)
    · rfl
    · simp only [set]
      rw [← first, Function.update_eq_self, first, ← second,
        Function.update_eq_self]

theorem get_eq_iff {m n : BitVec 5} :
    v.get m = v.get n ↔ v.reg m = v.reg n := by
  simp [get]

/-- The platform does what a command asks exactly when the register fits. -/
theorem served_eq_iff {word : BitVec 32} {a : RegisterAccess}
    (asks : registerAccess dmiCommand word = some a) :
    v.served word = v.after a ↔ v.Fits word := by
  have command : dmiCommand ≠ dmiData0 := by decide
  simp only [registerAccess, command, if_false, if_true] at asks
  simp only [served, Fits]
  by_cases write : word.getLsbD 16 = true
  · simp only [write, if_true, Option.some.injEq] at asks ⊢
    rw [← asks]
    exact set_eq_iff
  · simp only [write, Bool.false_eq_true, if_false, Option.some.injEq]
      at asks ⊢
    rw [← asks]
    exact get_eq_iff

/-- Accesses keep every register that none of them writes. -/
theorem regs_foldl_after {n : BitVec 5} {accesses : List RegisterAccess}
    (kept : .write n ∉ accesses) :
    (accesses.foldl after v).regs n = v.regs n := by
  induction accesses generalizing v with
  | nil => rfl
  | cons first rest inductionHypothesis =>
      rw [List.mem_cons, not_or] at kept
      rw [List.foldl_cons, inductionHypothesis kept.2]
      cases first with
      | setData | read => rfl
      | write m =>
          have other : n ≠ m := fun same => kept.1 (by rw [same])
          exact Function.update_of_ne other _ _

/-- A value written to a register is what a later read of it returns. -/
theorem read_back (data : BitVec 32) {n : BitVec 5} (named : n ≠ 0)
    {accesses : List RegisterAccess} (kept : .write n ∉ accesses) :
    ((accesses.foldl after ((v.after (.setData data)).after (.write n))).after
      (.read n)).data0 = data := by
  show RegisterView.reg _ n = data
  rw [reg, if_neg named, regs_foldl_after kept]
  exact Function.update_self _ _ _

end RegisterView

namespace Dm

variable {s : Dm} {i : DmiIn} {c : DmCoreIn}

/-- The registers of the command FSM and DATA0. -/
structure SameCommand (a b : Dm) : Prop where
  absState : a.absState = b.absState
  absCmdWrite : a.absCmdWrite = b.absCmdWrite
  absCmdReg : a.absCmdReg = b.absCmdReg
  data0 : a.data0 = b.data0

theorem dmiWrite_sameCommand {n : Dm}
    (noData : i.dmiReqAddr ≠ dmiData0)
    (noCommand : i.dmiReqAddr ≠ dmiCommand) :
    SameCommand (dmiWrite i n) n := by
  simp only [dmiWrite, noData, noCommand, if_false]
  split_ifs <;> constructor <;> rfl

/-- A write to an address besides DATA0 and COMMAND, a read and a response
leave the command FSM alone. -/
theorem step_sameCommand
    (other : s.dmiReqFire i = true → i.dmiReqWrite = true →
      i.dmiReqAddr ≠ dmiData0 ∧ i.dmiReqAddr ≠ dmiCommand) :
    SameCommand (s.step i c) (s.absStep c s) := by
  cases s.dmiCycle i c with
  | writes fire write next =>
      obtain ⟨noData, noCommand⟩ := other fire write
      have same := dmiWrite_sameCommand noData noCommand
        (n := { s.absStep c s with dmiPending := true, dmiRdataReg := 0 })
      rw [next]
      exact ⟨same.absState, same.absCmdWrite, same.absCmdReg, same.data0⟩
  | reads _ _ next =>
      rw [next]
      exact ⟨rfl, rfl, rfl, rfl⟩
  | handsOver _ _ next =>
      rw [next]
      exact ⟨rfl, rfl, rfl, rfl⟩
  | idles _ _ next =>
      rw [next]
      exact ⟨rfl, rfl, rfl, rfl⟩

theorem absStep_of_ready (ready : s.absState ≠ 1) :
    (s.absStep c s).absState ≠ 1 ∧ (s.absStep c s).data0 = s.data0 := by
  unfold absStep
  split_ifs with busy
  · exact absurd busy.1 ready
  · exact absurd busy.1 ready
  · exact ⟨(by decide : (0 : BitVec 3) ≠ 1), rfl⟩
  · exact ⟨ready, rfl⟩

end Dm

namespace DebugRun

variable {p : Params} (r : DebugRun p)

/-- What a debugger sees in a cycle. -/
def view (k : ℕ) : RegisterView :=
  ⟨(r.core.state k).regs, (r.dm k).data0⟩

/-- What it asks for in a cycle. -/
def asked (k : ℕ) : Option RegisterAccess :=
  (r.written k).bind fun (addr, word) => registerAccess addr word

/-- What it has to see `d` cycles after cycle `b`. -/
def expected (b : ℕ) : ℕ → RegisterView
  | 0 => r.view b
  | d + 1 =>
      match r.asked (b + d) with
      | some a => (expected b d).after a
      | none => expected b d

/-- A debugger at work on a halted core from cycle `b` to cycle `e`: it writes
DATA0 and COMMAND when no command is busy, and gives access-register commands
only. -/
structure Session (b e : ℕ) : Prop where
  halted : ∀ k, b ≤ k → k < e → (r.core.state k).halted = true
  ready : (r.dm b).absState ≠ 1
  waits : ∀ k, b ≤ k → k < e → (r.asked k).isSome = true →
    (r.dm k).absState ≠ 1
  commands : ∀ k, b ≤ k → k < e → ∀ word,
    r.written k = some (dmiCommand, word) → ∃ n, AccessRegister word n

/-- No instruction that the halt left in WB changes a register. -/
def Quiet (k : ℕ) : Prop :=
  (r.core.state k).wbWrite (r.core.inputs k) (r.core.state k).regs =
    (r.core.state k).regs

/-- In all cycles in which no command is busy, the debugger sees what it has
to. -/
def Follows (b e : ℕ) : Prop :=
  ∀ d, b + d ≤ e → (r.dm (b + d)).absState ≠ 1 →
    r.view (b + d) = r.expected b d

variable {r} {k : ℕ}

theorem quiet_of_atRest (rest : r.AtRest k) : r.Quiet k := by
  simp [Quiet, Core.wbWrite, Core.wbWritesRd, rest.2]

/-- The registers change by an abstract write only. -/
theorem regs_succ (quiet : r.Quiet k) :
    (r.core.state (k + 1)).regs =
      (r.core.state k).absWrite (r.core.inputs k) (r.core.state k).regs := by
  rw [r.core.state_succ, Core.step_regs, Core.regsNext_eq, quiet,
    Core.absWrite]

/-- Nothing is asked for but DATA0 and COMMAND. -/
theorem other_of_not_asked (silent : r.asked k = none) :
    (r.dm k).dmiReqFire (r.inputs k).dmi = true →
      (r.inputs k).dmi.dmiReqWrite = true →
      (r.inputs k).dmi.dmiReqAddr ≠ dmiData0 ∧
        (r.inputs k).dmi.dmiReqAddr ≠ dmiCommand := by
  intro fire write
  simp only [asked, written, fire, write, Bool.and_true, if_true,
    Option.bind_some, registerAccess] at silent
  constructor <;> intro is <;> simp [is, dmiData0, dmiCommand] at silent
  split_ifs at silent

/-- A command that is not busy makes no abstract access. -/
theorem regs_of_ready (quiet : r.Quiet k) (ready : (r.dm k).absState ≠ 1) :
    (r.core.state (k + 1)).regs = (r.core.state k).regs := by
  have idle : (r.core.inputs k).dbgAbsValid = false :=
    beq_eq_false_iff_ne.mpr ready
  rw [regs_succ quiet, Core.absWrite]
  simp [Core.absWrites, Core.dbgAbsReady, idle]

theorem view_of_silent (quiet : r.Quiet k) (ready : (r.dm k).absState ≠ 1)
    (silent : r.asked k = none) :
    r.view (k + 1) = r.view k ∧ (r.dm (k + 1)).absState ≠ 1 := by
  have same := Dm.step_sameCommand
    (c := (r.state k).dmCoreIn (r.inputs k)) (other_of_not_asked silent)
  have kept := Dm.absStep_of_ready
    (c := (r.state k).dmCoreIn (r.inputs k)) ready
  rw [← dm_succ] at same
  refine ⟨RegisterView.ext (regs_of_ready quiet ready) ?_, ?_⟩
  · exact same.data0.trans kept.2
  · rw [same.absState]
    exact kept.1

theorem asked_cases {a : RegisterAccess} (asks : r.asked k = some a) :
    (∃ data, r.written k = some (dmiData0, data) ∧ a = .setData data) ∨
      ∃ word, r.written k = some (dmiCommand, word) ∧
        registerAccess dmiCommand word = some a := by
  cases written : r.written k with
  | none => simp [asked, written] at asks
  | some write =>
      obtain ⟨addr, word⟩ := write
      simp only [asked, written, Option.bind_some] at asks
      by_cases data : addr = dmiData0
      · subst data
        simp only [registerAccess, if_true, Option.some.injEq] at asks
        exact Or.inl ⟨word, rfl, asks.symm⟩
      by_cases command : addr = dmiCommand
      · subst command
        exact Or.inr ⟨word, rfl, asks⟩
      · simp [registerAccess, data, command] at asks

theorem asked_of_command {word : BitVec 32}
    (written : r.written k = some (dmiCommand, word)) :
    ∃ a, r.asked k = some a := by
  have command : dmiCommand ≠ dmiData0 := by decide
  simp only [asked, written, Option.bind_some, registerAccess, command,
    if_false, if_true]
  split_ifs
  · exact ⟨_, rfl⟩
  · exact ⟨_, rfl⟩

theorem view_of_data (quiet : r.Quiet k) (ready : (r.dm k).absState ≠ 1)
    {data : BitVec 32} (written : r.written k = some (dmiData0, data)) :
    r.view (k + 1) = (r.view k).after (.setData data) ∧
      (r.dm (k + 1)).absState ≠ 1 := by
  obtain ⟨fire, write, addr, word⟩ := written_eq_some written
  have kept := Dm.absStep_of_ready
    (c := (r.state k).dmCoreIn (r.inputs k)) ready
  have next := dm_succ (r := r) k
  rw [Dm.step_of_write fire write] at next
  simp only [Dm.dmiWrite, addr, word, dmiData0, dmiDmcontrol, dmiCommand]
    at next
  constructor
  · refine RegisterView.ext (regs_of_ready quiet ready) ?_
    simp [view, next, RegisterView.after]
  · rw [next]
    exact kept.1

/-- A command is taken over with its direction and bits 20 to 16. -/
theorem starts (quiet : r.Quiet k) (ready : (r.dm k).absState ≠ 1)
    {word : BitVec 32} {n : BitVec 5} (access : AccessRegister word n)
    (written : r.written k = some (dmiCommand, word)) :
    r.view (k + 1) = r.view k ∧ (r.dm (k + 1)).absState = 1 ∧
      (r.dm (k + 1)).absCmdWrite = word.getLsbD 16 ∧
      (r.dm (k + 1)).absCmdReg = word.extractLsb' 16 5 := by
  obtain ⟨fire, write, addr, wdata⟩ := written_eq_some written
  have kept := Dm.absStep_of_ready
    (c := (r.state k).dmCoreIn (r.inputs k)) ready
  have next := dm_succ (r := r) k
  rw [Dm.step_of_write fire write] at next
  simp only [Dm.dmiWrite, addr, wdata, access.cmdtype, dmiDmcontrol,
    dmiCommand] at next
  refine ⟨RegisterView.ext (regs_of_ready quiet ready) ?_, ?_, ?_, ?_⟩
  · simp only [view, next]
    exact kept.2
  · rw [next]
    rfl
  · rw [next]
    rfl
  · rw [next]
    rfl

section Busy

variable (halted : (r.core.state k).halted = true)
  (busy : (r.dm k).absState = 1) (silent : r.asked k = none)
include halted busy silent

theorem served_of_busy :
    (r.core.state k).dbgAbsReady (r.core.inputs k) = true ∧
      Dm.SameCommand (r.dm (k + 1))
        (if (r.dm k).absCmdWrite then { r.dm k with absState := 2 }
        else
          { r.dm k with
            data0 := (r.view k).reg (r.dm k).absCmdReg
            absState := 2 }) := by
  have valid : (r.core.inputs k).dbgAbsValid = true := beq_iff_eq.mpr busy
  have served : (r.core.state k).dbgAbsReady (r.core.inputs k) = true := by
    simp [Core.dbgAbsReady, valid, halted]
  have answered : ((r.state k).dmCoreIn (r.inputs k)).absReady = true := by
    rw [core_state] at served
    exact served
  have answer : ((r.state k).dmCoreIn (r.inputs k)).absRdata =
      (r.view k).reg (r.dm k).absCmdReg := by
    simp only [view, core_state]
    rfl
  have same := Dm.step_sameCommand
    (c := (r.state k).dmCoreIn (r.inputs k)) (other_of_not_asked silent)
  rw [← dm_succ, Dm.absStep, if_pos ⟨busy, answered⟩, answer] at same
  exact ⟨served, same⟩

theorem done_of_busy : (r.dm (k + 1)).absState = 2 := by
  rw [(served_of_busy halted busy silent).2.absState]
  split_ifs <;> rfl

/-- A busy command is served in one cycle. -/
theorem view_of_busy (quiet : r.Quiet k)
    (writable : (r.dm k).absCmdWrite = true → (r.dm k).absCmdReg ≠ 0) :
    r.view (k + 1) =
      if (r.dm k).absCmdWrite then (r.view k).set (r.dm k).absCmdReg
      else (r.view k).get (r.dm k).absCmdReg := by
  obtain ⟨served, same⟩ := served_of_busy halted busy silent
  by_cases write : (r.dm k).absCmdWrite = true
  · rw [if_pos write] at same ⊢
    refine RegisterView.ext ?_ same.data0
    have port : (r.core.inputs k).dbgAbsWrite = true := write
    have address : (r.core.inputs k).dbgAbsRegaddr ≠ 0 := writable write
    simp only [view, regs_succ quiet, Core.absWrite, Core.absWrites, served,
      port, Bool.true_and, bne_iff_ne, address, ne_eq, not_false_eq_true,
      if_true]
    rfl
  · rw [if_neg write] at same ⊢
    refine RegisterView.ext ?_ same.data0
    have port : (r.core.inputs k).dbgAbsWrite = false :=
      Bool.eq_false_of_not_eq_true write
    simp only [view, regs_succ quiet, Core.absWrite, Core.absWrites, port,
      Bool.and_false, Bool.false_and, Bool.false_eq_true, if_false]
    rfl

end Busy

/-- A command of a session has been executed after two cycles. -/
theorem executes {b e : ℕ} (session : r.Session b e) (late : b ≤ k)
    (early : k + 1 < e) (quiet : ∀ j, b ≤ j → j < e → r.Quiet j)
    {word : BitVec 32}
    (written : r.written k = some (dmiCommand, word))
    (asks : (r.asked k).isSome = true) :
    r.asked (k + 1) = none ∧ (r.dm (k + 2)).absState ≠ 1 ∧
      r.view (k + 2) = (r.view k).served word := by
  have ready := session.waits k late (by omega) asks
  obtain ⟨n, access⟩ := session.commands k late (by omega) word written
  obtain ⟨same, busy, direction, address⟩ :=
    starts (quiet k late (by omega)) ready access written
  have silent : r.asked (k + 1) = none := by
    by_contra asks
    exact session.waits (k + 1) (by omega) early
      (Option.isSome_iff_ne_none.mpr asks) busy
  have writable : (r.dm (k + 1)).absCmdWrite = true →
      (r.dm (k + 1)).absCmdReg ≠ 0 := by
    intro write zero
    rw [direction] at write
    rw [address] at zero
    have bit : word.getLsbD 16 = false := by
      simpa using congrArg (fun m : BitVec 5 => m.getLsbD 0) zero
    exact absurd (write.symm.trans bit) (by decide)
  have still := quiet (k + 1) (by omega) early
  have halted := session.halted (k + 1) (by omega) early
  refine ⟨silent, by rw [done_of_busy halted busy silent]; decide, ?_⟩
  rw [view_of_busy halted busy silent still writable, same, direction,
    address]
  rfl

/-- A busy command has been accepted in the cycle before. -/
theorem accepted_of_busy {b e : ℕ} (session : r.Session b e) (late : b ≤ k)
    (early : k < e) (quiet : r.Quiet k) (busy : (r.dm (k + 1)).absState = 1) :
    (r.dm k).absState ≠ 1 ∧
      ∃ word a, r.written k = some (dmiCommand, word) ∧
        r.asked k = some a := by
  cases asks : r.asked k with
  | none =>
      by_cases before : (r.dm k).absState = 1
      · have done := done_of_busy (session.halted k late early) before asks
        rw [busy] at done
        exact absurd done (by decide)
      · exact absurd busy (view_of_silent quiet before asks).2
  | some a =>
      have ready := session.waits k late early (by simp [asks])
      rcases asked_cases asks with
        ⟨data, written, _⟩ | ⟨word, written, _⟩
      · exact absurd busy (view_of_data quiet ready written).2
      · exact ⟨ready, word, a, written, rfl⟩

theorem view_of_ready {b e : ℕ} (session : r.Session b e) (late : b ≤ k)
    (early : k < e) (quiet : r.Quiet k) (before : (r.dm k).absState ≠ 1)
    (ready : (r.dm (k + 1)).absState ≠ 1) :
    r.view (k + 1) =
      match r.asked k with
      | some a => (r.view k).after a
      | none => r.view k := by
  cases asks : r.asked k with
  | none => exact (view_of_silent quiet before asks).1
  | some a =>
      rcases asked_cases asks with
        ⟨data, written, rfl⟩ | ⟨word, written, _⟩
      · exact (view_of_data quiet before written).1
      · obtain ⟨n, access⟩ := session.commands k late early word written
        exact absurd (starts quiet before access written).2.1 ready

theorem atRest_of_session {b e : ℕ} (session : r.Session b e)
    (rest : r.AtRest b) (late : b ≤ k) (early : k ≤ e) : r.AtRest k :=
  atRest_of_halted late rest fun j low high =>
    session.halted j low (lt_of_lt_of_le high early)

/-- A command after which the debugger has to see what the platform did. -/
theorem expected_of_command {b e d : ℕ} (session : r.Session b e)
    (early : b + d + 1 < e) (quiet : ∀ j, b ≤ j → j < e → r.Quiet j)
    {word : BitVec 32} {a : RegisterAccess}
    (written : r.written (b + d) = some (dmiCommand, word))
    (asks : r.asked (b + d) = some a)
    (sees : r.view (b + d) = r.expected b d) :
    (r.dm (b + (d + 2))).absState ≠ 1 ∧
      (r.view (b + (d + 2)) = r.expected b (d + 2) ↔
        (r.view (b + d)).Fits word) := by
  obtain ⟨silent, done, serves⟩ := executes session (by omega) early quiet
    written (by simp [asks])
  have next : r.expected b (d + 2) = (r.view (b + d)).after a := by
    rw [expected, ← Nat.add_assoc, silent, expected, asks, sees]
  refine ⟨done, ?_⟩
  rw [next, ← Nat.add_assoc, serves]
  refine RegisterView.served_eq_iff ?_
  simpa [asked, written] using asks

end DebugRun

/-- When no instruction is left that changes a register, the debugger sees the
registers and DATA0 as its commands prescribe exactly when bits 20 to 16 of
every command fit. -/
theorem follows_iff {p : Params} (r : DebugRun p) (b e : ℕ)
    (session : r.Session b e) (quiet : ∀ k, b ≤ k → k < e → r.Quiet k) :
    r.Follows b e ↔
      ∀ k, b ≤ k → k + 1 < e → ∀ word,
        r.written k = some (dmiCommand, word) → (r.view k).Fits word := by
  constructor
  · intro follows k late early word written
    obtain ⟨d, rfl⟩ := Nat.exists_eq_add_of_le late
    obtain ⟨a, asks⟩ := DebugRun.asked_of_command written
    have ready := session.waits (b + d) late (by omega) (by simp [asks])
    obtain ⟨done, fits⟩ := DebugRun.expected_of_command session early
      quiet written asks (follows d (by omega) ready)
    exact fits.mp (follows (d + 2) (by omega) done)
  · intro fits d
    induction d using Nat.strong_induction_on with
    | _ d inductionHypothesis =>
        intro early ready
        cases d with
        | zero => rfl
        | succ d =>
            by_cases before : (r.dm (b + d)).absState = 1
            · -- The command that was busy comes from one cycle earlier.
              cases d with
              | zero => exact absurd before session.ready
              | succ c =>
                  obtain ⟨first, word, a, written, asks⟩ :=
                    DebugRun.accepted_of_busy session (Nat.le_add_right b c)
                      (by omega) (quiet (b + c) (by omega) (by omega)) before
                  have sees := inductionHypothesis c (by omega) (by omega)
                    first
                  exact (DebugRun.expected_of_command session (by omega)
                    quiet written asks sees).2.mpr
                    (fits (b + c) (by omega) (by omega) word written)
            · have sees := inductionHypothesis d (by omega) (by omega) before
              rw [DebugRun.expected, ← sees]
              exact DebugRun.view_of_ready session (Nat.le_add_right b d)
                early (quiet (b + d) (Nat.le_add_right b d) early) before ready

/-- The core is halted, DATA0 set to 5 and a command given. -/
def oneCommand (word : BitVec 32) : DebugRun {} :=
  DebugRun.script {}
    [{ dmi := .put dmiDmcontrol 0x80000001 }, {}, {},
      { dmi := .put dmiData0 5 }, { dmi := .put dmiCommand word }]

theorem oneCommand_written {word : BitVec 32}
    (either : word = 0x00011001 ∨ word = 0x00231001) {k : ℕ} {w : BitVec 32}
    (late : 3 ≤ k) (early : k < 6)
    (written : (oneCommand word).written k = some (dmiCommand, w)) :
    k = 4 ∧ w = word := by
  have writes : (oneCommand word).written 3 = some (dmiData0, 5) ∧
      (oneCommand word).written 4 = some (dmiCommand, word) ∧
      (oneCommand word).written 5 = none := by
    rcases either with rfl | rfl <;> decide
  interval_cases k
  · rw [writes.1] at written
    exact absurd written (by simp [dmiData0, dmiCommand])
  · rw [writes.2.1] at written
    simp only [Option.some.injEq, Prod.mk.injEq, true_and] at written
    exact ⟨rfl, written.symm⟩
  · rw [writes.2.2] at written
    exact absurd written (by simp)

/-- The first word fits; the second one is the standard encoding of the same
write to `x1`. -/
theorem oneCommand_session {word : BitVec 32}
    (either : word = 0x00011001 ∨ word = 0x00231001) :
    (oneCommand word).Session 3 6 ∧ (oneCommand word).AtRest 3 := by
  refine ⟨{ halted := ?_, ready := ?_, waits := ?_, commands := ?_ }, ?_⟩
  · intro k late early
    rcases either with rfl | rfl <;> interval_cases k <;> decide
  · rcases either with rfl | rfl <;> decide
  · intro k late early
    rcases either with rfl | rfl <;> interval_cases k <;> decide
  · intro k late early w written
    obtain ⟨-, rfl⟩ := oneCommand_written either late early written
    exact ⟨1, by rcases either with rfl | rfl <;> constructor <;> decide⟩
  · rcases either with rfl | rfl <;> exact ⟨by decide, by decide⟩

/-- Bits 20 to 16 name register 1. -/
theorem follows_iff_oneCommand : (oneCommand 0x00011001).Follows 3 6 := by
  obtain ⟨session, rest⟩ := oneCommand_session (Or.inl rfl)
  refine (follows_iff (oneCommand 0x00011001) 3 6 session
    fun k late early => DebugRun.quiet_of_atRest
      (DebugRun.atRest_of_session session rest late early.le)).mpr ?_
  intro k late early word written
  obtain ⟨-, rfl⟩ := oneCommand_written (Or.inl rfl) late (by omega) written
  exact Or.inl rfl

/-- Here they name register 3. -/
theorem not_follows :
    ¬ ∀ (p : Params) (r : DebugRun p) (b e : ℕ),
      r.Session b e → r.AtRest b → r.Follows b e := by
  intro all
  obtain ⟨session, rest⟩ := oneCommand_session (Or.inr rfl)
  have sees := all {} (oneCommand 0x00231001) 3 6 session rest 3 (by decide)
    (by decide)
  have register := congrArg (fun v => RegisterView.reg v 1) sees
  exact absurd register (by decide)

end SisRv
