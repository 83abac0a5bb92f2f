import SisRv.Lib.HexText
import SisRv.Lib.PyText
import SisRv.Platform.RetireLog

/-!
# Lock-step co-simulation

The simulator writes the retire log of the core as a text, and
`verification/cosim/spike_lockstep.py` compares the text with the instructions
that Spike has retired.
-/

namespace SisRv.SpikeLockstep

open HexText PyText Riscv Sync

/-! ## The commit log -/

section CommitLog

variable (e : Run.RetireInsn)

/-- What `dpi_sisrv_retire_insn` of `main.cpp` prints behind the PC. -/
def commitFields : List (List Char) :=
  [ hexDigits 8
      (if e.isCompressed then e.rawInsnVal &&& 0xFFFF
      else e.rawInsnVal).toNat,
    hexDigits 1 (e.rdVal &&& 0x1F).toNat,
    hexDigits 8 e.wdataVal.toNat,
    hexDigits 1 e.wrEn.toNat ]

def commitLine : List Char :=
  hexDigits 8 e.pcVal.toNat ++
    (commitFields e).flatMap fun field => ' ' :: field

/-- The file behind `--commit-log`. -/
def commitLog (log : List Run.RetireInsn) : List Char :=
  log.flatMap fun e => commitLine e ++ ['\n']

end CommitLog

/-! ## Reading it -/

/-- A PC and an instruction. -/
abbrev Commit := ℕ × ℕ

/-- `[0-9a-fA-F]`. -/
def isHex (c : Char) : Bool := (digitValue c).isSome

/-- A number of further groups of `RTL_LINE`, up to the end of the line. -/
def moreGroups : ℕ → List Char → Option (List (List Char))
  | 0, text => if text = [] then some [] else none
  | n + 1, text => do
      let (_, text) ← oneOrMore isSpace text
      let (group, text) ← oneOrMore isHex text
      let groups ← moreGroups n text
      return group :: groups

/-- `RTL_LINE.match`: digits and spaces exclude each other, so that no run has
to give characters back. -/
def rtlLine (line : List Char) : Option (List (List Char)) := do
  let (group, text) ← oneOrMore isHex line
  let groups ← moreGroups 4 text
  return group :: groups

/-- The commit of the first two groups. -/
def groupsCommit : List (List Char) → Option Commit
  | pc :: insn :: _ => do return (← readHex pc, ← readHex insn)
  | _ => none

/-- `parse_rtl_commits` of the text of a file. -/
def parseRtlCommits (text : List Char) : List Commit :=
  (splitlines text).filterMap fun line =>
    (rtlLine (strip line)).bind groupsCommit

/-! ## Comparing -/

/-- What `compare_commits` raises. -/
structure RuntimeError where
  text : String
  deriving DecidableEq, Repr

/-- `{n:08x}`. -/
def hex8 (n : ℕ) : String := String.ofList (hexDigits 8 n)

def mismatch (seed idx : ℕ) (spike rtl : Commit) : RuntimeError :=
  ⟨"seed " ++ toString seed ++ " mismatch at retire " ++ toString idx ++
    ": spike pc=0x" ++ hex8 spike.1 ++ " insn=0x" ++ hex8 spike.2 ++
    " rtl pc=0x" ++ hex8 rtl.1 ++ " insn=0x" ++ hex8 rtl.2⟩

/-- The loop over the commits that both have, from an index on. -/
def compareFrom (seed : ℕ) :
    ℕ → List Commit → List Commit → Except RuntimeError Unit
  | idx, s :: spike, r :: rtl =>
      if s.1 ≠ r.1 ∨ s.2 ≠ r.2 then .error (mismatch seed idx s r)
      else compareFrom seed (idx + 1) spike rtl
  | _, _, _ => .ok ()

def compareCommits (seed : ℕ) (spikeCommits rtlCommits : List Commit)
    (minRequired : ℤ) : Except RuntimeError Unit :=
  if spikeCommits = [] then
    .error ⟨"seed " ++ toString seed ++
      ": Spike produced no retired instructions"⟩
  else if rtlCommits = [] then
    .error ⟨"seed " ++ toString seed ++
      ": RTL produced no retired instructions"⟩
  else if (min spikeCommits.length rtlCommits.length : ℕ) < minRequired then
    .error ⟨"seed " ++ toString seed ++
      ": insufficient retired instructions (spike=" ++
      toString spikeCommits.length ++ " rtl=" ++
      toString rtlCommits.length ++ " need>=" ++ toString minRequired ++
      ")"⟩
  else compareFrom seed 0 spikeCommits rtlCommits

/-! ## What is printed is read back -/

theorem range_of_isHex {c : Char} (digit : isHex c = true) :
    48 ≤ c.toNat ∧ c.toNat ≤ 102 := by
  have bounds (a : Char) : a ≤ c ↔ a.toNat ≤ c.toNat := Iff.rfl
  have bounds' (a : Char) : c ≤ a ↔ c.toNat ≤ a.toNat := Iff.rfl
  unfold isHex digitValue at digit
  simp only [bounds, bounds'] at digit
  have zero : '0'.toNat = 48 := rfl
  have nine : '9'.toNat = 57 := rfl
  have lowA : 'a'.toNat = 97 := rfl
  have lowF : 'f'.toNat = 102 := rfl
  have highA : 'A'.toNat = 65 := rfl
  have highF : 'F'.toNat = 70 := rfl
  split_ifs at digit
  · omega
  · omega
  · omega
  · cases digit

theorem not_space_of_isHex {c : Char} (digit : isHex c = true) :
    isSpace c = false := by
  obtain ⟨low, high⟩ := range_of_isHex digit
  simp [isSpace]
  omega

theorem not_break_of_isHex {c : Char} (digit : isHex c = true) :
    isLineBreak c = false := by
  obtain ⟨low, high⟩ := range_of_isHex digit
  simp [isLineBreak]
  omega

/-- One or more digits. -/
def IsNumber (field : List Char) : Prop :=
  field ≠ [] ∧ ∀ c ∈ field, isHex c = true

theorem isNumber_hexDigits (width n : ℕ) : IsNumber (hexDigits width n) :=
  ⟨hexDigits_ne_nil width n, fun _ member =>
    Option.isSome_iff_ne_none.mpr
      (digitValue_of_mem (readHex_hexDigits width n) member)⟩

theorem isNumber_commitFields (e : Run.RetireInsn) :
    ∀ field ∈ commitFields e, IsNumber field := by
  simp [commitFields, isNumber_hexDigits]

section Fields

variable {field : List Char} {fields : List (List Char)}

/-- Behind the fields the line ends or goes on with a space. -/
theorem stop_of_fields (fields : List (List Char)) :
    ∀ c ∈ (fields.flatMap fun field => ' ' :: field).head?,
      isHex c = false := by
  cases fields with
  | nil => simp
  | cons field fields =>
      rintro c ⟨⟩
      rfl

theorem moreGroups_fields (numbers : ∀ field ∈ fields, IsNumber field) :
    moreGroups fields.length (fields.flatMap fun field => ' ' :: field) =
      some fields := by
  induction fields with
  | nil => rfl
  | cons field fields inductionHypothesis =>
      obtain ⟨nonempty, digits⟩ := numbers field List.mem_cons_self
      have space : oneOrMore isSpace ([' '] ++ (field ++
          fields.flatMap fun field => ' ' :: field)) =
          some ([' '], field ++ fields.flatMap fun field => ' ' :: field) := by
        refine oneOrMore_append (List.cons_ne_nil _ _)
          (List.forall_mem_singleton.mpr rfl) ?_
        intro c first
        rw [List.head?_append_of_ne_nil _ nonempty] at first
        exact not_space_of_isHex (digits c (List.mem_of_head? first))
      have group := oneOrMore_append nonempty digits
        (stop_of_fields fields)
      have rest := inductionHypothesis fun field member =>
        numbers field (List.mem_cons_of_mem _ member)
      rw [List.length_cons, List.flatMap_cons, List.cons_append,
        ← List.singleton_append, moreGroups, space]
      simp only [Option.bind_eq_bind, Option.bind_some, group, rest,
        Option.pure_def]

theorem getLast_of_fields (number : IsNumber field)
    (numbers : ∀ field ∈ fields, IsNumber field) :
    ∀ c ∈ (field ++ fields.flatMap fun field => ' ' :: field).getLast?,
      isHex c = true := by
  induction fields generalizing field with
  | nil =>
      intro c last
      rw [List.flatMap_nil, List.append_nil] at last
      exact number.2 c (List.mem_of_getLast? last)
  | cons next fields inductionHypothesis =>
      intro c last
      have nextNumber := numbers next List.mem_cons_self
      refine inductionHypothesis nextNumber
        (fun field member => numbers field (List.mem_cons_of_mem _ member)) c ?_
      rw [List.flatMap_cons, List.cons_append, ← List.singleton_append,
        ← List.append_assoc, List.getLast?_append_of_ne_nil] at last
      · exact last
      · exact List.append_ne_nil_of_left_ne_nil nextNumber.1 _

end Fields

theorem strip_commitLine (e : Run.RetireInsn) :
    strip (commitLine e) = commitLine e := by
  have pc := isNumber_hexDigits 8 e.pcVal.toNat
  apply strip_of_ends
  · intro c first
    rw [commitLine, List.head?_append_of_ne_nil _ pc.1] at first
    exact not_space_of_isHex (pc.2 c (List.mem_of_head? first))
  · intro c last
    exact not_space_of_isHex
      (getLast_of_fields pc (isNumber_commitFields e) c last)

theorem rtlLine_commitLine (e : Run.RetireInsn) :
    rtlLine (commitLine e) =
      some (hexDigits 8 e.pcVal.toNat :: commitFields e) := by
  have pc := isNumber_hexDigits 8 e.pcVal.toNat
  have group := oneOrMore_append pc.1 pc.2
    (stop_of_fields (commitFields e))
  have rest := moreGroups_fields (isNumber_commitFields e)
  have four : (commitFields e).length = 4 := rfl
  rw [four] at rest
  rw [rtlLine, commitLine, group]
  simp only [Option.bind_eq_bind, Option.bind_some, rest, Option.pure_def]

theorem whole_commitLine (e : Run.RetireInsn) :
    ∀ c ∈ commitLine e, isLineBreak c = false := by
  intro c member
  rw [commitLine, List.mem_append, List.mem_flatMap] at member
  rcases member with pc | ⟨field, isField, inside⟩
  · exact not_break_of_isHex ((isNumber_hexDigits 8 _).2 c pc)
  · rcases List.mem_cons.mp inside with rfl | digit
    · rfl
    · exact not_break_of_isHex ((isNumber_commitFields e field isField).2 c digit)

/-- The commits of a log are read back as they were reported. -/
theorem parseRtlCommits_commitLog (log : List Run.RetireInsn) :
    parseRtlCommits (commitLog log) =
      log.map fun e => (e.pcVal.toNat, e.bits.toNat) := by
  rw [parseRtlCommits, commitLog, splitlines_flatMap _ whole_commitLine,
    List.filterMap_map, ← List.filterMap_eq_map]
  congr 1
  funext e
  show (rtlLine (strip (commitLine e))).bind groupsCommit = _
  rw [strip_commitLine, rtlLine_commitLine, Option.bind_some, commitFields,
    groupsCommit, readHex_hexDigits, readHex_hexDigits]
  rfl

/-! ## What is compared -/

/-- The loop ends well exactly when one list goes on where the other ends. -/
theorem compareFrom_eq_ok_iff (seed idx : ℕ) (spike rtl : List Commit) :
    compareFrom seed idx spike rtl = .ok () ↔
      spike <+: rtl ∨ rtl <+: spike := by
  induction spike generalizing idx rtl with
  | nil => simp [compareFrom]
  | cons s spike inductionHypothesis =>
      cases rtl with
      | nil => simp [compareFrom]
      | cons r rtl =>
          rw [compareFrom, List.cons_prefix_cons, List.cons_prefix_cons]
          by_cases same : s = r
          · subst same
            rw [if_neg (by simp), inductionHypothesis]
            simp
          · have differs : s.1 ≠ r.1 ∨ s.2 ≠ r.2 := by
              by_contra equal
              push Not at equal
              exact same (Prod.ext equal.1 equal.2)
            rw [if_pos differs]
            refine iff_of_false (by simp) ?_
            rintro (⟨equal, -⟩ | ⟨equal, -⟩)
            · exact same equal
            · exact same equal.symm

/-- The comparison passes exactly on enough commits that agree. -/
theorem compareCommits_eq_ok_iff (seed : ℕ) (spike rtl : List Commit)
    (minRequired : ℤ) :
    compareCommits seed spike rtl minRequired = .ok () ↔
      spike ≠ [] ∧ rtl ≠ [] ∧ minRequired ≤ (min spike.length rtl.length : ℕ) ∧
        (spike <+: rtl ∨ rtl <+: spike) := by
  unfold compareCommits
  split_ifs with noSpike noRtl short
  · simp [noSpike]
  · simp [noRtl]
  · refine iff_of_false (by simp) ?_
    rintro ⟨-, -, enough, -⟩
    exact absurd enough (not_le.mpr short)
  · rw [compareFrom_eq_ok_iff]
    exact ⟨fun agree => ⟨noSpike, noRtl, not_lt.mp short, agree⟩,
      fun passes => passes.2.2.2⟩

end SisRv.SpikeLockstep

namespace SisRv

open Riscv SpikeLockstep Sync

/-! ## The core against the hart -/

section Program

variable {b : Backing} {p : Params} {regs : BitVec 5 → BitVec 32} {count : ℕ}

/-- The first instructions of a program, as Spike prints them. -/
def Backing.Program.commits (program : b.Program p regs count) (k : ℕ) :
    List Commit :=
  (program.trace k).map fun commit => (commit.1.toNat, commit.2.toNat)

end Program

namespace Run

variable {p : Params} {r : Run p} {b : Backing} {count : ℕ}

variable (r) in
/-- At the end of cycle `n` the comparison of the commit log with Spike's
commits passes exactly when there are enough of both and Spike has retired
instructions of the hart. -/
structure LocksStep (program : b.Program p r.power.regs count) (n : ℕ) :
    Prop where
  passes : ∀ (seed : ℕ) (spike : List Commit) (minRequired : ℤ),
    compareCommits seed spike
        (parseRtlCommits (commitLog (r.retireLog (n + 1)))) minRequired =
          .ok () ↔
      spike ≠ [] ∧ occurrences r.completes n ≠ 0 ∧
        minRequired ≤ (min spike.length (occurrences r.completes n) : ℕ) ∧
        (spike <+: program.commits (occurrences r.completes n) ∨
          program.commits (occurrences r.completes n) <+: spike)

theorem locksStep_of_logs {program : b.Program p r.power.regs count}
    (logs : r.Logs program) {n : ℕ}
    (within : occurrences r.completes n ≤ count) :
    r.LocksStep program n where
  passes := by
    intro seed spike minRequired
    have parsed : parseRtlCommits (commitLog (r.retireLog (n + 1))) =
        program.commits (occurrences r.completes n) := by
      rw [parseRtlCommits_commitLog, Backing.Program.commits,
        ← logs.trace n within, List.map_map]
      rfl
    have length : (program.commits (occurrences r.completes n)).length =
        occurrences r.completes n := by
      simp [Backing.Program.commits, Backing.Program.trace]
    have some_ : program.commits (occurrences r.completes n) ≠ [] ↔
        occurrences r.completes n ≠ 0 := by
      rw [← List.length_pos_iff, length, Nat.pos_iff_ne_zero]
    rw [parsed, compareCommits_eq_ok_iff, length, some_]

end Run

/-- On both platforms, with constant GPIO inputs, the lock-step comparison
passes on a program exactly when Spike has retired the instructions of the
hart. -/
theorem platforms_lock_step {p : Params} (t : Setup) (stallRate : ℤ)
    (enableC : p.enableC = true) (enableM : p.enableM = true)
    {pins : BitVec 32} (held : ∀ k, (t.pins k).gpioIn = pins) {count : ℕ}
    (program :
      (⟨t.rom, t.ram, pins⟩ : Backing).Program p t.power.regs count) (n : ℕ) :
    (occurrences (t.corebus p).core.completes n ≤ count →
        (t.corebus p).core.LocksStep program n) ∧
      (occurrences (t.axil p stallRate).core.completes n ≤ count →
        (t.axil p stallRate).core.LocksStep program n) := by
  constructor
  · exact Run.locksStep_of_logs
      (Setup.corebus_logs t enableC enableM held program)
  · exact Run.locksStep_of_logs
      (Setup.axil_logs t stallRate enableC enableM held program)

/-- Three of the commits of the greeting. -/
def greetingCommits : List Commit :=
  [(0, 0x4425), (2, 0x040E), (4, 0x100044B7)]

theorem prefix_greetingCommits :
    greetingCommits <+: greetingProgram.commits 4 :=
  ⟨[(8, 0x0084A023)], rfl⟩

theorem platforms_lock_step_greeting :
    (∃ n, compareCommits 7 greetingCommits
        (parseRtlCommits (commitLog
          ((greetingSetup.corebus {}).core.retireLog (n + 1)))) 2 = .ok ()) ∧
      ∃ n, compareCommits 7 greetingCommits
        (parseRtlCommits (commitLog
          ((greetingSetup.axil {} 80).core.retireLog (n + 1)))) 2 = .ok () := by
  have locked := platforms_lock_step greetingSetup 80 rfl rfl (fun _ => rfl)
    greetingProgram
  obtain ⟨⟨n, reached⟩, n', reached'⟩ := greeting_completes
  have step := (locked n).1 (by rw [reached]; decide)
  have step' := (locked n').2 (by rw [reached']; decide)
  constructor
  · refine ⟨n, (step.passes 7 greetingCommits 2).mpr ?_⟩
    rw [reached]
    exact ⟨by decide, by decide, by decide, Or.inl prefix_greetingCommits⟩
  · refine ⟨n', (step'.passes 7 greetingCommits 2).mpr ?_⟩
    rw [reached']
    exact ⟨by decide, by decide, by decide, Or.inl prefix_greetingCommits⟩

end SisRv
