import SisRv.Fabric.Subword
import SisRv.Platform.RunsPrograms
import SisRv.Tools.SimMain

/-!
# Verdicts of the simulator

A test that leaves its verdict at the test port and then goes round in a loop
makes the simulator exit with that verdict, with what the test has sent, and
with the signature that it has left in the RAM.
-/

namespace SisRv

open Riscv SimMain Sync

/-! ## Tests -/

/-- The verdict that the devices show. -/
def DeviceState.verdict (d : DeviceState) : Option Verdict :=
  SimMain.verdict d.pass d.fail d.lastCode

/-- A hart that executes ordinary instructions without end, and comes to a
verdict behind which its memory stays as it is. -/
structure Backing.Test (b : Backing) (p : Params)
    (regs : BitVec 5 → BitVec 32) where
  hart : ℕ → Hart Contents
  parcel : ℕ → Parcel
  starts : hart 0 =
    ⟨p.resetVector, fun a => if a = 0 then 0 else regs a,
      (b.store []).contents⟩
  executes : ∀ k, (hart k).Executes b.memory (hart (k + 1)) (parcel k)
  accepted : ∀ k, (parcel k).Accepted
  last : ℕ
  verdict : Verdict
  before : ∀ k < last, (hart k).memory.devices.verdict = none
  shown : (hart last).memory.devices.verdict = some verdict
  idles : ∀ k, last ≤ k → (hart k).memory = (hart last).memory

namespace Backing.Test

variable {b : Backing} {p : Params} {regs : BitVec 5 → BitVec 32}
  (test : b.Test p regs)

/-- Its first instructions. -/
def program (count : ℕ) : b.Program p regs count where
  hart := test.hart
  parcel := test.parcel
  starts := test.starts
  executes := fun k _ => test.executes k
  accepted := fun k _ => test.accepted k

/-- What the test leaves. -/
def result : Contents := (test.hart test.last).memory

end Backing.Test

/-! ## The signature -/

/-- The word that the simulator reads in the RAM. -/
theorem readRamWord_of_inRam {s : Store} {a : BitVec 32}
    (named : addressMap a = some .ram) (isAligned : IsAligned 4 a) :
    readRamWord s.ram a = ByteMemory.word s.contents.ram a := by
  have range := (ram_iff a).mp named
  have within : lane a + LoadOp.lw.size ≤ 4 :=
    lane_of_isAligned (by decide) isAligned
  have bytes : LoadOp.lw.value s.contents.ram a =
      LoadOp.lw.value (byteOf s.ram) a := by
    refine LoadOp.value_congr fun k inside => ?_
    exact if_pos (ram_add named (by omega))
  have word : ByteMemory.word s.contents.ram a = s.ram (a.extractLsb' 2 16) :=
    bytes.trans ((value_of_word s.ram within).symm.trans
      (word_laneBytes _ isAligned))
  have base : kRamBase.toNat = 0x80000000 := rfl
  have index : ((a - kRamBase) >>> 2).toNat = (a.toNat - 0x80000000) / 4 := by
    rw [BitVec.toNat_ushiftRight, BitVec.toNat_sub, base,
      Nat.shiftRight_eq_div_pow]
    omega
  have above : ¬ a < kRamBase := by
    rw [BitVec.lt_def, base]
    omega
  rw [word, readRamWord, if_neg above, ramReadWord, index, if_pos (by omega)]
  congr 1
  apply BitVec.eq_of_toNat_eq
  rw [BitVec.toNat_setWidth, index, BitVec.extractLsb'_toNat,
    Nat.shiftRight_eq_div_pow]
  omega

/-- The words of an area of the RAM. -/
theorem signatureAddrs_of_inRam {s : Store} {cfg : SimConfig}
    (low : 0x80000000 ≤ cfg.sigStart.toNat)
    (high : cfg.sigEnd.toNat ≤ 0x80040000)
    (isAligned : IsAligned 4 cfg.sigStart) :
    cfg.signatureAddrs.map (readRamWord s.ram) =
      cfg.signatureAddrs.map (ByteMemory.word s.contents.ram) := by
  refine List.map_congr_left fun a visited => ?_
  obtain ⟨k, below, rfl⟩ := List.mem_map.mp visited
  have below := List.mem_range.mp below
  have value : (cfg.sigStart + BitVec.ofNat 32 (4 * k)).toNat =
      cfg.sigStart.toNat + 4 * k := by
    rw [BitVec.toNat_add, BitVec.toNat_ofNat]
    omega
  unfold IsAligned at isAligned
  refine readRamWord_of_inRam ((ram_iff _).mpr ?_) ?_
  · rw [value]
    omega
  · rw [IsAligned, value]
    omega

/-! ## The store while an access is under way -/

namespace Run

variable {p : Params} {r : Run p} {b : Backing} {store : ℕ → Store}

/-- While an access is under way, the store is the one before or behind it. -/
def Between (r : Run p) (b : Backing) (store : ℕ → Store) : Prop :=
  ∀ n, r.RegularUntil n →
    store n = b.store (r.asked n) ∨
      ∃ req a, r.dOutstanding n = some (req, a) ∧
        store n = b.store (r.asked a)

/-- In every cycle the store is that of the hart before or behind the
instruction in EX. -/
theorem moment_program (enableC : p.enableC = true)
    (enableM : p.enableM = true) (free : r.FreeRuns)
    (backed : r.BackedBy b store) (between : r.Between b store) {count : ℕ}
    (program : b.Program p r.power.regs count) (n : ℕ)
    (within : occurrences r.completes n < count) :
    ∃ k, occurrences r.completes n ≤ k ∧
      (store n).contents = (program.hart k).memory := by
  cases waits : (r.state n).dRspReady with
  | false =>
      have follows := follows_program enableC enableM free backed program
      exact ⟨_, le_rfl, follows.memory n within waits⟩
  | true =>
      obtain ⟨m, o, at_, ready⟩ :=
        ready_program enableC enableM free backed program n within
      cases at_.tracks.phase with
      | idle empty => simp [Core.dRspReady, empty] at waits
      | first ex =>
          simp [Core.dRspReady, ex, Arch.issue, Core.issuedEx] at waits
      | request ex =>
          simp [Core.dRspReady, ex] at waits
      | wait _ access _ asks =>
          rcases between n at_.regular with behind | ⟨req, a, out, before⟩
          · refine ⟨_, Nat.le_succ _, ?_⟩
            rw [behind, asks]
            exact (ready.of_access at_.memory access).1.contents
          · -- the access under way is that of the instruction in EX
            rw [asked_of_dOutstanding out] at asks
            have same : r.asked a = m.asked := (List.append_inj' asks rfl).1
            refine ⟨_, le_rfl, ?_⟩
            rw [before, same]
            exact at_.memory
      | amoRequest _ _ amo | amoWait _ _ amo =>
          rw [show (m.begun (r.told b).mem).exIsAmoOp = false from
            ready.notAmo] at amo
          cases amo

end Run

/-! ## A platform under the simulator -/

namespace PlatformRun

variable {p : Params} {σ : Type} {r : PlatformRun p σ} {store : ℕ → Store}
  {b : Backing}

/-- The clock edges up to cycle 10 find the reset. -/
def simTop (r : PlatformRun p σ) (store : ℕ → Store) (ramScope : Bool) :
    Top where
  out := fun cycle => r.out (cycle - kResetCycles)
  ram := fun cycle => (store (cycle - kResetCycles)).ram
  ramScope := ramScope

/-- A store is behind the ports of the core in every cycle, and its devices
are behind the pins. -/
structure Shows (r : PlatformRun p σ) (b : Backing) (store : ℕ → Store) :
    Prop where
  backed : r.core.BackedBy b store
  between : r.core.Between b store
  pins : ∀ n, r.PinsShow (store n).devices n
  silent : r.sends 0 = none

namespace Shows

variable (shows : r.Shows b store) (ramScope : Bool)
include shows

/-- The simulator prints what the UART sends. -/
theorem printed (cycle : ℕ) :
    (List.range (cycle + 1)).flatMap
        (SimMain.printed (r.simTop store ramScope)) =
      emitted r.sends (cycle - kResetCycles + 1) := by
  have prints (cycle : ℕ) :
      SimMain.printed (r.simTop store ramScope) cycle =
        (r.sends (cycle - kResetCycles)).toList := by
    rw [SimMain.printed, PlatformRun.sends]
    show (if (r.out _).uartTxValid = true then _ else _) = _
    split_ifs <;> rfl
  have first : emitted r.sends 1 = [] := by
    rw [emitted, emitted, shows.silent]
    rfl
  induction cycle with
  | zero =>
      rw [List.range_one, List.flatMap_singleton, prints]
      show (r.sends 0).toList = emitted r.sends 1
      rw [first, shows.silent]
      rfl
  | succ cycle inductionHypothesis =>
      rw [List.range_succ, List.flatMap_append, inductionHypothesis,
        List.flatMap_singleton, prints]
      by_cases held : cycle + 1 ≤ kResetCycles
      · rw [Nat.sub_eq_zero_of_le held,
          Nat.sub_eq_zero_of_le (Nat.le_of_succ_le held), shows.silent]
        exact List.append_nil _
      · have next : cycle + 1 - kResetCycles = cycle - kResetCycles + 1 := by
          omega
        rw [next]
        rfl

/-- The simulator sees the verdict that the devices show. -/
theorem seen {cycle : ℕ} (late : cycle > kResetCycles + 5) :
    SimMain.seen (r.simTop store ramScope) cycle =
      (store (cycle - kResetCycles)).devices.verdict := by
  have pins := shows.pins (cycle - kResetCycles)
  rw [SimMain.seen, if_pos late, DeviceState.verdict, ← pins.pass,
    ← pins.fail, ← pins.code]
  rfl

end Shows

end PlatformRun

namespace Setup

variable (t : Setup) (p : Params) (stallRate : ℤ)

def corebusTop : Top := (t.corebus p).simTop (corebusStore t p) true

/-- The RAM is inside the AXI slave, where the simulator does not look. -/
def axilTop : Top :=
  (t.axil p stallRate).simTop (axilStore t p stallRate) false

variable {pins : BitVec 32} (held : ∀ k, (t.pins k).gpioIn = pins)
include held

theorem corebus_shows :
    (t.corebus p).Shows ⟨t.rom, t.ram, pins⟩ (corebusStore t p) where
  backed := corebus_backedBy t p held
  between := fun _ regular => Or.inl (corebusStore_eq pins regular)
  pins := corebus_pins t p
  silent := rfl

theorem axil_shows :
    (t.axil p stallRate).Shows ⟨t.rom, t.ram, pins⟩
      (axilStore t p stallRate) where
  backed := axil_backedBy t p stallRate held
  between := fun _ regular => axil_between regular
  pins := axil_pins t p stallRate
  silent := rfl

end Setup

/-! ## The exit of the simulator -/

namespace Backing.Test

section Reports

variable {b : Backing} {p : Params} {regs : BitVec 5 → BitVec 32}
  (test : b.Test p regs)

/-- The simulator exits in a cycle with what the test leaves. -/
structure Reports (ramScope : Bool) (cfg : SimConfig) (cycle : ℕ)
    (res : SimResult) : Prop where
  exitCode : res.exitCode =
    match test.verdict with
    | .pass => 0
    | .fail => 1
    | .riscofHalt =>
        if cfg.signatureOut = true ∧ (cfg.sigEnd ≤ cfg.sigStart ∨
          ramScope = false ∨ cfg.signatureOpens = false) then 1 else 0
  stdout : res.stdout = test.result.devices.sent ++
    verdictLine test.verdict test.result.devices.lastCode cycle
  signature : test.verdict = .riscofHalt → cfg.Dumps ramScope →
    0x80000000 ≤ cfg.sigStart.toNat → cfg.sigEnd.toNat ≤ 0x80040000 →
      IsAligned 4 cfg.sigStart →
        res.signature = some (signatureText
          (cfg.signatureAddrs.map (ByteMemory.word test.result.ram)))
  noSignature : ¬ (test.verdict = .riscofHalt ∧ cfg.Dumps ramScope) →
    res.signature = none

/-- A signature that is dumped has its end in the last word. -/
structure DumpsForever (ramScope : Bool) (cfg : SimConfig) : Prop where
  halts : test.verdict = .riscofHalt
  dumps : cfg.Dumps ramScope
  wraps : ¬ cfg.SignatureEnds

/-- The simulator comes to the report in a cycle. -/
structure ReportsIn (top : Top) (cycle : ℕ) (cfg : SimConfig) : Prop where
  ends : cycle < cfg.maxCycles → ¬ test.DumpsForever top.ramScope cfg →
    ∀ rounds > 2 ^ 30, ∃ res, SimMain.main rounds cfg top = some res ∧
      test.Reports top.ramScope cfg cycle res
  hangs : cycle < cfg.maxCycles → test.DumpsForever top.ramScope cfg →
    ∀ rounds, SimMain.main rounds cfg top = none
  timeout : cfg.maxCycles ≤ cycle →
    ∀ rounds, ∃ res, SimMain.main rounds cfg top = some res ∧
      res.exitCode = 2

/-- Every run that is long enough ends with the report of the test if the
signature has an end, and every other one with a timeout. -/
def Reported (top : Top) : Prop :=
  ∃ cycle, ∀ cfg : SimConfig, test.ReportsIn top cycle cfg

end Reports

section Shown

variable {p : Params} {σ : Type} {r : PlatformRun p σ} {store : ℕ → Store}
  {b : Backing} (test : b.Test p r.power.regs)
  (enableC : p.enableC = true) (enableM : p.enableM = true)
  (shows : r.Shows b store) (ramScope : Bool)
include shows

section
include enableC enableM

/-- The store is that of the hart at some time. -/
theorem moment (count n : ℕ)
    (within : occurrences r.core.completes n < count) :
    ∃ k, occurrences r.core.completes n ≤ k ∧
      (store n).contents = (test.hart k).memory :=
  Run.moment_program enableC enableM
    ⟨PlatformRun.noSingleStep, PlatformRun.noAbstractWrite, shows.backed.bus⟩
    shows.backed shows.between (test.program count) n within

/-- A verdict that shows in the store is the one that the test leaves. -/
theorem result_of_verdict {n : ℕ} {v : Verdict}
    (seen_ : (store n).devices.verdict = some v) :
    (store n).contents = test.result ∧ v = test.verdict := by
  obtain ⟨k, -, moment⟩ :=
    test.moment enableC enableM shows _ n (Nat.lt_succ_self _)
  have devices : (store n).devices = (test.hart k).memory.devices :=
    congrArg Contents.devices moment
  have reached : test.last ≤ k := by
    by_contra early
    have none := test.before k (not_le.mp early)
    rw [← devices, seen_] at none
    cases none
  have left : (test.hart k).memory = test.result := test.idles k reached
  rw [devices, left] at seen_
  exact ⟨moment.trans left, Option.some.inj (seen_.symm.trans test.shown)⟩

include test in
/-- The verdict shows at last. -/
theorem exists_seen :
    ∃ cycle, (seen (r.simTop store ramScope) cycle).isSome = true := by
  have runs := PlatformRun.runsProgram_of_backedBy r enableC enableM
    shows.backed shows.pins (test.program (test.last + 17))
  obtain ⟨n, reached, -⟩ := runs.begins (test.last + 16) (by omega)
  have late : 16 ≤ n := by
    have bound : occurrences r.core.completes n ≤ n := occurrences_le_self n
    omega
  obtain ⟨k, behind, moment⟩ :=
    test.moment enableC enableM shows (test.last + 17) n (by omega)
  have left : (test.hart k).memory = test.result :=
    test.idles k (by omega)
  have devices : (store n).devices = test.result.devices :=
    congrArg Contents.devices (moment.trans left)
  refine ⟨n + kResetCycles, ?_⟩
  rw [shows.seen _ (by omega), Nat.add_sub_cancel, devices]
  exact Option.isSome_iff_exists.mpr ⟨_, test.shown⟩

end

section Finish

variable {cfg : SimConfig} {cycle : ℕ}
  (contents : (store (cycle - kResetCycles)).contents = test.result)
include contents

/-- What the simulator prints up to a verdict over the memory of the test. -/
theorem stdout_of_contents :
    (List.range (cycle + 1)).flatMap (printed (r.simTop store ramScope)) ++
        verdictLine test.verdict
          ((r.simTop store ramScope).out cycle).tohostCode cycle =
      test.result.devices.sent ++
        verdictLine test.verdict test.result.devices.lastCode cycle := by
  have devices : (store (cycle - kResetCycles)).devices =
      test.result.devices := congrArg Contents.devices contents
  have pins := shows.pins (cycle - kResetCycles)
  have sent := (shows.printed ramScope cycle).trans pins.sent
  have code := pins.code
  rw [devices] at sent code
  have code : ((r.simTop store ramScope).out cycle).tohostCode =
      test.result.devices.lastCode := code
  rw [sent, code]

omit shows in
/-- The signature that it dumps. -/
theorem dumpSignature_of_contents (dumps : cfg.Dumps ramScope)
    (ends : cfg.SignatureEnds) {rounds : ℕ} (enough : 2 ^ 30 < rounds) :
    ∃ words, dumpSignature rounds cfg ramScope
        ((r.simTop store ramScope).ram cycle) =
          some (true, some (signatureText words)) ∧
      (0x80000000 ≤ cfg.sigStart.toNat → cfg.sigEnd.toNat ≤ 0x80040000 →
        IsAligned 4 cfg.sigStart →
          words = cfg.signatureAddrs.map
            (ByteMemory.word test.result.ram)) := by
  refine ⟨_, dumpSignature_of_ends dumps ends enough, ?_⟩
  intro low high isAligned
  rw [← contents]
  exact signatureAddrs_of_inRam low high isAligned

/-- What the simulator leaves behind it. -/
theorem reports_finish (ends : ¬ test.DumpsForever ramScope cfg) {rounds : ℕ}
    (enough : 2 ^ 30 < rounds) :
    ∃ res, finish rounds cfg (r.simTop store ramScope) cycle
        ((List.range (cycle + 1)).flatMap
          (printed (r.simTop store ramScope))) test.verdict = some res ∧
      test.Reports ramScope cfg cycle res := by
  have stdout := test.stdout_of_contents shows ramScope contents
  cases verdict : test.verdict with
  | pass | fail =>
      rw [verdict] at stdout
      refine ⟨_, rfl, ?_, ?_, ?_, fun _ => rfl⟩
      · rw [verdict]
      · rw [verdict]
        exact stdout
      · intro halts
        rw [verdict] at halts
        cases halts
  | riscofHalt =>
      rw [verdict] at stdout
      by_cases dumps : cfg.Dumps ramScope
      · have words := test.dumpSignature_of_contents ramScope contents dumps
          (not_not.mp fun wraps => ends ⟨verdict, dumps, wraps⟩) enough
        obtain ⟨words, dumped, signature⟩ := words
        refine ⟨_, congrArg (Option.map _) dumped, ?_, ?_, ?_, ?_⟩
        · have nothing := (cfg.dumps_iff dumps.given).mp dumps
          rw [verdict]
          exact (if_neg fun fails => nothing fails.2).symm
        · rw [verdict]
          exact stdout
        · intro _ _ low high isAligned
          rw [← signature low high isAligned]
        · exact fun none => absurd ⟨verdict, dumps⟩ none
      · refine ⟨_, congrArg (Option.map _) (dumpSignature_of_not_dumps dumps _),
          ?_, ?_, fun _ dumps_ => absurd dumps_ dumps, fun _ => rfl⟩
        · rw [verdict]
          cases given : cfg.signatureOut with
          | false => rfl
          | true =>
              rw [cfg.dumps_iff given, not_not] at dumps
              exact (if_pos ⟨rfl, dumps⟩).symm
        · rw [verdict]
          exact stdout

end Finish

include enableC enableM in
theorem reported_of_shows : test.Reported (r.simTop store ramScope) := by
  have exists_ := test.exists_seen enableC enableM shows ramScope
  obtain ⟨v, seen_⟩ := Option.isSome_iff_exists.mp (Nat.find_spec exists_)
  have first :
      ∀ c < Nat.find exists_, seen (r.simTop store ramScope) c = none := by
    intro c earlier
    exact Option.not_isSome_iff_eq_none.mp (Nat.find_min exists_ earlier)
  have late : Nat.find exists_ > kResetCycles + 5 := by
    by_contra early
    rw [seen, if_neg early] at seen_
    cases seen_
  have verdict := seen_
  rw [shows.seen _ late] at verdict
  obtain ⟨contents, rfl⟩ :=
    test.result_of_verdict enableC enableM shows verdict
  refine ⟨Nat.find exists_, fun cfg => ⟨?_, ?_, ?_⟩⟩
  · intro enough ends rounds many
    rw [main_of_first seen_ first enough]
    exact test.reports_finish shows ramScope contents ends many
  · intro enough forever rounds
    rw [main_of_first seen_ first enough, forever.halts]
    exact congrArg (Option.map _)
      (dumpSignature_of_wraps forever.dumps forever.wraps rounds)
  · intro early rounds
    exact main_of_early first early

end Shown

end Backing.Test

/-- With constant GPIO inputs the simulator reports every test of ordinary
instructions on both platforms, on the one with AXI-Lite at every stall
rate. -/
theorem platforms_report {p : Params} (t : Setup) (stallRate : ℤ)
    (enableC : p.enableC = true) (enableM : p.enableM = true)
    {pins : BitVec 32} (held : ∀ k, (t.pins k).gpioIn = pins)
    (test : (⟨t.rom, t.ram, pins⟩ : Backing).Test p t.power.regs) :
    test.Reported (t.corebusTop p) ∧
      test.Reported (t.axilTop p stallRate) :=
  ⟨Backing.Test.reported_of_shows (r := t.corebus p) test enableC enableM
      (Setup.corebus_shows t p held) true,
    Backing.Test.reported_of_shows (r := t.axil p stallRate) test enableC
      enableM (Setup.axil_shows t p stallRate held) false⟩

/-! ## A test that passes -/

def passing : List Parcel :=
  [.full (.base (.lui 9 0x10000)), .full (.base (.opImm .addi 8 0 1)),
    .full (.base (.store .sw 9 8 0))]

/-- Behind its verdict it jumps to itself. -/
def passingAt (k : ℕ) : Parcel := passing.getD k (.full (.base (.jal 0 0)))

def passingRom (word : BitVec 19) : BitVec 32 :=
  match word.toNat with
  | 0 => (Base.lui 9 0x10000).encode
  | 1 => (Base.opImm .addi 8 0 1).encode
  | 2 => (Base.store .sw 9 8 0).encode
  | 3 => (Base.jal 0 0).encode
  | _ => 0

def passingSetup : Setup where
  power := {}
  rom := passingRom
  ram := fun _ => 0
  mtime := 0
  pins := fun _ => {}

def passingBacking : Backing := ⟨passingSetup.rom, passingSetup.ram, 0⟩

def passingStart : Hart Contents :=
  ⟨0, fun _ => 0, (passingBacking.store []).contents⟩

def passingHart : ℕ → Hart Contents :=
  passingStart.after passingBacking.memory passingAt

theorem passing_jumps (k : ℕ) :
    passingAt (3 + k) = .full (.base (.jal 0 0)) :=
  List.getD_eq_default _ _ (Nat.le_add_right _ _)

theorem passing_stays (k : ℕ) : passingHart (3 + k) = passingHart 3 := by
  induction k with
  | zero => rfl
  | succ k inductionHypothesis =>
      have steps : passingHart (3 + (k + 1)) =
          ((passingHart (3 + k)).step passingBacking.memory
            (passingAt (3 + k))).getD (passingHart (3 + k)) := rfl
      rw [steps, inductionHypothesis, passing_jumps]
      rfl

theorem passing_executes (k : ℕ) :
    (passingHart k).Executes passingBacking.memory (passingHart (k + 1))
      (passingAt k) := by
  apply Hart.executes_after
  · show (passingAt k).LiesAt
      (passingBacking.memory.half (passingHart k).memory) (passingHart k).pc
    rcases Nat.lt_or_ge k 3 with below | behind
    · interval_cases k
      · exact ⟨rfl, rfl⟩
      · exact ⟨rfl, rfl⟩
      · exact ⟨rfl, rfl⟩
    · obtain ⟨k, rfl⟩ := Nat.exists_eq_add_of_le behind
      rw [passing_stays, passing_jumps]
      exact ⟨rfl, rfl⟩
  · show ((passingHart k).step _ (passingAt k)).isSome = true
    rcases Nat.lt_or_ge k 3 with below | behind
    · interval_cases k <;> rfl
    · obtain ⟨k, rfl⟩ := Nat.exists_eq_add_of_le behind
      rw [passing_stays, passing_jumps]
      rfl

theorem passing_accepted (k : ℕ) : (passingAt k).Accepted := by
  have every : ∀ parcel ∈ passing, Parcel.Accepted parcel := by
    simp [passing, Parcel.Accepted]
  by_cases inside : k < passing.length
  · rw [passingAt, List.getD_eq_getElem _ _ inside]
    exact every _ (List.getElem_mem inside)
  · rw [passingAt, List.getD_eq_default _ _ (by omega)]
    trivial

def passingTest : passingBacking.Test {} passingSetup.power.regs where
  hart := passingHart
  parcel := passingAt
  starts := by
    ext1
    · rfl
    · funext a
      exact (ite_self _).symm
    · rfl
  executes := passing_executes
  accepted := passing_accepted
  last := 3
  verdict := .pass
  before := by
    intro k below
    interval_cases k <;> rfl
  shown := by rfl
  idles := by
    intro k behind
    obtain ⟨k, rfl⟩ := Nat.exists_eq_add_of_le behind
    rw [passing_stays]

theorem platforms_report_passing :
    (∃ cycle, ∀ cfg : SimConfig, cycle < cfg.maxCycles →
      ∀ rounds > 2 ^ 30, ∃ res,
        SimMain.main rounds cfg (passingSetup.corebusTop {}) = some res ∧
          res.exitCode = 0 ∧ res.stdout = verdictLine .pass 1 cycle) ∧
      ∃ cycle, ∀ cfg : SimConfig, cycle < cfg.maxCycles →
        ∀ rounds > 2 ^ 30, ∃ res,
          SimMain.main rounds cfg (passingSetup.axilTop {} 25) = some res ∧
            res.exitCode = 0 ∧ res.stdout = verdictLine .pass 1 cycle := by
  obtain ⟨⟨c, corebus⟩, d, axil⟩ :=
    platforms_report passingSetup 25 rfl rfl (fun _ => rfl) passingTest
  have ends (ramScope : Bool) (cfg : SimConfig) :
      ¬ passingTest.DumpsForever ramScope cfg := by
    intro forever
    have halts : Verdict.pass = .riscofHalt := forever.halts
    cases halts
  refine ⟨⟨c, fun cfg enough rounds many => ?_⟩,
    d, fun cfg enough rounds many => ?_⟩
  · obtain ⟨res, exits, reports⟩ :=
      (corebus cfg).ends enough (ends _ cfg) rounds many
    exact ⟨res, exits, reports.exitCode, reports.stdout⟩
  · obtain ⟨res, exits, reports⟩ :=
      (axil cfg).ends enough (ends _ cfg) rounds many
    exact ⟨res, exits, reports.exitCode, reports.stdout⟩

end SisRv
