import SisRv.Lib.HexText
import SisRv.Rtl.PlatformTop

/-!
# The simulator

`tb/verilator/main.cpp` clocks the platform until the test port shows a
verdict, prints what the UART sends and dumps the signature of a test.
-/

namespace SisRv.SimMain

open HexText

def kRamBase : BitVec 32 := 0x80000000

def kRiscofHalt : BitVec 32 := 3

def kResetCycles : ℕ := 10

/-- The options that the clock loop reads.  Without a file name for the
signature none is dumped; its file may be impossible to open. -/
structure SimConfig where
  signatureOut : Bool
  signatureOpens : Bool
  sigStart : BitVec 32
  sigEnd : BitVec 32
  maxCycles : ℕ

/-- What the loop reads of the design behind the clock edge of each cycle, and
whether the RAM is at a place where `ensure_dpi_ram_scope` looks for it. -/
structure Top where
  out : ℕ → PlatformOut
  ram : ℕ → BitVec 16 → BitVec 32
  ramScope : Bool

/-- What is left when the simulator exits. -/
structure SimResult where
  exitCode : ℕ
  stdout : List (BitVec 8)
  signature : Option (List Char)

/-! ## The signature -/

/-- `dpi_sisrv_ram_read_word`. -/
def ramReadWord (ram : BitVec 16 → BitVec 32) (wordIdx : BitVec 32) :
    BitVec 32 :=
  if wordIdx.toNat < 65536 then ram (wordIdx.setWidth 16) else 0

def readRamWord (ram : BitVec 16 → BitVec 32) (physAddr : BitVec 32) :
    BitVec 32 :=
  if physAddr < kRamBase then 0
  else ramReadWord ram ((physAddr - kRamBase) >>> 2)

/-- The words from an address on, which wraps.  The loop is given the number of
rounds that it may take. -/
def signatureWords (sigEnd : BitVec 32) (read : BitVec 32 → BitVec 32) :
    ℕ → BitVec 32 → Option (List (BitVec 32))
  | 0, _ => none
  | rounds + 1, addr =>
      if addr < sigEnd then
        (signatureWords sigEnd read rounds (addr + 4)).map (read addr :: ·)
      else some []

/-- One word a line. -/
def signatureText (words : List (BitVec 32)) : List Char :=
  words.flatMap fun word => hexDigits 8 word.toNat ++ ['\n']

/-- The success of the dump, and the file. -/
def dumpSignature (rounds : ℕ) (cfg : SimConfig) (ramScope : Bool)
    (ram : BitVec 16 → BitVec 32) : Option (Bool × Option (List Char)) :=
  if !cfg.signatureOut then some (true, none)
  else if cfg.sigEnd ≤ cfg.sigStart then some (false, none)
  else if !ramScope then some (false, none)
  else if !cfg.signatureOpens then some (false, none)
  else
    (signatureWords cfg.sigEnd (readRamWord ram) rounds cfg.sigStart).map
      fun words => (true, some (signatureText words))

/-! ### The end of the dump -/

namespace SimConfig

variable (cfg : SimConfig)

/-- The addresses from the start to the end. -/
def signatureAddrs : List (BitVec 32) :=
  (List.range ((cfg.sigEnd.toNat - cfg.sigStart.toNat + 3) / 4)).map
    fun k => cfg.sigStart + BitVec.ofNat 32 (4 * k)

/-- There is an address that is not below the end. -/
def SignatureEnds : Prop :=
  cfg.sigEnd.toNat ≤ 0xFFFFFFFC + cfg.sigStart.toNat % 4

/-- A signature is requested and there is nothing that keeps the simulator from
dumping it. -/
structure Dumps (ramScope : Bool) : Prop where
  given : cfg.signatureOut = true
  nonempty : cfg.sigStart < cfg.sigEnd
  found : ramScope = true
  opens : cfg.signatureOpens = true

/-- What keeps it from dumping one that is requested. -/
theorem dumps_iff {ramScope : Bool} (given : cfg.signatureOut = true) :
    cfg.Dumps ramScope ↔ ¬ (cfg.sigEnd ≤ cfg.sigStart ∨ ramScope = false ∨
      cfg.signatureOpens = false) := by
  rw [not_or, not_or, BitVec.not_le, Bool.not_eq_false, Bool.not_eq_false]
  constructor
  · intro dumps
    exact ⟨dumps.nonempty, dumps.found, dumps.opens⟩
  · rintro ⟨nonempty, found, opens⟩
    exact ⟨given, nonempty, found, opens⟩

end SimConfig

section Dump

variable {sigEnd : BitVec 32} {read : BitVec 32 → BitVec 32}

theorem signatureWords_of_count {count rounds : ℕ} {addr : BitVec 32}
    (below : ∀ k < count, addr.toNat + 4 * k < sigEnd.toNat)
    (last : sigEnd.toNat ≤ addr.toNat + 4 * count)
    (fits : addr.toNat + 4 * count < 2 ^ 32) (enough : count < rounds) :
    signatureWords sigEnd read rounds addr =
      some ((List.range count).map
        fun k => read (addr + BitVec.ofNat 32 (4 * k))) := by
  induction count generalizing rounds addr with
  | zero =>
      obtain ⟨rounds, rfl⟩ : ∃ n, rounds = n + 1 := ⟨rounds - 1, by omega⟩
      rw [signatureWords, if_neg (by rw [BitVec.lt_def]; omega)]
      rfl
  | succ count inductionHypothesis =>
      obtain ⟨rounds, rfl⟩ : ∃ n, rounds = n + 1 := ⟨rounds - 1, by omega⟩
      have inside := below 0 (Nat.succ_pos count)
      have next : (addr + 4).toNat = addr.toNat + 4 := by
        rw [BitVec.toNat_add]
        show (addr.toNat + 4) % 2 ^ 32 = _
        exact Nat.mod_eq_of_lt (by omega)
      have rest : signatureWords sigEnd read rounds (addr + 4) =
          some ((List.range count).map
            fun k => read (addr + 4 + BitVec.ofNat 32 (4 * k))) := by
        refine inductionHypothesis (fun k small => ?_) (by omega) (by omega)
          (by omega)
        have earlier := below (k + 1) (by omega)
        omega
      rw [signatureWords, if_pos (by rw [BitVec.lt_def]; omega), rest,
        List.range_succ_eq_map, List.map_cons, List.map_map, Option.map_some]
      congr 2
      · simp
      · refine List.map_congr_left fun k _ => ?_
        have moved : addr + 4 + BitVec.ofNat 32 (4 * k) =
            addr + BitVec.ofNat 32 (4 * (k + 1)) := by
          rw [Nat.mul_succ, Nat.add_comm (4 * k) 4, BitVec.ofNat_add,
            BitVec.add_assoc]
          rfl
        exact congrArg read moved

/-- Without an address that is not below the end the loop goes on forever. -/
theorem signatureWords_of_wraps {addr : BitVec 32}
    (wraps : 0xFFFFFFFC + addr.toNat % 4 < sigEnd.toNat) (rounds : ℕ) :
    signatureWords sigEnd read rounds addr = none := by
  induction rounds generalizing addr with
  | zero => rfl
  | succ rounds inductionHypothesis =>
      have bound := addr.isLt
      have next : (addr + 4).toNat % 4 = addr.toNat % 4 := by
        rw [BitVec.toNat_add]
        show (addr.toNat + 4) % 2 ^ 32 % 4 = _
        omega
      rw [signatureWords, if_pos (by rw [BitVec.lt_def]; omega),
        inductionHypothesis (by rw [next]; exact wraps)]
      rfl

variable {cfg : SimConfig} {ramScope : Bool} {ram : BitVec 16 → BitVec 32}

theorem dumpSignature_of_dumps (dumps : cfg.Dumps ramScope) (rounds : ℕ) :
    dumpSignature rounds cfg ramScope ram =
      (signatureWords cfg.sigEnd (readRamWord ram) rounds cfg.sigStart).map
        fun words => (true, some (signatureText words)) := by
  simp [dumpSignature, dumps.given, dumps.found, dumps.opens,
    BitVec.not_le.mpr dumps.nonempty]

/-- A signature that ends takes at most `2 ^ 30` words. -/
theorem dumpSignature_of_ends (dumps : cfg.Dumps ramScope)
    (ends : cfg.SignatureEnds) {rounds : ℕ} (enough : 2 ^ 30 < rounds) :
    dumpSignature rounds cfg ramScope ram =
      some (true, some (signatureText
        (cfg.signatureAddrs.map (readRamWord ram)))) := by
  have nonempty := dumps.nonempty
  have bound := cfg.sigEnd.isLt
  rw [BitVec.lt_def] at nonempty
  rw [SimConfig.SignatureEnds] at ends
  rw [dumpSignature_of_dumps dumps, signatureWords_of_count
    (fun k below => by omega) (by omega) (by omega)
    (show (cfg.sigEnd.toNat - cfg.sigStart.toNat + 3) / 4 < rounds by omega),
    SimConfig.signatureAddrs, List.map_map]
  rfl

theorem dumpSignature_of_wraps (dumps : cfg.Dumps ramScope)
    (wraps : ¬ cfg.SignatureEnds) (rounds : ℕ) :
    dumpSignature rounds cfg ramScope ram = none := by
  rw [SimConfig.SignatureEnds, not_le] at wraps
  rw [dumpSignature_of_dumps dumps, signatureWords_of_wraps wraps]
  rfl

/-- Otherwise it fails if a signature is requested. -/
theorem dumpSignature_of_not_dumps (fails : ¬ cfg.Dumps ramScope)
    (rounds : ℕ) :
    dumpSignature rounds cfg ramScope ram =
      some (!cfg.signatureOut, none) := by
  cases given : cfg.signatureOut with
  | false => simp [dumpSignature, given]
  | true =>
      rw [cfg.dumps_iff given, not_not] at fails
      rcases fails with empty | notFound | notOpened
      · simp [dumpSignature, given, empty]
      · simp [dumpSignature, given, notFound]
      · simp [dumpSignature, given, notOpened]

end Dump

/-! ## The clock loop -/

inductive Verdict
  | pass
  | fail
  | riscofHalt
  deriving DecidableEq, Repr

/-- What the test port shows. -/
def verdict (pass fail : Bool) (code : BitVec 32) : Option Verdict :=
  if pass then some .pass
  else if fail then some .fail
  else if code = kRiscofHalt then some .riscofHalt
  else none

def Verdict.name : Verdict → String
  | pass => "PASS"
  | fail => "FAIL"
  | riscofHalt => "RISCOF HALT"

def ascii (text : String) : List (BitVec 8) :=
  text.toList.map fun c => BitVec.ofNat 8 c.toNat

/-- The line that is printed in the end. -/
def verdictLine (v : Verdict) (code : BitVec 32) (cycle : ℕ) :
    List (BitVec 8) :=
  ascii ("*** " ++ v.name ++ " *** (tohost=0x" ++
    String.ofList (hexDigits 8 code.toNat) ++ ") at cycle " ++
    toString cycle ++ "\n")

section Loop

variable (rounds : ℕ) (cfg : SimConfig) (top : Top)

/-- What the UART makes the loop print in a cycle. -/
def printed (cycle : ℕ) : List (BitVec 8) :=
  if (top.out cycle).uartTxValid then [(top.out cycle).uartTxData] else []

/-- The verdict is looked at some cycles after the reset. -/
def seen (cycle : ℕ) : Option Verdict :=
  if cycle > kResetCycles + 5 then
    verdict (top.out cycle).tohostPass (top.out cycle).tohostFail
      (top.out cycle).tohostCode
  else none

/-- The end of the simulation, if the dump of the signature comes to an end. -/
def finish (cycle : ℕ) (stdout : List (BitVec 8)) (v : Verdict) :
    Option SimResult :=
  let stdout := stdout ++ verdictLine v (top.out cycle).tohostCode cycle
  match v with
  | .pass => some ⟨0, stdout, none⟩
  | .fail => some ⟨1, stdout, none⟩
  | .riscofHalt =>
      (dumpSignature rounds cfg top.ramScope (top.ram cycle)).map
        fun dump => ⟨if dump.1 then 0 else 1, stdout, dump.2⟩

/-- The loop from a cycle on, with the number of cycles that are left. -/
def clockLoop : ℕ → ℕ → List (BitVec 8) → Option SimResult
  | 0, _, stdout => some ⟨2, stdout, none⟩
  | left + 1, cycle, stdout =>
      let stdout := stdout ++ printed top cycle
      match seen top cycle with
      | some v => finish rounds cfg top cycle stdout v
      | none => clockLoop left (cycle + 1) stdout

def main : Option SimResult := clockLoop rounds cfg top cfg.maxCycles 0 []

variable {rounds cfg top} {last : ℕ} {v : Verdict}

/-- The loop ends in the first cycle in which it sees a verdict. -/
theorem clockLoop_of_first (shows : seen top last = some v)
    (first : ∀ c < last, seen top c = none) (left cycle : ℕ)
    (before : cycle ≤ last) (enough : last < cycle + left) :
    clockLoop rounds cfg top left cycle
        ((List.range cycle).flatMap (printed top)) =
      finish rounds cfg top last
        ((List.range (last + 1)).flatMap (printed top)) v := by
  induction left generalizing cycle with
  | zero => omega
  | succ left inductionHypothesis =>
      have text : (List.range cycle).flatMap (printed top) ++
          printed top cycle =
            (List.range (cycle + 1)).flatMap (printed top) := by
        rw [List.range_succ, List.flatMap_append, List.flatMap_singleton]
      rw [clockLoop, text]
      rcases Nat.eq_or_lt_of_le before with rfl | earlier
      · rw [shows]
      · rw [first cycle earlier]
        exact inductionHypothesis (cycle + 1) earlier (by omega)

theorem main_of_first (shows : seen top last = some v)
    (first : ∀ c < last, seen top c = none)
    (enough : last < cfg.maxCycles) :
    main rounds cfg top =
      finish rounds cfg top last
        ((List.range (last + 1)).flatMap (printed top)) v :=
  clockLoop_of_first shows first cfg.maxCycles 0 (Nat.zero_le _) (by omega)

/-- The loop gives up before it. -/
theorem clockLoop_of_early (first : ∀ c < last, seen top c = none)
    (left cycle : ℕ) (stdout : List (BitVec 8)) (early : cycle + left ≤ last) :
    ∃ res, clockLoop rounds cfg top left cycle stdout = some res ∧
      res.exitCode = 2 := by
  induction left generalizing cycle stdout with
  | zero => exact ⟨_, rfl, rfl⟩
  | succ left inductionHypothesis =>
      rw [clockLoop, first cycle (by omega)]
      exact inductionHypothesis (cycle + 1) _ (by omega)

theorem main_of_early (first : ∀ c < last, seen top c = none)
    (early : cfg.maxCycles ≤ last) :
    ∃ res, main rounds cfg top = some res ∧ res.exitCode = 2 :=
  clockLoop_of_early first cfg.maxCycles 0 [] (by omega)

end Loop

end SisRv.SimMain
