import SisRv.Tools.Elf2sisrv
import Mathlib.Tactic.Ring

/-!
# Images of well-formed files

What an ELF file says about the memory of its program, and that the hex files
of the converter say the same.
-/

namespace SisRv.Elf2sisrv

open HexText

/-! ## ELF files -/

/-- Where the two classes of files have their fields. -/
structure Layout where
  headerSize : ℕ
  entrySize : ℕ
  wordSize : ℕ
  phoff : ℕ
  phentsize : ℕ
  phnum : ℕ
  offset : ℕ
  vaddr : ℕ
  filesz : ℕ

namespace Layout

def elf32 : Layout := ⟨52, 32, 4, 0x1C, 0x2A, 0x2C, 4, 8, 16⟩

def elf64 : Layout := ⟨64, 56, 8, 0x20, 0x36, 0x38, 8, 16, 32⟩

end Layout

/-- A loadable segment: its place in the file and in the memory. -/
structure Segment where
  offset : ℕ
  vaddr : ℕ
  filesz : ℕ
  deriving DecidableEq

section File

variable (data : Bytes)

def layout : Layout := if data[4]? = some 1 then .elf32 else .elf64

def phoff : ℕ := number data (layout data).phoff (layout data).wordSize

def phentsize : ℕ := number data (layout data).phentsize 2

def phnum : ℕ := number data (layout data).phnum 2

/-- The place of a program header. -/
def entry (idx : ℕ) : ℕ := phoff data + idx * phentsize data

/-- The header is of type `PT_LOAD`. -/
def isLoad (idx : ℕ) : Bool := number data (entry data idx) 4 == 1

def segment (idx : ℕ) : Segment where
  offset :=
    number data (entry data idx + (layout data).offset) (layout data).wordSize
  vaddr :=
    number data (entry data idx + (layout data).vaddr) (layout data).wordSize
  filesz :=
    number data (entry data idx + (layout data).filesz) (layout data).wordSize

/-- The loadable ones among the first program headers. -/
def loadsBefore (n : ℕ) : List Segment :=
  ((List.range n).filter (isLoad data)).map (segment data)

/-- The `PT_LOAD` segments in the order of their headers. -/
def loads : List Segment := loadsBefore data (phnum data)

/-- The byte that a segment has for an address. -/
def fileByte (s : Segment) (a : ℕ) : Option (BitVec 8) :=
  if s.vaddr ≤ a ∧ a < s.vaddr + s.filesz then
    data[s.offset + (a - s.vaddr)]?
  else none

/-- The byte of the last of some segments that covers an address. -/
def lastByte (segments : List Segment) (a : ℕ) : Option (BitVec 8) :=
  segments.reverse.findSome? fun s => fileByte data s a

/-- The byte of the program at an address. -/
def programByte (a : ℕ) : Option (BitVec 8) := lastByte data (loads data) a

/-- A little-endian RISC-V file with its headers and segments inside. -/
structure WellFormed : Prop where
  magic : data.take 4 = [0x7F, 0x45, 0x4C, 0x46]
  elfClass : data[4]? = some 1 ∨ data[4]? = some 2
  littleEndian : data[5]? = some 1
  machine : number data 0x12 2 = 243
  header : (layout data).headerSize ≤ data.length
  entries : phnum data ≠ 0 → (layout data).entrySize ≤ phentsize data
  table : phoff data + phnum data * phentsize data ≤ data.length
  inside : ∀ s ∈ loads data, s.offset + s.filesz ≤ data.length

/-- The segments lie in the 32-bit map. -/
def InMap : Prop :=
  ∀ s ∈ loads data, s.vaddr < 2 ^ 32 ∧ s.vaddr + s.filesz ≤ 2 ^ 32

/-! ## Images -/

/-- The byte at a distance from the first word. -/
def loadedByte (words : List ℕ) (distance : ℕ) : ℕ :=
  words.getD (distance / 4) 0 / 256 ^ (distance % 4) % 256

/-- The words of a hex file, loaded from `base` on, are the bytes of the
program below `limit`, up to the last word with one. -/
structure Image (text : String) (base limit : ℕ) (words : List ℕ) : Prop where
  reads : readmemh text = some words
  small : ∀ word ∈ words, word < 2 ^ 32
  bytes : ∀ a, base ≤ a → a < base + 4 * words.length →
    loadedByte words (a - base) = ((programByte data a).getD 0).toNat
  whole : ∀ a, base ≤ a → a < limit → programByte data a ≠ none →
    a < base + 4 * words.length
  within : base + 4 * words.length ≤ limit
  tight : words ≠ [] → ∃ a, base + 4 * (words.length - 1) ≤ a ∧
    a < base + 4 * words.length ∧ programByte data a ≠ none

/-- The conversion succeeds, and the two hex files are the images of the ROM
and of the RAM. -/
def Preserves (elfPath : String) : Prop :=
  ∃ romHex ramHex, main elfPath data = .ok (romHex, ramHex) ∧
    (∃ words, Image data romHex 0 0x80000000 words) ∧
    ∃ words, Image data ramHex 0x80000000 (2 ^ 32) words

end File

/-! ## Reading -/

section Reading

variable {data : Bytes}

theorem unpackFrom_ok {size off : ℕ} (inside : off + size ≤ data.length) :
    unpackFrom size data off = .ok (number data off size) :=
  if_pos inside

theorem byteAt_ok {off : ℕ} {byte : BitVec 8} (at' : data[off]? = some byte) :
    byteAt data off = .ok byte := by
  rw [byteAt, at']

/-- All the fields of a header in the table can be read. -/
theorem WellFormed.entry_inside (wellFormed : WellFormed data) {idx : ℕ}
    (before : idx < phnum data) :
    entry data idx + (layout data).entrySize ≤ data.length := by
  have long := wellFormed.entries (by omega)
  have table := wellFormed.table
  have row : (idx + 1) * phentsize data ≤ phnum data * phentsize data :=
    Nat.mul_le_mul_right _ before
  rw [Nat.add_mul, Nat.one_mul] at row
  unfold entry
  omega

end Reading

/-! ## Loading -/

/-- The two dictionaries hold a memory, each its region. -/
def Dicts.Holds (d : Dicts) (memory : ℕ → Option (BitVec 8)) : Prop :=
  ∀ a, d.rom[a]? = (if a < ramBase then memory a else none) ∧
    d.ram[a]? = if a < ramBase then none else memory a

namespace Dicts.Holds

variable {d : Dicts} {memory memory' : ℕ → Option (BitVec 8)}

theorem empty : Dicts.Holds ⟨∅, ∅⟩ fun _ => none := by
  intro a
  simp

theorem congr (holds : d.Holds memory) (same : ∀ a, memory a = memory' a) :
    d.Holds memory' := by
  rw [← funext same]
  exact holds

theorem store (holds : d.Holds memory) (addr : ℕ) (byteVal : BitVec 8) :
    (d.store addr byteVal).Holds
      fun a => if addr = a then some byteVal else memory a := by
  intro a
  beta_reduce
  obtain ⟨rom, ram⟩ := holds a
  have base : addr ≥ romBase := Nat.zero_le addr
  unfold Dicts.store
  by_cases high : addr ≥ ramBase
  · rw [if_pos high]
    refine ⟨?_, ?_⟩
    · rw [rom]
      by_cases same : addr = a
      · rw [if_neg (by omega), if_neg (by omega)]
      · rw [if_neg same]
    · change (d.ram.insert addr byteVal)[a]? = _
      rw [Std.TreeMap.getElem?_insert, ram]
      by_cases same : addr = a
      · subst same
        rw [if_pos (by simp), if_neg (by omega), if_pos rfl]
      · rw [if_neg (by simpa using same), if_neg same]
  · rw [if_neg high, if_pos base]
    refine ⟨?_, ?_⟩
    · change (d.rom.insert addr byteVal)[a]? = _
      rw [Std.TreeMap.getElem?_insert, rom]
      by_cases same : addr = a
      · subst same
        rw [if_pos (by simp), if_pos (by omega), if_pos rfl]
      · rw [if_neg (by simpa using same), if_neg same]
    · rw [ram]
      by_cases same : addr = a
      · rw [if_pos (by omega), if_pos (by omega)]
      · rw [if_neg same]

/-- The bytes of a segment are stored one after the other. -/
theorem storeAll (holds : d.Holds memory) (base k : ℕ)
    (segment : List (BitVec 8)) :
    ((segment.zipIdx k).foldl
      (fun d byte => d.store (base + byte.2) byte.1) d).Holds
        fun a => (if base + k ≤ a then segment[a - (base + k)]?
          else none).or (memory a) := by
  induction segment generalizing d memory k with
  | nil =>
      refine holds.congr fun a => ?_
      simp
  | cons byteVal rest inductionHypothesis =>
      rw [List.zipIdx_cons, List.foldl_cons]
      refine (inductionHypothesis (holds.store (base + k) byteVal)
        (k + 1)).congr fun a => ?_
      by_cases here : base + k = a
      · subst here
        simp
      · rw [if_neg here]
        by_cases above : base + k ≤ a
        · have later : a - (base + k) = a - (base + (k + 1)) + 1 := by omega
          rw [if_pos above, if_pos (by omega), later,
            List.getElem?_cons_succ]
        · rw [if_neg above, if_neg (by omega)]

theorem loadBytes (holds : d.Holds memory) (data : Bytes) (s : Segment) :
    (d.loadBytes data s.offset s.vaddr s.filesz).Holds
      fun a => (fileByte data s a).or (memory a) := by
  refine (holds.storeAll s.vaddr 0 _).congr fun a => ?_
  congr 1
  unfold fileByte
  by_cases above : s.vaddr ≤ a
  · rw [Nat.add_zero, if_pos above, List.getElem?_take, List.getElem?_drop]
    exact if_congr (by omega) rfl rfl
  · rw [Nat.add_zero, if_neg above, if_neg fun both => above both.1]

end Dicts.Holds

theorem lastByte_concat (data : Bytes) (segments : List Segment)
    (s : Segment) (a : ℕ) :
    lastByte data (segments ++ [s]) a =
      (fileByte data s a).or (lastByte data segments a) := by
  simp only [lastByte, List.reverse_append, List.reverse_singleton,
    List.singleton_append, List.findSome?_cons]
  cases fileByte data s a <;> rfl

theorem loadsBefore_succ (data : Bytes) (n : ℕ) :
    loadsBefore data (n + 1) = loadsBefore data n ++
      if isLoad data n then [segment data n] else [] := by
  unfold loadsBefore
  rw [List.range_succ, List.filter_append, List.map_append,
    List.filter_singleton]
  cases isLoad data n <;> rfl

/-- What a program header adds. -/
def Dicts.header (d : Dicts) (data : Bytes) (idx : ℕ) : Dicts :=
  if isLoad data idx then
    d.loadBytes data (segment data idx).offset (segment data idx).vaddr
      (segment data idx).filesz
  else d

theorem Dicts.Holds.header {d : Dicts} {data : Bytes} {n : ℕ}
    (holds : d.Holds (lastByte data (loadsBefore data n))) :
    (d.header data n).Holds (lastByte data (loadsBefore data (n + 1))) := by
  rw [Dicts.header, loadsBefore_succ]
  by_cases load : isLoad data n = true
  · rw [if_pos load, if_pos load]
    refine (holds.loadBytes data (segment data n)).congr fun a => ?_
    rw [lastByte_concat]
  · rw [if_neg load, if_neg load, List.append_nil]
    exact holds

/-- After some rounds the dictionaries hold the segments so far. -/
theorem holds_range {data : Bytes}
    {load : Dicts → ℕ → Except PyError Dicts}
    (loads : ∀ d idx, idx < phnum data →
      load d idx = .ok (d.header data idx))
    {n : ℕ} (before : n ≤ phnum data) :
    ∃ d, (List.range n).foldlM load ⟨∅, ∅⟩ = .ok d ∧
      d.Holds (lastByte data (loadsBefore data n)) := by
  induction n with
  | zero => exact ⟨_, rfl, Dicts.Holds.empty⟩
  | succ n inductionHypothesis =>
      obtain ⟨d, folds, holds⟩ := inductionHypothesis (by omega)
      refine ⟨d.header data n, ?_, holds.header⟩
      rw [List.range_succ, List.foldlM_append, folds]
      change List.foldlM load d [n] = _
      rw [List.foldlM_cons, loads d n (by omega)]
      rfl

section Headers

variable {data : Bytes} (wellFormed : WellFormed data)

include wellFormed

theorem loadHeader32_eq (class32 : layout data = .elf32) (d : Dicts)
    {idx : ℕ} (before : idx < phnum data) :
    loadHeader32 data (phoff data) (phentsize data) d idx =
      .ok (d.header data idx) := by
  have inside := wellFormed.entry_inside before
  rw [class32] at inside
  have word (k : ℕ) (fits : k + 4 ≤ 32) :
      readU32 data (phoff data + idx * phentsize data + k) =
        .ok (number data (entry data idx + k) 4) :=
    unpackFrom_ok (Nat.le_trans (Nat.add_le_add_left fits _) inside)
  have type := word 0 (by decide)
  rw [Nat.add_zero, Nat.add_zero] at type
  simp only [loadHeader32, type, word 4 (by decide), word 8 (by decide),
    word 16 (by decide)]
  by_cases load : isLoad data idx = true
  · have loads : number data (entry data idx) 4 = ptLoad :=
      beq_iff_eq.mp load
    rw [Dicts.header, if_pos load, segment, class32, loads]
    rfl
  · have other : number data (entry data idx) 4 ≠ ptLoad :=
      fun loads => load (beq_iff_eq.mpr loads)
    rw [Dicts.header, if_neg load]
    dsimp only [bind, Except.bind]
    rw [if_pos other]
    rfl

/-- A loadable header of a 64-bit file is checked before it is loaded. -/
theorem loadHeader64_of_load (elfPath : String)
    (class64 : layout data = .elf64) (d : Dicts) {idx : ℕ}
    (before : idx < phnum data) (load : isLoad data idx = true) :
    loadHeader64 elfPath data (phoff data) (phentsize data) d idx =
      if (segment data idx).vaddr > 0xFFFFFFFF ∨
          (segment data idx).filesz > 0xFFFFFFFF then
        .error (.valueError
          (elfPath ++ ": segment address/size exceeds RV32 map"))
      else .ok (d.header data idx) := by
  have inside := wellFormed.entry_inside before
  rw [class64] at inside
  have type : readU32 data (phoff data + idx * phentsize data) =
      .ok (number data (entry data idx) 4) :=
    unpackFrom_ok
      (Nat.le_trans (Nat.add_le_add_left (by decide : 4 ≤ 56) _) inside)
  have word (k : ℕ) (fits : k + 8 ≤ 56) :
      readU64 data (phoff data + idx * phentsize data + k) =
        .ok (number data (entry data idx + k) 8) :=
    unpackFrom_ok (Nat.le_trans (Nat.add_le_add_left fits _) inside)
  have loads : number data (entry data idx) 4 = ptLoad :=
    beq_iff_eq.mp load
  have fields : segment data idx =
      ⟨number data (entry data idx + 8) 8,
        number data (entry data idx + 16) 8,
        number data (entry data idx + 32) 8⟩ := by
    rw [segment, class64]
    rfl
  simp only [loadHeader64, type, word 8 (by decide), word 16 (by decide),
    word 32 (by decide), loads]
  rw [Dicts.header, if_pos load, fields]
  change (if _ > 0xFFFFFFFF ∨ _ > 0xFFFFFFFF then _ else _) = _
  dsimp only
  split_ifs <;> rfl

theorem loadHeader64_of_other (elfPath : String)
    (class64 : layout data = .elf64) (d : Dicts) {idx : ℕ}
    (before : idx < phnum data) (other : isLoad data idx ≠ true) :
    loadHeader64 elfPath data (phoff data) (phentsize data) d idx =
      .ok (d.header data idx) := by
  have inside := wellFormed.entry_inside before
  rw [class64] at inside
  have type : readU32 data (phoff data + idx * phentsize data) =
      .ok (number data (entry data idx) 4) :=
    unpackFrom_ok
      (Nat.le_trans (Nat.add_le_add_left (by decide : 4 ≤ 56) _) inside)
  have skips : number data (entry data idx) 4 ≠ ptLoad :=
    fun loads => other (beq_iff_eq.mpr loads)
  simp only [loadHeader64, type]
  rw [Dicts.header, if_neg other]
  dsimp only [bind, Except.bind]
  rw [if_pos skips]
  rfl

theorem loadHeader64_eq (elfPath : String)
    (class64 : layout data = .elf64) (inMap : InMap data)
    (sizes : ∀ s ∈ loads data, s.filesz ≤ 0xFFFFFFFF) (d : Dicts)
    {idx : ℕ} (before : idx < phnum data) :
    loadHeader64 elfPath data (phoff data) (phentsize data) d idx =
      .ok (d.header data idx) := by
  by_cases load : isLoad data idx = true
  · have member : segment data idx ∈ loads data :=
      List.mem_map.mpr ⟨idx, List.mem_filter.mpr
        ⟨List.mem_range.mpr before, load⟩, rfl⟩
    have low := (inMap _ member).1
    have short := sizes _ member
    rw [loadHeader64_of_load wellFormed elfPath class64 d before load,
      if_neg (by omega)]
  · exact loadHeader64_of_other wellFormed elfPath class64 d before load

theorem layout_cases :
    data[4]? = some elfClass32 ∧ layout data = .elf32 ∨
      data[4]? = some elfClass64 ∧ layout data = .elf64 := by
  unfold layout
  rcases wellFormed.elfClass with class32 | class64
  · exact Or.inl ⟨class32, if_pos class32⟩
  · refine Or.inr ⟨class64, if_neg ?_⟩
    rw [class64]
    decide

/-- The header of a well-formed 32-bit file passes the checks. -/
theorem loadSegments_of_elf32 (elfPath : String)
    (byte : data[4]? = some elfClass32) (class32 : layout data = .elf32) :
    loadSegments elfPath data = (List.range (phnum data)).foldlM
      (loadHeader32 data (phoff data) (phentsize data)) ⟨∅, ∅⟩ := by
  have long := wellFormed.header
  rw [class32] at long
  have field (off size : ℕ) (fits : off + size ≤ 52) :
      unpackFrom size data off = .ok (number data off size) :=
    unpackFrom_ok (Nat.le_trans fits long)
  have machine : readU16 data 0x12 = .ok emRiscv :=
    (field 0x12 2 (by decide)).trans (congrArg Except.ok wellFormed.machine)
  have phoff' : readU32 data 0x1C = .ok (phoff data) := by
    rw [phoff, class32]
    exact field 0x1C 4 (by decide)
  have phentsize' : readU16 data 0x2A = .ok (phentsize data) := by
    rw [phentsize, class32]
    exact field 0x2A 2 (by decide)
  have phnum' : readU16 data 0x2C = .ok (phnum data) := by
    rw [phnum, class32]
    exact field 0x2C 2 (by decide)
  rw [loadSegments, if_neg (not_not.mpr wellFormed.magic), byteAt_ok byte,
    machine, phoff', phentsize', phnum']
  rfl

/-- The header of a well-formed 64-bit file passes the checks. -/
theorem loadSegments_of_elf64 (elfPath : String)
    (byte : data[4]? = some elfClass64) (class64 : layout data = .elf64) :
    loadSegments elfPath data = (List.range (phnum data)).foldlM
      (loadHeader64 elfPath data (phoff data) (phentsize data)) ⟨∅, ∅⟩ := by
  have long := wellFormed.header
  rw [class64] at long
  have field (off size : ℕ) (fits : off + size ≤ 64) :
      unpackFrom size data off = .ok (number data off size) :=
    unpackFrom_ok (Nat.le_trans fits long)
  have machine : readU16 data 0x12 = .ok emRiscv :=
    (field 0x12 2 (by decide)).trans (congrArg Except.ok wellFormed.machine)
  have phoff' : readU64 data 0x20 = .ok (phoff data) := by
    rw [phoff, class64]
    exact field 0x20 8 (by decide)
  have phentsize' : readU16 data 0x36 = .ok (phentsize data) := by
    rw [phentsize, class64]
    exact field 0x36 2 (by decide)
  have phnum' : readU16 data 0x38 = .ok (phnum data) := by
    rw [phnum, class64]
    exact field 0x38 2 (by decide)
  rw [loadSegments, if_neg (not_not.mpr wellFormed.magic), byteAt_ok byte,
    machine, phoff', phentsize', phnum']
  rfl

/-- A well-formed file is loaded. -/
theorem loadSegments_ok (elfPath : String) (inMap : InMap data)
    (sizes : ∀ s ∈ loads data, s.filesz ≤ 0xFFFFFFFF) :
    ∃ d, loadSegments elfPath data = .ok d ∧
      d.Holds (programByte data) := by
  rcases layout_cases wellFormed with ⟨byte, class32⟩ | ⟨byte, class64⟩
  · rw [loadSegments_of_elf32 wellFormed elfPath byte class32]
    exact holds_range
      (fun d _ before => loadHeader32_eq wellFormed class32 d before)
      (Nat.le_refl (phnum data))
  · rw [loadSegments_of_elf64 wellFormed elfPath byte class64]
    exact holds_range
      (fun d _ before =>
        loadHeader64_eq wellFormed elfPath class64 inMap sizes d before)
      (Nat.le_refl (phnum data))

end Headers

/-! ## Hex files -/

@[simp]
theorem wordAlign_eq (addr : ℕ) : wordAlign addr = addr / 4 * 4 := by
  rw [wordAlign, Nat.shiftRight_eq_div_pow, Nat.shiftLeft_eq]

/-- Bytes that are shifted into their lanes add up. -/
theorem or_lanes (zero one two three : BitVec 8) :
    (((0 ||| zero.toNat <<< 0) ||| one.toNat <<< 8) |||
      two.toNat <<< 16) ||| three.toNat <<< 24 =
        zero.toNat + 256 * one.toNat + 256 ^ 2 * two.toNat +
          256 ^ 3 * three.toNat := by
  have join (hi : ℕ) {lo k : ℕ} (below : lo < 2 ^ k) :
      lo ||| hi <<< k = lo + 2 ^ k * hi := by
    rw [Nat.or_comm, ← Nat.shiftLeft_add_eq_or_of_lt below,
      Nat.shiftLeft_eq, Nat.mul_comm, Nat.add_comm]
  have low : 0 ||| zero.toNat <<< 0 = zero.toNat := by simp
  have half : zero.toNat + 2 ^ 8 * one.toNat < 2 ^ 16 := by omega
  have rest : zero.toNat + 2 ^ 8 * one.toNat + 2 ^ 16 * two.toNat <
      2 ^ 24 := by omega
  rw [low, join _ zero.isLt, join _ half, join _ rest]
  norm_num

section HexFile

variable (words : Dict)

theorem wordAt_eq (addr : ℕ) :
    wordAt words addr = (words.getD addr 0).toNat +
      256 * (words.getD (addr + 1) 0).toNat +
      256 ^ 2 * (words.getD (addr + 2) 0).toNat +
      256 ^ 3 * (words.getD (addr + 3) 0).toNat :=
  or_lanes _ _ _ _

theorem wordAt_lt (addr : ℕ) : wordAt words addr < 2 ^ 32 := by
  have zero := (words.getD addr 0).isLt
  have one := (words.getD (addr + 1) 0).isLt
  have two := (words.getD (addr + 2) 0).isLt
  have three := (words.getD (addr + 3) 0).isLt
  rw [wordAt_eq]
  omega

/-- A byte of a word. -/
theorem wordAt_byte (addr : ℕ) {k : ℕ} (lane : k < 4) :
    wordAt words addr / 256 ^ k % 256 =
      (words.getD (addr + k) 0).toNat := by
  have zero := (words.getD addr 0).isLt
  have one := (words.getD (addr + 1) 0).isLt
  have two := (words.getD (addr + 2) 0).isLt
  have three := (words.getD (addr + 3) 0).isLt
  rw [wordAt_eq]
  interval_cases k
  · change _ = (words.getD addr 0).toNat
    rw [Nat.pow_zero, Nat.div_one]
    omega
  all_goals omega

/-- The words from an address on. -/
theorem loadedByte_map (start stop distance : ℕ)
    (within : distance / 4 < (wordRange start stop).length) :
    loadedByte ((wordRange start stop).map (wordAt words)) distance =
      (words.getD (start + distance) 0).toNat := by
  have rest : distance % 4 < 4 := Nat.mod_lt _ (by decide)
  rw [loadedByte, List.getD_eq_getElem?_getD, List.getElem?_map]
  rw [wordRange, List.length_range'] at within
  rw [wordRange, List.getElem?_range' within, Option.map_some,
    Option.getD_some, wordAt_byte words _ rest, Nat.add_assoc,
    Nat.div_add_mod]

variable {words} {data : Bytes} {base limit : ℕ}

/-- A dictionary with the bytes of a region becomes its image. -/
theorem image_writeHex (aligned : base % 4 = 0) (whole : limit % 4 = 0)
    (room : base ≤ limit)
    (region : ∀ a, words[a]? =
      if base ≤ a ∧ a < limit then programByte data a else none) :
    ∃ numbers, Image data (writeHex words base) base limit numbers := by
  have inside {a : ℕ} (member : a ∈ words) :
      base ≤ a ∧ a < limit ∧ programByte data a ≠ none := by
    rw [Std.TreeMap.mem_iff_isSome_getElem?, region] at member
    split_ifs at member with both
    · exact ⟨both.1, both.2, Option.isSome_iff_ne_none.mp member⟩
    · exact absurd member Bool.false_ne_true
  have covered {a : ℕ} (above : base ≤ a) (below : a < limit)
      (holds : programByte data a ≠ none) : a ∈ words := by
    rw [Std.TreeMap.mem_iff_isSome_getElem?, region,
      if_pos ⟨above, below⟩]
    exact Option.isSome_iff_ne_none.mpr holds
  unfold writeHex
  rcases last : words.maxKey? with _ | maxAddr
  · have empty := Std.TreeMap.maxKey?_eq_none_iff.mp last
    refine ⟨[], rfl, nofun, fun a above below => ?_, ?_, room, ?_⟩
    · exact absurd below (Nat.not_lt.mpr above)
    · intro a above below holds
      exact absurd (covered above below holds)
        (Std.TreeMap.not_mem_of_isEmpty empty)
    · exact fun some => absurd rfl some
  · obtain ⟨member, greatest⟩ :=
      Std.TreeMap.maxKey?_eq_some_iff_mem_and_forall.mp last
    obtain ⟨above, below, holds⟩ := inside member
    have length : (wordRange (wordAlign base)
        (wordAlign (maxAddr + 4))).length = maxAddr / 4 + 1 - base / 4 := by
      rw [wordRange, List.length_range', wordAlign_eq, wordAlign_eq]
      omega
    refine ⟨(wordRange (wordAlign base) (wordAlign (maxAddr + 4))).map
      (wordAt words), ?_, ?_, ?_, ?_, ?_, ?_⟩
    · rw [readmemh, String.toList_ofList]
      exact readLines_lines 8 _
    · intro word image
      obtain ⟨addr, -, rfl⟩ := List.mem_map.mp image
      exact wordAt_lt words addr
    · intro a above' below'
      rw [List.length_map, length] at below'
      rw [loadedByte_map words _ _ _ (by omega), wordAlign_eq,
        Std.TreeMap.getD_eq_getD_getElem?, region, if_pos (by omega)]
      congr 3
      omega
    · intro a above' below' holds'
      have least : a ≤ maxAddr :=
        Nat.isLE_compare.mp (greatest a (covered above' below' holds'))
      rw [List.length_map, length]
      omega
    · rw [List.length_map, length]
      omega
    · intro _
      refine ⟨maxAddr, ?_, ?_, holds⟩ <;> rw [List.length_map, length] <;>
        omega

end HexFile

/-! ## The conversion -/

theorem programByte_of_le {data : Bytes} (inMap : InMap data) {a : ℕ}
    (outside : 2 ^ 32 ≤ a) : programByte data a = none := by
  refine List.findSome?_eq_none_iff.mpr fun s member => ?_
  have bound := (inMap s (List.mem_reverse.mp member)).2
  exact if_neg (by omega)

/-- The hex files of a well-formed file whose segments fit are the images of
its program. -/
theorem preserves_of_wellFormed (elfPath : String) (data : Bytes)
    (wellFormed : WellFormed data) (inMap : InMap data)
    (sizes : ∀ s ∈ loads data, s.filesz ≤ 0xFFFFFFFF) :
    Preserves data elfPath := by
  obtain ⟨d, loaded, holds⟩ :=
    loadSegments_ok wellFormed elfPath inMap sizes
  refine ⟨writeHex d.rom romBase, writeHex d.ram ramBase, ?_, ?_, ?_⟩
  · rw [main, loaded]
    rfl
  · refine image_writeHex rfl rfl (by decide) fun a => ?_
    rw [(holds a).1]
    exact if_congr (by simp [ramBase, romBase]) rfl rfl
  · refine image_writeHex rfl rfl (by decide) fun a => ?_
    rw [(holds a).2]
    by_cases low : a < ramBase
    · rw [if_pos low, if_neg fun both => absurd both.1 (Nat.not_le.mpr low)]
    · rw [if_neg low]
      by_cases high : a < 2 ^ 32
      · rw [if_pos ⟨Nat.not_lt.mp low, high⟩]
      · rw [if_neg fun both => high both.2]
        exact programByte_of_le inMap (Nat.not_lt.mp high)

/-- A 32-bit file with one segment of six bytes across the end of the ROM. -/
def smallFile : Bytes :=
  [0x7F, 0x45, 0x4C, 0x46, 1, 1, 1, 0, 0, 0, 0, 0, 0, 0, 0, 0,
    2, 0, 243, 0, 1, 0, 0, 0, 0, 0, 0, 0, 52, 0, 0, 0,
    0, 0, 0, 0, 0, 0, 0, 0, 52, 0, 32, 0, 1, 0, 0, 0,
    0, 0, 0, 0,
    1, 0, 0, 0, 84, 0, 0, 0, 0xFD, 0xFF, 0xFF, 0x7F, 0, 0, 0, 0,
    6, 0, 0, 0, 6, 0, 0, 0, 7, 0, 0, 0, 1, 0, 0, 0,
    1, 2, 3, 4, 5, 6]

theorem loads_smallFile : loads smallFile = [⟨84, 0x7FFFFFFD, 6⟩] := by
  decide

theorem wellFormed_smallFile : WellFormed smallFile := by
  constructor <;> decide

theorem preserves_of_wellFormed_smallFile :
    Preserves smallFile "small.elf" :=
  preserves_of_wellFormed _ _ wellFormed_smallFile
    (by rw [InMap, loads_smallFile]; decide)
    (by rw [loads_smallFile]; decide)

/-- The headers of a 64-bit file with one segment, as large as the map. -/
def fullMapHeaders : Bytes :=
  [0x7F, 0x45, 0x4C, 0x46, 2, 1, 1, 0, 0, 0, 0, 0, 0, 0, 0, 0,
    2, 0, 243, 0, 1, 0, 0, 0, 0, 0, 0, 0, 0, 0, 0, 0,
    64, 0, 0, 0, 0, 0, 0, 0, 0, 0, 0, 0, 0, 0, 0, 0,
    0, 0, 0, 0, 64, 0, 56, 0, 1, 0, 0, 0, 0, 0, 0, 0,
    1, 0, 0, 0, 7, 0, 0, 0, 120, 0, 0, 0, 0, 0, 0, 0,
    0, 0, 0, 0, 0, 0, 0, 0, 0, 0, 0, 0, 0, 0, 0, 0,
    0, 0, 0, 0, 1, 0, 0, 0, 0, 0, 0, 0, 1, 0, 0, 0,
    1, 0, 0, 0, 0, 0, 0, 0]

/-- The file itself. -/
def fullMap : Bytes := fullMapHeaders ++ List.replicate (2 ^ 32) 0

theorem length_fullMap : fullMap.length = 120 + 2 ^ 32 := by
  rw [fullMap, List.length_append, List.length_replicate]
  rfl

theorem number_fullMap {off size : ℕ} (inside : off + size ≤ 120) :
    number fullMap off size = number fullMapHeaders off size := by
  have length : fullMapHeaders.length = 120 := rfl
  rw [number, fullMap, List.drop_append_of_le_length (by omega),
    List.take_append_of_le_length (by rw [List.length_drop]; omega)]
  rfl

theorem getElem?_fullMap {k : ℕ} (inside : k < 120) :
    fullMap[k]? = fullMapHeaders[k]? :=
  List.getElem?_append_left inside

theorem layout_fullMap : layout fullMap = .elf64 := by
  rw [layout, getElem?_fullMap (by decide)]
  rfl

theorem phoff_fullMap : phoff fullMap = 64 := by
  rw [phoff, layout_fullMap]
  exact (number_fullMap (by decide)).trans (by decide)

theorem phentsize_fullMap : phentsize fullMap = 56 := by
  rw [phentsize, layout_fullMap]
  exact (number_fullMap (by decide)).trans (by decide)

theorem phnum_fullMap : phnum fullMap = 1 := by
  rw [phnum, layout_fullMap]
  exact (number_fullMap (by decide)).trans (by decide)

theorem entry_fullMap : entry fullMap 0 = 64 := by
  rw [entry, phoff_fullMap, Nat.zero_mul]

theorem isLoad_fullMap : isLoad fullMap 0 = true := by
  rw [isLoad, entry_fullMap, number_fullMap (by decide)]
  decide

theorem segment_fullMap : segment fullMap 0 = ⟨120, 0, 2 ^ 32⟩ := by
  rw [segment, entry_fullMap, layout_fullMap]
  rw [number_fullMap (by decide), number_fullMap (by decide),
    number_fullMap (by decide)]
  decide

theorem loads_fullMap : loads fullMap = [⟨120, 0, 2 ^ 32⟩] := by
  rw [loads, phnum_fullMap, loadsBefore_succ, if_pos isLoad_fullMap,
    segment_fullMap]
  rfl

theorem wellFormed_fullMap : WellFormed fullMap where
  magic := List.take_append_of_le_length (by decide)
  elfClass := Or.inr (getElem?_fullMap (by decide))
  littleEndian := getElem?_fullMap (by decide)
  machine := (number_fullMap (by decide)).trans (by decide)
  header := by
    rw [layout_fullMap, length_fullMap]
    decide
  entries := by
    rw [layout_fullMap, phentsize_fullMap]
    decide
  table := by
    rw [phoff_fullMap, phnum_fullMap, phentsize_fullMap, length_fullMap]
    decide
  inside := by
    rw [loads_fullMap, length_fullMap]
    decide

theorem main_of_error {elfPath : String} {data : Bytes} {error : PyError}
    (raises : loadSegments elfPath data = .error error) :
    main elfPath data = .error error := by
  rw [main, raises]
  rfl

/-- A large segment in the first program header is refused. -/
theorem main_of_large {data : Bytes} (wellFormed : WellFormed data)
    (elfPath : String) (byte : data[4]? = some elfClass64)
    (class64 : layout data = .elf64) (headers : phnum data = 1)
    (load : isLoad data 0 = true)
    (large : (segment data 0).filesz > 0xFFFFFFFF) :
    main elfPath data = .error (.valueError
      (elfPath ++ ": segment address/size exceeds RV32 map")) := by
  have refused := loadHeader64_of_load wellFormed elfPath class64 ⟨∅, ∅⟩
    (by omega) load
  rw [if_pos (Or.inr large)] at refused
  refine main_of_error ?_
  rw [loadSegments_of_elf64 wellFormed elfPath byte class64, headers,
    List.range_one, List.foldlM_cons, refused]
  rfl

/-- A segment that fills the map is refused. -/
theorem not_preserves :
    ¬ ∀ (elfPath : String) (data : Bytes), WellFormed data → InMap data →
      Preserves data elfPath := by
  intro preserves
  have inMap : InMap fullMap := by
    rw [InMap, loads_fullMap]
    decide
  obtain ⟨romHex, ramHex, converts, -⟩ :=
    preserves "full.elf" fullMap wellFormed_fullMap inMap
  have large : (segment fullMap 0).filesz > 0xFFFFFFFF := by
    rw [segment_fullMap]
    decide
  rw [main_of_large wellFormed_fullMap _ (getElem?_fullMap (by decide))
    layout_fullMap phnum_fullMap isLoad_fullMap large] at converts
  exact nomatch converts

end SisRv.Elf2sisrv
