import SisRv.Sw.Crt0

/-!
# What the startup code does

Wherever an assembler puts it and however it encodes it, `crt0.S` calls `main`
on the memory that the linker script describes, and reports success when `main`
returns.
-/

namespace SisRv

open Riscv

/-- The memory after a pass is reported. -/
def Contents.passed (c : Contents) : Contents :=
  { c with devices := { c.devices with lastCode := 1, pass := true } }

namespace Link

variable (l : Link) (b : Backing)

/-- The bytes of the image of `.data`. -/
def image (i : ℕ) : BitVec 8 := byteOf b.rom (l.dataLma + BitVec.ofNat 32 i)

/-- The memory that `main` is called on. -/
def booted (c : Contents) : Contents :=
  (c.fill l.dataStart (4 * l.dataWords) (l.image b)).fill l.bssStart
    (4 * l.bssWords) fun _ => 0

variable {l b}

/-! ## Addresses -/

theorem toNat_word {a : BitVec 32} {k : ℕ} (low : a.toNat + 4 * k < 2 ^ 32) :
    (a + BitVec.ofNat 32 (4 * k)).toNat = a.toNat + 4 * k := by
  rw [BitVec.toNat_add, BitVec.toNat_ofNat]
  omega

theorem isAligned_word {a : BitVec 32} {k : ℕ} (isAligned : a.toNat % 4 = 0)
    (low : a.toNat + 4 * k < 2 ^ 32) :
    IsAligned 4 (a + BitVec.ofNat 32 (4 * k)) := by
  rw [IsAligned, toNat_word low]
  omega

theorem inRam_word {a : BitVec 32} {k : ℕ} (above : 0x80000000 ≤ a.toNat)
    (below : a.toNat + 4 * k < 0x80040000) :
    addressMap (a + BitVec.ofNat 32 (4 * k)) = some .ram := by
  rw [ram_iff, toNat_word (by omega)]
  omega

theorem moved_word (a : BitVec 32) (k : ℕ) :
    moved (a + BitVec.ofNat 32 (4 * k)) (4 : BitVec 12).toInt =
      a + BitVec.ofNat 32 (4 * (k + 1)) := by
  have four : BitVec.ofInt 32 (4 : BitVec 12).toInt = BitVec.ofNat 32 4 := rfl
  rw [moved_eq, four, BitVec.add_assoc, Nat.mul_succ, BitVec.ofNat_add]

@[simp]
theorem moved_zero (a : BitVec 32) : moved a (0 : BitVec 12).toInt = a := by
  rw [moved_eq]
  exact BitVec.add_zero a

/-- The bytes of a word of the image. -/
theorem image_word (k : ℕ) {j : ℕ} (below : j < 4) :
    (ByteMemory.word (byteOf b.rom)
      (l.dataLma + BitVec.ofNat 32 (4 * k))).extractLsb' (8 * j) 8 =
        l.image b (4 * k + j) := by
  rw [ByteMemory.extract_word _ _ below, image, BitVec.ofNat_add,
    BitVec.add_assoc]

/-! ## The loops -/

section Boot

variable {takes : Parcel → Prop} {place : ℕ → BitVec 32} {h : Hart Contents}
  {c : Contents} {k : ℕ}

variable (l place c b) in
/-- At label 1 with `k` words copied. -/
structure Copies (k : ℕ) (h : Hart Contents) : Prop where
  pc : h.pc = place 4
  zero : h.regs 0 = 0
  sp : h.regs 2 = stackTop
  t0 : h.regs 5 = l.dataLma + BitVec.ofNat 32 (4 * k)
  t1 : h.regs 6 = l.dataStart + BitVec.ofNat 32 (4 * k)
  t2 : h.regs 7 = l.dataEnd
  memory : h.memory = c.fill l.dataStart (4 * k) (l.image b)

variable (l place c) in
/-- At label 3 with `k` words cleared. -/
structure Clears (k : ℕ) (h : Hart Contents) : Prop where
  pc : h.pc = place 12
  zero : h.regs 0 = 0
  sp : h.regs 2 = stackTop
  t0 : h.regs 5 = l.bssStart + BitVec.ofNat 32 (4 * k)
  t1 : h.regs 6 = l.bssEnd
  memory : h.memory = c.fill l.bssStart (4 * k) fun _ => 0

variable (assembled : Assembled b.memory takes place l.crt0)
include assembled

theorem copies_succ (below : k < l.dataWords) :
    Hart.Leads b.memory takes (l.Copies b place c k)
      (l.Copies b place c (k + 1)) := by
  rintro ⟨_, x, _⟩ ⟨rfl, zero, sp, t0, t1, t2, rfl⟩
  obtain ⟨above, size, behind, follows, top⟩ := l.ordered
  obtain ⟨sourceAligned, targetAligned, -⟩ := l.aligned
  have inRom := l.inRom
  rw [dataWords] at below
  dsimp only at zero sp t0 t1 t2
  have start : Hart.Reaches b.memory takes
      ⟨place 4, x, c.fill l.dataStart (4 * k) (l.image b)⟩ _ := .refl
  have reached := assembled.fall zero start
    (show l.crt0[4]? = some (.bgeu 6 7 10) from rfl)
    (by rw [t1, t2, toNat_word (by omega)]; omega)
  have reached := assembled.load zero reached
    (show l.crt0[5]? = some (.lw 28 0 5) from rfl) (by decide)
    (by
      rw [moved_zero, t0]
      exact Contents.load_rom (isAligned_word sourceAligned (by omega))
        (by rw [toNat_word (by omega)]; omega))
  have reached := assembled.store zero reached
    (show l.crt0[6]? = some (.sw 28 0 6) from rfl)
    (by
      rw [moved_zero, Function.update_of_ne (by decide), t1,
        Function.update_self]
      exact Contents.store_ram (isAligned_word targetAligned (by omega))
        (inRam_word above (by omega)))
  have reached := assembled.write zero reached
    (show l.crt0[7]? = some (.addi 5 5 4) from rfl) (by decide) rfl
  have reached := assembled.write zero reached
    (show l.crt0[8]? = some (.addi 6 6 4) from rfl) (by decide) rfl
  have reached := assembled.jump zero reached
    (show l.crt0[9]? = some (.j 4) from rfl)
  refine ⟨_, reached, ?_⟩
  exact {
    pc := rfl
    zero := (Hart.regs_zero_of_reaches reached).trans zero
    sp := by simpa [Function.update] using sp
    t0 := by
      rw [← moved_word, ← t0]
      rfl
    t1 := by
      rw [← moved_word, ← t1]
      rfl
    t2 := by simpa [Function.update] using t2
    memory := by
      rw [Contents.fill_succ c (by omega) fun j inside => image_word k inside]
      rfl }

theorem clears_succ (below : k < l.bssWords) :
    Hart.Leads b.memory takes (l.Clears place c k)
      (l.Clears place c (k + 1)) := by
  rintro ⟨_, x, _⟩ ⟨rfl, zero, sp, t0, t1, rfl⟩
  obtain ⟨above, size, behind, follows, top⟩ := l.ordered
  obtain ⟨-, -, -, targetAligned, -⟩ := l.aligned
  rw [bssWords] at below
  dsimp only at zero sp t0 t1
  have start : Hart.Reaches b.memory takes
      ⟨place 12, x, c.fill l.bssStart (4 * k) fun _ => 0⟩ _ := .refl
  have reached := assembled.fall zero start
    (show l.crt0[12]? = some (.bgeu 5 6 16) from rfl)
    (by rw [t0, t1, toNat_word (by omega)]; omega)
  have reached := assembled.store zero reached
    (show l.crt0[13]? = some (.sw 0 0 5) from rfl)
    (by
      rw [moved_zero, zero, t0]
      exact Contents.store_ram (isAligned_word targetAligned (by omega))
        (inRam_word (by omega) (by omega)))
  have reached := assembled.write zero reached
    (show l.crt0[14]? = some (.addi 5 5 4) from rfl) (by decide) rfl
  have reached := assembled.jump zero reached
    (show l.crt0[15]? = some (.j 12) from rfl)
  refine ⟨_, reached, ?_⟩
  exact {
    pc := rfl
    zero := (Hart.regs_zero_of_reaches reached).trans zero
    sp := by simpa [Function.update] using sp
    t0 := by
      rw [← moved_word, ← t0]
      rfl
    t1 := by simpa [Function.update] using t1
    memory := by
      have zeros (j : ℕ) (_ : j < 4) :
          (0 : BitVec 32).extractLsb' (8 * j) 8 = 0 := BitVec.extractLsb'_zero
      rw [Contents.fill_succ c (by omega) zeros]
      rfl }

variable (l place c b) in
/-- The call of `main`. -/
structure Calls (h : Hart Contents) : Prop where
  pc : h.pc = l.main
  ra : h.regs 1 = place 17
  sp : h.regs 2 = stackTop
  zero : h.regs 0 = 0
  memory : h.memory = l.booted b c

/-- From `_start` to label 1. -/
theorem starts {x : BitVec 5 → BitVec 32} (zero : x 0 = 0) :
    Hart.Leads b.memory takes (fun h => h = ⟨place 0, x, c⟩)
      (l.Copies b place c 0) := by
  rintro _ rfl
  have start : Hart.Reaches b.memory takes ⟨place 0, x, c⟩ _ := .refl
  have reached := assembled.write zero start
    (show l.crt0[0]? = some (.la 2 stackTop) from rfl) (by decide) rfl
  have reached := assembled.write zero reached
    (show l.crt0[1]? = some (.la 5 l.dataLma) from rfl) (by decide) rfl
  have reached := assembled.write zero reached
    (show l.crt0[2]? = some (.la 6 l.dataStart) from rfl) (by decide) rfl
  have reached := assembled.write zero reached
    (show l.crt0[3]? = some (.la 7 l.dataEnd) from rfl) (by decide) rfl
  refine ⟨_, reached, ?_⟩
  exact {
    pc := rfl
    zero := (Hart.regs_zero_of_reaches reached).trans zero
    sp := rfl
    t0 := (BitVec.add_zero _).symm
    t1 := (BitVec.add_zero _).symm
    t2 := rfl
    memory := (c.fill_zero).symm }

/-- From the end of the first loop to label 3. -/
theorem copied :
    Hart.Leads b.memory takes (l.Copies b place c l.dataWords)
      (l.Clears place (c.fill l.dataStart (4 * l.dataWords) (l.image b))
        0) := by
  rintro ⟨_, x, _⟩ ⟨rfl, zero, sp, t0, t1, t2, rfl⟩
  obtain ⟨above, size, behind, follows, top⟩ := l.ordered
  obtain ⟨-, startAligned, endAligned, -⟩ := l.aligned
  dsimp only at zero sp t0 t1 t2
  have start : Hart.Reaches b.memory takes
      ⟨place 4, x, c.fill l.dataStart (4 * l.dataWords) (l.image b)⟩ _ := .refl
  have reached := assembled.branch zero start
    (show l.crt0[4]? = some (.bgeu 6 7 10) from rfl)
    (by
      rw [t1, t2, dataWords, toNat_word (by omega)]
      omega)
  have reached := assembled.write zero reached
    (show l.crt0[10]? = some (.la 5 l.bssStart) from rfl) (by decide) rfl
  have reached := assembled.write zero reached
    (show l.crt0[11]? = some (.la 6 l.bssEnd) from rfl) (by decide) rfl
  refine ⟨_, reached, ?_⟩
  exact {
    pc := rfl
    zero := (Hart.regs_zero_of_reaches reached).trans zero
    sp := by simpa [Function.update] using sp
    t0 := (BitVec.add_zero _).symm
    t1 := rfl
    memory := (Contents.fill_zero _).symm }

/-- From the end of the second loop to the call. -/
theorem cleared :
    Hart.Leads b.memory takes
      (l.Clears place (c.fill l.dataStart (4 * l.dataWords) (l.image b))
        l.bssWords) (l.Calls b place c) := by
  rintro ⟨_, x, _⟩ ⟨rfl, zero, sp, t0, t1, rfl⟩
  obtain ⟨above, size, behind, follows, top⟩ := l.ordered
  obtain ⟨-, -, -, startAligned, endAligned⟩ := l.aligned
  dsimp only at zero sp t0 t1
  have start : Hart.Reaches b.memory takes
      ⟨place 12, x, l.booted b c⟩ _ := .refl
  have reached := assembled.branch zero start
    (show l.crt0[12]? = some (.bgeu 5 6 16) from rfl)
    (by
      rw [t0, t1, bssWords, toNat_word (by omega)]
      omega)
  have reached := assembled.call zero reached
    (show l.crt0[16]? = some (.jal 1 l.main) from rfl) (by decide)
  refine ⟨_, reached, ?_⟩
  exact {
    pc := rfl
    ra := rfl
    sp := by simpa [Function.update] using sp
    zero := (Hart.regs_zero_of_reaches reached).trans zero
    memory := rfl }

/-- `main` is called on the memory that `link.ld` describes. -/
theorem calls {x : BitVec 5 → BitVec 32} (zero : x 0 = 0) :
    Hart.Leads b.memory takes (fun h => h = ⟨place 0, x, c⟩)
      (l.Calls b place c) := by
  have copies : Hart.Leads b.memory takes (l.Copies b place c 0)
      (l.Copies b place c l.dataWords) :=
    Hart.Leads.loop fun _ below => copies_succ assembled below
  have clears : Hart.Leads b.memory takes
      (l.Clears place (c.fill l.dataStart (4 * l.dataWords) (l.image b)) 0)
      (l.Clears place (c.fill l.dataStart (4 * l.dataWords) (l.image b))
        l.bssWords) :=
    Hart.Leads.loop fun _ below => clears_succ assembled below
  exact (starts assembled zero).trans <| copies.trans <|
    (copied assembled).trans <| clears.trans (cleared assembled)

omit assembled in
theorem store_tohost (c : Contents) :
    c.store .sw 0x10000000 1 = some (c.passed) := by
  have isAligned : IsAligned StoreOp.sw.size 0x10000000 := by decide
  have written : c.devices.write 1 0b1111 .tohost =
      { c.devices with lastCode := 1, pass := true } := by
    simp [DeviceState.write]
  rw [Contents.store, if_pos isAligned]
  show some _ = _
  rw [Contents.passed, ← written]
  rfl

/-- When `main` has returned, 1 is written to the test port. -/
theorem reports {x : BitVec 5 → BitVec 32} (zero : x 0 = 0) :
    Hart.Leads b.memory takes (fun h => h = ⟨place 17, x, c⟩)
      (fun h => h.pc = place 20 ∧ h.regs 0 = 0 ∧ h.memory = c.passed) := by
  rintro _ rfl
  have start : Hart.Reaches b.memory takes ⟨place 17, x, c⟩ _ := .refl
  have reached := assembled.write zero start
    (show l.crt0[17]? = some (.li 10 1) from rfl) (by decide) rfl
  have reached := assembled.write zero reached
    (show l.crt0[18]? = some (.li 11 0x10000000) from rfl) (by decide) rfl
  have reached := assembled.store zero reached
    (show l.crt0[19]? = some (.sw 10 0 11) from rfl)
    (by
      rw [moved_zero, Function.update_self, Function.update_of_ne (by decide),
        Function.update_self]
      exact store_tohost c)
  exact ⟨_, reached, rfl, (Hart.regs_zero_of_reaches reached).trans zero, rfl⟩

end Boot

end Link

end SisRv
