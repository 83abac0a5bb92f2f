import SisRv.Lib.AddressMatch
import SisRv.Rtl.Pmp

/-!
# The PMP matcher and its reference

The reference matches 34-bit physical addresses as natural numbers.  The
matcher of `sisPmp` computes with 32 bits; an entry where the two differ is a
truncated one, and the verdicts agree exactly when no truncated entry is
reached.
-/

namespace SisRv

open Sync

/-! ## Reference -/

/-- The region of an entry, for `pmpaddr` values `this` and `prev`. -/
def Covers (a : BitVec 2) (prev this byte : ℕ) : Prop :=
  if a = 0b00 then False
  else if a = 0b01 then prev ≤ byte / 4 ∧ byte / 4 < this
  else if a = 0b10 then byte / 4 = this
  else
    alignDown (4 * this) (2 ^ (trailingOnes this + 3)) ≤ byte ∧
      byte < alignDown (4 * this) (2 ^ (trailingOnes this + 3)) +
        2 ^ (trailingOnes this + 3)

instance (a : BitVec 2) (prev this byte : ℕ) :
    Decidable (Covers a prev this byte) := by
  unfold Covers
  infer_instance

/-- The A field of a configuration byte. -/
def pmpMode (cfg : BitVec 8) : BitVec 2 := cfg.extractLsb' 3 2

section Arrays

variable {n : ℕ}

/-- The reference match of entry `i`. -/
def covered
    (mode : Fin n → BitVec 2) (pmpaddr : Fin n → BitVec 32)
    (addr : BitVec 32) (i : Fin n) : Bool :=
  decide (Covers (mode i) (pmpPrev pmpaddr i).toNat (pmpaddr i).toNat
    addr.toNat)

/-- The reference verdict: the lowest entry that covers the address decides;
unlocked it lets M-mode through, otherwise every request must be granted; an
uncovered address is for M-mode only. -/
def pmpReference
    (pmpcfg : Fin n → BitVec 8) (pmpaddr : Fin n → BitVec 32)
    (addr : BitVec 32) (priv : BitVec 2) (reqR reqW reqX : Bool) : Bool :=
  match (List.finRange n).find?
      (covered (fun i => pmpMode (pmpcfg i)) pmpaddr addr) with
  | none => priv == privM
  | some i =>
      priv == privM && !(pmpcfg i).getLsbD 7 ||
        permOk (pmpcfg i) reqR reqW reqX

end Arrays

/-! ## The truncated entries -/

/-- Address bits 31:30 of a `pmpaddr` value, which the matcher drops. -/
def highBits (pmpaddr : ℕ) : ℕ := pmpaddr / 2 ^ 30

def lowBits (pmpaddr : ℕ) : ℕ := pmpaddr % 2 ^ 30

/-- A NAPOT entry loses its high bits, and the end of its region when that is
the end of the 32-bit space; of the whole space it loses the last byte. -/
def NapotTruncated (this byte : ℕ) : Prop :=
  if trailingOnes this = 32 then byte = 2 ^ 32 - 1
  else if 29 ≤ trailingOnes this then
    this / 2 ^ (trailingOnes this + 1) = 0
  else
    byte / 2 ^ (trailingOnes this + 3) =
        4 * lowBits this / 2 ^ (trailingOnes this + 3) ∧
      ((byte / 2 ^ (trailingOnes this + 3) + 1) *
          2 ^ (trailingOnes this + 3) = 2 ^ 32 ↔ highBits this = 0)

/-- The addresses at which the matcher and the reference differ on an entry. -/
def Truncated (a : BitVec 2) (prev this byte : ℕ) : Prop :=
  if a = 0b00 then False
  else if a = 0b01 then
    lowBits prev ≤ byte / 4 ∧
      ¬ (byte / 4 < lowBits this ↔
        highBits prev = 0 ∧ (highBits this ≠ 0 ∨ byte / 4 < lowBits this))
  else if a = 0b10 then highBits this ≠ 0 ∧ byte / 4 = lowBits this
  else NapotTruncated this byte

instance (this byte : ℕ) : Decidable (NapotTruncated this byte) := by
  unfold NapotTruncated
  infer_instance

instance (a : BitVec 2) (prev this byte : ℕ) :
    Decidable (Truncated a prev this byte) := by
  unfold Truncated
  infer_instance

/-! ## The functions of the matcher over the natural numbers -/

/-- The loop stops at the first clear bit. -/
theorem napotOnes_eq
    (pa : BitVec 32) (fuel t : ℕ) (enough : 32 ≤ t + fuel) (within : t ≤ 32)
    (ones : ∀ i, i < t → pa.toNat.testBit i = true) :
    napotOnes pa fuel t = trailingOnes pa.toNat := by
  induction fuel generalizing t with
  | zero =>
      obtain rfl : t = 32 := by omega
      exact (trailingOnes_eq ones (Nat.testBit_lt_two_pow pa.isLt)).symm
  | succ fuel inductionHypothesis =>
      rw [napotOnes]
      split_ifs with set
      · refine inductionHypothesis (t + 1) (by omega) (by omega)
          fun i below => ?_
        rcases Nat.lt_succ_iff_lt_or_eq.mp below with lower | rfl
        · exact ones i lower
        · exact set.2
      · have clear : pa.toNat.testBit t = false := by
          by_cases inside : t < 32
          · simpa [inside, BitVec.getLsbD] using set
          · exact Nat.testBit_lt_two_pow (lt_of_lt_of_le pa.isLt
              (Nat.pow_le_pow_right (by decide) (by omega)))
        exact (trailingOnes_eq ones clear).symm

theorem napotSizeBytes_eq
    {pa : BitVec 32} (notAll : trailingOnes pa.toNat ≠ 32) :
    napotSizeBytes pa =
      if trailingOnes pa.toNat < 29 then
        BitVec.twoPow 32 (trailingOnes pa.toNat + 3)
      else 0 := by
  have notOnes : pa ≠ 0xFFFFFFFF := by
    rintro rfl
    exact notAll ((trailingOnes_eq_width_iff (by decide)).mpr rfl)
  have loop := napotOnes_eq pa 32 0 (by decide) (by decide)
    fun i below => absurd below (Nat.not_lt_zero i)
  have eight : (8 : BitVec 32) = 1#32 <<< 3 := by decide
  rw [napotSizeBytes, if_neg notOnes, loop, eight, ← BitVec.shiftLeft_add,
    Nat.add_comm 3]
  split_ifs with small
  · rw [BitVec.twoPow_eq]
  · exact BitVec.shiftLeft_eq_zero (by omega)

theorem lowBits_lt (pmpaddr : ℕ) : lowBits pmpaddr < 2 ^ 30 :=
  Nat.mod_lt _ (by decide)

theorem high_low (pmpaddr : ℕ) :
    pmpaddr = 2 ^ 30 * highBits pmpaddr + lowBits pmpaddr :=
  (Nat.div_add_mod pmpaddr (2 ^ 30)).symm

theorem toNat_shiftLeft_two (pa : BitVec 32) :
    (pa <<< 2).toNat = 4 * lowBits pa.toNat := by
  rw [BitVec.toNat_shiftLeft, Nat.shiftLeft_eq, lowBits]
  omega

section Napot

variable {pa : BitVec 32}

/-- Below 2^32 bytes the base is aligned down within 32 bits. -/
theorem toNat_napotBaseByte (small : trailingOnes pa.toNat < 29) :
    (napotBaseByte pa).toNat =
      alignDown (4 * lowBits pa.toNat)
        (2 ^ (trailingOnes pa.toNat + 3)) := by
  rw [napotBaseByte, napotSizeBytes_eq (by omega), if_pos small,
    toNat_and_not_mask (by omega), toNat_shiftLeft_two]

/-- The byte test of the matcher, for a region below 2^32 bytes. -/
theorem napotMatch_iff
    (small : trailingOnes pa.toNat < 29) (byteAddr : BitVec 32) :
    (napotBaseByte pa ≤ byteAddr ∧
        byteAddr < napotBaseByte pa + napotSizeBytes pa) ↔
      byteAddr.toNat / 2 ^ (trailingOnes pa.toNat + 3) =
          4 * lowBits pa.toNat / 2 ^ (trailingOnes pa.toNat + 3) ∧
        (byteAddr.toNat / 2 ^ (trailingOnes pa.toNat + 3) + 1) *
          2 ^ (trailingOnes pa.toNat + 3) ≠ 2 ^ 32 := by
  have base := toNat_napotBaseByte small
  have size : (napotSizeBytes pa).toNat =
      2 ^ (trailingOnes pa.toNat + 3) := by
    rw [napotSizeBytes_eq (by omega), if_pos small, BitVec.toNat_twoPow]
    exact Nat.mod_eq_of_lt (Nat.pow_lt_pow_right (by decide) (by omega))
  have divides : 2 ^ (trailingOnes pa.toNat + 3) ∣ 2 ^ 32 :=
    Nat.pow_dvd_pow 2 (by omega)
  generalize trailingOnes pa.toNat + 3 = k at base size divides
  have low := lowBits_lt pa.toNat
  have room := alignDown_add_le (x := 4 * lowBits pa.toNat) divides
    (by omega)
  have block := mem_block_iff (x := 4 * lowBits pa.toNat)
    (Nat.two_pow_pos k) byteAddr.toNat
  rw [BitVec.le_def, BitVec.lt_def, BitVec.toNat_add, base, size]
  rcases Nat.lt_or_eq_of_le room with inside | top
  · rw [Nat.mod_eq_of_lt inside, block]
    refine ⟨fun same => ⟨same, ?_⟩, fun both => both.1⟩
    rw [same, Nat.succ_mul]
    exact Nat.ne_of_lt inside
  · rw [top, Nat.mod_self]
    constructor
    · rintro ⟨-, impossible⟩
      exact absurd impossible (Nat.not_lt_zero _)
    · rintro ⟨same, notTop⟩
      rw [same, Nat.succ_mul] at notTop
      exact absurd top notTop

/-- The reference test, for a region of any size up to 2^32 bytes. -/
theorem napotCovers_iff
    (small : trailingOnes pa.toNat < 29) (byteAddr : BitVec 32) :
    byteAddr.toNat / 2 ^ (trailingOnes pa.toNat + 3) =
        4 * pa.toNat / 2 ^ (trailingOnes pa.toNat + 3) ↔
      highBits pa.toNat = 0 ∧
        byteAddr.toNat / 2 ^ (trailingOnes pa.toNat + 3) =
          4 * lowBits pa.toNat / 2 ^ (trailingOnes pa.toNat + 3) := by
  have divides : 2 ^ (trailingOnes pa.toNat + 3) ∣ 2 ^ 32 :=
    Nat.pow_dvd_pow 2 (by omega)
  generalize trailingOnes pa.toNat + 3 = k at divides
  obtain ⟨blocks, whole⟩ := divides
  have split : 4 * pa.toNat =
      4 * lowBits pa.toNat + 2 ^ k * (blocks * highBits pa.toNat) := by
    have parts := high_low pa.toNat
    calc
      4 * pa.toNat
          = 4 * lowBits pa.toNat + 2 ^ 32 * highBits pa.toNat := by omega
      _ = 4 * lowBits pa.toNat + 2 ^ k * (blocks * highBits pa.toNat) := by
        rw [whole, Nat.mul_assoc]
  have below : byteAddr.toNat / 2 ^ k < blocks :=
    Nat.div_lt_of_lt_mul (whole ▸ byteAddr.isLt)
  rw [split, Nat.add_mul_div_left _ _ (Nat.two_pow_pos k)]
  constructor
  · intro same
    have zero : highBits pa.toNat = 0 := by
      by_contra high
      have large : blocks ≤ blocks * highBits pa.toNat :=
        Nat.le_mul_of_pos_right _ (Nat.pos_of_ne_zero high)
      rw [same] at below
      exact absurd (large.trans (Nat.le_add_left _ _)) (Nat.not_le.mpr below)
    rw [zero, Nat.mul_zero, Nat.add_zero] at same
    exact ⟨zero, same⟩
  · rintro ⟨zero, same⟩
    rw [zero, Nat.mul_zero, Nat.add_zero]
    exact same

end Napot

/-! ## Where an entry is truncated -/

theorem napot_eq_iff (pa byteAddr : BitVec 32) :
    ((napotBaseByte pa ≤ byteAddr ∧
        byteAddr < napotBaseByte pa + napotSizeBytes pa) ↔
      (alignDown (4 * pa.toNat) (2 ^ (trailingOnes pa.toNat + 3)) ≤
          byteAddr.toNat ∧
        byteAddr.toNat <
          alignDown (4 * pa.toNat) (2 ^ (trailingOnes pa.toNat + 3)) +
            2 ^ (trailingOnes pa.toNat + 3))) ↔
      ¬ NapotTruncated pa.toNat byteAddr.toNat := by
  rw [mem_block_iff (Nat.two_pow_pos _)]
  have few := trailingOnes_le pa.isLt
  have byte := byteAddr.isLt
  rcases Nat.lt_or_ge (trailingOnes pa.toNat) 29 with small | large
  · rw [napotMatch_iff small, napotCovers_iff small, NapotTruncated,
      if_neg (by omega), if_neg (by omega)]
    tauto
  have wide : 2 ^ 32 ≤ 2 ^ (trailingOnes pa.toNat + 3) :=
    Nat.pow_le_pow_right (by decide) (by omega)
  have inFirst :
      byteAddr.toNat / 2 ^ (trailingOnes pa.toNat + 3) = 0 :=
    Nat.div_eq_of_lt (lt_of_lt_of_le byte wide)
  have scaled : 4 * pa.toNat / 2 ^ (trailingOnes pa.toNat + 3) =
      pa.toNat / 2 ^ (trailingOnes pa.toNat + 1) := by
    rw [pow_succ, pow_succ, Nat.mul_assoc, Nat.mul_comm _ (2 * 2),
      Nat.mul_div_mul_left _ _ (by decide)]
  rw [inFirst, scaled]
  by_cases all : trailingOnes pa.toNat = 32
  · obtain rfl : pa = 0xFFFFFFFF :=
      BitVec.eq_of_toNat_eq
        ((trailingOnes_eq_width_iff pa.isLt).mp all)
    have start : napotBaseByte 0xFFFFFFFF = 0 := by decide
    have stop : napotBaseByte 0xFFFFFFFF + napotSizeBytes 0xFFFFFFFF =
        0xFFFFFFFF := by decide
    rw [NapotTruncated, if_pos all, all, stop, start, BitVec.le_def,
      BitVec.lt_def]
    simp
    omega
  · have size := napotSizeBytes_eq all
    rw [if_neg (by omega)] at size
    have start : napotBaseByte pa = 0 := by
      rw [napotBaseByte, size]
      simp
    rw [NapotTruncated, if_neg all, if_pos large, start, size,
      BitVec.lt_def]
    simp [eq_comm]

/-- An entry of the matcher agrees with the reference outside the addresses
where it is truncated. -/
theorem entryMatches_iff_covers_iff
    (byteAddr : BitVec 32) (cfg : BitVec 8) (thisAddr prevAddr : BitVec 32) :
    (entryMatches byteAddr cfg thisAddr prevAddr = true ↔
        Covers (pmpMode cfg) prevAddr.toNat thisAddr.toNat
          byteAddr.toNat) ↔
      ¬ Truncated (pmpMode cfg) prevAddr.toNat thisAddr.toNat
        byteAddr.toNat := by
  have word : (byteAddr.extractLsb' 2 30).toNat = byteAddr.toNat / 4 := by
    rw [BitVec.extractLsb'_toNat, Nat.shiftRight_eq_div_pow]
    have := byteAddr.isLt
    omega
  have below : byteAddr.toNat / 4 < 2 ^ 30 := by
    have := byteAddr.isLt
    omega
  have low : ∀ pmpaddr : BitVec 32,
      (pmpaddr.extractLsb' 0 30).toNat = lowBits pmpaddr.toNat := by
    intro pmpaddr
    rw [BitVec.extractLsb'_toNat]
    rfl
  have matcher : entryMatches byteAddr cfg thisAddr prevAddr =
      if pmpMode cfg = 0b00 then false
      else if pmpMode cfg = 0b01 then
        decide (prevAddr.extractLsb' 0 30 ≤ byteAddr.extractLsb' 2 30) &&
          decide (byteAddr.extractLsb' 2 30 < thisAddr.extractLsb' 0 30)
      else if pmpMode cfg = 0b10 then
        byteAddr.extractLsb' 2 30 == thisAddr.extractLsb' 0 30
      else
        decide (napotBaseByte thisAddr ≤ byteAddr) &&
          decide (byteAddr <
            napotBaseByte thisAddr + napotSizeBytes thisAddr) := rfl
  unfold Covers Truncated
  rw [matcher]
  by_cases off : pmpMode cfg = 0b00
  · simp only [if_pos off]
    simp
  by_cases tor : pmpMode cfg = 0b01
  · simp only [if_neg off, if_pos tor]
    rw [Bool.and_eq_true, decide_eq_true_iff, decide_eq_true_iff,
      BitVec.le_def, BitVec.lt_def, word, low, low]
    have prev := high_low prevAddr.toNat
    have this := high_low thisAddr.toNat
    have small := lowBits_lt thisAddr.toNat
    omega
  by_cases na4 : pmpMode cfg = 0b10
  · have this := high_low thisAddr.toNat
    have small := lowBits_lt thisAddr.toNat
    simp only [if_neg off, if_neg tor, if_pos na4]
    rw [beq_iff_eq, ← BitVec.toNat_inj, word, low]
    omega
  · simp only [if_neg off, if_neg tor, if_neg na4]
    rw [Bool.and_eq_true, decide_eq_true_iff, decide_eq_true_iff]
    exact napot_eq_iff thisAddr byteAddr

/-! ## Where the verdicts agree -/

section Verdicts

variable {n : ℕ} {mode : Fin n → BitVec 2} {pmpaddr : Fin n → BitVec 32}
  {addr : BitVec 32}

/-- For all locks, permissions, privileges and requests, the matcher gives the
verdict of the reference. -/
def VerdictAgrees
    (mode : Fin n → BitVec 2) (pmpaddr : Fin n → BitVec 32)
    (addr : BitVec 32) : Prop :=
  ∀ pmpcfg : Fin n → BitVec 8, (∀ i, pmpMode (pmpcfg i) = mode i) →
    ∀ priv, priv = privM ∨ priv = privU → ∀ reqR reqW reqX,
      sisPmp pmpcfg pmpaddr addr priv reqR reqW reqX =
        pmpReference pmpcfg pmpaddr addr priv reqR reqW reqX

/-- Entry `i` is truncated at the address. -/
def truncated
    (mode : Fin n → BitVec 2) (pmpaddr : Fin n → BitVec 32)
    (addr : BitVec 32) (i : Fin n) : Bool :=
  decide (Truncated (mode i) (pmpPrev pmpaddr i).toNat (pmpaddr i).toNat
    addr.toNat)

theorem pmpMatch_eq
    {pmpcfg : Fin n → BitVec 8} (modes : ∀ i, pmpMode (pmpcfg i) = mode i)
    (i : Fin n) :
    pmpMatch pmpcfg pmpaddr addr i =
      (covered mode pmpaddr addr i != truncated mode pmpaddr addr i) := by
  have same := entryMatches_iff_covers_iff addr (pmpcfg i) (pmpaddr i)
    (pmpPrev pmpaddr i)
  rw [modes i] at same
  unfold pmpMatch covered truncated
  by_cases bad : Truncated (mode i) (pmpPrev pmpaddr i).toNat
      (pmpaddr i).toNat addr.toNat
  · have differ := (not_iff_not.mpr same).mpr (not_not.mpr bad)
    by_cases covers : Covers (mode i) (pmpPrev pmpaddr i).toNat
        (pmpaddr i).toNat addr.toNat
    · simpa [bad, covers] using differ
    · simpa [bad, covers] using differ
  · have agree := same.mpr bad
    simp only [bad, decide_false, Bool.bne_false]
    exact Bool.eq_iff_iff.mpr (agree.trans decide_eq_true_iff.symm)

/-- The verdicts of the matcher and of the reference for one winner. -/
theorem winnerAllows_eq
    {priv : BitVec 2} (legal : priv = privM ∨ priv = privU)
    (cfg : BitVec 8) (reqR reqW reqX : Bool) :
    winnerAllows cfg priv reqR reqW reqX =
      (priv == privM && !cfg.getLsbD 7 ||
        permOk cfg reqR reqW reqX) := by
  rcases legal with rfl | rfl
  · by_cases locked : cfg.getLsbD 7 = true <;>
      simp [winnerAllows, locked, privM, privU]
  · simp [winnerAllows, privM, privU]

theorem verdict_of_agree
    (positive : 1 ≤ n)
    (intact : ∀ i, (∀ j, j < i → covered mode pmpaddr addr j = false) →
      truncated mode pmpaddr addr i = false) :
    VerdictAgrees mode pmpaddr addr := by
  intro pmpcfg modes priv legal reqR reqW reqX
  have modeEq : (fun i => pmpMode (pmpcfg i)) = mode := funext modes
  have winner : pmpWinner pmpcfg pmpaddr addr =
      (List.finRange n).find? (covered mode pmpaddr addr) := by
    apply find?_finRange_congr
    intro i clear
    rw [pmpMatch_eq modes, intact i clear, Bool.bne_false]
  have nonempty : n ≠ 0 := by omega
  rw [sisPmp, if_neg nonempty, pmpReference, modeEq, winner]
  cases (List.finRange n).find? (covered mode pmpaddr addr) with
  | none => rfl
  | some i => exact winnerAllows_eq legal _ _ _ _

/-! ### A configuration that shows a disagreement -/

/-- Entry `i` is locked without permissions, the others have all. -/
def probeCfg (mode : Fin n → BitVec 2) (i e : Fin n) : BitVec 8 :=
  if e = i then (0b100#3 ++ mode e ++ 0b000#3 : BitVec 8)
  else (0b000#3 ++ mode e ++ 0b111#3 : BitVec 8)

theorem pmpMode_probeCfg (i e : Fin n) :
    pmpMode (probeCfg mode i e) = mode e := by
  have locked : ∀ m : BitVec 2,
      pmpMode (0b100#3 ++ m ++ 0b000#3 : BitVec 8) = m := by decide
  have free : ∀ m : BitVec 2,
      pmpMode (0b000#3 ++ m ++ 0b111#3 : BitVec 8) = m := by decide
  unfold probeCfg
  split_ifs
  · exact locked _
  · exact free _

/-- An M-mode read of the probe is refused by entry `i` only. -/
theorem winnerAllows_probeCfg (i e : Fin n) :
    winnerAllows (probeCfg mode i e) privM true false false =
      decide (e ≠ i) := by
  have locked : ∀ m : BitVec 2,
      winnerAllows (0b100#3 ++ m ++ 0b000#3 : BitVec 8) privM true false
        false = false := by decide
  have free : ∀ m : BitVec 2,
      winnerAllows (0b000#3 ++ m ++ 0b111#3 : BitVec 8) privM true false
        false = true := by decide
  unfold probeCfg
  split_ifs with same
  · simp [locked, same]
  · simp [free, same]

/-- The verdict on the probe tells whether the first match is entry `i`. -/
theorem verdict_probeCfg
    {M : Fin n → Bool} {i : Fin n} (clear : ∀ j, j < i → M j = false) :
    (match (List.finRange n).find? M with
      | none => true
      | some e => winnerAllows (probeCfg mode i e) privM true false false) =
        !M i := by
  by_cases matches_ : M i = true
  · have first := find?_finRange_eq_some_iff.mpr ⟨matches_, clear⟩
    rw [first]
    simp [winnerAllows_probeCfg, matches_]
  · cases found : (List.finRange n).find? M with
    | none => simp [matches_]
    | some e =>
        have other : e ≠ i := by
          rintro rfl
          exact matches_ (find?_finRange_eq_some_iff.mp found).1
        simp [winnerAllows_probeCfg, matches_, other]

theorem probe_disagrees
    (positive : 1 ≤ n) {i : Fin n}
    (clear : ∀ j, j < i → covered mode pmpaddr addr j = false)
    (bad : truncated mode pmpaddr addr i = true) :
    ¬ VerdictAgrees mode pmpaddr addr := by
  intro agrees
  obtain ⟨k, clearR, clearM, differ⟩ := exists_first_disagreement
    (M := fun e => covered mode pmpaddr addr e !=
      truncated mode pmpaddr addr e)
    (R := covered mode pmpaddr addr) ⟨i, clear, by simp [bad]⟩
  have nonempty : n ≠ 0 := by omega
  have modes : ∀ e, pmpMode (probeCfg mode k e) = mode e :=
    pmpMode_probeCfg k
  have modeEq : (fun e => pmpMode (probeCfg mode k e)) = mode :=
    funext modes
  have vector : pmpMatch (probeCfg mode k) pmpaddr addr =
      fun e => covered mode pmpaddr addr e !=
        truncated mode pmpaddr addr e :=
    funext fun e => pmpMatch_eq modes e
  have ours : sisPmp (probeCfg mode k) pmpaddr addr privM true false false =
      !(covered mode pmpaddr addr k != truncated mode pmpaddr addr k) := by
    rw [sisPmp, if_neg nonempty, pmpWinner, vector]
    exact verdict_probeCfg clearM
  have theirs : pmpReference (probeCfg mode k) pmpaddr addr privM true false
      false = !covered mode pmpaddr addr k := by
    rw [pmpReference, modeEq]
    simp only [← winnerAllows_eq (Or.inl rfl)]
    exact verdict_probeCfg clearR
  have same := agrees (probeCfg mode k) modes privM (Or.inl rfl) true false
    false
  rw [ours, theirs] at same
  exact differ (Bool.not_inj same)

/-- The matcher gives the verdict of the reference, whatever the locks,
permissions, privilege and request, exactly when no entry that the reference
reaches is truncated at the address. -/
theorem sisPmp_eq_pmpReference_iff
    {n : ℕ} (positive : 1 ≤ n) (mode : Fin n → BitVec 2)
    (pmpaddr : Fin n → BitVec 32) (addr : BitVec 32) :
    VerdictAgrees mode pmpaddr addr ↔
      ∀ i, (∀ j, j < i → covered mode pmpaddr addr j = false) →
        truncated mode pmpaddr addr i = false := by
  constructor
  · intro agrees i clear
    by_contra bad
    exact probe_disagrees positive clear (by simpa using bad) agrees
  · exact verdict_of_agree positive

end Verdicts

theorem sisPmp_eq_pmpReference_iff_na4 :
    VerdictAgrees (fun _ : Fin 1 => 0b10) (fun _ => 0x20000000) 0x80000000 :=
  (sisPmp_eq_pmpReference_iff (by decide) _ _ _).mpr (by decide)

/-- An NA4 entry for the word at 2^32 matches address 0, and user mode reads
it. -/
theorem sisPmp_ne_pmpReference :
    ¬ ∀ (n : ℕ), 1 ≤ n → ∀ (pmpcfg : Fin n → BitVec 8)
      (pmpaddr : Fin n → BitVec 32) (addr : BitVec 32) (priv : BitVec 2),
      priv = privM ∨ priv = privU → ∀ reqR reqW reqX,
        sisPmp pmpcfg pmpaddr addr priv reqR reqW reqX =
          pmpReference pmpcfg pmpaddr addr priv reqR reqW reqX := by
  intro agree
  have same := agree 1 (by decide) (fun _ => 0x11) (fun _ => 0x40000000) 0
    privU (Or.inr rfl) true false false
  exact absurd same (by decide)

/-! ## Words and requests -/

/-- The last byte of the 32-bit space is lost to a NAPOT entry for the whole
space. -/
def LastByteLost
    (a : BitVec 2) (thisAddr byteAddr : BitVec 32) : Prop :=
  a = 0b11 ∧ thisAddr = 0xFFFFFFFF ∧ byteAddr = 0xFFFFFFFF

instance (a : BitVec 2) (thisAddr byteAddr : BitVec 32) :
    Decidable (LastByteLost a thisAddr byteAddr) := by
  unfold LastByteLost
  infer_instance

/-- A NAPOT test does not tell the bytes of a word apart, save the last. -/
theorem napotMatch_of_same_word
    {a b thisAddr : BitVec 32} (word : a.toNat / 4 = b.toNat / 4)
    (intact : thisAddr = 0xFFFFFFFF → a ≠ 0xFFFFFFFF ∧ b ≠ 0xFFFFFFFF) :
    (napotBaseByte thisAddr ≤ a ∧
        a < napotBaseByte thisAddr + napotSizeBytes thisAddr) ↔
      (napotBaseByte thisAddr ≤ b ∧
        b < napotBaseByte thisAddr + napotSizeBytes thisAddr) := by
  rcases Nat.lt_or_ge (trailingOnes thisAddr.toNat) 29 with small | large
  · rw [napotMatch_iff small, napotMatch_iff small,
      div_pow_eq_of_div_four word (by omega)]
  by_cases all : thisAddr = 0xFFFFFFFF
  · obtain ⟨notLastA, notLastB⟩ := intact all
    have start : napotBaseByte 0xFFFFFFFF = 0 := by decide
    have stop : napotBaseByte 0xFFFFFFFF + napotSizeBytes 0xFFFFFFFF =
        0xFFFFFFFF := by decide
    rw [← BitVec.toNat_ne_iff_ne] at notLastA notLastB
    rw [all, stop, start, BitVec.le_def, BitVec.lt_def, BitVec.le_def,
      BitVec.lt_def]
    simp at notLastA notLastB ⊢
    omega
  · have notAll : trailingOnes thisAddr.toNat ≠ 32 := fun full =>
      all (BitVec.eq_of_toNat_eq
        ((trailingOnes_eq_width_iff thisAddr.isLt).mp full))
    have size := napotSizeBytes_eq notAll
    rw [if_neg (by omega)] at size
    have start : napotBaseByte thisAddr = 0 := by
      rw [napotBaseByte, size]
      simp
    rw [start, size]
    simp

theorem entryMatches_of_same_word
    {a b : BitVec 32} (cfg : BitVec 8) (thisAddr prevAddr : BitVec 32)
    (word : a.toNat / 4 = b.toNat / 4)
    (intactA : ¬ LastByteLost (pmpMode cfg) thisAddr a)
    (intactB : ¬ LastByteLost (pmpMode cfg) thisAddr b) :
    entryMatches a cfg thisAddr prevAddr =
      entryMatches b cfg thisAddr prevAddr := by
  have words : a.extractLsb' 2 30 = b.extractLsb' 2 30 := by
    apply BitVec.eq_of_toNat_eq
    rw [BitVec.extractLsb'_toNat, BitVec.extractLsb'_toNat,
      Nat.shiftRight_eq_div_pow, Nat.shiftRight_eq_div_pow]
    omega
  have modes : ∀ m : BitVec 2, m ≠ 0b00 → m ≠ 0b01 → m ≠ 0b10 →
      m = 0b11 := by decide
  simp only [entryMatches, words]
  split_ifs with off tor na4
  · rfl
  · rfl
  · rfl
  · have napot := modes _ off tor na4
    rw [← Bool.decide_and, ← Bool.decide_and, decide_eq_decide]
    exact napotMatch_of_same_word word fun all =>
      ⟨fun last => intactA ⟨napot, all, last⟩,
        fun last => intactB ⟨napot, all, last⟩⟩

section Verdict

variable {n : ℕ} {pmpcfg : Fin n → BitVec 8} {pmpaddr : Fin n → BitVec 32}
  {priv : BitVec 2}

/-- The verdict is one for the bytes of a word, unless an entry that is reached
has lost the last byte. -/
theorem sisPmp_of_same_word
    {a b : BitVec 32} (word : a.toNat / 4 = b.toNat / 4)
    (intactA : ∀ i, (∀ j, j < i → pmpMatch pmpcfg pmpaddr a j = false) →
      ¬ LastByteLost (pmpMode (pmpcfg i)) (pmpaddr i) a)
    (intactB : ∀ i, ¬ LastByteLost (pmpMode (pmpcfg i)) (pmpaddr i) b)
    (reqR reqW reqX : Bool) :
    sisPmp pmpcfg pmpaddr a priv reqR reqW reqX =
      sisPmp pmpcfg pmpaddr b priv reqR reqW reqX := by
  have winner : pmpWinner pmpcfg pmpaddr b = pmpWinner pmpcfg pmpaddr a :=
    find?_finRange_congr fun i clear =>
      (entryMatches_of_same_word _ _ _ word (intactA i clear)
        (intactB i)).symm
  simp only [sisPmp, winner]

/-- A verdict that grants some requests grants fewer. -/
theorem sisPmp_of_fewer
    {addr : BitVec 32} {reqR reqW reqX fewR fewW fewX : Bool}
    (grants : sisPmp pmpcfg pmpaddr addr priv reqR reqW reqX = true)
    (r : fewR = true → reqR = true) (w : fewW = true → reqW = true)
    (x : fewX = true → reqX = true) :
    sisPmp pmpcfg pmpaddr addr priv fewR fewW fewX = true := by
  have fewer : ∀ cfg, permOk cfg reqR reqW reqX = true →
      permOk cfg fewR fewW fewX = true := by
    intro cfg all
    simp only [permOk, Bool.and_eq_true, Bool.or_eq_true,
      Bool.not_eq_true'] at all ⊢
    refine ⟨⟨?_, ?_⟩, ?_⟩
    · cases fewR with
      | false => simp
      | true => simpa [r rfl] using all.1.1
    · cases fewW with
      | false => simp
      | true => simpa [w rfl] using all.1.2
    · cases fewX with
      | false => simp
      | true => simpa [x rfl] using all.2
  unfold sisPmp at grants ⊢
  split_ifs at grants ⊢ with none_
  · rfl
  · cases winner : pmpWinner pmpcfg pmpaddr addr with
    | none =>
        simp only [winner] at grants ⊢
        exact grants
    | some i =>
        simp only [winner, winnerAllows] at grants ⊢
        split_ifs at grants ⊢
        · exact fewer _ grants
        · rfl

end Verdict

end SisRv
