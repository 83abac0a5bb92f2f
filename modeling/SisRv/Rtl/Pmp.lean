import Mathlib.Data.BitVec
import Mathlib.Data.List.FinRange

/-!
# `sisPmp`

The PMP region matcher of `rtl/core/sisPmp.sv`.  The packed arrays `pmpcfg`
and `pmpaddr` are functions of the entry number.
-/

namespace SisRv

def privM : BitVec 2 := 0b11
def privU : BitVec 2 := 0b00

/-- The `while` loop of `napot_size_bytes`: the bits set from bit `t` up. -/
def napotOnes (pa : BitVec 32) : ℕ → ℕ → ℕ
  | 0, t => t
  | fuel + 1, t =>
      if t < 32 ∧ pa.getLsbD t then napotOnes pa fuel (t + 1) else t

/-- `napot_size_bytes`; the loop is left at `t = 32` at the latest. -/
def napotSizeBytes (pa : BitVec 32) : BitVec 32 :=
  if pa = 0xFFFFFFFF then 0xFFFFFFFF
  else (8 : BitVec 32) <<< napotOnes pa 32 0

/-- `napot_base_byte`. -/
def napotBaseByte (pa : BitVec 32) : BitVec 32 :=
  (pa <<< 2) &&& ~~~(napotSizeBytes pa - 1)

/-- `entry_matches`. -/
def entryMatches
    (byteAddr : BitVec 32) (cfg : BitVec 8)
    (thisAddr prevAddr : BitVec 32) : Bool :=
  let aw := byteAddr.extractLsb' 2 30
  let a := cfg.extractLsb' 3 2
  if a = 0b00 then false
  else if a = 0b01 then
    decide (prevAddr.extractLsb' 0 30 ≤ aw) &&
      decide (aw < thisAddr.extractLsb' 0 30)
  else if a = 0b10 then aw == thisAddr.extractLsb' 0 30
  else
    decide (napotBaseByte thisAddr ≤ byteAddr) &&
      decide (byteAddr < napotBaseByte thisAddr + napotSizeBytes thisAddr)

variable {n : ℕ}

/-- The lower bound a TOR entry reads: 0 for entry 0. -/
def pmpPrev (pmpaddr : Fin n → BitVec 32) (i : Fin n) : BitVec 32 :=
  if i.val = 0 then 0 else pmpaddr ⟨i.val - 1, by omega⟩

/-- The vector `match`. -/
def pmpMatch
    (pmpcfg : Fin n → BitVec 8) (pmpaddr : Fin n → BitVec 32)
    (addr : BitVec 32) (i : Fin n) : Bool :=
  entryMatches addr (pmpcfg i) (pmpaddr i) (pmpPrev pmpaddr i)

/-- The second loop: `any_match` and `win_cfg`, the first matching entry. -/
def pmpWinner
    (pmpcfg : Fin n → BitVec 8) (pmpaddr : Fin n → BitVec 32)
    (addr : BitVec 32) : Option (Fin n) :=
  (List.finRange n).find? (pmpMatch pmpcfg pmpaddr addr)

/-- `perm_ok` for one configuration byte. -/
def permOk (cfg : BitVec 8) (reqR reqW reqX : Bool) : Bool :=
  (!reqR || cfg.getLsbD 0) && (!reqW || cfg.getLsbD 1) &&
    (!reqX || cfg.getLsbD 2)

/-- The verdict of the winning entry. -/
def winnerAllows
    (cfg : BitVec 8) (priv : BitVec 2) (reqR reqW reqX : Bool) : Bool :=
  if cfg.getLsbD 7 || priv == privU then permOk cfg reqR reqW reqX else true

/-- The output `allow` of `sisPmp`. -/
def sisPmp
    (pmpcfg : Fin n → BitVec 8) (pmpaddr : Fin n → BitVec 32)
    (addr : BitVec 32) (priv : BitVec 2) (reqR reqW reqX : Bool) : Bool :=
  if n = 0 then true
  else
    match pmpWinner pmpcfg pmpaddr addr with
    | none => priv == privM
    | some i => winnerAllows (pmpcfg i) priv reqR reqW reqX

end SisRv
