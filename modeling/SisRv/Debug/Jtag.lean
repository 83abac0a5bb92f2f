import SisRv.Lib.Trajectory
import SisRv.Rtl.JtagDtm

/-!
# The JTAG transport

What the TAP of `sisJtagDtm` reaches: it goes through the states of a data
scan only, so that the instruction register keeps BYPASS and no request is
raised, and the shift leaves nine bits of the data register zero.
-/

namespace SisRv

open Sync

/-- The TAP has never been in another state than those of a data scan. -/
structure JtagDtm.Scanning (s : JtagDtm) : Prop where
  tap : s.tapState = stIdle ∨ s.tapState = stDrShift ∨ s.tapState = stDrExit
  bypass : s.ir = irBypass
  short : s.dr.extractLsb' 32 9 = 0
  silent : s.dmiReqValid = false
  answered : s.dmiPending = false

namespace JtagDtm

variable {s : JtagDtm} {i : JtagIn}

theorem scanning_reset : reset.Scanning := by
  constructor <;> decide

/-- A word that is extended to the width of the data register is short. -/
theorem short_setWidth (word : BitVec 32) :
    (word.setWidth 41).extractLsb' 32 9 = 0 := by
  apply BitVec.eq_of_getLsbD_eq
  intro k below
  simp [BitVec.getLsbD_extractLsb', BitVec.getLsbD_setWidth]

/-- The TAP process stays within a data scan. -/
theorem Scanning.tap_step (scanning : s.Scanning) :
    (s.tap (s.sample i s)).Scanning := by
  obtain ⟨tap, bypass, short, silent, answered⟩ := scanning
  by_cases rise : s.tckRise = true
  · rcases tap with idle | shift | exit
    · simp only [JtagDtm.tap, rise, idle, if_true]
      refine ⟨?_, bypass, short, silent, answered⟩
      dsimp only
      split_ifs
      · exact Or.inl rfl
      · exact Or.inr (Or.inl rfl)
    · have notIdle : stDrShift ≠ stIdle := by decide
      simp only [JtagDtm.tap, rise, shift, if_true, if_neg notIdle]
      refine ⟨?_, bypass, short_setWidth _, silent, answered⟩
      dsimp only
      split_ifs
      · exact Or.inr (Or.inr rfl)
      · exact Or.inr (Or.inl rfl)
    · have notIdle : stDrExit ≠ stIdle := by decide
      have notShift : stDrExit ≠ stDrShift := by decide
      simp only [JtagDtm.tap, rise, exit, if_true, if_neg notIdle,
        if_neg notShift]
      exact ⟨Or.inl rfl, bypass, short, silent, answered⟩
  · simp only [JtagDtm.tap, rise, Bool.false_eq_true, if_false]
    exact ⟨tap, bypass, short, silent, answered⟩

/-- The DMI process has nothing to do. -/
theorem dmi_of_scanning (scanning : s.Scanning) (n : JtagDtm) :
    s.dmi i n = n := by
  have other : (s.ir == irDmi) = false := by
    rw [scanning.bypass]
    decide
  simp [dmi, other, scanning.silent, dmiRspReady, scanning.answered]

theorem Scanning.step (scanning : s.Scanning) : (s.step i).Scanning := by
  rw [JtagDtm.step, dmi_of_scanning scanning]
  exact scanning.tap_step

end JtagDtm

/-- The state in cycle `n` for a sequence of pin values. -/
def jtagState (pins : ℕ → JtagIn) : ℕ → JtagDtm :=
  trajectory JtagDtm.step JtagDtm.reset pins

theorem jtagState_scanning (pins : ℕ → JtagIn) (n : ℕ) :
    (jtagState pins n).Scanning :=
  trajectory_invariant JtagDtm.Scanning (fun _ _ => True)
    JtagDtm.scanning_reset (fun _ _ scanning _ => scanning.step)
    (fun _ => trivial) n

/-- A DMI operation. -/
structure DmiOp where
  addr : BitVec 7
  data : BitVec 32
  write : Bool
  deriving DecidableEq, Repr

/-- Some sequence of pin values makes the transport raise a request for the
operation. -/
def JtagDelivers (op : DmiOp) : Prop :=
  ∃ pins n, (jtagState pins n).dmiReqValid = true ∧
    (jtagState pins n).dmiReqAddr = op.addr ∧
    (jtagState pins n).dmiReqWdata = op.data ∧
    (jtagState pins n).dmiReqWrite = op.write

/-- The transport delivers no operation. -/
theorem not_jtagDelivers (op : DmiOp) : ¬ JtagDelivers op := by
  rintro ⟨pins, n, raised, -⟩
  rw [(jtagState_scanning pins n).silent] at raised
  exact Bool.false_ne_true raised

/-- In particular it does not activate the debug module. -/
theorem not_jtagDelivers_dmactive :
    ¬ ∀ op : DmiOp, JtagDelivers op := by
  intro delivers
  obtain ⟨pins, n, raised, -⟩ := delivers ⟨0x10, 1, true⟩
  rw [(jtagState_scanning pins n).silent] at raised
  exact Bool.false_ne_true raised

end SisRv
