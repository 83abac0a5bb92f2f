import SisRv.Core.CsrFrame
import SisRv.Core.Run

/-!
# Runs of the CSR unit

A run of `sisCsr` under arbitrary inputs after reset.  The CSR unit of a core
run is one of them.
-/

namespace SisRv

open Sync

/-- A run of `sisCsr` after reset. -/
structure CsrRun (p : Params) where
  irq : ℕ → IrqLines
  inputs : ℕ → CsrIn p

namespace CsrRun

variable {p : Params} (r : CsrRun p)

/-- The registers of the unit in cycle `n`. -/
def state : ℕ → CsrState p :=
  trajectory (fun c x => c.next x.1 x.2) (CsrState.reset p)
    fun n => (r.irq n, r.inputs n)

theorem state_zero : r.state 0 = CsrState.reset p := rfl

theorem state_succ (n : ℕ) :
    r.state (n + 1) = (r.state n).next (r.irq n) (r.inputs n) := rfl

/-- A trap is entered at the edge that ends cycle `n`. -/
def Traps (n : ℕ) : Prop := (r.inputs n).trapEnter = true

/-- An MRET is executed at the edge that ends cycle `n`. -/
def Returns (n : ℕ) : Prop :=
  (r.inputs n).trapEnter = false ∧ (r.inputs n).mretExec = true

/-- The register at `addr` is written at the edge that ends cycle `n`. -/
def Writes (addr : BitVec 12) (n : ℕ) : Prop :=
  (r.inputs n).trapEnter = false ∧ (r.inputs n).mretExec = false ∧
    (r.inputs n).csrWen = true ∧ (r.inputs n).csrAddr = addr

instance (n : ℕ) : Decidable (r.Traps n) :=
  inferInstanceAs (Decidable (_ = _))

instance (n : ℕ) : Decidable (r.Returns n) :=
  inferInstanceAs (Decidable (_ ∧ _))

instance (addr : BitVec 12) (n : ℕ) : Decidable (r.Writes addr n) :=
  inferInstanceAs (Decidable (_ ∧ _ ∧ _ ∧ _))

/-- The value a write leaves behind, before any WARL rule. -/
def written (n : ℕ) : BitVec 32 :=
  (r.state n).csrNewVal (r.irq n) (r.inputs n)

/-! Cycles of a prescribed run. -/

/-- No operation. -/
def idle : CsrIn p where
  csrAddr := 0
  csrWdata := 0
  csrOp := 0
  csrWen := false
  trapEnter := false
  trapCause := 0
  trapVal := 0
  trapEpc := 0
  mretExec := false
  instrRetire := false
  hpmEvents := 0
  trigHitSet := fun _ => false

/-- `csrrw` of a value. -/
def csrWrite (addr : BitVec 12) (data : BitVec 32) : CsrIn p :=
  { idle with csrAddr := addr, csrWdata := data, csrOp := 0b01, csrWen := true }

/-- `mret`. -/
def mret : CsrIn p := { idle with mretExec := true }

/-- Finitely many prescribed cycles with the interrupt lines low, followed by
idle ones. -/
def script (cycles : List (CsrIn p)) : CsrRun p where
  irq := fun _ => ⟨false, false, false⟩
  inputs := fun n => cycles.getD n idle

end CsrRun

namespace Run

variable {p : Params} (r : Run p)

/-- The CSR unit of a core run. -/
def csrRun : CsrRun p where
  irq := fun n => (r.inputs n).irq
  inputs := fun n => (r.state n).csrIn

theorem csrRun_state (n : ℕ) : r.csrRun.state n = (r.state n).csr := by
  induction n with
  | zero =>
      rfl
  | succ n inductionHypothesis =>
      rw [CsrRun.state_succ, inductionHypothesis]
      rfl

end Run

end SisRv
