import SisRv.Core.Privilege
import SisRv.Core.Provenance

/-!
# User-mode fetch isolation

The X verdict on a word is taken when its response arrives.  Every change of
privilege is preceded by a flush, so that the words of the current path were
checked at the current privilege, and while that is user mode the PMP does not
change.
-/

namespace SisRv

open Sync

namespace Core

variable {p : Params} {s : Core p} {i : CoreIn}

/-- The privilege changes by a trap or a return only. -/
theorem commit_of_priv_change (changes : (s.step i).csr.priv ≠ s.csr.priv) :
    s.trapEnter = true ∨ s.mretExec = true := by
  by_contra quiet
  rw [not_or, Bool.not_eq_true, Bool.not_eq_true] at quiet
  exact changes (s.csr.next_priv i.irq s.csrIn quiet.1 quiet.2)

end Core

namespace Run

variable {p : Params} {r : Run p}

/-- The PMP registers change in machine mode only. -/
def PmpByMachine (r : Run p) : Prop :=
  ∀ n, (r.state n).csr.priv ≠ privM →
    (r.state (n + 1)).csr.pmpcfg = (r.state n).csr.pmpcfg ∧
      (r.state (n + 1)).csr.pmpaddr = (r.state n).csr.pmpaddr

theorem pmpByMachine_of_enableU
    (r : Run p) (enableU : p.enableU = true) (small : p.pmpEntries ≤ 80) :
    r.PmpByMachine := by
  intro n below
  by_cases enters : (r.state n).trapEnter = true
  · have quiet := (r.state n).csr.next_of_trap (r.inputs n).irq
      (r.state n).csrIn enters
    exact ⟨quiet.pmpcfg, quiet.pmpaddr⟩
  · have quiet := Core.quiet_below_machine (i := r.inputs n) (r.privSound n)
      enableU small below (by simpa using enters)
    exact ⟨quiet.pmpcfg, quiet.pmpaddr⟩

/-- A trap or a return comes one cycle after a flush. -/
theorem flush_before_commit
    (n : ℕ) (commits : (r.state n).trapEnter = true ∨
      (r.state n).mretExec = true) :
    ∃ b, n = b + 1 ∧ (r.state b).flush (r.inputs b) = true := by
  cases n with
  | zero =>
      have empty : (r.state 0).wb.valid = false := rfl
      have control := Core.wbControl_of_empty empty
      simp [Core.trapEnter, Core.mretExec, control] at commits
  | succ b =>
      refine ⟨b, rfl, ?_⟩
      rw [state_succ] at commits
      simp [Core.flush, Core.redirect_of_commit commits]

/-- The privilege of a path is the same from its second cycle on. -/
theorem priv_of_path
    {m n : ℕ} (after : r.pathStart n < m) (within : m ≤ n) :
    (r.state m).csr.priv = (r.state n).csr.priv := by
  have changes : ∀ c,
      (r.state (c + 1)).csr.priv ≠ (r.state c).csr.priv →
        ∃ b, c = b + 1 ∧ (r.state b).flush (r.inputs b) = true :=
    fun c differs =>
      flush_before_commit c (Core.commit_of_priv_change differs)
  exact eq_of_since_lt (fun k => (r.state k).csr.priv) changes after within

/-- So are the PMP registers, unless the path runs in machine mode. -/
theorem pmp_of_path
    (byMachine : r.PmpByMachine) {m n : ℕ} (after : r.pathStart n < m)
    (within : m ≤ n) (below : (r.state n).csr.priv ≠ privM) :
    (r.state m).csr.pmpcfg = (r.state n).csr.pmpcfg ∧
      (r.state m).csr.pmpaddr = (r.state n).csr.pmpaddr := by
  have constant : ∀ k, m ≤ k → k ≤ n →
      (r.state k).csr.pmpcfg = (r.state m).csr.pmpcfg ∧
        (r.state k).csr.pmpaddr = (r.state m).csr.pmpaddr := by
    intro k above
    induction k, above using Nat.le_induction with
    | base => exact fun _ => ⟨rfl, rfl⟩
    | succ k above inductionHypothesis =>
        intro low
        have same := priv_of_path (r := r) (m := k) (n := n) (by omega)
          (by omega)
        have step := byMachine k (by rw [same]; exact below)
        obtain ⟨cfg, addr⟩ := inductionHypothesis (by omega)
        exact ⟨step.1.trans cfg, step.2.trans addr⟩
  obtain ⟨cfg, addr⟩ := constant n within le_rfl
  exact ⟨cfg.symm, addr.symm⟩

/-- Outside machine mode the verdict taken on a fetch of the path is the one
the PMP gives now. -/
theorem executable_of_live
    (byMachine : r.PmpByMachine) {n : ℕ} {w : Fetch} (live : r.Live n w)
    (below : (r.state n).csr.priv ≠ privM) :
    r.executable w.answered w.addr = r.executable n w.addr := by
  have asked : w.asked < w.answered :=
    asked_lt_of_outstanding live.fetched.1
  have after : r.pathStart n < w.answered :=
    lt_of_le_of_lt live.fresh asked
  have within : w.answered ≤ n := Nat.le_of_lt live.past
  obtain ⟨cfg, addr⟩ := pmp_of_path byMachine after within below
  rw [executable, priv_of_path after within, cfg, addr, executable]

theorem Assembled.not_faulted
    {n : ℕ} {fetches : List Fetch} {parcel : IfId}
    (assembled : r.Assembled n fetches parcel)
    (clean : parcel.fetchErr = false) :
    ∀ w ∈ fetches, r.faulted w = false := by
  cases assembled with
  | word w pc =>
      rw [wordParcel_fetchErr] at clean
      simpa using clean
  | straddle w v pc live nextLive address nextAddress half =>
      have first : r.faulted w = false := by
        simp only [wordCompletes, Bool.or_eq_false_iff] at half
        exact half.1.1
      simpa using ⟨first, clean⟩

end Run

/-- An instruction that user mode holds in EX without a fetch error was
assembled from words that the PMP lets user mode execute. -/
theorem fetch_isolation
    {p : Params} (r : Run p) (bus : r.InstrBus)
    (byMachine : r.PmpByMachine) (n : ℕ)
    (valid : (r.state n).ex.valid = true)
    (user : (r.state n).ex.priv = privU)
    (clean : (r.state n).ex.fetchErr = false) :
    r.Assembled n (r.sources n).ex (r.state n).ex.parcel ∧
      ∀ w ∈ (r.sources n).ex,
        sisPmp (r.state n).csr.pmpcfg (r.state n).csr.pmpaddr
          (w.addr ++ 0#2 : BitVec 32) privU false false true = true := by
  have assembled := (r.provSound bus n).ex valid
  refine ⟨assembled, fun w member => ?_⟩
  have current : (r.state n).csr.priv = privU := by
    rw [← (r.privSound n).ex valid]
    exact user
  have live := assembled.live w member
  have clear := assembled.not_faulted clean w member
  simp only [Run.faulted, Bool.or_eq_false_iff, Bool.not_eq_false'] at clear
  have granted := clear.2
  rw [Run.executable_of_live byMachine live (by rw [current]; decide),
    Run.executable, current] at granted
  exact granted

theorem fetch_isolation_userLoad :
    userLoad.Assembled 16 (userLoad.sources 16).ex
        (userLoad.state 16).ex.parcel ∧
      ∀ w ∈ (userLoad.sources 16).ex,
        sisPmp (userLoad.state 16).csr.pmpcfg
          (userLoad.state 16).csr.pmpaddr (w.addr ++ 0#2 : BitVec 32)
          privU false false true = true :=
  fetch_isolation userLoad
    (Run.instrBus_script (by decide) (by decide))
    (Run.pmpByMachine_of_enableU _ rfl (by decide)) 16 (by decide +kernel)
    (by decide +kernel) (by decide +kernel)

end SisRv
