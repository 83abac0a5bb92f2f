import SisRv.Core.DataIsolation
import SisRv.Platform.Axil
import SisRv.Platform.Corebus
import SisRv.Platform.HartMemory

/-!
# User mode and the RAM

While the core is in user mode the PMP registers keep their values, and what
they refuse to user mode stays as it is: no byte of the RAM that user mode may
not write changes, whatever the program does and on either memory side.
-/

namespace SisRv

open Sync

/-! ## The core in user mode -/

namespace CsrState

variable {p : Params} (c : CsrState p) (irq : IrqLines) (x : CsrIn p)

theorem priv_of_trap (enters : x.trapEnter = true) :
    (c.next irq x).priv = privM := by
  have commits : (c.commit irq x (c.tickCounters x)).priv = privM := by
    rw [commit, if_pos enters]
  exact commits

end CsrState

namespace Run

variable {p : Params} (r : Run p) {a n : ℕ} {x : BitVec 32} {req : BusReq}

/-- The core is in user mode from one cycle to another one. -/
def UserMode (a n : ℕ) : Prop :=
  ∀ k, a ≤ k → k ≤ n → (r.state k).csr.priv = privU

/-- The PMP refuses user mode to write the byte at an address. -/
def RefusesWrite (n : ℕ) (x : BitVec 32) : Prop :=
  sisPmp (r.state n).csr.pmpcfg (r.state n).csr.pmpaddr x privU false true
    false = false

variable {r}

theorem UserMode.mono {k : ℕ} (user : r.UserMode a n) (from_ : a ≤ k) :
    r.UserMode k n :=
  fun j above below => user j (from_.trans above) below

section EnableU

variable (enableU : p.enableU = true) (small : p.pmpEntries ≤ 80)
include enableU small

/-- User mode does not change the PMP registers. -/
theorem pmp_kept (user : r.UserMode a n) (le : a ≤ n) :
    (r.state n).csr.pmpcfg = (r.state a).csr.pmpcfg ∧
      (r.state n).csr.pmpaddr = (r.state a).csr.pmpaddr := by
  induction n, le using Nat.le_induction with
  | base => exact ⟨rfl, rfl⟩
  | succ n le inductionHypothesis =>
      obtain ⟨cfg, addr⟩ := inductionHypothesis fun k above below =>
        user k above (Nat.le_succ_of_le below)
      have here : (r.state n).csr.priv = privU :=
        user n le (Nat.le_succ n)
      have next : (r.state (n + 1)).csr.priv = privU :=
        user (n + 1) (le.trans (Nat.le_succ n)) le_rfl
      rw [r.state_succ, Core.step_csr] at next ⊢
      have noTrap : (r.state n).trapEnter = false := by
        by_contra enters
        have enters : (r.state n).csrIn.trapEnter = true :=
          (Bool.not_eq_false _).mp enters
        rw [CsrState.priv_of_trap _ _ _ enters] at next
        exact absurd next (by decide)
      have quiet := Core.quiet_below_machine (i := r.inputs n) (r.privSound n)
        enableU small (by rw [here]; decide) noTrap
      exact ⟨quiet.pmpcfg.trans cfg, quiet.pmpaddr.trans addr⟩

theorem refusesWrite_iff (user : r.UserMode a n) (le : a ≤ n) :
    r.RefusesWrite n x ↔ r.RefusesWrite a x := by
  obtain ⟨cfg, addr⟩ := pmp_kept enableU small user le
  rw [RefusesWrite, RefusesWrite, cfg, addr]

/-- A request of user mode stores nothing where it may not. -/
theorem stored_of_refused (named : addressMap x = some .ram)
    (user : (r.state n).csr.priv = privU) (refused : r.RefusesWrite n x)
    (requests : (r.state n).dReqValid = true) :
    (r.state n).dReq.stored x = none := by
  rw [BusReq.stored, if_neg]
  rintro ⟨write, word, -⟩
  have granted := (r.dataGranted_of_enableU enableU small n requests user).write
  have writes : (r.state n).ex.isStore = true ∨ (r.state n).exIsSc = true ∨
      (r.state n).exIsAmoOp = true := by
    have valid : (r.state n).ex.valid = true := by
      rw [Core.dReqValid, Core.exMemRequesting, Bool.and_eq_true] at requests
      exact requests.1
    have write : (r.state n).dReqWe = true := write
    rw [Core.dReqWe] at write
    split_ifs at write
    · rw [Bool.or_eq_true, Core.amoStorePhase, Bool.or_eq_true, beq_iff_eq,
        beq_iff_eq] at write
      rcases write with storing | sc
      · exact Or.inr (Or.inr ((r.exSound n).amo valid storing))
      · exact Or.inr (Or.inl sc)
    · exact Or.inl write
  have below := (ram_iff x).mp named
  have word : x.toNat / 4 = (r.state n).dReqAddr.toNat / 4 := word
  have other {y : BitVec 32} (low : y.toNat ≤ 0x8003FFFF) (mode : BitVec 2)
      (entry : BitVec 32) : ¬ LastByteLost mode entry y := by
    rintro ⟨-, -, rfl⟩
    exact absurd low (by decide)
  have same :
      sisPmp (r.state n).csr.pmpcfg (r.state n).csr.pmpaddr x privU false true
          false =
        sisPmp (r.state n).csr.pmpcfg (r.state n).csr.pmpaddr
          (r.state n).dReqAddr privU false true false :=
    sisPmp_of_same_word word (fun _ _ => other below.2 _ _)
      (fun _ => other (by omega) _ _) false true false
  rw [RefusesWrite, same, granted writes] at refused
  cases refused

end EnableU

/-- What user mode leaves alone in every cycle in which a write is refused is as
it was when user mode was entered. -/
theorem kept_of_refused (enableU : p.enableU = true)
    (small : p.pmpEntries ≤ 80) {Value : Type} {v : ℕ → Value}
    (step : ∀ k, (r.state k).csr.priv = privU → r.RefusesWrite k x →
      v (k + 1) = v k)
    (user : r.UserMode a n) (refused : r.RefusesWrite a x) (le : a ≤ n) :
    v n = v a := by
  induction n, le using Nat.le_induction with
  | base => rfl
  | succ n le inductionHypothesis =>
      have before : r.UserMode a n :=
        fun k above below => user k above (Nat.le_succ_of_le below)
      rw [← inductionHypothesis before]
      exact step n (user n le (Nat.le_succ n))
        ((refusesWrite_iff enableU small before le).mpr refused)

/-- The privilege does not change while an access is under way. -/
theorem priv_of_dOutstanding (single : r.NoSingleStep)
    (out : r.dOutstanding n = some (req, a)) :
    ∀ k, a ≤ k → k ≤ n → (r.state k).csr.priv = (r.state n).csr.priv := by
  induction n with
  | zero => cases out
  | succ n inductionHypothesis =>
      intro k above below
      rcases Nat.le_succ_iff.mp below with earlier | rfl
      · have step (full : (r.state n).ex.valid = true) :
            (r.state (n + 1)).csr.priv = (r.state n).csr.priv := by
          rw [r.state_succ]
          exact Core.priv_step (r.privSound n) (Or.inl full)
        rcases outstanding_succ_cases out with now | ⟨-, -, before⟩
        · obtain rfl : a = n := now
          obtain rfl : k = a := Nat.le_antisymm earlier above
          have fire := (dAccepts_eq_some (accept_of_outstanding out)).1
          rw [Core.dataReqFire, Core.exMemRequesting, Bool.and_assoc,
            Bool.and_eq_true] at fire
          exact (step fire.1).symm
        · have waits := waits_of_dOutstanding single before
          rw [Core.dRspReady, Bool.and_eq_true] at waits
          rw [inductionHypothesis before k above earlier, step waits.1]
      · rfl

end Run

/-! ## The two memory sides -/

/-- An access to the RAM that stores no byte at an address. -/
theorem byteOf_accessRam_of_none {ram : BitVec 16 → BitVec 32} {req : BusReq}
    {x : BitVec 32} (named : addressMap x = some .ram)
    (stored : req.stored x = none) :
    byteOf (Store.accessRam ram req) x = byteOf ram x := by
  by_cases writes : addressMap req.addr = some .ram ∧ req.we = true
  · rw [Backing.byteOf_accessRam writes.1 writes.2 named, stored]
    rfl
  · rw [Store.accessRam, if_neg writes]

section Platform

variable {p : Params} {t : Setup} {stallRate : ℤ} {a n : ℕ} {x : BitVec 32}

section EnableU

variable (enableU : p.enableU = true) (small : p.pmpEntries ≤ 80)
  (named : addressMap x = some .ram)
include enableU small named

theorem corebus_step
    (user : ((t.corebus p).core.state n).csr.priv = privU)
    (refused : (t.corebus p).core.RefusesWrite n x) :
    byteOf (Setup.corebusStore t p (n + 1)).ram x =
      byteOf (Setup.corebusStore t p n).ram x := by
  have step := DataPathRun.ram_next (r := t.accesses p) n
  rw [Setup.accesses_state, Setup.accesses_state, Setup.accesses_accept]
    at step
  show byteOf ((t.corebus p).state (n + 1)).mem.data.ram.mem x = _
  rw [step]
  cases accepted : (t.corebus p).core.dAccepts n with
  | none => rfl
  | some req =>
      obtain ⟨fire, rfl⟩ := Run.dAccepts_eq_some accepted
      rw [Core.dataReqFire, Bool.and_eq_true] at fire
      exact byteOf_accessRam_of_none named
        (Run.stored_of_refused enableU small named user refused fire.1)

theorem axil_step
    (user : ((t.axil p stallRate).core.state n).csr.priv = privU)
    (refused : (t.axil p stallRate).core.RefusesWrite n x) :
    byteOf (Setup.axilStore t p stallRate (n + 1)).ram x =
      byteOf (Setup.axilStore t p stallRate n).ram x := by
  have step := AxiPlatformRun.store_succ (r := t.memory p stallRate) n
  show byteOf ((t.memory p stallRate).store (n + 1)).ram x = _
  rw [step]
  cases performed : (t.memory p stallRate).performs n with
  | none => rfl
  | some access =>
      cases now : (t.memory p stallRate).path.serving n with
      | none =>
          have serves := (t.memory p stallRate).path.serves n
          rw [AxiRun.Serves, now] at serves
          have free : (t.memory p stallRate).path.Free n := serves
          have quiet := AxiPlatformRun.performs_none
            (r := t.memory p stallRate) (k := n) (by simp [free.idle])
            (by simp [free.idle]) (by simp [free.idle])
          rw [performed] at quiet
          cases quiet
      | some request =>
          obtain ⟨⟨q, req⟩, a⟩ := request
          show byteOf (((t.memory p stallRate).store n).access access).ram x = _
          rw [AxiPlatformRun.access_of_performs now performed]
          refine byteOf_accessRam_of_none named ?_
          have accepted := accept_of_outstanding now
          cases q with
          | i =>
              rw [BusReq.stored, Setup.read_of_fetch accepted, if_neg]
              simp
          | d =>
              -- the request was made in user mode, under the same entries
              have out := Setup.dOutstanding_of_serving now
              have before : a ≤ n := (asked_lt_of_outstanding now).le
              have throughout : (t.axil p stallRate).core.UserMode a n :=
                fun k above below =>
                  (Run.priv_of_dOutstanding PlatformRun.noSingleStep out k
                    above below).trans user
              have refusedThen :=
                (Run.refusesWrite_iff enableU small throughout before).mp
                  refused
              obtain ⟨fire, same⟩ :=
                Run.dAccepts_eq_some (accept_of_outstanding out)
              rw [Core.dataReqFire, Bool.and_eq_true] at fire
              rw [← same]
              exact Run.stored_of_refused enableU small named
                (throughout a le_rfl before) refusedThen fire.1

end EnableU

end Platform

/-- As long as the core is in user mode, no byte of the RAM changes that the PMP
refuses to user mode when it is entered. -/
theorem refused_memory_kept
    {p : Params} (t : Setup) (stallRate : ℤ) (enableU : p.enableU = true)
    (small : p.pmpEntries ≤ 80) {x : BitVec 32}
    (named : addressMap x = some .ram) {a n : ℕ} (le : a ≤ n) :
    ((t.corebus p).core.UserMode a n →
        (t.corebus p).core.RefusesWrite a x →
        byteOf (Setup.corebusStore t p n).ram x =
          byteOf (Setup.corebusStore t p a).ram x) ∧
      ((t.axil p stallRate).core.UserMode a n →
        (t.axil p stallRate).core.RefusesWrite a x →
        byteOf (Setup.axilStore t p stallRate n).ram x =
          byteOf (Setup.axilStore t p stallRate a).ram x) := by
  constructor
  · intro user refused
    have step (k : ℕ) := corebus_step (t := t) (n := k) enableU small named
    exact Run.kept_of_refused (r := (t.corebus p).core)
      (v := fun k => byteOf (Setup.corebusStore t p k).ram x)
      enableU small step user refused le
  · intro user refused
    have step (k : ℕ)
        (mode : ((t.axil p stallRate).core.state k).csr.priv = privU) :=
      axil_step (n := k) enableU small named mode
    exact Run.kept_of_refused (r := (t.axil p stallRate).core)
      (v := fun k => byteOf (Setup.axilStore t p stallRate k).ram x)
      enableU small step user refused le

/-! ### A store in user mode -/

/-- M-mode grants the first 16 KiB and returns to user mode, which writes to the
start of the RAM. -/
def userStore : Setup where
  power := {}
  rom := fun word =>
    [0x80000137, 0x7FF00093, 0x3B009073, 0x3A0FD073, 0x341E5073, 0x30200073,
      0x00000013, 0x00112023].getD word.toNat 0
  ram := fun _ => 0x5A5A5A5A
  mtime := 0
  pins := fun _ => {}

theorem refused_memory_kept_userStore :
    byteOf (Setup.corebusStore userStore {} 18).ram 0x80000000 =
      byteOf (Setup.corebusStore userStore {} 15).ram 0x80000000 := by
  have user : ((userStore.corebus {}).core).UserMode 15 18 := by
    intro k above below
    interval_cases k <;> decide +kernel
  have refused : ((userStore.corebus {}).core).RefusesWrite 15 0x80000000 := by
    rw [Run.RefusesWrite]
    decide +kernel
  exact (refused_memory_kept userStore 50 rfl (by decide) (by decide)
    (by decide)).1 user refused

end SisRv
