import SisRv.Core.Atomics
import SisRv.Core.Privilege

/-!
# The reservation of LR and SC

The reservation is set by the answer to an LR, cleared by the answer to an SC
and by every redirect.  An SC that fails gets no answer: it clears nothing.
-/

namespace SisRv

open Sync Riscv

/-! ## The cycles in which the reservation changes -/

namespace Core

variable {p : Params} {s : Core p} {i : CoreIn}

/-- An access redirects with an exception or an interrupt only. -/
theorem redirect_of_isAccess
    (coherent : s.ex.toDecoded.Coherent) (access : s.ex.isAccess = true)
    (leaves : s.exToWbFire i = true) (goes : s.wbSingleStepStop = false) :
    s.exRedirect i = (s.exException i || s.irqPending i) := by
  obtain ⟨-, -, noJal, noJalr, noBranch, -, -, noSystem⟩ :=
    coherent.of_access access
  simp [exRedirect, leaves, goes, noJal, noJalr, noBranch, exIsEcall,
    exIsEbreak, exIsMret, exIsSystemImm, exIsCsrOp, noSystem]

/-- Without an answer the reservation is cleared by a redirect only. -/
theorem lr_of_first (first : s.ex.state = .exExec) :
    s.lrAddrNext i = s.lrReservationAddr ∧
      s.lrValidNext i = (s.lrReservationValid && !s.exRedirect i) := by
  constructor
  · simp [lrAddrNext, atomicRspOk, first]
  · cases redirect : s.exRedirect i <;> simp [lrValidNext, redirect, first]

/-- In the last cycle of a write of an AMO the reservation stays. -/
theorem lr_of_amoStoreWait (state : s.ex.state = .exAmoStoreWait) :
    s.lrAddrNext i = s.lrReservationAddr ∧
      s.lrValidNext i = (s.lrReservationValid && !s.exRedirect i) := by
  constructor
  · simp [lrAddrNext, atomicRspOk, state]
  · cases redirect : s.exRedirect i <;> simp [lrValidNext, redirect, state]

/-- An answer that ends the stay without a redirect. -/
theorem lr_of_answer
    (waits : s.ex.state = .exMemWait) (leaves : s.exToWbFire i = true)
    (straight : s.exRedirect i = false) (goes : s.wbSingleStepStop = false) :
    s.lrAddrNext i =
        (if s.exIsLr then s.ex.aluResultReg else s.lrReservationAddr) ∧
      s.lrValidNext i =
        (s.exIsLr || (s.lrReservationValid && !s.exIsSc)) := by
  obtain ⟨fire, notAmo⟩ := fire_of_leave_wait waits leaves
  have valid := valid_of_leave leaves
  have fires : s.exMemToWb i = true := by
    simp [exMemToWb, valid, waits, fire, notAmo]
  have ok : i.dRspErr = false := by
    simp only [exRedirect, leaves, goes, Bool.true_and, Bool.not_false,
      Bool.or_eq_false_iff, exException] at straight
    simpa [exCompleteMemErr, exExecToWb, waits, fires]
      using straight.1.1.1.1.1.1.1.1.1.1.2
  cases atomic : s.ex.isAtomic with
  | false =>
      have notLr : s.exIsLr = false := by simp [exIsLr, atomic]
      have notSc : s.exIsSc = false := by simp [exIsSc, atomic]
      simp [lrAddrNext, lrValidNext, atomicRspOk, straight, valid, waits,
        fire, atomic, notLr, notSc]
  | true =>
      cases lr : s.exIsLr with
      | false =>
          have sc : s.exIsSc = true := by
            simpa [exIsAmoOp, atomic, lr] using notAmo
          simp [lrAddrNext, lrValidNext, atomicRspOk, straight, valid, waits,
            fire, atomic, lr, sc, ok, notAmo]
      | true =>
          simp [lrAddrNext, lrValidNext, atomicRspOk, straight, valid, waits,
            fire, atomic, lr, ok]

/-- Without a redirect there is no exception. -/
theorem normal_of_straight
    (leaves : s.exToWbFire i = true) (goes : s.wbSingleStepStop = false)
    (straight : s.exRedirect i = false) : s.exException i = false := by
  by_contra abnormal
  simp [exRedirect, leaves, goes, abnormal] at straight

/-- The reservation behind an instruction that goes on to the next one. -/
theorem lr_of_straight
    (sound : s.ExSound) (leaves : s.exToWbFire i = true)
    (goes : s.wbSingleStepStop = false) (straight : s.exRedirect i = false) :
    (s.exIsLr = true →
      s.lrAddrNext i = s.ex.rs1Val ∧ s.lrValidNext i = true) ∧
    (s.exIsLr = false →
      s.lrAddrNext i = s.lrReservationAddr ∧
        s.lrValidNext i = (s.lrReservationValid &&
          !(s.exIsSc && s.ex.state == .exMemWait))) := by
  have valid := valid_of_leave leaves
  have normal := normal_of_straight leaves goes straight
  cases state : s.ex.state with
  | exExec =>
      obtain ⟨addr, kept⟩ := lr_of_first (i := i) state
      refine ⟨fun lr => ?_, fun notLr => ⟨addr, ?_⟩⟩
      · have access := access_of_normal valid state
          (by simp [exDAccessRaw, lr]) normal
        rw [not_leave_of_access state access] at leaves
        exact absurd leaves (by decide)
      · simp [kept, straight]
  | exMemReq =>
      rw [not_leave_of_request (Or.inl state)] at leaves
      exact absurd leaves (by decide)
  | exMemWait =>
      obtain ⟨addr, kept⟩ := lr_of_answer state leaves straight goes
      refine ⟨fun lr => ?_, fun notLr => ?_⟩
      · have atomic : s.ex.isAtomic = true := by
          simp only [exIsLr, Bool.and_eq_true] at lr
          exact lr.1
        have launched := sound.launched valid (by simp [state])
        rw [addr, kept, lr, if_pos rfl, launched.address,
          aluResult_of_atomic (sound.coherent valid) atomic]
        simp
      · rw [addr, kept, notLr]
        simp
  | exAmoStoreReq =>
      rw [not_leave_of_request (Or.inr state)] at leaves
      exact absurd leaves (by decide)
  | exAmoStoreWait =>
      obtain ⟨addr, kept⟩ := lr_of_amoStoreWait (i := i) state
      have notLr := (s.atomic_of_amo (sound.amo valid (Or.inr state))).2.1
      refine ⟨fun lr => absurd (notLr.symm.trans lr) (by decide),
        fun _ => ⟨addr, ?_⟩⟩
      simp [kept, straight]
  | exWb => exact absurd state sound.notWb

/-- An SC that is going to fail makes no access. -/
theorem not_access_of_denied
    (coherent : s.ex.toDecoded.Coherent) (sc : s.exIsSc = true)
    (denied : s.exScSucceeds = false) : s.exMemAccess = false := by
  simp only [exIsSc, Bool.and_eq_true, beq_iff_eq] at sc
  have opcode : s.ex.opcode = opAmo := by
    simpa [coherent.isAtomic] using sc.1
  have flags := coherent.flags_of_opcode opcode
  simp +decide [exMemAccess, exDAccessRaw, exIsAmoOp, exIsLr, exIsSc, flags,
    sc.2, denied]

/-- An SC leaves EX in its first cycle or with an answer. -/
theorem first_of_sc
    (sound : s.ExSound) (leaves : s.exToWbFire i = true)
    (sc : s.exIsSc = true) (noAnswer : s.ex.state ≠ .exMemWait) :
    s.ex.state = .exExec := by
  by_contra later
  have storing : s.ex.state = .exAmoStoreWait := by
    cases state : s.ex.state with
    | exExec => exact absurd state later
    | exMemReq =>
        rw [not_leave_of_request (Or.inl state)] at leaves
        exact absurd leaves (by decide)
    | exMemWait => exact absurd state noAnswer
    | exAmoStoreReq =>
        rw [not_leave_of_request (Or.inr state)] at leaves
        exact absurd leaves (by decide)
    | exAmoStoreWait => rfl
    | exWb => exact absurd state sound.notWb
  have amo := sound.amo (valid_of_leave leaves) (Or.inr storing)
  rw [(s.atomic_of_amo amo).2.2] at sc
  exact absurd sc (by decide)

end Core

/-! ## The events that a reservation depends on -/

/-- An LR, an SC, or the entry into a handler. -/
inductive ReservationEvent where
  | lr (addr : BitVec 32)
  | sc
  | trap
  deriving DecidableEq, Repr

namespace Run

variable {p : Params} (r : Run p)

/-- An instruction goes from EX to WB. -/
def departs (n : ℕ) : Bool :=
  (r.state n).exToWbFire (r.inputs n) && !(r.state n).wbSingleStepStop

/-- The event of cycle `n`: a trap if WB takes one in the next cycle, else an
LR or SC that goes to WB. -/
def reservationEvent (n : ℕ) : Option ReservationEvent :=
  if r.departs n then
    if (r.state (n + 1)).trapEnter then some .trap
    else if (r.state n).exIsLr then some (.lr (r.state n).ex.rs1Val)
    else if (r.state n).exIsSc then some .sc
    else none
  else none

/-- The most recent event before cycle `n`. -/
def lastEvent : ℕ → Option ReservationEvent
  | 0 => none
  | n + 1 => (r.reservationEvent n).or (lastEvent n)

variable {r} {n : ℕ}

/-- WB is empty while the instruction in EX accesses the bus. -/
theorem wb_empty_of_later
    (valid : (r.state n).ex.valid = true)
    (later : (r.state n).ex.state ≠ .exExec) :
    (r.state n).wb.valid = false := by
  cases n with
  | zero => rfl
  | succ n =>
      cases (r.state n).exCycle (r.inputs n) with
      | issued issue next =>
          rw [r.state_succ, Core.step_ex, next] at later
          exact absurd rfl later
      | emptied _ empty =>
          rw [r.state_succ, Core.step_ex, empty] at valid
          exact absurd valid (by decide)
      | accesses _ _ _ first access =>
          exact Core.wb_of_stay (Core.not_leave_of_access first access)
      | waits _ _ _ _ busy => exact Core.wb_of_stay busy

/-- A cycle in which nothing departs leaves the reservation alone. -/
theorem lr_of_not_departs (stays : r.departs n = false) :
    (r.state (n + 1)).lrReservationAddr = (r.state n).lrReservationAddr ∧
      (r.state (n + 1)).lrReservationValid =
        (r.state n).lrReservationValid := by
  cases leaves : (r.state n).exToWbFire (r.inputs n) with
  | false => exact Core.lr_of_busy leaves
  | true =>
      have stop : (r.state n).wbSingleStepStop = true := by
        simpa [departs, leaves] using stays
      have valid := Core.valid_of_leave leaves
      have first : (r.state n).ex.state = .exExec := by
        by_contra later
        simp [Core.wbSingleStepStop, wb_empty_of_later valid later] at stop
      obtain ⟨addr, kept⟩ := Core.lr_of_first (i := r.inputs n) first
      refine ⟨addr, kept.trans ?_⟩
      simp [Core.exRedirect, stop]

/-! ## Safety of LR and SC -/

/-- In cycle `n` an SC meets a valid reservation of another address; no
exception, interrupt or stop removes it from EX. -/
structure MissesReservation (r : Run p) (n : ℕ) : Prop where
  valid : (r.state n).ex.valid = true
  first : (r.state n).ex.state = .exExec
  sc : (r.state n).exIsSc = true
  reserved : (r.state n).lrReservationValid = true
  elsewhere : (r.state n).lrReservationAddr ≠ (r.state n).ex.rs1Val
  goes : (r.state n).wbSingleStepStop = false
  normal : (r.state n).exException (r.inputs n) = false
  quiet : (r.state n).irqPending (r.inputs n) = false

/-- The SC in EX from cycle `n` on leaves in cycle `x` and does not trap. -/
structure CompletesSc (r : Run p) (n x : ℕ) : Prop
    extends r.LeavesAt n x where
  sc : (r.state n).exIsSc = true
  first : (r.state n).ex.state = .exExec
  goes : (r.state x).wbSingleStepStop = false
  normal : (r.state x).exException (r.inputs x) = false

/-- WB returns a value to the register of the instruction that leaves EX in
cycle `x`. -/
def Returns (r : Run p) (x : ℕ) (val : BitVec 32) : Prop :=
  ∀ rf, (r.state (x + 1)).wbWrite (r.inputs (x + 1)) rf =
    if (r.state x).ex.rd = 0 then rf
    else Function.update rf (r.state x).ex.rd val

/-- The SC writes its word once and returns 0. -/
structure Stores (r : Run p) (n x : ℕ) : Prop where
  asks : r.asked (x + 1) = r.asked n ++
    [⟨(r.state n).ex.rs1Val, true, (r.state n).ex.rs2Val, 0b1111⟩]
  returns : r.Returns x 0

/-- The SC makes no request and returns 1. -/
structure Fails (r : Run p) (n x : ℕ) : Prop where
  asks : r.asked (x + 1) = r.asked n
  silent : ∀ m, n ≤ m → m ≤ x → r.dPresents m = none
  returns : r.Returns x 1

/-- Each SC that does not trap stores or fails, stores only if an LR of its
address is the most recent event, and leaves no reservation behind. -/
structure LrScSafe (r : Run p) : Prop where
  outcome : ∀ n x, r.CompletesSc n x → r.Stores n x ∨ r.Fails n x
  reserved : ∀ n x, r.CompletesSc n x → r.Stores n x →
    r.lastEvent n = some (.lr (r.state n).ex.rs1Val)
  cleared : ∀ n x, r.CompletesSc n x →
    (r.state (x + 1)).lrReservationValid = false

/-! ### What becomes of an SC -/

/-- The reservation does not change while an instruction stays in EX. -/
theorem LeavesAt.reservation {x m : ℕ} (stay : r.LeavesAt n x)
    (above : n ≤ m) (within : m ≤ x) :
    (r.state m).lrReservationAddr = (r.state n).lrReservationAddr ∧
      (r.state m).lrReservationValid = (r.state n).lrReservationValid := by
  induction m, above using Nat.le_induction with
  | base => exact ⟨rfl, rfl⟩
  | succ m above inductionHypothesis =>
      obtain ⟨addr, valid⟩ := inductionHypothesis (by omega)
      obtain ⟨addrNext, validNext⟩ :=
        Core.lr_of_busy (stay.quiet above (by omega)).1
      exact ⟨addrNext.trans addr, validNext.trans valid⟩

section Sc

variable {x : ℕ} (completes : r.CompletesSc n x)
include completes

theorem CompletesSc.valid : (r.state n).ex.valid = true :=
  completes.toLeavesAt.valid le_rfl completes.le

theorem CompletesSc.atomic :
    (r.state n).ex.isAtomic = true ∧ (r.state n).exIsLr = false ∧
      (r.state n).exIsAmoOp = false := by
  have sc := completes.sc
  simp only [Core.exIsSc, Bool.and_eq_true, beq_iff_eq] at sc
  refine ⟨sc.1, ?_, by simp [Core.exIsAmoOp, completes.sc]⟩
  simp [Core.exIsLr, sc]

theorem CompletesSc.succeeds_eq :
    (r.state x).exScSucceeds = (r.state n).exScSucceeds := by
  obtain ⟨addr, valid⟩ := completes.toLeavesAt.reservation completes.le le_rfl
  simp only [Core.exScSucceeds, completes.same.exIsSc, addr, valid,
    completes.same.rs1Val]

theorem CompletesSc.returns :
    r.Returns x (if (r.state n).exScSucceeds then 0 else 1) := by
  intro rf
  have same := completes.same.exIsSc.trans completes.sc
  obtain ⟨atomic, notLr, -⟩ := completes.atomic
  rw [r.state_succ, Core.wbWrite_of_atomic completes.leaves completes.normal
    ((r.exSound x).coherent (Core.valid_of_leave completes.leaves))
    completes.goes (by rw [completes.same.toDecoded]; exact atomic)
    (completes.same.exIsLr.trans notLr), same, completes.succeeds_eq,
    if_pos rfl]

theorem CompletesSc.stores (succeeds : (r.state n).exScSucceeds = true) :
    r.Stores n x := by
  obtain ⟨atomic, -, notAmo⟩ := completes.atomic
  have access := completes.toLeavesAt.access_of_normal completes.first
    (by simp [Core.exDAccessRaw, completes.sc, succeeds]) completes.normal
  have coherent := (r.exSound n).coherent completes.valid
  refine ⟨?_, ?_⟩
  · rw [(completes.toLeavesAt.of_single completes.first access notAmo).2.2.1,
      Core.dReq_of_atomic coherent atomic completes.first access,
      completes.sc]
    rfl
  · have returns := completes.returns
    rwa [succeeds, if_pos rfl] at returns

theorem CompletesSc.fails (denied : (r.state n).exScSucceeds = false) :
    r.Fails n x := by
  obtain ⟨here, asks, silent⟩ :=
    completes.toLeavesAt.of_plain completes.first
      (Core.not_access_of_denied ((r.exSound n).coherent completes.valid)
        completes.sc denied)
  refine ⟨asks, fun m above within => ?_, ?_⟩
  · obtain rfl : m = n := by omega
    exact silent
  · have returns := completes.returns
    rwa [denied, if_neg (by decide)] at returns

theorem CompletesSc.stores_iff :
    r.Stores n x ↔ (r.state n).exScSucceeds = true := by
  refine ⟨fun stores => ?_, completes.stores⟩
  by_contra denied
  have twice := stores.asks.symm.trans
    (completes.fails (by simpa using denied)).asks
  simp at twice

end Sc

/-! ### The most recent event -/

theorem lastEvent_of_none (silent : r.reservationEvent n = none) :
    r.lastEvent (n + 1) = r.lastEvent n := by
  rw [lastEvent, silent, Option.none_or]

theorem lastEvent_of_some {event : ReservationEvent}
    (emits : r.reservationEvent n = some event) :
    r.lastEvent (n + 1) = some event := by
  rw [lastEvent, emits, Option.some_or]

section Departs

variable (leaves : (r.state n).exToWbFire (r.inputs n) = true)
  (goes : (r.state n).wbSingleStepStop = false)
  (straight : (r.state n).exRedirect (r.inputs n) = false)
include leaves goes straight

theorem reservationEvent_of_straight :
    r.reservationEvent n =
      if (r.state n).exIsLr then some (.lr (r.state n).ex.rs1Val)
      else if (r.state n).exIsSc then some .sc
      else none := by
  have noTrap : (r.state (n + 1)).trapEnter = false := by
    by_contra trap
    have enters : ((r.state n).step (r.inputs n)).trapEnter = true := by
      simpa [r.state_succ] using trap
    have redirect := Core.redirect_of_commit (Or.inl enters)
    rw [straight] at redirect
    exact Bool.false_ne_true redirect
  simp [reservationEvent, departs, leaves, goes, noTrap]

/-- An SC that goes on and clears nothing met the reservation of another
address. -/
theorem misses_of_sc (sc : (r.state n).exIsSc = true)
    (reserved : (r.state n).lrReservationValid = true)
    (first : (r.state n).ex.state = .exExec) : r.MissesReservation n := by
  have valid := Core.valid_of_leave leaves
  have normal := Core.normal_of_straight leaves goes straight
  have atomic : (r.state n).ex.isAtomic = true := by
    simp only [Core.exIsSc, Bool.and_eq_true] at sc
    exact sc.1
  have redirects := Core.redirect_of_isAccess ((r.exSound n).coherent valid)
    (by simp [Decoded.isAccess, atomic]) leaves goes
  refine ⟨valid, first, sc, reserved, fun same => ?_, goes, normal, ?_⟩
  · have access := Core.access_of_normal valid first
      (by simp [Core.exDAccessRaw, Core.exScSucceeds, sc, reserved, same])
      normal
    rw [Core.not_leave_of_access first access] at leaves
    exact absurd leaves (by decide)
  · simpa [straight, normal] using redirects

end Departs

/-- A redirect leaves no reservation behind. -/
theorem straight_of_reserved
    (reserved : (r.state (n + 1)).lrReservationValid = true) :
    (r.state n).exRedirect (r.inputs n) = false := by
  by_contra redirect
  have cleared : (r.state (n + 1)).lrReservationValid = false := by
    show (r.state n).lrValidNext (r.inputs n) = false
    simp [Core.lrValidNext, redirect]
  rw [cleared] at reserved
  exact Bool.false_ne_true reserved

/-- A valid reservation is the one of the most recent event. -/
theorem lastEvent_of_reserved
    (never : ∀ m, m < n → ¬ r.MissesReservation m)
    (reserved : (r.state n).lrReservationValid = true) :
    r.lastEvent n = some (.lr (r.state n).lrReservationAddr) := by
  induction n with
  | zero => exact absurd reserved Bool.false_ne_true
  | succ n inductionHypothesis =>
      have before := inductionHypothesis fun m below => never m (by omega)
      cases departs : r.departs n with
      | false =>
          obtain ⟨addr, valid⟩ := lr_of_not_departs departs
          rw [lastEvent_of_none (by simp [reservationEvent, departs]), addr]
          exact before (valid ▸ reserved)
      | true =>
          obtain ⟨leaves, goes⟩ : _ ∧ (r.state n).wbSingleStepStop = false := by
            simpa [Run.departs] using departs
          have straight := straight_of_reserved reserved
          have event := reservationEvent_of_straight leaves goes straight
          obtain ⟨ofLr, ofOther⟩ :=
            Core.lr_of_straight (r.exSound n) leaves goes straight
          cases lr : (r.state n).exIsLr with
          | true =>
              rw [lastEvent_of_some (by rw [event, if_pos lr])]
              exact congrArg _ (congrArg _ (ofLr lr).1.symm)
          | false =>
              obtain ⟨addr, kept⟩ := ofOther lr
              have held : (r.state n).lrValidNext (r.inputs n) = true :=
                reserved
              rw [kept, Bool.and_eq_true] at held
              have notSc : (r.state n).exIsSc = false := by
                by_contra sc
                have isSc : (r.state n).exIsSc = true := by simpa using sc
                have first := Core.first_of_sc (r.exSound n) leaves isSc
                  fun waits => by simp [isSc, waits] at held
                exact never n (by omega)
                  (misses_of_sc leaves goes straight isSc held.1 first)
              rw [lastEvent_of_none (by rw [event, lr, notSc]; rfl)]
              exact (before held.1).trans
                (congrArg _ (congrArg _ addr.symm))

/-- LR and SC are safe in a run if and only if no SC goes past a reservation
of another address. -/
theorem lrScSafe_iff (r : Run p) :
    r.LrScSafe ↔ ∀ n, ¬ r.MissesReservation n := by
  constructor
  · intro safe n misses
    -- this SC fails, so that it leaves the reservation behind
    have denied : (r.state n).exMemAccess = false :=
      Core.not_access_of_denied ((r.exSound n).coherent misses.valid)
        misses.sc (by simp [Core.exScSucceeds, misses.elsewhere])
    have leaves : (r.state n).exToWbFire (r.inputs n) = true := by
      simp [Core.leave_of_exec misses.first, misses.valid, denied]
    have completes : r.CompletesSc n n :=
      { le := le_rfl, leaves := leaves, sc := misses.sc, goes := misses.goes
        stays := fun m above below => absurd below (by omega)
        same := SameInstr.refl _, first := misses.first
        normal := misses.normal }
    have straight := Core.redirect_of_isAccess
      ((r.exSound n).coherent misses.valid)
      (by simp [Decoded.isAccess, completes.atomic]) leaves misses.goes
    rw [misses.normal, misses.quiet, Bool.or_false] at straight
    have kept : (r.state (n + 1)).lrReservationValid =
        ((r.state n).lrReservationValid &&
          !(r.state n).exRedirect (r.inputs n)) :=
      (Core.lr_of_first misses.first).2
    rw [safe.cleared n n completes, misses.reserved, straight] at kept
    exact absurd kept (by decide)
  · intro never
    refine ⟨fun n x completes => ?_, fun n x completes stores => ?_,
      fun n x completes => ?_⟩
    · cases succeeds : (r.state n).exScSucceeds with
      | true => exact Or.inl (completes.stores succeeds)
      | false => exact Or.inr (completes.fails succeeds)
    · have succeeds := completes.stores_iff.mp stores
      simp only [Core.exScSucceeds, Bool.and_eq_true, beq_iff_eq] at succeeds
      rw [lastEvent_of_reserved (fun m _ => never m) succeeds.1.2, succeeds.2]
    · by_contra still
      have reserved : (r.state (x + 1)).lrReservationValid = true := by
        simpa using still
      have straight := straight_of_reserved reserved
      have sc := completes.same.exIsSc.trans completes.sc
      have notLr := completes.same.exIsLr.trans completes.atomic.2.1
      have kept := ((Core.lr_of_straight (r.exSound x) completes.leaves
        completes.goes straight).2 notLr).2
      have held : (r.state x).lrValidNext (r.inputs x) = true := reserved
      rw [kept, Bool.and_eq_true] at held
      have first := Core.first_of_sc (r.exSound x) completes.leaves sc
        fun waits => by simp [sc, waits] at held
      exact never x (misses_of_sc completes.leaves completes.goes straight sc
        held.1 first)

end Run

/-- `addi x1, x0, 4`, `lr.w x2, (x0)`, `sc.w x3, x0, (x1)`, and then
`sc.w x4, x0, (x0)`, in EX in the cycles 3, 5, 7 and 9. -/
def storesElsewhere : Run {} :=
  Run.script {}
    (CoreIn.fetch [(Base.opImm .addi 1 0 4).encode,
        (Instr.lr false false 2 0).encode] ++
      [.accept,
        { CoreIn.answer (Instr.sc false false 3 1 0).encode with
          dReqReady := true },
        { iReqReady := true, dRspValid := true },
        .answer (Instr.sc false false 4 0 0).encode, .idle,
        { dReqReady := true }, { dRspValid := true }])

theorem storesElsewhere_completesSc : storesElsewhere.CompletesSc 9 10 where
  le := by decide
  leaves := by decide
  stays := fun m above below => by
    obtain rfl : m = 9 := by omega
    decide
  same := by constructor <;> decide
  sc := by decide
  first := by decide
  goes := by decide
  normal := by decide

/-- The second SC stores, although the first is the most recent event. -/
theorem not_lrScSafe :
    ¬ ∀ (p : Params) (r : Run p),
      (∀ n, (r.inputs n).iRspErr = false ∧ (r.inputs n).dRspErr = false) →
        r.LrScSafe := by
  intro safe
  have noErr (n : ℕ) : (storesElsewhere.inputs n).iRspErr = false ∧
      (storesElsewhere.inputs n).dRspErr = false :=
    Run.script_inputs_of_forall
      (P := fun i => i.iRspErr = false ∧ i.dRspErr = false) ⟨rfl, rfl⟩
      (by decide) n
  have stores := storesElsewhere_completesSc.stores (by decide)
  have last := (safe {} storesElsewhere noErr).reserved 9 10
    storesElsewhere_completesSc stores
  exact absurd last (by decide)

end SisRv
