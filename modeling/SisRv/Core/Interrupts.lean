import SisRv.Core.Handlers
import SisRv.Core.Halting

/-!
# Interrupts

Handlers that behave are not seen by the main program: whatever the interrupt
lines and the timing of the buses are, it commits the same instructions with
the same registers and requests as with the lines low, and every handler
returns to the first instruction that has not been committed.
-/

namespace SisRv

open Sync

namespace Run

variable {p : Params} (r r' : Run p)

/-- The second run, with the interrupt lines low, executes the main program of
the first: whatever the two commit and request for it agrees, after as many
instructions the registers are the same and a handler has the next one in
`mepc`, and each run gets as far as the other if it goes on. -/
structure SameProgram (own : BusReq → Bool) (b b' : ℕ) : Prop where
  committed : ∀ n n', b ≤ n → b' ≤ n' →
    r.mainEntered b n <+: r'.mainEntered b' n' ∨
      r'.mainEntered b' n' <+: r.mainEntered b n
  registers : ∀ n n', b ≤ n → b' ≤ n' → r.inHandler b n = false →
    (r.mainEntered b n).length = (r'.mainEntered b' n').length →
      (r.state (n + 1)).regs = (r'.state (n' + 1)).regs
  requests : ∀ n n', b ≤ n → b' ≤ n' →
    (r.asked n).filter own <+: (r'.asked n').filter own ∨
      (r'.asked n').filter own <+: (r.asked n).filter own
  whole : ∀ n n', b' ≤ n' → r.inHandler b n = true →
    (r.mainEntered b n).length ≤ (r'.mainEntered b' n').length →
      (r.asked n).filter own <+: (r'.asked n').filter own
  recorded : ∀ n n', b' ≤ n' → r.inHandler b n = true →
    (r.mainEntered b n).length = (r'.mainEntered b' n').length →
      (r.state (n + 1)).csr.mepc = (r'.state n').oldestPc
  follows : r'.Responsive → ∀ n, b ≤ n →
    ∃ n', b' ≤ n' ∧ r'.mainEntered b' n' = r.mainEntered b n
  isFollowed : r.Responsive → r.HandlersReturn b → ∀ n', b' ≤ n' →
    ∃ n, b ≤ n ∧ r.mainEntered b n = r'.mainEntered b' n'

variable {r r'} {env : Surroundings} {own : BusReq → Bool}
  {start d : Arch p} {b b' n : ℕ}

/-! ## Without interrupts -/

/-- Outside the handlers only an interrupt leads into one. -/
theorem outside_of_calm
    {x : ℕ} (outside : r.inHandler b x = false)
    (calm : ∀ n, x ≤ n → r.inHandler b n = false →
      (r.state (n + 1)).wbInterrupt = false)
    (n : ℕ) (late : x ≤ n) : r.inHandler b n = false := by
  induction n, late using Nat.le_induction with
  | base => exact outside
  | succ n late inductionHypothesis =>
      simp [inHandler, calm n late inductionHypothesis, inductionHypothesis]

section Low

variable (low : ∀ n, b ≤ n → (r.inputs n).irq = .low)
include low

theorem outside_of_low (n : ℕ) : r.inHandler b n = false := by
  by_contra inside
  rw [Bool.not_eq_false] at inside
  have outside := outside_of_calm (inHandler_start b) (fun n late _ => by
    by_contra interrupt
    rw [Bool.not_eq_false] at interrupt
    have pending := (Core.leaves_of_wbInterrupt (s := r.state n) interrupt).2
    rw [Core.irqPending, low n late, CsrState.irqPending_low] at pending
    exact Bool.false_ne_true pending) n (late_of_inHandler inside)
  exact Bool.false_ne_true (outside.symm.trans inside)

theorem behave_of_low : r.HandlersBehave own b := by
  have outside := outside_of_low low
  have never : ∀ {n : ℕ} {P : Prop}, r.inHandler b n = true → P :=
    fun {n} _ inside =>
      absurd ((outside n).symm.trans inside) Bool.false_ne_true
  exact {
    writes := fun _ inside => never inside
    noException := fun _ inside => never inside
    apart := fun _ inside => never inside
    restores := fun e _ began _ inside => never (inside e le_rfl began) }

theorem handlersReturn_of_low : r.HandlersReturn b :=
  fun n _ => ⟨n, le_rfl, outside_of_low low n⟩

end Low

/-! ## What a cycle has requested -/

/-- The requests of the main program end in the next instruction. -/
theorem Stands.requests_within
    (separate : env.Separate own) (ordinary : d.Ordinary env own)
    (stands : r.Stands env own d b n) :
    d.asked.filter own <+: (r.asked n).filter own ∧
      (r.asked n).filter own <+:
        (d.plainExec env .low).asked.filter own := by
  cases stands with
  | main m at_ =>
      obtain ⟨w, commit⟩ :=
        Arch.exec_same separate at_.same ordinary (r.moment r.lines n)
      obtain ⟨lower, upper⟩ := at_.tracks.asked_within (r.moment r.lines n)
      rw [← at_.same.requests, ← commit.requests at_.same]
      exact ⟨lower.filter own, upper.filter own⟩
  | handler e c at_ =>
      rw [at_.requests]
      exact ⟨List.prefix_refl _, (d.asked_exec env _).filter own⟩

end Run

theorem Arch.asked_alone_le
    {p : Params} {env : Surroundings} {m : Arch p} {k l : ℕ} (le : k ≤ l) :
    (m.alone env k).asked <+: (m.alone env l).asked :=
  log_iterate_grows (fun m => m.asked_exec env ⟨.low, .low, .zero⟩) le

theorem Arch.entered_alone_comparable
    {p : Params} (env : Surroundings) (m : Arch p) (k l : ℕ) :
    (m.alone env k).entered <+: (m.alone env l).entered ∨
      (m.alone env l).entered <+: (m.alone env k).entered :=
  log_comparable (fun m => m.entered_exec env ⟨.low, .low, .zero⟩) k l

namespace Run

variable {p : Params} {r r' : Run p} {env : Surroundings}
  {own : BusReq → Bool} {start : Arch p} {b b' : ℕ}

/-! ## Getting on -/

section Progress

variable (program : start.MainProgram env own)
  (runs : r.RunsMain env start b) (behave : r.HandlersBehave own b)
include program runs behave

/-- If handlers return, the main program executes again and again. -/
theorem main_often
    (responsive : r.Responsive) (returning : r.HandlersReturn b) {n : ℕ}
    (late : b ≤ n) :
    ∃ x, n ≤ x ∧ r.inHandler b x = false ∧
      (r.state x).exToWbFire (r.inputs x) = true := by
  by_contra never
  push Not at never
  obtain ⟨first, above, outside⟩ :
      ∃ first, n ≤ first ∧ r.inHandler b first = false := by
    by_cases inside : r.inHandler b n = true
    · exact returning n inside
    · exact ⟨n, le_rfl, by simpa using inside⟩
  -- no handler is entered without an instruction to interrupt
  have stays : ∀ x, first ≤ x → r.inHandler b x = false :=
    outside_of_calm outside fun x later calm => by
      by_contra interrupt
      rw [Bool.not_eq_false] at interrupt
      exact never x (above.trans later) calm
        (Core.leaves_of_wbInterrupt (s := r.state x) interrupt).1
  obtain ⟨x, later, completes⟩ :=
    completes_often runs.single runs.bus responsive first
  have calm := stays x later
  have reached : b ≤ x := by omega
  obtain ⟨-, stands⟩ := stands_alone program runs behave reached
  cases stands with
  | main m at_ =>
      have noDrop := at_.not_drop runs program.separate
        (program.ordinary _) reached
      rw [Run.completes, noDrop, Bool.or_false] at completes
      exact never x (above.trans later) calm completes
  | handler e c at_ =>
      have inside := at_.inside x at_.began le_rfl
      exact Bool.false_ne_true (calm.symm.trans inside)

/-- Every number of instructions is reached. -/
theorem exists_mainEntered
    (responsive : r.Responsive) (returning : r.HandlersReturn b) (k : ℕ) :
    ∃ n, b ≤ n ∧ (r.mainEntered b n).length = k := by
  have often : ∀ n, ∃ x, n ≤ x ∧ (decide (b ≤ x) && !r.inHandler b x &&
      (r.state x).exToWbFire (r.inputs x)) = true := by
    intro n
    obtain ⟨x, above, outside, leaves⟩ :=
      main_often program runs behave responsive returning (le_max_right n b)
    have late := (le_max_right n b).trans above
    exact ⟨x, (le_max_left n b).trans above, by simp [late, outside, leaves]⟩
  obtain ⟨n, reached⟩ := exists_occurrences often k
  rw [← length_emitted fun x => (r.state (x + 1)).wb.fetched] at reached
  by_cases late : b ≤ n
  · exact ⟨n, late, reached⟩
  · have early := mainEntered_of_early (r := r) (Nat.le_of_not_le late)
    refine ⟨b, le_rfl, ?_⟩
    rw [mainEntered_of_early le_rfl, ← early]
    exact reached

end Progress

theorem exists_atMain
    {n : ℕ} {d : Arch p} (outside : r.inHandler b n = false)
    (stands : r.Stands env own d b n) :
    ∃ m, r.AtMain env own d b n m := by
  cases stands with
  | main m at_ => exact ⟨m, at_⟩
  | handler e c at_ =>
      have inside := at_.inside n at_.began le_rfl
      exact absurd (outside.symm.trans inside) Bool.false_ne_true

theorem exists_atHandler
    {n : ℕ} {d : Arch p} (inside : r.inHandler b n = true)
    (stands : r.Stands env own d b n) :
    ∃ e c, r.AtHandler own d b n e c := by
  cases stands with
  | main m at_ =>
      exact absurd (at_.outside.symm.trans inside) Bool.false_ne_true
  | handler e c at_ => exact ⟨e, c, at_⟩

end Run

/-- Handlers are transparent to a main program that makes no SYSTEM calls,
takes no exceptions and keeps its data apart, under every waveform of the
interrupt lines. -/
theorem interrupts_transparent
    {p : Params} {env : Surroundings} {own : BusReq → Bool} {start : Arch p}
    {r r' : Run p} {b b' : ℕ} (program : start.MainProgram env own)
    (runs : r.RunsMain env start b) (behave : r.HandlersBehave own b)
    (runs' : r'.RunsMain env start b')
    (low : ∀ n, b' ≤ n → (r'.inputs n).irq = .low) :
    r.SameProgram r' own b b' := by
  have behave' : r'.HandlersBehave own b' := Run.behave_of_low low
  have at_ := fun {n : ℕ} (late : b ≤ n) =>
    Run.stands_alone program runs behave late
  have at' := fun {n : ℕ} (late : b' ≤ n) =>
    Run.stands_alone program runs' behave' late
  have outside' := fun n => Run.outside_of_low low n
  have committed : ∀ n n', b ≤ n → b' ≤ n' →
      r.mainEntered b n <+: r'.mainEntered b' n' ∨
        r'.mainEntered b' n' <+: r.mainEntered b n := by
    intro n n' late late'
    have comparable := (Arch.entered_alone_comparable env start
      (r.mainEntered b n).length (r'.mainEntered b' n').length).imp
        (fun before => before.map WbRegs.fetched)
        fun after => after.map WbRegs.fetched
    rw [(at_ late).1, (at' late').1] at comparable
    exact comparable.imp (List.prefix_append_right_inj _).mp
      (List.prefix_append_right_inj _).mp
  have equal : ∀ {n n'}, b ≤ n → b' ≤ n' →
      (r.mainEntered b n).length = (r'.mainEntered b' n').length →
        r.mainEntered b n = r'.mainEntered b' n' := by
    intro n n' late late' same
    rcases committed n n' late late' with before | after
    · exact before.eq_of_length same
    · exact (after.eq_of_length same.symm).symm
  exact {
    committed := committed
    registers := fun n n' late late' outside same => by
      obtain ⟨m, here⟩ := Run.exists_atMain outside (at_ late).2
      obtain ⟨m', there⟩ := Run.exists_atMain (outside' n') (at' late').2
      rw [Run.regs_succ runs.noWrite, Run.regs_succ runs'.noWrite,
        here.tracks.regs, there.tracks.regs, here.same.regs, there.same.regs,
        same]
    requests := fun n n' late late' => by
      have upper := (Run.Stands.requests_within program.separate
        (program.ordinary _) (at_ late).2).2
      have upper' := (Run.Stands.requests_within program.separate
        (program.ordinary _) (at' late').2).2
      rw [← Arch.alone_succ] at upper upper'
      -- both are part of what the later of the two instructions ends with
      exact List.prefix_or_prefix_of_prefix
        (upper.trans ((Arch.asked_alone_le
          (Nat.succ_le_succ (le_max_left _ _))).filter own))
        (upper'.trans ((Arch.asked_alone_le
          (Nat.succ_le_succ (le_max_right _ _))).filter own))
    whole := fun n n' late' inside fewer => by
      obtain ⟨e, c, here⟩ := Run.exists_atHandler inside
        (at_ (Run.late_of_inHandler inside)).2
      rw [here.requests]
      exact ((Arch.asked_alone_le fewer).filter own).trans
        (Run.Stands.requests_within program.separate (program.ordinary _)
          (at' late').2).1
    recorded := fun n n' late' inside same => by
      obtain ⟨e, c, here⟩ := Run.exists_atHandler inside
        (at_ (Run.late_of_inHandler inside)).2
      obtain ⟨m', there⟩ := Run.exists_atMain (outside' n') (at' late').2
      have kept : (r.state (n + 1)).csr.mepc = (r.state e).csrIn.trapEpc :=
        here.behind.mepc
      rw [kept, here.recorded, same, there.tracks.pc, there.same.pc]
    follows := fun responsive n late => by
      obtain ⟨n', late', same⟩ := Run.exists_mainEntered program runs' behave'
        responsive (Run.handlersReturn_of_low low) (r.mainEntered b n).length
      exact ⟨n', late', (equal late late' same.symm).symm⟩
    isFollowed := fun responsive returning n' late' => by
      obtain ⟨n, late, same⟩ := Run.exists_mainEntered program runs behave
        responsive returning (r'.mainEntered b' n').length
      exact ⟨n, late, equal late late' same⟩ }

/-! ## An interrupted load -/

/-- `addi x1, x0, status`, `csrrwi mie, 8` and `csrrw mstatus, x1`, then the
main program: a `nop`, a load and a jump to itself.  The handler is MRET. -/
def loadSurroundings (status : BitVec 12) : Surroundings where
  mem :=
    { data := fun addr =>
        if addr = 64 then (status ++ 0x00093#20 : BitVec 32)
        else if addr = 65 then 0x30445073
        else if addr = 66 then 0x30009073
        else if addr = 67 then 0x00000013
        else if addr = 68 then 0x00002103
        else if addr = 69 then 0x0000006F
        else 0x30200073
      err := fun _ => false }
  answer _ := (5, false)

/-- Until the `nop` is in IF/ID. -/
def loadProlog (status : BitVec 12) : List CoreIn :=
  CoreIn.fetch [status ++ 0x00093#20, 0x30445073, 0x30009073] ++
    [.idle, .accept, .answer 0x00000013, .idle]

/-- The software interrupt arrives while the `nop` is in EX. -/
def interruptedLoad (status : BitVec 12) : Run { resetVector := 0x100 } :=
  Run.script _ (loadProlog status ++
    [{ extMsip := true }, .accept, .answer 0x30200073, .idle, .idle, .accept,
      .answer 0x00002103])

def plainLoad (status : BitVec 12) : Run { resetVector := 0x100 } :=
  Run.script _ (loadProlog status ++
    [.idle, .accept, .answer 0x00002103, .idle, { dReqReady := true },
      { dRspValid := true, dRspRdata := 5 }])

/-- Where the main program begins. -/
def loadMain (status : BitVec 12) : Arch { resetVector := 0x100 } :=
  (plainLoad status).standing 9

theorem standing_interruptedLoad (status : BitVec 12) :
    (interruptedLoad status).standing 9 = loadMain status :=
  Run.standing_congr rfl fun m before => by
    interval_cases m <;> rfl

section Load

variable {status : BitVec 12} (known : status = 8 ∨ status = 0x808)
include known

theorem plainLoad_runsIn :
    (plainLoad status).RunsIn (loadSurroundings status) := by
  rcases known with rfl | rfl <;>
    exact Run.runsIn_script (by decide) (by decide) (by decide)
      (by decide) (by decide) (by decide)

theorem interruptedLoad_runsIn :
    (interruptedLoad status).RunsIn (loadSurroundings status) := by
  rcases known with rfl | rfl <;>
    exact Run.runsIn_script (by decide) (by decide) (by decide)
      (by decide) (by decide) (by decide)

theorem plainLoad_runsMain :
    (plainLoad status).RunsMain (loadSurroundings status) (loadMain status)
      9 where
  toFreeRuns := (plainLoad_runsIn known).toFreeRuns
  begins := Run.tracks_standing (by
    rcases known with rfl | rfl <;> decide)
  written := by rcases known with rfl | rfl <;> decide
  checked := by rcases known with rfl | rfl <;> decide
  served := fun n _ _ valid => (plainLoad_runsIn known).served n valid

theorem interruptedLoad_runsMain :
    (interruptedLoad status).RunsMain (loadSurroundings status)
      (loadMain status) 9 where
  toFreeRuns := (interruptedLoad_runsIn known).toFreeRuns
  begins := by
    rw [← standing_interruptedLoad]
    exact Run.tracks_standing (by
      rcases known with rfl | rfl <;> decide)
  written := by rcases known with rfl | rfl <;> decide
  checked := by rcases known with rfl | rfl <;> decide
  served := fun n _ _ valid => (interruptedLoad_runsIn known).served n valid

theorem interruptedLoad_empty (n : ℕ) (late : 20 ≤ n) :
    ((interruptedLoad status).state n).wb.valid = false := by
  rcases known with rfl | rfl
  · exact (Run.stalled_script (by decide) (by constructor <;> decide +kernel)
      n late).wbEmpty
  · exact Run.empty_script (by decide) (by constructor <;> decide +kernel)
      (by decide +kernel) n late

theorem interruptedLoad_inside (n : ℕ)
    (inside : (interruptedLoad status).inHandler 9 n = true) :
    11 ≤ n ∧ n < 15 := by
  have calm : ∀ n, 20 ≤ n →
      (interruptedLoad status).inHandler 9 n = false := by
    refine Run.outside_of_calm ?_ fun n late _ => ?_
    · rcases known with rfl | rfl <;> decide +kernel
    · have control := Core.wbControl_of_empty
        (interruptedLoad_empty known (n + 1) (by omega))
      simp [Core.wbInterrupt, Core.WbControl.isInterrupt, control]
  have early : ∀ n < 20, (interruptedLoad status).inHandler 9 n = true →
      11 ≤ n ∧ n < 15 := by
    rcases known with rfl | rfl <;> decide
  rcases Nat.lt_or_ge n 20 with before | late
  · exact early n before inside
  · exact absurd ((calm n late).symm.trans inside) Bool.false_ne_true

/-- The handler is MRET alone. -/
theorem interruptedLoad_handler (n : ℕ) (above : 11 ≤ n) (below : n < 15) :
    ((interruptedLoad status).state (n + 1)).csrWenW = false ∧
      ((interruptedLoad status).state (n + 1)).trapEnter = false ∧
      ((interruptedLoad status).state n).dataReqFire
        ((interruptedLoad status).inputs n) = false ∧
      ∀ rs : BitVec 5, ((interruptedLoad status).state (n + 2)).regs rs =
        ((interruptedLoad status).state 12).regs rs := by
  rcases known with rfl | rfl <;> interval_cases n <;> decide

theorem interruptedLoad_behaves :
    (interruptedLoad status).HandlersBehave (fun _ => true) 9 where
  writes := fun n inside writes => by
    obtain ⟨above, below⟩ := interruptedLoad_inside known n inside
    have silent := (interruptedLoad_handler known n above below).1
    exact absurd (silent.symm.trans writes) Bool.false_ne_true
  noException := fun n inside enter => by
    obtain ⟨above, below⟩ := interruptedLoad_inside known n inside
    have silent := (interruptedLoad_handler known n above below).2.1
    exact absurd (silent.symm.trans enter) Bool.false_ne_true
  apart := fun n inside fire => by
    obtain ⟨above, below⟩ := interruptedLoad_inside known n inside
    have silent := (interruptedLoad_handler known n above below).2.2.1
    exact absurd (silent.symm.trans fire) Bool.false_ne_true
  restores := fun e n began entered inside _ => by
    obtain ⟨above, below⟩ :=
      interruptedLoad_inside known n (inside n began le_rfl)
    have first : e = 11 := by
      obtain ⟨after, before⟩ :=
        interruptedLoad_inside known e (inside e le_rfl began)
      by_contra later
      have enter := Core.trapEnter_of_wbInterrupt entered
      obtain ⟨x, rfl⟩ : ∃ x, e = x + 1 := ⟨e - 1, by omega⟩
      have silent :=
        (interruptedLoad_handler known x (by omega) (by omega)).2.1
      exact Bool.false_ne_true (silent.symm.trans enter)
    subst first
    exact funext (interruptedLoad_handler known n above below).2.2.2

theorem loadMain_ordinary (k : ℕ) :
    ((loadMain status).alone (loadSurroundings status) k).Ordinary
      (loadSurroundings status) fun _ => true := by
  have separate :
      (loadSurroundings status).Separate fun _ => true := fun _ _ _ => rfl
  have first : ∀ k < 3,
      ((loadMain status).alone (loadSurroundings status) k).Ordinary
        (loadSurroundings status) fun _ => true := by
    intro k early
    exact {
      system := by
        rcases known with rfl | rfl <;> interval_cases k <;> decide
      notSc := by
        rcases known with rfl | rfl <;> interval_cases k <;> decide
      commits :=
        ⟨(((loadMain status).alone (loadSurroundings status) k).plainExec
          (loadSurroundings status) .low).entered.getLastD (WbRegs.reset 0), by
          rcases known with rfl | rfl <;> interval_cases k <;>
            decide⟩
      requests :=
        ⟨(((loadMain status).alone (loadSurroundings status) k).plainExec
          (loadSurroundings status) .low).asked.drop
            ((loadMain status).alone (loadSurroundings status) k).asked.length,
          by rcases known with rfl | rfl <;> interval_cases k <;>
            decide,
          fun _ _ => rfl⟩ }
  rcases Nat.lt_or_ge k 3 with early | late
  · exact first k early
  · obtain ⟨x, rfl⟩ : ∃ x, k = x + 2 := ⟨k - 2, by omega⟩
    have jump := first 2 (by decide)
    have loops := Arch.ordinary_of_loop separate jump
      (by rcases known with rfl | rfl <;> decide +kernel)
      (funext fun rs => by
        revert rs
        rcases known with rfl | rfl <;> decide +kernel)
      (by rcases known with rfl | rfl <;> decide +kernel) x
    rw [Arch.alone, Function.iterate_add_apply]
    exact jump.of_same separate loops

end Load

theorem interrupts_transparent_load :
    (interruptedLoad 8).SameProgram (plainLoad 8) (fun _ => true) 9 9 :=
  interrupts_transparent
    { separate := fun _ _ _ => rfl
      ordinary := loadMain_ordinary (Or.inl rfl)
      settled := fun _ set => absurd set (by decide) }
    (interruptedLoad_runsMain (Or.inl rfl))
    (interruptedLoad_behaves (Or.inl rfl)) (plainLoad_runsMain (Or.inl rfl))
    fun n _ => Run.script_inputs_of_forall (P := fun i => i.irq = .low) rfl
      (by decide) n

/-- In M-mode with MPRV set and MPP = M the trap and its MRET leave MPP = U, so
that the load that follows is denied. -/
theorem not_interrupts_transparent :
    ¬ ∀ (p : Params) (env : Surroundings) (own : BusReq → Bool)
      (start : Arch p) (r r' : Run p) (b b' : ℕ),
      env.Separate own → (∀ k, (start.alone env k).Ordinary env own) →
      r.RunsMain env start b → r.HandlersBehave own b →
      r'.RunsMain env start b' →
      (∀ n, b' ≤ n → (r'.inputs n).irq = .low) →
        r.SameProgram r' own b b' := by
  intro transparent
  have known : (0x808 : BitVec 12) = 8 ∨ (0x808 : BitVec 12) = 0x808 :=
    Or.inr rfl
  have same := transparent _ (loadSurroundings 0x808) (fun _ => true)
    (loadMain 0x808) (interruptedLoad 0x808) (plainLoad 0x808) 9 9
    (fun _ _ _ => rfl) (loadMain_ordinary known)
    (interruptedLoad_runsMain known) (interruptedLoad_behaves known)
    (plainLoad_runsMain known)
    fun n _ => Run.script_inputs_of_forall (P := fun i => i.irq = .low) rfl
      (by decide) n
  have loaded := same.registers 19 16 (by decide) (by decide)
    (by decide +kernel) (by decide +kernel)
  exact absurd (congrFun loaded 2) (by decide +kernel)

end SisRv
