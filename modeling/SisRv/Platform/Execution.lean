import SisRv.Platform.Program

/-!
# The platform executes programs

A core that is backed by a store executes a program in the ROM as a hart does
on the memory of the platform, for as long as the program consists of ordinary
instructions.
-/

namespace SisRv

open Riscv Sync

/-! ## One instruction -/

namespace Arch

variable {p : Params} (m : Arch p) (b : Backing) (h h' : Hart Contents)

/-- The next instruction of the serial machine takes the hart from `h` to
`h'`. -/
structure Ready (o : Outcome) : Prop where
  does : (m.begun b.instrs).Does o
  sane : (m.begun b.instrs).Sane
  untouched : m.csr.Untouched
  performs : h.perform b.memory o = some h'
  regs : m.operands = h.regs

variable {m b h h'} {o : Outcome} {parcel : Parcel}

/-- An access that the memory accepts is aligned. -/
theorem aligned_of_performs {s : Core p} (does : s.Does o)
    (performs : h.perform b.memory o = some h')
    (raw : s.exDAccessRaw = true) : s.exMemAligned = true := by
  have requests := does.requests
  rw [Core.exMemAligned, Bool.not_eq_true']
  rw [Hart.perform] at performs
  cases effect : o.effect with
  | loads op rd a =>
      rw [effect] at performs requests
      obtain ⟨⟨v, c⟩, loads, -⟩ := Option.map_eq_some_iff.mp performs
      rw [does.address (a := a) (by rw [effect]; rfl), requests.2.1]
      apply not_misaligned_of_isAligned
      rw [size_of_load]
      exact Contents.isAligned_of_load loads
  | stores op a v =>
      rw [effect] at performs requests
      obtain ⟨c, stores, -⟩ := Option.map_eq_some_iff.mp performs
      rw [does.address (a := a) (by rw [effect]; rfl), requests.2.1]
      apply not_misaligned_of_isAligned
      rw [size_of_store]
      exact Contents.isAligned_of_store stores
  | nothing | writes | breaks =>
      rw [effect] at requests
      have none : s.exDAccessRaw = false := requests
      rw [none] at raw
      cases raw

/-- The front end latches the instruction that lies at the PC. -/
theorem latched_of_liesAt (enableC : p.enableC = true)
    (untouched : m.csr.Untouched) (lies : parcel.LiesAt b.half m.pc) :
    (m.fetching b.instrs).fe.ifId = parcel.latched m.pc := by
  have free (addr : BitVec 30) : b.instrs.refused m.denied addr = false := by
    rw [InstrMemory.refused, denied, untouched.fields.2.1, untouched.allows]
    rfl
  show b.instrs.parcelAt p.enableC m.denied m.pc = _
  rw [enableC]
  exact parcelAt_of_liesAt (fun at_ => (Backing.half_eq_some at_).1) free lies

theorem ready_of_executes (enableC : p.enableC = true)
    (enableM : p.enableM = true) (untouched : m.csr.Untouched)
    (pc : m.pc = h.pc) (regs : m.operands = h.regs)
    (accepted : parcel.Accepted)
    (executes : h.Executes b.memory h' parcel) :
    ∃ o, m.Ready b h h' o := by
  obtain ⟨o, outcome, performs⟩ := Option.bind_eq_some_iff.mp executes.performs
  have lies : parcel.LiesAt b.half m.pc := by
    rw [pc]
    exact executes.liesAt
  have latched := latched_of_liesAt enableC untouched lies
  obtain ⟨holds, place, expanded, fetched⟩ :=
    holds_of_latched latched lies accepted
  have zero : m.operands 0 = 0 := rfl
  rw [← regs, ← pc, ← place] at outcome
  have does := Core.does_of_holds enableM zero holds outcome
  obtain ⟨half, at_⟩ := Backing.half_of_liesAt lies
  refine ⟨o, does, ?_, untouched, performs, regs⟩
  exact {
    executes := ⟨_, _, holds.executes⟩
    even := by
      rw [place, ← BitVec.testBit_toNat, Nat.testBit_zero,
        (Backing.half_eq_some at_).2.1]
      rfl
    legal := does.legal
    expanded := expanded
    fetched := fetched
    notAtomic := does.notAtomic
    notSystem := does.notSystem
    aligned := aligned_of_performs does performs }

namespace Ready

variable (ready : m.Ready b h h' o)
include ready

theorem access :
    (m.begun b.instrs).exMemAccess = (m.begun b.instrs).exDAccessRaw := by
  have made : (m.begun b.instrs).exMemAccess =
      ((m.begun b.instrs).exDAccessRaw && (m.begun b.instrs).exMemAligned) :=
    Core.access_of_untouched ready.untouched
  rw [made]
  by_cases raw : (m.begun b.instrs).exDAccessRaw = true
  · rw [raw, ready.sane.aligned raw]
    rfl
  · simp [raw]

theorem notAmo : (m.begun b.instrs).exIsAmoOp = false := by
  simp [Core.exIsAmoOp, ready.sane.notAtomic]

theorem pc : h'.pc = o.next := by
  have performs := ready.performs
  rw [Hart.perform] at performs
  cases effect : o.effect with
  | nothing | writes =>
      rw [effect] at performs
      rw [← Option.some.inj performs]
  | loads op rd a =>
      rw [effect] at performs
      obtain ⟨_, -, rfl⟩ := Option.map_eq_some_iff.mp performs
      rfl
  | stores op a v =>
      rw [effect] at performs
      obtain ⟨_, -, rfl⟩ := Option.map_eq_some_iff.mp performs
      rfl
  | breaks =>
      rw [effect] at performs
      cases performs

/-- Without an access the memory is as before. -/
theorem of_plain (plain : (m.begun b.instrs).exMemAccess = false) :
    h'.memory = h.memory ∧
      ∀ word, h'.regs = o.effect.regs (o.effect.loaded word) h.regs := by
  have performs := ready.performs
  have requests := ready.does.requests
  rw [ready.access] at plain
  rw [Hart.perform] at performs
  cases effect : o.effect with
  | nothing | writes =>
      rw [effect] at performs
      rw [← Option.some.inj performs]
      exact ⟨rfl, fun _ => rfl⟩
  | loads op rd a =>
      rw [effect] at requests
      rw [requests.1] at plain
      cases plain
  | stores op a v =>
      rw [effect] at requests
      rw [requests.1] at plain
      cases plain
  | breaks =>
      rw [effect] at performs
      cases performs

/-- The request is the one whose answer the hart gets. -/
theorem of_access {log : List BusReq}
    (memory : (b.store log).contents = h.memory)
    (access : (m.begun b.instrs).exMemAccess = true) :
    b.Serves log (m.begun b.instrs).dReq h'.memory ∧
      ∀ word, ((m.begun b.instrs).dReq.we = false →
          word = (b.answer (log ++ [(m.begun b.instrs).dReq])).1) →
        h'.regs = o.effect.regs (o.effect.loaded word) h.regs := by
  have performs := ready.performs
  have requests := ready.does.requests
  have first : (m.begun b.instrs).ex.state = .exExec := rfl
  rw [Hart.perform, ← memory] at performs
  cases effect : o.effect with
  | loads op rd a =>
      rw [effect] at performs requests
      obtain ⟨⟨v, c⟩, loads, rfl⟩ := Option.map_eq_some_iff.mp performs
      obtain ⟨addr, read⟩ := requests.2.2 first access
      obtain ⟨serves, value⟩ := Backing.serves_load loads addr read
      refine ⟨serves, fun word same => ?_⟩
      rw [Effect.loaded, same read, value]
  | stores op a v =>
      rw [effect] at performs requests
      obtain ⟨c, stores, rfl⟩ := Option.map_eq_some_iff.mp performs
      obtain ⟨addr, write, bytes⟩ := requests.2.2 first access
      have serves := Backing.serves_store stores addr write bytes
        fun lowest => ready.does.stores effect lowest first access
      exact ⟨serves, fun _ _ => rfl⟩
  | nothing | writes | breaks =>
      rw [effect] at requests
      have none : (m.begun b.instrs).exDAccessRaw = false := requests
      rw [ready.access, none] at access
      cases access

end Ready

/-- x0 stays 0. -/
theorem operands_of_regs {m' : Arch p} {e : Effect} {word : BitVec 32}
    (regs : m'.regs = e.regs word m.regs) :
    m'.operands = e.regs word m.operands := by
  have written (rd : BitVec 5) (value : BitVec 32) :
      (fun a => if a = 0 then 0 else
        (if rd = 0 then m.regs else Function.update m.regs rd value) a) =
        if rd = 0 then m.operands
        else Function.update m.operands rd value := by
    by_cases zero : rd = 0
    · rw [if_pos zero, if_pos zero]
      rfl
    · rw [if_neg zero, if_neg zero]
      funext a
      by_cases same : a = rd
      · rw [same, if_neg zero, Function.update_self, Function.update_self]
      · rw [Function.update_of_ne same, Function.update_of_ne same]
        rfl
  show (fun a => if a = 0 then 0 else m'.regs a) = _
  rw [regs]
  cases e with
  | writes rd value => exact written rd value
  | loads op rd a => exact written rd word
  | _ => rfl

end Arch

/-! ## One cycle -/

namespace Run

variable {p : Params} (r : Run p) (b : Backing)

open Classical in
/-- The words of the ROM, and the answers that the core gets in the run. -/
noncomputable def told : Surroundings where
  mem := b.instrs
  answer := fun log =>
    if answered : ∃ n, r.dHandsOver n = true ∧ r.asked n = log then
      ((r.inputs answered.choose).dRspRdata,
        (r.inputs answered.choose).dRspErr)
    else (0, false)

theorem told_answer (single : r.NoSingleStep) {n : ℕ}
    (hands : r.dHandsOver n = true) :
    (r.told b).answer (r.asked n) =
      ((r.inputs n).dRspRdata, (r.inputs n).dRspErr) := by
  have answered : ∃ k, r.dHandsOver k = true ∧ r.asked k = r.asked n :=
    ⟨n, hands, rfl⟩
  have same : answered.choose = n :=
    eq_of_answered single answered.choose_spec.1 hands answered.choose_spec.2
  simp only [told, dif_pos answered, same]

/-- In cycle `n` the core is in the next instruction of a hart. -/
structure IsAt (m : Arch p) (h : Hart Contents) (n : ℕ) : Prop where
  tracks : r.Tracks (r.told b) m n
  pc : m.pc = h.pc
  regs : m.operands = h.regs
  behind : (r.csrBehind n).Untouched
  memory : (b.store m.asked).contents = h.memory
  untouched : ∀ k ≤ n, (r.state k).csr.Untouched
  regular : r.RegularUntil n
  before : ∀ req ∈ m.asked, req.Regular

variable {r b} {store : ℕ → Store} {m : Arch p} {h h' : Hart Contents}
  {o : Outcome} {n : ℕ}

namespace IsAt

variable (at_ : r.IsAt b m h n)
include at_

theorem oldestPc : (r.state n).oldestPc = h.pc := at_.tracks.pc.trans at_.pc

theorem arch_untouched : m.csr.Untouched := by
  have same := at_.behind
  rw [CsrState.Untouched, at_.tracks.csr] at same
  rw [same]
  exact .reset

theorem untouched_succ : (r.state (n + 1)).csr.Untouched :=
  Run.untouched_succ (at_.untouched n le_rfl) at_.behind

theorem untouched_until : ∀ k ≤ n + 1, (r.state k).csr.Untouched := by
  intro k within
  rcases Nat.le_succ_iff.mp within with earlier | rfl
  · exact at_.untouched k earlier
  · exact at_.untouched_succ

/-- The instruction of the hart is in EX. -/
theorem same_of_valid (ready : m.Ready b h h' o)
    (valid : (r.state n).ex.valid = true) :
    SameInstr (r.state n).ex (m.begun b.instrs).ex := by
  cases at_.tracks.phase with
  | idle empty =>
      rw [valid] at empty
      cases empty
  | first ex =>
      rw [ex]
      constructor <;> rfl
  | request ex =>
      rw [ex]
      constructor <;> rfl
  | wait ex =>
      rw [ex]
      constructor <;> rfl
  | amoRequest _ _ amo =>
      rw [show (m.begun (r.told b).mem).exIsAmoOp = false from ready.notAmo]
        at amo
      cases amo
  | amoWait _ _ amo =>
      rw [show (m.begun (r.told b).mem).exIsAmoOp = false from ready.notAmo]
        at amo
      cases amo

theorem noDrop (ready : m.Ready b h h' o) :
    (r.state n).exDropsAmo (r.inputs n) = false := by
  by_contra drops
  have drops : (r.state n).exDropsAmo (r.inputs n) = true := by
    simpa using drops
  have same := at_.same_of_valid ready (Core.facts_of_drop drops).1
  have amo : (r.state n).exIsAmoOp = false :=
    same.exIsAmoOp.trans ready.notAmo
  simp [Core.exDropsAmo, amo] at drops

end IsAt

/-- What is served at an address in the ROM. -/
theorem served_of_liesAt (enableC : p.enableC = true)
    (single : r.NoSingleStep) (backed : r.BackedBy b store)
    {parcel : Parcel} (lies : parcel.LiesAt b.half (r.state n).oldestPc)
    (valid : (r.state n).ex.valid = true) : r.Served (r.told b) n where
  words := by
    rw [Core.oldestPc, if_pos valid] at lies
    exact readAs_of_assembled enableC backed
      ((r.provSound backed.bus n).ex valid) lies
  answer := fun fire => told_answer r b single fire

/-- The instruction of the hart leaves EX with its effect. -/
structure Finishes (r : Run p) (b : Backing) (m : Arch p) (h' : Hart Contents)
    (o : Outcome) (n : ℕ) : Prop where
  ends : (m.begun b.instrs).Ends (r.state n) (r.inputs n)
  memory : (b.store (r.asked n)).contents = h'.memory
  regs : h'.regs =
    o.effect.regs (o.effect.loaded (r.inputs n).dRspRdata) m.operands

section Leave

variable (single : r.NoSingleStep) (backed : r.BackedBy b store)
  (at_ : r.IsAt b m h n)
include single backed at_

/-- The response to the request of the instruction. -/
theorem IsAt.response
    (asks : r.asked n = m.asked ++ [(m.begun b.instrs).dReq])
    (hands : r.dHandsOver n = true) :
    (r.inputs n).dRspErr =
        (b.answer (m.asked ++ [(m.begun b.instrs).dReq])).2 ∧
      ((m.begun b.instrs).dReq.we = false →
        (r.inputs n).dRspRdata =
          (b.answer (m.asked ++ [(m.begun b.instrs).dReq])).1) := by
  obtain ⟨req, a, out⟩ := dOutstanding_of_handsOver single hands
  have asked := asked_of_dOutstanding out
  have last : req = (m.begun b.instrs).dReq := by
    rw [asks] at asked
    exact (List.append_inj_right' asked rfl |> List.singleton_inj.mp).symm
  rw [dHandsOver, Core.dataRspFire, Bool.and_eq_true] at hands
  have answered := backed.answer at_.regular out hands.1
  rw [asks, last] at answered
  exact answered

theorem IsAt.finishes (enableC : p.enableC = true)
    (ready : m.Ready b h h' o)
    (leaves : (r.state n).exToWbFire (r.inputs n) = true) :
    r.Finishes b m h' o n := by
  have valid := Core.valid_of_leave leaves
  have goes := r.not_stop_of_noSingleStep single n
  have later := at_.untouched n le_rfl
  cases at_.tracks.phase with
  | idle empty =>
      rw [valid] at empty
      cases empty
  | request ex =>
      rw [Core.not_leave_of_request (Or.inl (by rw [ex]))] at leaves
      cases leaves
  | amoRequest _ _ amo =>
      rw [show (m.begun (r.told b).mem).exIsAmoOp = false from ready.notAmo]
        at amo
      cases amo
  | amoWait _ _ amo =>
      rw [show (m.begun (r.told b).mem).exIsAmoOp = false from ready.notAmo]
        at amo
      cases amo
  | first ex old asks =>
      have state : (r.state n).ex.state = .exExec := by rw [ex]; rfl
      have same := at_.same_of_valid ready valid
      have sane := ready.sane.of_same same
      have plain : (m.begun b.instrs).exMemAccess = false := by
        have none : (r.state n).exMemAccess = false := by
          rw [Core.leave_of_exec state, valid] at leaves
          simpa using leaves
        have raw : (r.state n).exDAccessRaw =
            (m.begun b.instrs).exDAccessRaw := by
          simp [Core.exDAccessRaw, Core.exIsLr, Core.exIsSc, Core.exIsAmoOp,
            same.toDecoded, ready.sane.notAtomic]
        rw [ready.access, ← raw]
        rw [Core.access_of_untouched later] at none
        by_contra made
        have made : (r.state n).exDAccessRaw = true := by simpa using made
        rw [made, sane.aligned made] at none
        cases none
      have leaving : (m.begun b.instrs).LeavesFrom (r.state n) (r.inputs n) :=
        ⟨rfl, rfl, by rw [plain]; exact ex, leaves⟩
      obtain ⟨memory, regs⟩ := ready.of_plain plain
      exact {
        ends := leaving.ends enableC ready.sane ready.untouched later goes
          fun access => by
            rw [plain] at access
            cases access
        memory := by rw [asks, memory, at_.memory]
        regs := by rw [ready.regs]; exact regs _ }
  | wait ex access old asks =>
      have state : (r.state n).ex.state = .exMemWait := by rw [ex]; rfl
      obtain ⟨fire, -⟩ := Core.fire_of_leave_wait state leaves
      have access : (m.begun b.instrs).exMemAccess = true := access
      have asks : r.asked n = m.asked ++ [(m.begun b.instrs).dReq] := asks
      obtain ⟨serves, regs⟩ := ready.of_access at_.memory access
      obtain ⟨err, rdata⟩ := at_.response single backed asks fire
      have leaving : (m.begun b.instrs).LeavesFrom (r.state n) (r.inputs n) :=
        ⟨rfl, rfl, by rw [access]; exact ex, leaves⟩
      exact {
        ends := leaving.ends enableC ready.sane ready.untouched later goes
          fun _ => err.trans serves.ok
        memory := by rw [asks, serves.contents]
        regs := by rw [ready.regs]; exact regs _ rdata }

end Leave

section Step

variable (enableC : p.enableC = true) (free : r.FreeRuns)
  (backed : r.BackedBy b store)
include enableC free backed

theorem sees_of_untouched {parcel : Parcel}
    (untouched : ∀ k ≤ n + 1, (r.state k).csr.Untouched)
    (lies : parcel.LiesAt b.half (r.state n).oldestPc)
    (valid : (r.state n).ex.valid = true) :
    r.Sees (r.told b) (fun _ => .low) n where
  toActsBehind := actsBehind_of_untouched untouched backed.bus valid
  toServed := served_of_liesAt enableC free.single backed lies valid

namespace IsAt

variable (at_ : r.IsAt b m h n) (ready : m.Ready b h h' o)
  {parcel : Parcel} (lies : parcel.LiesAt b.half h.pc)
include at_ lies

theorem sees (valid : (r.state n).ex.valid = true) :
    r.Sees (r.told b) (fun _ => .low) n :=
  sees_of_untouched enableC free backed at_.untouched_until
    (by rw [at_.oldestPc]; exact lies) valid

omit enableC free backed in
theorem regular_succ (data : ∀ req ∈ r.asked (n + 1), req.Regular) :
    r.RegularUntil (n + 1) where
  data := data
  fetch := by
    intro k below addr accepts
    rcases Nat.lt_succ_iff_lt_or_eq.mp below with earlier | rfl
    · exact at_.regular.fetch k earlier addr accepts
    · obtain ⟨half, first⟩ := Backing.half_of_liesAt lies
      refine fetch_of_low ?_ accepts
      rw [at_.oldestPc]
      exact (Backing.half_eq_some first).2.2

include ready

/-- The next instruction takes its turn. -/
theorem leave {next : Parcel} (lands : next.LiesAt b.half h'.pc)
    (leaves : (r.state n).exToWbFire (r.inputs n) = true) :
    r.IsAt b (m.exec (r.told b) (r.moment (fun _ => .low) n)) h'
      (n + 1) := by
  have sees := at_.sees enableC free backed lies
  have finish := at_.finishes free.single backed enableC ready leaves
  have idle := Core.idle_of_untouched (at_.untouched n le_rfl) (r.inputs n)
  obtain ⟨finishes, asks⟩ := at_.tracks.leave free sees leaves
  have pc := (finishes.pc.trans (ready.does.next finish.ends idle)).trans
    ready.pc.symm
  have control := Core.wbControl_of_ends finish.ends ready.sane idle
  rw [← r.state_succ] at control
  have behind : (r.csrBehind (n + 1)).Untouched := by
    rw [CsrState.Untouched, csrBehind_of_plain
      (by rw [Core.csrWenW, control]) (by rw [Core.trapEnter, control])
      (by rw [Core.mretExec, control])]
    exact at_.untouched_succ
  have untouched : ∀ k ≤ n + 1 + 1, (r.state k).csr.Untouched := by
    intro k within
    rcases Nat.le_succ_iff.mp within with earlier | rfl
    · exact at_.untouched_until k earlier
    · exact Run.untouched_succ at_.untouched_succ behind
  have silent : r.asked (n + 1) = r.asked n :=
    asked_of_silence (Core.not_reqFire_of_leave leaves)
  have oldest : (r.state (n + 1)).oldestPc = h'.pc := by
    rw [← pc, finishes.pc, r.state_succ,
      Core.oldestPc_step (r.not_stop_of_noSingleStep free.single n)
        (r.exSound n) (at_.noDrop ready) (r.feSound n) (r.exFollowed n),
      if_pos leaves]
  have tracks := tracks_step free
    (sees_of_untouched enableC free backed untouched
      (by rw [oldest]; exact lands)) at_.tracks sees
  rw [if_pos (by simp [completes, leaves])] at tracks
  exact {
    tracks := tracks
    pc := pc
    regs := by
      have written := ready.does.regs finish.ends (r.inputs (n + 1))
        (r.state (n + 1)).regs
      rw [← r.state_succ, regs_succ free.noWrite n, at_.tracks.regs]
        at written
      rw [finish.regs]
      apply Arch.operands_of_regs
      rw [finishes.regs, regsBehind, regs_succ free.noWrite n,
        at_.tracks.regs, written]
    behind := behind
    memory := by rw [asks, finish.memory]
    untouched := at_.untouched_until
    regular := at_.regular_succ lies (by
      rw [silent]
      exact at_.regular.data)
    before := by
      rw [asks]
      exact at_.regular.data }

/-- The hart stays in an instruction that stays in EX or is on its way. -/
theorem stay (busy : (r.state n).exToWbFire (r.inputs n) = false) :
    r.IsAt b m h (n + 1) := by
  have sees := at_.sees enableC free backed lies
  have noDrop := at_.noDrop ready
  obtain ⟨-, csr⟩ := behind_of_busy free.noWrite busy
  have behind : (r.csrBehind (n + 1)).Untouched := csr.trans at_.behind
  have untouched : ∀ k ≤ n + 1 + 1, (r.state k).csr.Untouched := by
    intro k within
    rcases Nat.le_succ_iff.mp within with earlier | rfl
    · exact at_.untouched_until k earlier
    · exact Run.untouched_succ at_.untouched_succ behind
  have oldest : (r.state (n + 1)).oldestPc = h.pc := by
    rw [← at_.oldestPc, r.state_succ,
      Core.oldestPc_step (r.not_stop_of_noSingleStep free.single n)
        (r.exSound n) noDrop (r.feSound n) (r.exFollowed n), busy,
      if_neg Bool.false_ne_true]
  have tracks := tracks_step free
    (sees_of_untouched enableC free backed untouched
      (by rw [oldest]; exact lies)) at_.tracks sees
  rw [if_neg (by simp [completes, busy, noDrop])] at tracks
  -- a request that is under way is the one of the instruction
  have made (access : (m.begun b.instrs).exMemAccess = true) :
      ∀ req ∈ m.readAsked (r.told b), req.Regular := by
    intro req member
    rcases List.mem_append.mp member with earlier | last
    · exact at_.before req earlier
    · rw [List.mem_singleton.mp last]
      exact (ready.of_access at_.memory access).1.regular
  have data : ∀ req ∈ r.asked (n + 1), req.Regular := by
    cases tracks.phase with
    | idle _ _ asks | first _ _ asks | request _ _ _ asks =>
        rw [asks]
        exact at_.before
    | wait _ access _ asks =>
        rw [asks]
        exact made access
    | amoRequest _ _ amo | amoWait _ _ amo =>
        rw [show (m.begun (r.told b).mem).exIsAmoOp = false from
          ready.notAmo] at amo
        cases amo
  exact {
    tracks := tracks
    pc := at_.pc
    regs := at_.regs
    behind := behind
    memory := at_.memory
    untouched := at_.untouched_until
    regular := at_.regular_succ lies data
    before := at_.before }

end IsAt

end Step

end Run

/-! ## Programs -/

/-- A hart that starts at the reset vector, with the first `count` of the
instructions that it executes. -/
structure Backing.Program (b : Backing) (p : Params)
    (regs : BitVec 5 → BitVec 32) (count : ℕ) where
  hart : ℕ → Hart Contents
  parcel : ℕ → Parcel
  starts : hart 0 =
    ⟨p.resetVector, fun a => if a = 0 then 0 else regs a,
      (b.store []).contents⟩
  executes : ∀ k < count,
    (hart k).Executes b.memory (hart (k + 1)) (parcel k)
  accepted : ∀ k < count, (parcel k).Accepted

namespace Run

variable {p : Params} {r : Run p} {b : Backing} {store : ℕ → Store}
  {count : ℕ}

variable (r store) in
/-- While the core is within a program, the instruction it is in, the
registers and, while no access is under way, the store are those of the hart,
and it begins each instruction. -/
structure Follows (program : b.Program p r.power.regs count) : Prop where
  pc : ∀ n, occurrences r.completes n < count →
    (r.state n).oldestPc = (program.hart (occurrences r.completes n)).pc
  regs : ∀ n, occurrences r.completes n < count → ∀ a ≠ 0,
    r.regsBehind n a =
      (program.hart (occurrences r.completes n)).regs a
  memory : ∀ n, occurrences r.completes n < count →
    (r.state n).dRspReady = false →
      (store n).contents =
        (program.hart (occurrences r.completes n)).memory
  begins : ∀ k < count, ∃ n, occurrences r.completes n = k ∧
    (r.state n).dRspReady = false

/-- No access is under way when an instruction has completed. -/
theorem idle_of_leave (single : r.NoSingleStep) {n : ℕ}
    (leaves : (r.state n).exToWbFire (r.inputs n) = true) :
    (r.state (n + 1)).dRspReady = false := by
  rw [r.state_succ, Core.dRspReady_step (r.exSound n)
    (r.not_stop_of_noSingleStep single n), Core.not_reqFire_of_leave leaves,
    Bool.false_or]
  by_cases waits : (r.state n).dRspReady = true
  · rw [Core.rspFire_of_leave leaves waits, Bool.not_true, Bool.and_false]
  · simp [waits]

theorem isAt_zero {program : b.Program p r.power.regs count} :
    r.IsAt b (Arch.reset p r.power.regs) (program.hart 0) 0 where
  tracks := tracks_zero r _
  pc := by
    rw [program.starts]
    rfl
  regs := by
    rw [program.starts]
    rfl
  behind := csrBehind_of_plain rfl rfl rfl
  memory := by
    rw [program.starts]
    rfl
  untouched := by
    intro k within
    rw [Nat.le_zero.mp within]
    exact untouched_zero
  regular := ⟨by simp [asked, emitted], by simp⟩
  before := by simp [Arch.reset]

section Program

variable (enableC : p.enableC = true) (enableM : p.enableM = true)
  (free : r.FreeRuns) (backed : r.BackedBy b store)
  (program : b.Program p r.power.regs count)
include enableC enableM free backed

/-- Cycle by cycle, as long as the program goes on. -/
theorem isAt_program (n : ℕ)
    (within : occurrences r.completes n < count) :
    ∃ m, r.IsAt b m (program.hart (occurrences r.completes n)) n := by
  induction n with
  | zero => exact ⟨_, isAt_zero⟩
  | succ n inductionHypothesis =>
      have before : occurrences r.completes n < count :=
        (occurrences_le (Nat.le_succ n)).trans_lt within
      obtain ⟨m, at_⟩ := inductionHypothesis before
      have executes := program.executes _ before
      obtain ⟨o, ready⟩ := Arch.ready_of_executes enableC enableM
        at_.arch_untouched at_.pc at_.regs (program.accepted _ before) executes
      cases leaves : (r.state n).exToWbFire (r.inputs n) with
      | true =>
          have mark : r.completes n = true := by simp [completes, leaves]
          rw [occurrences_succ_of_mark mark] at within ⊢
          exact ⟨_, at_.leave enableC free backed ready executes.liesAt
            (program.executes _ within).liesAt leaves⟩
      | false =>
          have unmarked : r.completes n = false := by
            simp [completes, leaves, at_.noDrop ready]
          rw [occurrences_succ_of_not_mark unmarked]
          exact ⟨m, at_.stay enableC free backed ready executes.liesAt
            leaves⟩

theorem ready_program (n : ℕ) (within : occurrences r.completes n < count) :
    ∃ m o, r.IsAt b m (program.hart (occurrences r.completes n)) n ∧
      m.Ready b (program.hart (occurrences r.completes n))
        (program.hart (occurrences r.completes n + 1)) o := by
  obtain ⟨m, at_⟩ := isAt_program enableC enableM free backed program n within
  obtain ⟨o, ready⟩ := Arch.ready_of_executes enableC enableM
    at_.arch_untouched at_.pc at_.regs (program.accepted _ within)
    (program.executes _ within)
  exact ⟨m, o, at_, ready⟩

theorem follows_program : r.Follows store program where
  pc := by
    intro n within
    obtain ⟨m, at_⟩ := isAt_program enableC enableM free backed program n within
    exact at_.oldestPc
  regs := by
    intro n within a other
    obtain ⟨m, at_⟩ := isAt_program enableC enableM free backed program n within
    rw [← at_.regs, at_.tracks.regs, Arch.operands, if_neg other]
  memory := by
    intro n within idle
    obtain ⟨m, o, at_, ready⟩ :=
      ready_program enableC enableM free backed program n within
    rw [backed.contents at_.regular idle, ← at_.memory]
    cases at_.tracks.phase with
    | idle _ _ asks | first _ _ asks | request _ _ _ asks => rw [asks]
    | wait ex =>
        simp [Core.dRspReady, ex, Arch.issue, Core.launched,
          Arch.begun, Arch.core, Core.issuedEx] at idle
    | amoRequest _ _ amo | amoWait _ _ amo =>
        rw [show (m.begun (r.told b).mem).exIsAmoOp = false from
          ready.notAmo] at amo
        cases amo
  begins := by
    intro k below
    have reaches : ∃ n, occurrences r.completes n = k := by
      by_cases always : ∀ n, occurrences r.completes n < count
      · -- the program is not left, and all its accesses are regular
        have often := backed.goes fun n => by
          obtain ⟨m, at_⟩ :=
            isAt_program enableC enableM free backed program n (always n)
          exact at_.regular
        exact exists_occurrences often k
      · push Not at always
        obtain ⟨n, passed⟩ := always
        obtain ⟨m, -, reached⟩ :=
          exists_occurrences_of_le (below.le.trans passed)
        exact ⟨m, reached⟩
    obtain ⟨n, reached⟩ := reaches
    cases k with
    | zero => exact ⟨0, rfl, rfl⟩
    | succ k =>
        obtain ⟨m, mark, first⟩ := exists_mark_of_occurrences reached
        have before : occurrences r.completes m < count := by
          rw [occurrences_succ_of_mark mark] at first
          omega
        obtain ⟨a, o, at_, ready⟩ :=
          ready_program enableC enableM free backed program m before
        have leaves : (r.state m).exToWbFire (r.inputs m) = true := by
          simpa [completes, at_.noDrop ready] using mark
        exact ⟨m + 1, first, idle_of_leave free.single leaves⟩

end Program

end Run

end SisRv
