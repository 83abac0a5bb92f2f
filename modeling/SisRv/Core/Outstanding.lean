import SisRv.Core.Bus

/-!
# Outstanding instruction requests

The instruction port on a bus that may accept a request in any cycle and
answers in order.  One request is outstanding at a time as long as the bus
does not accept a prefetch behind a demand request, or a demand request behind
a prefetch.
-/

namespace SisRv

open Sync

/-! ## Requests and their responses -/

/-- What an instruction request is for. -/
inductive IReqKind where
  | demand
  | second
  | prefetch
  deriving DecidableEq, Repr

/-- An instruction request and the address of its word. -/
structure IReq where
  kind : IReqKind
  word : BitVec 30
  deriving DecidableEq, Repr

namespace Core

variable {p : Params} (s : Core p) (i : CoreIn)

/-- The request at the port. -/
def iReq : IReq where
  kind :=
    if s.ifReqActive i then
      if s.fe.ifState = .ifSecondReq then .second else .demand
    else .prefetch
  word := (s.iReqAddr i).extractLsb' 2 30

/-- What a response is consumed for: the demand FSM takes it when it waits,
the prefetch slot otherwise. -/
def iRspFor : IReq :=
  match s.fe.ifState with
  | .ifWait => ⟨.demand, s.fe.fetchReqPc.extractLsb' 2 30⟩
  | .ifSecondWait => ⟨.second, s.fe.fetchReqPc.extractLsb' 2 30 + 1⟩
  | _ => ⟨.prefetch, s.fe.pfInflightAddr⟩

/-- The bus accepts a request while another one stays outstanding: a prefetch
in `IF_WAIT`, or a demand request while a prefetch is in flight. -/
def iClash : Bool :=
  i.iReqReady && !i.iRspValid &&
    (s.pfIssue i && s.fe.ifState == .ifWait ||
      s.ifReqActive i && s.fe.pfInflight)

end Core

namespace Run

variable {p : Params} (r : Run p)

/-- The accepted requests that are not answered. -/
def iPending : ℕ → List IReq :=
  pending
    (fun n =>
      if (r.state n).iReqValid (r.inputs n) && (r.inputs n).iReqReady then
        some ((r.state n).iReq (r.inputs n))
      else none)
    r.iHandsOver

/-- The bus answers accepted requests, each at a later cycle. -/
def AnswersInOrder : Prop :=
  ∀ n, (r.inputs n).iRspValid = true → r.iPending n ≠ []

/-- One request is outstanding at a time, and its response is taken for what
it was made for. -/
def SingleOutstanding : Prop :=
  ∀ n, (r.iPending n).length ≤ 1 ∧
    ((r.inputs n).iRspValid = true →
      (r.state n).iRspReady = true ∧
        (r.iPending n).head? = some (r.state n).iRspFor)

end Run

/-! ## The invariant -/

namespace Core

variable {p : Params} {s : Core p} {i : CoreIn}

/-- A wait that goes on or begins: the state tells which word it is for. -/
theorem ifState_of_waits (waits : (s.step i).ifWaiting = true) :
    (s.step i).fe.ifState =
      if s.ifReqFire i then
        if s.fe.ifState = .ifReq then .ifWait else .ifSecondWait
      else s.fe.ifState := by
  have next : (s.step i).ifWaiting =
      ((s.feNext i).ifState == .ifWait ||
        (s.feNext i).ifState == .ifSecondWait) := rfl
  rw [next] at waits
  cases s.demandCycle i with
  | flushed flush state =>
      rw [step_fe, reqFire_of_flush flush]
      rw [state] at waits ⊢
      by_cases still : s.ifStillWaiting i = true
      · simp [still]
      · simp [still] at waits
  | delivers kept produces state => simp [state] at waits
  | splits kept word straddles state => simp [state] at waits
  | drops kept fire discard state => simp [state] at waits
  | requests kept fire state => rw [step_fe, state, if_pos fire]
  | quiet kept noWord noRsp noReq state => simp [state, noReq]

/-- At most one request is pending, and the response is going to be taken for
it. -/
structure QueueSound (s : Core p) (queue : List IReq) : Prop where
  bus : s.BusSound (queue.head?.map fun req => (req.word, 0))
  single : queue.length ≤ 1
  takes : ∀ req ∈ queue, req = s.iRspFor

theorem QueueSound.idle
    {queue : List IReq} (sound : s.QueueSound queue) (empty : queue = []) :
    s.ifWaiting = false ∧ s.fe.pfInflight = false :=
  sound.bus.idle (by simp [empty])

theorem QueueSound.busy
    {queue : List IReq} (sound : s.QueueSound queue) (full : queue ≠ []) :
    s.ifWaiting = true ∧ s.fe.pfInflight = false ∨
      s.ifWaiting = false ∧ s.fe.pfInflight = true := by
  obtain ⟨req, rest, rfl⟩ := List.exists_cons_of_ne_nil full
  rcases sound.bus.busy req.word 0 rfl with ⟨waits, free, -⟩ | ⟨free, busy, -⟩
  · exact Or.inl ⟨waits, free⟩
  · exact Or.inr ⟨free, busy⟩

theorem QueueSound.ready
    {queue : List IReq} (sound : s.QueueSound queue) (full : queue ≠ []) :
    s.iRspReady = true := by
  rcases sound.busy full with ⟨waits, -⟩ | ⟨-, busy⟩
  · simp [iRspReady, waits]
  · simp [iRspReady, busy]

theorem queueSound_reset (p : Params) (power : PowerOn) :
    (Core.reset p power).QueueSound [] where
  bus := ⟨fun _ => ⟨rfl, rfl⟩, by simp⟩
  single := by simp
  takes := by simp

/-- The response is taken for the word of the outstanding request. -/
theorem iRspFor_word
    {word : BitVec 30} {asked : ℕ} (sound : s.BusSound (some (word, asked))) :
    s.iRspFor.word = word := by
  rcases sound.busy word asked rfl with ⟨waits, -, rfl⟩ | ⟨free, -, rfl⟩
  · rcases wait_or_secondWait waits with wait | wait <;>
      simp [iRspFor, rspWordAddr, wait]
  · cases state : s.fe.ifState with
    | ifReq => simp [iRspFor, state]
    | ifSecondReq => simp [iRspFor, state]
    | ifWait => simp [ifWaiting, state] at free
    | ifSecondWait => simp [ifWaiting, state] at free

theorem iRspFor_kind :
    s.iRspFor.kind =
      if s.fe.ifState = .ifWait then .demand
      else if s.fe.ifState = .ifSecondWait then .second
      else .prefetch := by
  cases state : s.fe.ifState <;> simp [iRspFor, state]

theorem iRspFor_kind_of_free (free : s.ifWaiting = false) :
    s.iRspFor.kind = .prefetch := by
  simp only [ifWaiting, Bool.or_eq_false_iff, beq_eq_false_iff_ne] at free
  rw [iRspFor_kind, if_neg free.1, if_neg free.2]

theorem iReq_ext {a b : IReq} (kind : a.kind = b.kind)
    (word : a.word = b.word) : a = b := by
  cases a
  cases b
  simp only at kind word
  rw [kind, word]

/-- The accepted request is what the next response is taken for. -/
theorem iRspFor_of_accept
    (valid : s.iReqValid i = true) (ready : i.iReqReady = true)
    (prefetchFree : s.pfReqFire i = true → (s.step i).ifWaiting = false)
    (sound : (s.step i).BusSound (some ((s.iReq i).word, 0))) :
    s.iReq i = (s.step i).iRspFor := by
  refine iReq_ext ?_ (iRspFor_word sound).symm
  rcases accepted_request valid ready with ⟨fire, -⟩ | ⟨fire, noDemand, -⟩
  · have active : s.ifReqActive i = true := by
      simp only [ifReqFire, Bool.and_eq_true] at fire
      exact fire.1
    have waits : (s.step i).ifWaiting = true := by simp [waiting_step, fire]
    have state := ifState_of_waits waits
    rw [if_pos fire] at state
    rw [iRspFor_kind, state]
    rcases state_of_reqFire fire with idle | idle <;>
      simp [iReq, active, idle]
  · rw [iRspFor_kind_of_free (prefetchFree fire)]
    have inactive : s.ifReqActive i = false := by
      simpa [ifReqFire, ready] using noDemand
    simp [iReq, inactive]

section Step

variable {queue : List IReq} (sound : s.QueueSound queue)
include sound

theorem QueueSound.tail_eq : queue.tail = [] := by
  have single := sound.single
  cases queue with
  | nil => rfl
  | cons req rest =>
      have empty : rest.length = 0 := by
        simp only [List.length_cons] at single
        omega
      exact List.eq_nil_of_length_eq_zero empty

/-- Without a clash a request is accepted when none stays outstanding. -/
theorem QueueSound.alone
    (valid : s.iReqValid i = true) (ready : i.iReqReady = true)
    (noClash : s.iClash i = false) :
    queue = [] ∨ (i.iRspValid && s.iRspReady) = true := by
  by_contra neither
  rw [not_or] at neither
  obtain ⟨full, keeps⟩ := neither
  have silent : i.iRspValid = false := by
    simpa [sound.ready full] using keeps
  simp only [iClash, ready, silent, Bool.not_false, Bool.true_and,
    Bool.or_eq_false_iff] at noClash
  obtain ⟨noPrefetch, noDemand⟩ := noClash
  rcases accepted_request valid ready with ⟨fire, -⟩ | ⟨fire, -⟩
  · have active : s.ifReqActive i = true := by
      simp only [ifReqFire, Bool.and_eq_true] at fire
      exact fire.1
    rcases sound.busy full with ⟨waits, -⟩ | ⟨-, busy⟩
    · rw [not_waiting_of_reqFire fire] at waits
      exact Bool.false_ne_true waits
    · simp [active, busy] at noDemand
  · have issue : s.pfIssue i = true := by
      simp only [pfReqFire, Bool.and_eq_true] at fire
      exact fire.1
    rcases sound.busy full with ⟨waits, -⟩ | ⟨-, busy⟩
    · rcases wait_or_secondWait waits with wait | wait
      · simp [issue, wait] at noPrefetch
      · simp [pfIssue, wait] at issue
    · rw [not_pfReqFire_of_inflight busy] at fire
      exact Bool.false_ne_true fire

theorem QueueSound.accepts
    (valid : s.iReqValid i = true) (ready : i.iReqReady = true)
    (alone : queue = [] ∨ (i.iRspValid && s.iRspReady) = true) :
    (s.step i).QueueSound [s.iReq i] := by
  have free : (queue.head?.map fun req => (req.word, 0)) = none ∨
      (i.iRspValid && s.iRspReady) = true := by
    rcases alone with rfl | hands
    · exact Or.inl rfl
    · exact Or.inr hands
  have bus := sound.bus.accepts free valid ready 0
  refine ⟨bus, by simp, ?_⟩
  intro req member
  rw [List.mem_singleton] at member
  rw [member]
  apply iRspFor_of_accept valid ready ?_ bus
  intro fire
  have noDemand : s.ifReqFire i = false := by
    have issue : s.pfIssue i = true := by
      simp only [pfReqFire, Bool.and_eq_true] at fire
      exact fire.1
    simp only [pfIssue, Bool.and_eq_true, Bool.not_eq_true'] at issue
    simp [ifReqFire, issue.1.2]
  rw [waiting_step, noDemand, Bool.false_or]
  exact (sound.bus.ends free).1

theorem QueueSound.handsOver
    (silent : (s.iReqValid i && i.iReqReady) = false)
    (hands : (i.iRspValid && s.iRspReady) = true) :
    (s.step i).QueueSound [] where
  bus := sound.bus.handsOver silent hands
  single := by simp
  takes := by simp

theorem QueueSound.keeps
    (answers : i.iRspValid = true → queue ≠ [])
    (silent : (s.iReqValid i && i.iReqReady) = false)
    (keeps : (i.iRspValid && s.iRspReady) = false) :
    (s.step i).QueueSound queue := by
  have answers' : i.iRspValid = true →
      (queue.head?.map fun req => (req.word, 0)).isSome = true := by
    intro response
    obtain ⟨req, rest, rfl⟩ := List.exists_cons_of_ne_nil (answers response)
    rfl
  have bus := sound.bus.keeps answers' silent keeps
  refine ⟨bus, sound.single, ?_⟩
  intro req member
  obtain ⟨head, rest, rfl⟩ :=
    List.exists_cons_of_ne_nil (List.ne_nil_of_mem member)
  have same : req = head := by
    have single := sound.single
    have empty : rest = [] := by
      apply List.eq_nil_of_length_eq_zero
      simp only [List.length_cons] at single
      omega
    simpa [empty] using member
  rw [same]
  have before := sound.takes head (by simp)
  refine iReq_ext ?_ (iRspFor_word bus).symm
  obtain ⟨noDemand, noPrefetch⟩ := not_accepted silent
  obtain ⟨noRsp, -⟩ := sound.bus.goesOn answers' keeps
  have waits : (s.step i).ifWaiting = s.ifWaiting := by
    simp [waiting_step, noDemand, noRsp]
  rw [before]
  by_cases waiting : s.ifWaiting = true
  · have state := ifState_of_waits (waits.trans waiting)
    rw [noDemand] at state
    rw [iRspFor_kind, iRspFor_kind, state]
    rfl
  · have free : s.ifWaiting = false := by simpa using waiting
    rw [iRspFor_kind_of_free free,
      iRspFor_kind_of_free (waits.trans free)]

end Step

end Core

/-! ## The port along a run -/

namespace Run

variable {p : Params} {r : Run p}

theorem queueSound
    (answers : r.AnswersInOrder) (n : ℕ)
    (noClash : ∀ m, m < n → (r.state m).iClash (r.inputs m) = false) :
    (r.state n).QueueSound (r.iPending n) := by
  induction n with
  | zero =>
      exact Core.queueSound_reset p r.power
  | succ n inductionHypothesis =>
      have sound := inductionHypothesis fun m before => noClash m (by omega)
      have grows : r.iPending (n + 1) =
          (if r.iHandsOver n then (r.iPending n).tail
            else r.iPending n) ++
          (if (r.state n).iReqValid (r.inputs n) &&
              (r.inputs n).iReqReady then
            some ((r.state n).iReq (r.inputs n)) else none).toList := rfl
      rw [r.state_succ, grows]
      by_cases accepts : ((r.state n).iReqValid (r.inputs n) &&
          (r.inputs n).iReqReady) = true
      · rw [if_pos accepts]
        rw [Bool.and_eq_true] at accepts
        have alone := sound.alone accepts.1 accepts.2
          (noClash n (by omega))
        have rest : (if r.iHandsOver n then (r.iPending n).tail
            else r.iPending n) = [] := by
          rcases alone with empty | hands
          · simp [empty]
          · rw [iHandsOver, if_pos hands]
            exact sound.tail_eq
        rw [rest]
        exact sound.accepts accepts.1 accepts.2 alone
      · have silent := Bool.eq_false_iff.mpr accepts
        rw [if_neg accepts, Option.toList_none, List.append_nil]
        by_cases hands : r.iHandsOver n = true
        · rw [if_pos hands, sound.tail_eq]
          exact sound.handsOver silent hands
        · rw [if_neg hands]
          have keeps : r.iHandsOver n = false := by simpa using hands
          exact sound.keeps (answers n) silent keeps

/-- A clash leaves two requests outstanding. -/
theorem two_pending_of_clash
    {n : ℕ} (sound : (r.state n).QueueSound (r.iPending n))
    (clash : (r.state n).iClash (r.inputs n) = true) :
    1 < (r.iPending (n + 1)).length := by
  simp only [Core.iClash, Bool.and_eq_true, Bool.or_eq_true, beq_iff_eq,
    Bool.not_eq_true'] at clash
  obtain ⟨⟨ready, silent⟩, both⟩ := clash
  have full : r.iPending n ≠ [] := by
    intro empty
    obtain ⟨noWait, noInflight⟩ := sound.idle empty
    rcases both with ⟨-, wait⟩ | ⟨-, busy⟩
    · simp [Core.ifWaiting, wait] at noWait
    · rw [busy] at noInflight
      exact Bool.false_ne_true noInflight.symm
  have valid : (r.state n).iReqValid (r.inputs n) = true := by
    rcases both with ⟨issue, -⟩ | ⟨active, -⟩
    · simp [Core.iReqValid, issue]
    · simp [Core.iReqValid, active]
  have request : (if (r.state n).iReqValid (r.inputs n) &&
      (r.inputs n).iReqReady then some ((r.state n).iReq (r.inputs n))
      else none) = some ((r.state n).iReq (r.inputs n)) := by
    simp [valid, ready]
  have grows : (r.iPending (n + 1)).length = (r.iPending n).length + 1 :=
    length_pending_of_accept request (by simp [iHandsOver, silent])
  have some := List.length_pos_of_ne_nil full
  omega

end Run

/-- On a bus that answers in order, one request is outstanding at a time and
every response goes where its request came from if and only if the bus accepts
no prefetch behind a demand request and no demand request behind a
prefetch. -/
theorem singleOutstanding_iff
    {p : Params} (r : Run p) (answers : r.AnswersInOrder) :
    r.SingleOutstanding ↔
      ∀ n, (r.state n).iClash (r.inputs n) = false := by
  constructor
  · intro single n
    induction n using Nat.strong_induction_on with
    | _ n inductionHypothesis =>
        by_contra clash
        have sound := Run.queueSound answers n inductionHypothesis
        have two := Run.two_pending_of_clash sound (by simpa using clash)
        have one := (single (n + 1)).1
        omega
  · intro noClash n
    have sound := Run.queueSound answers n fun m _ => noClash m
    refine ⟨sound.single, fun response => ?_⟩
    have full := answers n response
    refine ⟨sound.ready full, ?_⟩
    obtain ⟨req, rest, same⟩ := List.exists_cons_of_ne_nil full
    rw [same, List.head?_cons, sound.takes req (by simp [same])]

/-- The bus accepts the first word and answers it. -/
def fetchesOne : Run {} := Run.script {} (CoreIn.fetch [0x00000013])

theorem fetchesOne_answersInOrder : fetchesOne.AnswersInOrder := by
  intro n response
  match n with
  | 0 => exact absurd response (by decide)
  | 1 => decide
  | _ + 2 => exact absurd response Bool.false_ne_true

theorem singleOutstanding_iff_fetchesOne : fetchesOne.SingleOutstanding :=
  (singleOutstanding_iff fetchesOne fetchesOne_answersInOrder).mpr fun n =>
    match n with
    | 0 => by decide
    | 1 => by decide
    | _ + 2 => rfl

/-- The bus accepts the first word and, before it answers, the prefetch of the
second. -/
def acceptsTwice : Run {} := Run.script {} [.accept, .accept]

theorem acceptsTwice_answersInOrder : acceptsTwice.AnswersInOrder := by
  have silent : ∀ n, (acceptsTwice.inputs n).iRspValid = false :=
    Run.script_inputs_of_forall (P := fun i => i.iRspValid = false) rfl
      (by decide)
  intro n response
  rw [silent n] at response
  exact absurd response (by decide)

theorem not_singleOutstanding :
    ¬ ∀ (p : Params) (r : Run p), r.AnswersInOrder → r.SingleOutstanding := by
  intro single
  have one := (single {} acceptsTwice acceptsTwice_answersInOrder 2).1
  exact absurd one (by decide)

end SisRv
