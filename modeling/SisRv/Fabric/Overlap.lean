import SisRv.Fabric.Devices
import SisRv.Lib.Trajectory

/-!
# Overlapping requests

The router with slaves of any latency behind its ports.  The master may make a
request in the cycle in which it takes the response to the last one, and the
slaves accept it then.
-/

namespace SisRv

open Sync Fabric

/-! ## Decoding -/

namespace FabricPort

/-- The port that a request is routed to. -/
def target (req : BusReq) : Option FabricPort :=
  if selRom req then some .s0
  else if selRam req then some .s1
  else if selMmio req then some .s2
  else if selClint req then some .s3
  else if selPlic req then some .s4
  else none

variable {req : BusReq}

/-- At most one port is hit. -/
theorem sel_iff (j : FabricPort) :
    sel req j = true ↔ target req = some j := by
  have rom := selRom_iff req
  have ram := selRam_iff req
  have mmio := selMmio_iff req
  have clint := selClint_iff req
  have plic := selPlic_iff req
  unfold target
  cases j <;> simp only [sel, rom, ram, mmio, clint, plic] <;>
    split_ifs <;> simp <;> omega

theorem slaveSelect_of_some {j : FabricPort} (named : target req = some j) :
    slaveSelect req = j.number := by
  revert named
  unfold target slaveSelect
  split_ifs <;> rintro ⟨⟩ <;> rfl

theorem slaveSelect_of_none (unnamed : target req = none) :
    slaveSelect req = 5 := by
  revert unnamed
  unfold target slaveSelect
  split_ifs <;> simp

end FabricPort

open FabricPort

namespace MemFabric

variable (s : MemFabric) (i : MemFabricIn)

theorem mReqReady_eq :
    mReqReady i =
      match target i.req with
      | some j => (i.slave j).reqReady
      | none => true := by
  unfold mReqReady target
  split_ifs <;> rfl

theorem mRsp_of_some {j : FabricPort} (points : s.activeSlave = j.number) :
    s.mRsp i = (i.slave j).rsp := by
  unfold mRsp
  rw [points]
  cases j <;> rfl

theorem mRsp_of_none (points : s.activeSlave = 5) :
    s.mRsp i = ⟨s.hasPending, 0xDEADBEEF, true⟩ := by
  unfold mRsp
  rw [points]
  rfl

end MemFabric

/-! ## The data path -/

namespace DataPath

variable (s : DataPath) (i : DataPathIn)

def router : MemFabric := ⟨s.activeSlave, s.hasPending⟩

/-- What the router of the data path sees. -/
def routerIn : MemFabricIn where
  toSlaveIn := i.toSlaveIn
  slave
    | .s0 => ⟨s.rom.reqReady (s.romIn i), s.rom.rsp⟩
    | .s1 => ⟨s.ram.reqReady (s.ramIn i), s.ram.rsp⟩
    | .s2 => ⟨s.mmioReqReady i, s.mmioRsp⟩
    | .s3 => ⟨s.clint.reqReady (s.clintIn i), s.clint.rsp⟩
    | .s4 => ⟨s.plic.reqReady (s.plicIn i), s.plic.rsp⟩

/-- The data path routes as the router on its own does. -/
theorem router_next : (s.next i).router = s.router.next (s.routerIn i) := by
  change (⟨s.activeSlaveNext i, s.hasPendingNext i⟩ : MemFabric) =
    if s.accepts i && !s.hasPending then ⟨slaveSelect i.req, true⟩
    else if s.handsOver i then ⟨s.activeSlave, false⟩
    else ⟨s.activeSlave, s.hasPending⟩
  unfold activeSlaveNext hasPendingNext
  split_ifs <;> rfl

end DataPath

/-! ## Runs -/

/-- A run of the router after reset. -/
structure RouterRun where
  inputs : ℕ → MemFabricIn

namespace RouterRun

variable (r : RouterRun)

/-- The registers in cycle `k`. -/
def state : ℕ → MemFabric :=
  trajectory MemFabric.next MemFabric.reset r.inputs

theorem state_succ (k : ℕ) :
    r.state (k + 1) = (r.state k).next (r.inputs k) := rfl

/-! ### The master -/

def rsp (k : ℕ) : SlaveRsp := (r.state k).mRsp (r.inputs k)

/-- The request accepted in a cycle. -/
def accept (k : ℕ) : Option BusReq :=
  if MemFabric.accepts (r.inputs k) then some (r.inputs k).req else none

/-- The response of a cycle is taken. -/
def handover (k : ℕ) : Bool := (r.state k).handsOver (r.inputs k)

/-- The request without a response before a cycle and the cycle that accepted
it. -/
def request (k : ℕ) : Option (BusReq × ℕ) :=
  outstanding r.accept r.handover k

/-- The master makes the next request at the earliest as it takes the response
to the last one. -/
def SingleRequest : Prop :=
  ∀ k, r.request k ≠ none → r.accept k ≠ none → r.handover k = true

/-! ### The slaves -/

def slaveRsp (j : FabricPort) (k : ℕ) : SlaveRsp :=
  ((r.inputs k).slave j).rsp

def slaveAccept (j : FabricPort) (k : ℕ) : Option BusReq :=
  if MemFabric.reqValid (r.inputs k) j && ((r.inputs k).slave j).reqReady then
    some (r.inputs k).req
  else none

def slaveHandover (j : FabricPort) (k : ℕ) : Bool :=
  (r.slaveRsp j k).valid && (r.state k).rspReady (r.inputs k) j

def slaveRequest (j : FabricPort) (k : ℕ) : Option (BusReq × ℕ) :=
  outstanding (r.slaveAccept j) (r.slaveHandover j) k

/-- A corebus slave: it answers the request that it holds, and accepts the
next one in the cycle in which that response is taken, not before. -/
structure Corebus (j : FabricPort) : Prop where
  overlaps : ∀ k, r.slaveRequest j k ≠ none → r.slaveHandover j k = true →
    ((r.inputs k).slave j).reqReady = true
  single : ∀ k, r.slaveRequest j k ≠ none → r.slaveHandover j k = false →
    ((r.inputs k).slave j).reqReady = false
  solicited : ∀ k, (r.slaveRsp j k).valid = true → r.slaveRequest j k ≠ none
  answers : ∀ a req, r.slaveAccept j a = some req →
    ∃ k, r.slaveRequest j k = some (req, a) ∧ (r.slaveRsp j k).valid = true
  held : ∀ k, (r.slaveRsp j k).valid = true → r.slaveHandover j k = false →
    r.slaveRsp j (k + 1) = r.slaveRsp j k

/-- The response is the one of the slave to that very request, or the error
answer of the router. -/
def Answers (k : ℕ) (req : BusReq) (a : ℕ) : Prop :=
  match target req with
  | some j =>
      r.slaveRequest j k = some (req, a) ∧ r.rsp k = r.slaveRsp j k
  | none => r.rsp k = ⟨true, 0xDEADBEEF, true⟩

/-- Every accepted request is answered once, in order, by the slave it is
routed to, and is pending until then. -/
structure Survives : Prop where
  solicited : ∀ k, (r.rsp k).valid = true → r.request k ≠ none
  answered : ∀ a req, r.accept a = some req →
    ∃ k, r.request k = some (req, a) ∧ (r.rsp k).valid = true
  once : ∀ k l request, r.handover k = true → r.handover l = true →
    r.request k = some request → r.request l = some request → k = l
  source : ∀ k req a, r.request k = some (req, a) →
    (r.rsp k).valid = true → r.Answers k req a
  pending : ∀ k, r.request k ≠ none → (r.state k).hasPending = true

/-- The router and the slaves hold the outstanding request and nothing
else. -/
structure Tracks (k : ℕ) : Prop where
  pending : (r.state k).hasPending = (r.request k).isSome
  points : ∀ req a, r.request k = some (req, a) →
    (r.state k).activeSlave = slaveSelect req
  slaves : ∀ j, r.slaveRequest j k =
    (r.request k).filter fun request => target request.1 = some j

/-! ### A cycle of the router -/

variable {r} {k : ℕ}

theorem accepts_of_accept {req : BusReq} (accepted : r.accept k = some req) :
    MemFabric.accepts (r.inputs k) = true ∧ (r.inputs k).req = req := by
  unfold accept at accepted
  split_ifs at accepted with accepts
  exact ⟨accepts, Option.some.inj accepted⟩

theorem not_accepts_of_accept (silent : r.accept k = none) :
    MemFabric.accepts (r.inputs k) = false := by
  unfold accept at silent
  split_ifs at silent with accepts
  simpa using accepts

theorem state_of_accept {req : BusReq} (accepted : r.accept k = some req)
    (free : (r.state k).hasPending = false) :
    r.state (k + 1) = ⟨slaveSelect req, true⟩ := by
  obtain ⟨accepts, rfl⟩ := accepts_of_accept accepted
  rw [state_succ, MemFabric.next, accepts, free]
  rfl

theorem state_of_handover (hands : r.handover k = true)
    (blocked : r.accept k = none ∨ (r.state k).hasPending = true) :
    r.state (k + 1) = ⟨(r.state k).activeSlave, false⟩ := by
  have latches : (MemFabric.accepts (r.inputs k) &&
      !(r.state k).hasPending) = false := by
    rcases blocked with silent | pending
    · rw [not_accepts_of_accept silent]
      rfl
    · rw [pending]
      exact Bool.and_false _
  have taken : (r.state k).handsOver (r.inputs k) = true := hands
  rw [state_succ, MemFabric.next, latches, taken]
  rfl

theorem state_of_idle (silent : r.accept k = none)
    (keeps : r.handover k = false) : r.state (k + 1) = r.state k := by
  have kept : (r.state k).handsOver (r.inputs k) = false := keeps
  rw [state_succ, MemFabric.next, not_accepts_of_accept silent, kept]
  rfl

/-- A request is accepted by the slave that it is routed to and by no
other. -/
theorem slaveAccept_iff (j : FabricPort) (req : BusReq) :
    r.slaveAccept j k = some req ↔
      r.accept k = some req ∧ target req = some j := by
  have ready (named : target (r.inputs k).req = some j) :
      MemFabric.mReqReady (r.inputs k) =
        ((r.inputs k).slave j).reqReady := by
    rw [MemFabric.mReqReady_eq, named]
  unfold slaveAccept accept MemFabric.accepts MemFabric.reqValid
  by_cases named : target (r.inputs k).req = some j
  · rw [(sel_iff j).mpr named, ready named, Bool.and_true]
    constructor
    · intro accepted
      refine ⟨accepted, ?_⟩
      split_ifs at accepted
      rw [← Option.some.inj accepted]
      exact named
    · exact fun both => both.1
  · have unhit : sel (r.inputs k).req j = false := by
      rw [← Bool.not_eq_true, sel_iff]
      exact named
    rw [unhit, Bool.and_false, Bool.false_and, if_neg Bool.false_ne_true]
    constructor
    · nofun
    · rintro ⟨accepted, other⟩
      split_ifs at accepted
      rw [← Option.some.inj accepted] at other
      exact absurd other named

theorem slaveAccept_of_silent (silent : r.accept k = none)
    (j : FabricPort) : r.slaveAccept j k = none := by
  rcases taken : r.slaveAccept j k with _ | req
  · rfl
  · rw [((slaveAccept_iff j req).mp taken).1] at silent
    exact absurd silent (Option.some_ne_none req)

theorem slaveHandover_of_ne {j : FabricPort}
    (other : (r.state k).activeSlave ≠ j.number) :
    r.slaveHandover j k = false := by
  unfold slaveHandover MemFabric.rspReady
  rw [beq_eq_false_iff_ne.mpr other, Bool.and_false, Bool.and_false]

theorem rsp_of_points {j : FabricPort}
    (points : (r.state k).activeSlave = j.number) :
    r.rsp k = r.slaveRsp j k :=
  MemFabric.mRsp_of_some _ _ points

theorem slaveHandover_of_points {j : FabricPort}
    (points : (r.state k).activeSlave = j.number) :
    r.slaveHandover j k = r.handover k := by
  unfold slaveHandover MemFabric.rspReady
  rw [points, beq_self_eq_true, Bool.and_true, ← rsp_of_points points]
  rfl

/-- The multiplexer shows a slave or, with the pending flag, the error
answer. -/
theorem rsp_cases (r : RouterRun) (k : ℕ) :
    (∃ j : FabricPort, (r.state k).activeSlave = j.number) ∨
      r.rsp k = ⟨(r.state k).hasPending, 0xDEADBEEF, true⟩ := by
  unfold rsp MemFabric.mRsp
  by_cases zero : (r.state k).activeSlave = 0
  · exact Or.inl ⟨.s0, zero⟩
  by_cases one : (r.state k).activeSlave = 1
  · exact Or.inl ⟨.s1, one⟩
  by_cases two : (r.state k).activeSlave = 2
  · exact Or.inl ⟨.s2, two⟩
  by_cases three : (r.state k).activeSlave = 3
  · exact Or.inl ⟨.s3, three⟩
  by_cases four : (r.state k).activeSlave = 4
  · exact Or.inl ⟨.s4, four⟩
  · right
    rw [if_neg zero, if_neg one, if_neg two, if_neg three, if_neg four]

/-! ### The router follows the outstanding request -/

namespace Tracks

variable (tracks : r.Tracks k)

include tracks

theorem slaveRequest_eq {req : BusReq} {a : ℕ}
    (out : r.request k = some (req, a)) (j : FabricPort) :
    r.slaveRequest j k =
      if target req = some j then some (req, a) else none := by
  rw [tracks.slaves j, out, Option.filter_some]
  simp

theorem slaveRequest_of_none (out : r.request k = none) (j : FabricPort) :
    r.slaveRequest j k = none := by
  rw [tracks.slaves j, out]
  rfl

/-- Only the outstanding request is answered. -/
theorem request_of_valid (slaves : ∀ j, r.Corebus j)
    (valid : (r.rsp k).valid = true) : r.request k ≠ none := by
  intro idle
  rcases r.rsp_cases k with ⟨j, points⟩ | error
  · rw [rsp_of_points points] at valid
    exact (slaves j).solicited k valid (tracks.slaveRequest_of_none idle j)
  · rw [error, tracks.pending, idle] at valid
    exact Bool.false_ne_true valid

theorem answers_of_request {req : BusReq} {a : ℕ}
    (out : r.request k = some (req, a)) : r.Answers k req a := by
  have points := tracks.points req a out
  unfold Answers
  rcases named : target req with _ | j
  · rw [slaveSelect_of_none named] at points
    have pending : (r.state k).hasPending = true := by
      rw [tracks.pending, out]
      rfl
    have error := MemFabric.mRsp_of_none _ (r.inputs k) points
    rw [pending] at error
    exact error
  · rw [slaveSelect_of_some named] at points
    refine ⟨?_, rsp_of_points points⟩
    rw [tracks.slaveRequest_eq out, if_pos named]

/-- A request accepted by the free router. -/
theorem of_accept {req : BusReq} (accepted : r.accept k = some req)
    (free : (r.state k).hasPending = false) : r.Tracks (k + 1) := by
  have idle : r.request k = none := by
    simpa [tracks.pending] using free
  have state := state_of_accept accepted free
  have out : r.request (k + 1) = some (req, k) :=
    outstanding_of_accept accepted
  constructor
  · rw [state, out]
    rfl
  · intro req' a out'
    rw [out] at out'
    obtain ⟨rfl, -⟩ := Prod.mk.inj (Option.some.inj out')
    rw [state]
  · intro j
    rw [out, Option.filter_some]
    by_cases named : target req = some j
    · have taken := (slaveAccept_iff j req).mpr ⟨accepted, named⟩
      rw [slaveRequest, outstanding_of_accept taken]
      simp [named]
    · have refused : r.slaveAccept j k = none := by
        rcases taken : r.slaveAccept j k with _ | other
        · rfl
        · obtain ⟨same, hit⟩ := (slaveAccept_iff j other).mp taken
          rw [accepted] at same
          rw [← Option.some.inj same] at hit
          exact absurd hit named
      have none' := tracks.slaveRequest_of_none idle j
      have still : r.slaveRequest j (k + 1) = none := by
        rcases hands : r.slaveHandover j k
        · rw [slaveRequest, outstanding_of_idle refused hands]
          exact none'
        · exact outstanding_of_handover refused hands
      rw [still]
      simp [named]

/-- A response is taken and no request is made. -/
theorem of_handover (slaves : ∀ j, r.Corebus j)
    (silent : r.accept k = none) (hands : r.handover k = true) :
    r.Tracks (k + 1) := by
  have state := state_of_handover hands (Or.inl silent)
  have out : r.request (k + 1) = none :=
    outstanding_of_handover silent hands
  have valid : (r.rsp k).valid = true :=
    (Bool.and_eq_true _ _ ▸ hands : _ ∧ _).1
  obtain ⟨⟨req, a⟩, held⟩ := Option.ne_none_iff_exists'.mp
    (tracks.request_of_valid slaves valid)
  constructor
  · rw [state, out]
    rfl
  · intro req' a' out'
    rw [out] at out'
    exact absurd out'.symm (Option.some_ne_none _)
  · intro j
    have refused := slaveAccept_of_silent silent j
    rw [out]
    by_cases named : target req = some j
    · have points := tracks.points req a held
      rw [slaveSelect_of_some named] at points
      have taken := slaveHandover_of_points points
      rw [hands] at taken
      exact outstanding_of_handover refused taken
    · have other := tracks.slaveRequest_eq held j
      rw [if_neg named] at other
      rcases taken : r.slaveHandover j k
      · rw [slaveRequest, outstanding_of_idle refused taken]
        exact other
      · exact outstanding_of_handover refused taken

/-- Nothing is accepted and nothing taken. -/
theorem of_idle (silent : r.accept k = none)
    (keeps : r.handover k = false) : r.Tracks (k + 1) := by
  have state := state_of_idle silent keeps
  have out : r.request (k + 1) = r.request k :=
    outstanding_of_idle silent keeps
  constructor
  · rw [state, out]
    exact tracks.pending
  · rw [state, out]
    exact tracks.points
  · intro j
    have waits : r.slaveHandover j k = false := by
      by_cases points : (r.state k).activeSlave = j.number
      · rw [slaveHandover_of_points points]
        exact keeps
      · exact slaveHandover_of_ne points
    rw [out, ← tracks.slaves j]
    exact outstanding_of_idle (slaveAccept_of_silent silent j) waits

end Tracks

theorem tracks (slaves : ∀ j, r.Corebus j)
    (separate : ∀ k, r.accept k ≠ none → (r.state k).hasPending = false)
    (k : ℕ) : r.Tracks k := by
  induction k with
  | zero =>
      exact ⟨rfl, nofun, fun _ => rfl⟩
  | succ k before =>
      rcases accepted : r.accept k with _ | req
      · rcases hands : r.handover k
        · exact before.of_idle accepted hands
        · exact before.of_handover slaves accepted hands
      · refine before.of_accept accepted (separate k ?_)
        rw [accepted]
        exact Option.some_ne_none req

theorem survives_of_separate (slaves : ∀ j, r.Corebus j)
    (separate : ∀ k, r.accept k ≠ none → (r.state k).hasPending = false) :
    r.Survives := by
  have tracks := tracks slaves separate
  constructor
  · exact fun k => (tracks k).request_of_valid slaves
  · intro a req accepted
    rcases named : target req with _ | j
    · have out : r.request (a + 1) = some (req, a) :=
        outstanding_of_accept accepted
      refine ⟨a + 1, out, ?_⟩
      have answer := (tracks (a + 1)).answers_of_request out
      simp only [Answers, named] at answer
      rw [answer]
    · obtain ⟨k, held, valid⟩ := (slaves j).answers a req
        ((slaveAccept_iff j req).mpr ⟨accepted, named⟩)
      have out : r.request k = some (req, a) := by
        rw [(tracks k).slaves j] at held
        exact (Option.filter_eq_some_iff.mp held).1
      have answer := (tracks k).answers_of_request out
      simp only [Answers, named] at answer
      refine ⟨k, out, ?_⟩
      rw [answer.2]
      exact valid
  · intro k l request early late atEarly atLate
    exact eq_of_handover early atEarly late atLate
  · exact fun k req a out _ => (tracks k).answers_of_request out
  · intro k out
    rw [(tracks k).pending]
    exact Option.isSome_iff_ne_none.mpr out

/-- The pending flag is never up without a request. -/
theorem request_of_pending (pending : (r.state k).hasPending = true) :
    r.request k ≠ none := by
  induction k with
  | zero =>
      exact absurd pending Bool.false_ne_true
  | succ k inductionHypothesis =>
      rcases accepted : r.accept k with _ | req
      · rcases hands : r.handover k
        · rw [state_of_idle accepted hands] at pending
          rw [request, outstanding_of_idle accepted hands]
          exact inductionHypothesis pending
        · rw [state_of_handover hands (Or.inl accepted)] at pending
          exact absurd pending Bool.false_ne_true
      · rw [request, outstanding_of_accept accepted]
        exact Option.some_ne_none _

/-- A request accepted as the last response is taken loses its pending
flag. -/
theorem not_pending_of_overlap (single : r.SingleRequest)
    (accepted : r.accept k ≠ none)
    (pending : (r.state k).hasPending = true) :
    r.request (k + 1) ≠ none ∧ (r.state (k + 1)).hasPending = false := by
  have hands := single k (request_of_pending pending) accepted
  obtain ⟨req, accepts⟩ := Option.ne_none_iff_exists'.mp accepted
  constructor
  · rw [request, outstanding_of_accept accepts]
    exact Option.some_ne_none _
  · rw [state_of_handover hands (Or.inr pending)]

end RouterRun

open RouterRun

/-- The router answers every request and flags it until then exactly if none
is accepted while one is pending. -/
theorem survives_iff (r : RouterRun) (slaves : ∀ j, r.Corebus j)
    (single : r.SingleRequest) :
    r.Survives ↔
      ∀ k, r.accept k ≠ none → (r.state k).hasPending = false := by
  constructor
  · intro survives k accepted
    by_contra blocked
    have pending : (r.state k).hasPending = true := by simpa using blocked
    obtain ⟨out, lost⟩ := not_pending_of_overlap single accepted pending
    rw [survives.pending (k + 1) out] at lost
    exact Bool.false_ne_true lost.symm
  · exact survives_of_separate slaves

namespace RouterRun

/-- A load from the RAM after reset and, with `second`, another one in the
cycle that takes the response to the first. -/
def loads (second : Bool) : RouterRun where
  inputs k :=
    { reqValid := k == 0 || second && k == 1
      req := ⟨0x80000000, false, 0, 0⟩
      rspReady := true
      slave
        | .s1 => ⟨true, ⟨k == 1 || second && k == 2, 0, false⟩⟩
        | _ => ⟨true, ⟨false, 0, false⟩⟩ }

variable (second : Bool)

theorem slaveAccept_loads (k : ℕ) :
    (loads second).slaveAccept .s1 (k + 2) = none := by
  simp [slaveAccept, loads, MemFabric.reqValid]

theorem slaveRequest_loads (k : ℕ) :
    (loads second).slaveRequest .s1 (k + 3) = none := by
  induction k with
  | zero => cases second <;> rfl
  | succ k inductionHypothesis =>
      rcases taken : (loads second).slaveHandover .s1 (k + 3)
      · rw [slaveRequest,
          outstanding_of_idle (slaveAccept_loads second (k + 1)) taken]
        exact inductionHypothesis
      · exact outstanding_of_handover (slaveAccept_loads second (k + 1)) taken

theorem slaveRequest_loads_of_ne {j : FabricPort} (other : j ≠ .s1) (k : ℕ) :
    (loads second).slaveRequest j k = none := by
  have ram : target ⟨0x80000000, false, 0, 0⟩ = some .s1 := by decide
  have accept (k : ℕ) : (loads second).slaveAccept j k = none := by
    refine Option.eq_none_iff_forall_ne_some.mpr fun req taken => ?_
    obtain ⟨accepted, named⟩ := (slaveAccept_iff j req).mp taken
    rw [← (accepts_of_accept accepted).2] at named
    exact other (Option.some.inj (named.symm.trans ram))
  induction k with
  | zero => rfl
  | succ k inductionHypothesis =>
      rcases taken : (loads second).slaveHandover j k
      · rw [slaveRequest, outstanding_of_idle (accept k) taken]
        exact inductionHypothesis
      · exact outstanding_of_handover (accept k) taken

/-- The RAM answers in the cycle after it accepts. -/
theorem slaveRequest_loads_iff (k : ℕ) :
    (loads second).slaveRequest .s1 k ≠ none ↔
      ((loads second).slaveRsp .s1 k).valid = true :=
  match k with
  | 0 => by cases second <;> decide
  | 1 => by cases second <;> decide
  | 2 => by cases second <;> decide
  | k + 3 => by
      rw [slaveRequest_loads]
      simp [slaveRsp, loads]

theorem slaveHandover_loads (k : ℕ)
    (valid : ((loads second).slaveRsp .s1 k).valid = true) :
    (loads second).slaveHandover .s1 k = true :=
  match k with
  | 0 => by cases second <;> exact valid
  | 1 => by cases second <;> rfl
  | 2 => by cases second <;> exact valid
  | k + 3 => absurd valid (by simp [slaveRsp, loads])

theorem corebus_loads (j : FabricPort) : (loads second).Corebus j := by
  by_cases ram : j = .s1
  · subst ram
    have hands (k : ℕ) (out : (loads second).slaveRequest .s1 k ≠ none) :=
      slaveHandover_loads second k ((slaveRequest_loads_iff second k).mp out)
    constructor
    · exact fun _ _ _ => rfl
    · intro k out keeps
      rw [hands k out] at keeps
      exact Bool.noConfusion keeps
    · exact fun k => (slaveRequest_loads_iff second k).mpr
    · intro a req accepted
      have out : (loads second).slaveRequest .s1 (a + 1) = some (req, a) :=
        outstanding_of_accept accepted
      refine ⟨a + 1, out, (slaveRequest_loads_iff second _).mp ?_⟩
      rw [out]
      exact Option.some_ne_none _
    · intro k valid keeps
      rw [slaveHandover_loads second k valid] at keeps
      exact Bool.noConfusion keeps
  · have idle := slaveRequest_loads_of_ne second ram
    have invalid (k : ℕ) : ((loads second).slaveRsp j k).valid = false := by
      cases j <;> first | exact absurd rfl ram | rfl
    constructor
    · exact fun k out => absurd (idle k) out
    · exact fun k out => absurd (idle k) out
    · intro k valid
      rw [invalid] at valid
      exact Bool.noConfusion valid
    · intro a req accepted
      have out : (loads second).slaveRequest j (a + 1) = some (req, a) :=
        outstanding_of_accept accepted
      rw [idle] at out
      exact absurd out.symm (Option.some_ne_none _)
    · intro k valid
      rw [invalid] at valid
      exact Bool.noConfusion valid

theorem singleRequest_loads : (loads second).SingleRequest := by
  intro k out accepted
  match k with
  | 0 => exact absurd rfl out
  | 1 => cases second <;> rfl
  | k + 2 => exact absurd (by cases second <;> rfl) accepted

end RouterRun

theorem survives_iff_loads : (loads false).Survives := by
  refine (survives_iff _ (corebus_loads false)
    (singleRequest_loads false)).mpr fun k accepted => ?_
  match k with
  | 0 => rfl
  | _ + 1 => exact absurd rfl accepted

/-- The second of two overlapping loads is not flagged as pending. -/
theorem not_survives :
    ¬ ∀ r : RouterRun, (∀ j, r.Corebus j) → r.SingleRequest →
      r.Survives := by
  intro survives
  have run := survives _ (corebus_loads true) (singleRequest_loads true)
  exact Bool.false_ne_true (run.pending 2 (Option.some_ne_none _))

end SisRv
