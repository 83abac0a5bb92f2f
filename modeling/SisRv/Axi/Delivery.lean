import SisRv.Axi.Serving

/-!
# One transaction for each request

The arbiter and the bridge turn an accepted request of either port into one
AXI transaction and its response, under any slave.
-/

namespace SisRv

open Sync

namespace AxiRun

variable (r : AxiRun)

/-- A slave that accepts and answers after some delay. -/
structure Responsive : Prop where
  arReady : ∀ k, (r.bridge k).arvalid = true →
    ∃ j, k ≤ j ∧ (r.axi j).arready = true
  rValid : ∀ k, (r.bridge k).rready = true →
    ∃ j, k ≤ j ∧ (r.axi j).rvalid = true
  awReady : ∀ k, (r.bridge k).awvalid = true →
    ∃ j, k ≤ j ∧ (r.axi j).awready = true
  wReady : ∀ k, (r.bridge k).wvalid = true →
    ∃ j, k ≤ j ∧ (r.axi j).wready = true
  bValid : ∀ k, (r.bridge k).bready = true →
    ∃ j, k ≤ j ∧ (r.axi j).bvalid = true

/-- A handshake occurs at most once for each request. -/
def Single (event : ℕ → Bool) : Prop :=
  ∀ j k request, event j = true → event k = true →
    r.serving j = some request → r.serving k = some request → j = k

/-- Every accepted request is one transaction and one response. -/
structure DeliversOnce : Prop where
  apart : ∀ k, r.accepts k .d = none ∨ r.accepts k .i = none
  readChannels : ∀ k, r.arFire k = true ∨ r.rFire k = true →
    ∃ p req a, r.serving k = some ((p, req), a) ∧ req.we = false ∧
      (r.bridge k).araddr = req.addr
  writeChannels : ∀ k,
    r.awFire k = true ∨ r.wFire k = true ∨ r.bFire k = true →
    ∃ p req a, r.serving k = some ((p, req), a) ∧ req.we = true ∧
      (r.bridge k).awaddr = req.addr ∧ (r.bridge k).wdata = req.wdata ∧
      (r.bridge k).wstrb = req.wstrb
  single : r.Single r.arFire ∧ r.Single r.rFire ∧ r.Single r.awFire ∧
    r.Single r.wFire ∧ r.Single r.bFire
  response : ∀ k p, (r.rsp k p).valid = true →
    ∃ req a, r.serving k = some ((p, req), a) ∧
      if req.we then r.WritesOnce a k (r.rsp k p)
      else r.ReadsOnce a k (r.rsp k p)
  held : ∀ k p, (r.rsp k p).valid = true → r.rspReady k p = false →
    r.rsp (k + 1) p = r.rsp k p
  once : ∀ k l request, r.handover k = true → r.handover l = true →
    r.serving k = some request → r.serving l = some request → k = l
  answered : r.Responsive → ∀ a p req, r.accept a = some (p, req) →
    ∃ k, r.serving k = some ((p, req), a) ∧ (r.rsp k p).valid = true
  exclusive : ∀ k,
    ¬ (((r.bridge k).arvalid || (r.bridge k).rready) = true ∧
      ((r.bridge k).awvalid || (r.bridge k).wvalid ||
        (r.bridge k).bready) = true)
  arStable : ∀ k, (r.bridge k).arvalid = true → (r.axi k).arready = false →
    (r.bridge (k + 1)).arvalid = true ∧
      (r.bridge (k + 1)).araddr = (r.bridge k).araddr
  awStable : ∀ k, (r.bridge k).awvalid = true → (r.axi k).awready = false →
    (r.bridge (k + 1)).awvalid = true ∧
      (r.bridge (k + 1)).awaddr = (r.bridge k).awaddr
  wStable : ∀ k, (r.bridge k).wvalid = true → (r.axi k).wready = false →
    (r.bridge (k + 1)).wvalid = true ∧
      (r.bridge (k + 1)).wdata = (r.bridge k).wdata ∧
      (r.bridge (k + 1)).wstrb = (r.bridge k).wstrb

variable {r} {k a : ℕ} {p : Port} {req : BusReq}

/-! ## Progress -/

/-- The bridge is in a state while it serves a request. -/
def At (r : AxiRun) (p : Port) (req : BusReq) (a : ℕ) (state : AxiState)
    (k : ℕ) : Prop :=
  r.serving k = some ((p, req), a) ∧ (r.bridge k).state = state

theorem serving_succ_of_not_rsp (now : r.serving k = some ((p, req), a))
    (other : (r.bridge k).state ≠ .rsp) :
    r.serving (k + 1) = some ((p, req), a) := by
  have keeps : r.handover k = false := by
    rw [handover_eq]
    simp [AxiLiteM.rsp, other]
  exact (outstanding_of_idle (busy_of_serving now).silent keeps).trans now

/-- The bridge leaves a state in which it waits for an answer. -/
theorem leaves_state {state after : AxiState} (event : ℕ → Prop)
    (other : state ≠ .rsp)
    (moves : ∀ j, (r.bridge j).state = state → event j →
      (r.bridge (j + 1)).state = after)
    (waits : ∀ j, (r.bridge j).state = state → ¬ event j →
      (r.bridge (j + 1)).state = state)
    (answered : (∀ j, k ≤ j → (r.bridge j).state = state) →
      ∃ j, k ≤ j ∧ event j)
    (start : r.At p req a state k) : ∃ j, r.At p req a after j := by
  obtain ⟨n, -, ⟨now, at_⟩, occurs, -⟩ :=
    exists_first_event (P := r.At p req a state) (Q := event) start
      (fun j _ here quiet =>
        ⟨serving_succ_of_not_rsp here.1 (here.2 ▸ other),
          waits j here.2 quiet⟩)
      (fun always => answered fun j above => (always j above).2)
  exact ⟨n + 1, serving_succ_of_not_rsp now (at_ ▸ other),
    moves n at_ occurs⟩

theorem leaves_rdAddr (responsive : r.Responsive)
    (start : r.At p req a .rdAddr k) : ∃ j, r.At p req a .rdData j := by
  have step : ∀ j, (r.bridge j).state = .rdAddr →
      (r.bridge (j + 1)).state =
        if (r.axi j).arready then AxiState.rdData else AxiState.rdAddr := by
    intro j at_
    rw [bridge_succ, AxiLiteM.next_rdAddr _ _ at_, AxiLiteM.arFire,
      AxiLiteM.arvalid, at_]
    cases (r.axi j).arready <;> simp [at_]
  refine leaves_state (fun j => (r.axi j).arready = true)
    (by decide) (fun j at_ ready => ?_) (fun j at_ stalled => ?_) ?_ start
  · rw [step j at_, if_pos ready]
  · rw [step j at_, if_neg stalled]
  · intro always
    exact responsive.arReady k (by
      simp [AxiLiteM.arvalid, always k le_rfl])

theorem leaves_rdData (responsive : r.Responsive)
    (start : r.At p req a .rdData k) : ∃ j, r.At p req a .rsp j := by
  have step : ∀ j, (r.bridge j).state = .rdData →
      (r.bridge (j + 1)).state =
        if (r.axi j).rvalid then AxiState.rsp else AxiState.rdData := by
    intro j at_
    rw [bridge_succ, AxiLiteM.next_rdData _ _ at_, AxiLiteM.rFire,
      AxiLiteM.rready, at_]
    cases (r.axi j).rvalid <;> simp [at_]
  refine leaves_state (fun j => (r.axi j).rvalid = true)
    (by decide) (fun j at_ ready => ?_) (fun j at_ stalled => ?_) ?_ start
  · rw [step j at_, if_pos ready]
  · rw [step j at_, if_neg stalled]
  · intro always
    exact responsive.rValid k (by
      simp [AxiLiteM.rready, always k le_rfl])

theorem leaves_wrResp (responsive : r.Responsive)
    (start : r.At p req a .wrResp k) : ∃ j, r.At p req a .rsp j := by
  have step : ∀ j, (r.bridge j).state = .wrResp →
      (r.bridge (j + 1)).state =
        if (r.axi j).bvalid then AxiState.rsp else AxiState.wrResp := by
    intro j at_
    rw [bridge_succ, AxiLiteM.next_wrResp _ _ at_, AxiLiteM.bFire,
      AxiLiteM.bready, at_]
    cases (r.axi j).bvalid <;> simp [at_]
  refine leaves_state (fun j => (r.axi j).bvalid = true)
    (by decide) (fun j at_ ready => ?_) (fun j at_ stalled => ?_) ?_ start
  · rw [step j at_, if_pos ready]
  · rw [step j at_, if_neg stalled]
  · intro always
    exact responsive.bValid k (by
      simp [AxiLiteM.bready, always k le_rfl])

/-- A flag that is set by an answer and kept is set in the end. -/
theorem eventually_done (done answer : ℕ → Bool)
    (step : ∀ j, k ≤ j → done (j + 1) = (done j || answer j))
    (answered : done k = false → ∃ j, k ≤ j ∧ answer j = true) :
    ∃ n, k ≤ n ∧ ∀ j, n ≤ j → done j = true := by
  have kept : ∀ n, k ≤ n → done n = true →
      ∀ j, n ≤ j → done j = true := by
    intro n above set j later
    induction j, later using Nat.le_induction with
    | base => exact set
    | succ j later inductionHypothesis =>
        rw [step j (le_trans above later), inductionHypothesis, Bool.true_or]
  cases now : done k with
  | true => exact ⟨k, le_rfl, kept k le_rfl now⟩
  | false =>
      obtain ⟨j, above, occurs⟩ := answered now
      have set : done (j + 1) = true := by
        rw [step j above, occurs, Bool.or_true]
      exact ⟨j + 1, by omega, kept (j + 1) (by omega) set⟩

/-- Address and data are accepted in any order. -/
theorem leaves_wrAddr (responsive : r.Responsive)
    (start : r.At p req a .wrAddr k) : ∃ j, r.At p req a .wrResp j := by
  have next : ∀ j, (r.bridge j).state = .wrAddr →
      r.bridge (j + 1) =
        { r.bridge j with
          awDone := (r.bridge j).awDone || r.awFire j
          wDone := (r.bridge j).wDone || r.wFire j
          state :=
            if (r.bridge j).writeSent (r.axi j) then .wrResp
            else .wrAddr } :=
    fun j at_ => (r.bridge_succ j).trans (AxiLiteM.next_wrAddr _ _ at_)
  refine leaves_state (fun j => (r.bridge j).writeSent (r.axi j) = true)
    (by decide) (fun j at_ sent => ?_) (fun j at_ stalled => ?_) ?_ start
  · rw [next j at_, if_pos sent]
  · rw [next j at_, if_neg stalled]
  · intro always
    have address : ∀ j, k ≤ j → (r.bridge (j + 1)).awDone =
        ((r.bridge j).awDone || (r.axi j).awready) := by
      intro j above
      rw [next j (always j above)]
      change ((r.bridge j).awDone || r.awFire j) = _
      rw [awFire, AxiLiteM.awFire, AxiLiteM.awvalid, always j above]
      cases (r.bridge j).awDone <;> simp
    have data : ∀ j, k ≤ j → (r.bridge (j + 1)).wDone =
        ((r.bridge j).wDone || (r.axi j).wready) := by
      intro j above
      rw [next j (always j above)]
      change ((r.bridge j).wDone || r.wFire j) = _
      rw [wFire, AxiLiteM.wFire, AxiLiteM.wvalid, always j above]
      cases (r.bridge j).wDone <;> simp
    obtain ⟨x, afterX, addressed⟩ :=
      eventually_done (fun j => (r.bridge j).awDone)
        (fun j => (r.axi j).awready) address fun waiting =>
          responsive.awReady k (by
            have pending : (r.bridge k).awDone = false := waiting
            simp [AxiLiteM.awvalid, always k le_rfl, pending])
    obtain ⟨y, afterY, sent⟩ :=
      eventually_done (fun j => (r.bridge j).wDone)
        (fun j => (r.axi j).wready) data fun waiting =>
          responsive.wReady k (by
            have pending : (r.bridge k).wDone = false := waiting
            simp [AxiLiteM.wvalid, always k le_rfl, pending])
    have both := addressed (max x y) (le_max_left x y)
    have written := sent (max x y) (le_max_right x y)
    exact ⟨max x y, le_trans afterX (le_max_left x y), by
      simp [AxiLiteM.writeSent, both, written]⟩

theorem reaches_rsp (responsive : r.Responsive)
    (accepted : r.accept a = some (p, req)) : ∃ k, r.At p req a .rsp k := by
  have asked : r.serving (a + 1) = some ((p, req), a) :=
    outstanding_of_accept accepted
  have progress := (busy_of_serving asked).progress
  unfold Progress at progress
  cases at_ : (r.bridge (a + 1)).state with
  | idle =>
      rw [at_] at progress
      exact progress.elim
  | rdAddr =>
      obtain ⟨j, sent⟩ := leaves_rdAddr responsive ⟨asked, at_⟩
      exact leaves_rdData responsive sent
  | rdData => exact leaves_rdData responsive ⟨asked, at_⟩
  | wrAddr =>
      obtain ⟨j, sent⟩ := leaves_wrAddr responsive ⟨asked, at_⟩
      exact leaves_wrResp responsive sent
  | wrResp => exact leaves_wrResp responsive ⟨asked, at_⟩
  | rsp => exact ⟨a + 1, asked, at_⟩

/-! ## Delivery -/

theorem not_idle_of_read (fires : r.arFire k = true ∨ r.rFire k = true) :
    (r.bridge k).state = .rdAddr ∨ (r.bridge k).state = .rdData := by
  rcases fires with address | data
  · left
    by_contra other
    rw [arFire_of_ne other] at address
    exact Bool.noConfusion address
  · right
    by_contra other
    rw [rFire_of_ne other] at data
    exact Bool.noConfusion data

theorem not_idle_of_write
    (fires : r.awFire k = true ∨ r.wFire k = true ∨ r.bFire k = true) :
    (r.bridge k).state = .wrAddr ∨ (r.bridge k).state = .wrResp := by
  rcases fires with address | data | done
  · left
    by_contra other
    rw [awFire_of_ne other] at address
    exact Bool.noConfusion address
  · left
    by_contra other
    rw [wFire_of_ne other] at data
    exact Bool.noConfusion data
  · right
    by_contra other
    rw [bFire_of_ne other] at done
    exact Bool.noConfusion done

/-- A handshake that has not occurred before occurs once. -/
theorem single_of_silent {event : ℕ → Bool}
    (silent : ∀ k p req a, event k = true →
      r.serving k = some ((p, req), a) → Silent event a k) :
    r.Single event := by
  have ordered : ∀ j k request, event j = true → event k = true →
      r.serving j = some request → r.serving k = some request →
        ¬ j < k := by
    rintro j k ⟨⟨p, req⟩, a⟩ early late atEarly atLate less
    have before := silent k p req a late atLate j
      (asked_lt_of_outstanding atEarly) less
    rw [early] at before
    exact Bool.noConfusion before
  intro j k request early late atEarly atLate
  have notLess := ordered j k request early late atEarly atLate
  have notMore := ordered k j request late early atLate atEarly
  omega

theorem single_handshakes (r : AxiRun) :
    r.Single r.arFire ∧ r.Single r.rFire ∧ r.Single r.awFire ∧
      r.Single r.wFire ∧ r.Single r.bFire := by
  refine ⟨single_of_silent ?_, single_of_silent ?_, single_of_silent ?_,
    single_of_silent ?_, single_of_silent ?_⟩
  all_goals
    intro k p req a fires now
    have progress := (busy_of_serving now).progress
  · have at_ : (r.bridge k).state = .rdAddr := by
      by_contra other
      rw [arFire_of_ne other] at fires
      exact Bool.noConfusion fires
    rw [Progress, at_] at progress
    exact progress.2.2.1
  · have at_ : (r.bridge k).state = .rdData := by
      by_contra other
      rw [rFire_of_ne other] at fires
      exact Bool.noConfusion fires
    rw [Progress, at_] at progress
    exact progress.2.2.2
  · obtain ⟨⟨at_, waiting⟩, -⟩ :
        ((r.bridge k).state = .wrAddr ∧ (r.bridge k).awDone = false) ∧
          (r.axi k).awready = true := by
      simpa [awFire, AxiLiteM.awFire, AxiLiteM.awvalid] using fires
    rw [Progress, at_] at progress
    dsimp only at progress
    rw [waiting] at progress
    exact progress.2.2.1
  · obtain ⟨⟨at_, waiting⟩, -⟩ :
        ((r.bridge k).state = .wrAddr ∧ (r.bridge k).wDone = false) ∧
          (r.axi k).wready = true := by
      simpa [wFire, AxiLiteM.wFire, AxiLiteM.wvalid] using fires
    rw [Progress, at_] at progress
    dsimp only at progress
    rw [waiting] at progress
    exact progress.2.2.2.1
  · have at_ : (r.bridge k).state = .wrResp := by
      by_contra other
      rw [bFire_of_ne other] at fires
      exact Bool.noConfusion fires
    rw [Progress, at_] at progress
    exact progress.2.2.2.2

/-- A response is offered in the last state only, to the port that asked. -/
theorem rsp_of_valid (valid : (r.rsp k p).valid = true) :
    ∃ req a, r.serving k = some ((p, req), a) ∧
      (r.bridge k).state = .rsp ∧ r.rsp k p = (r.bridge k).rsp := by
  rw [rsp_eq, Bool.and_eq_true] at valid
  obtain ⟨owns, offered⟩ := valid
  have at_ : (r.bridge k).state = .rsp := by
    simpa [AxiLiteM.rsp] using offered
  obtain ⟨q, req, a, now⟩ :=
    serving_of_not_idle (r := r) (k := k) (by simp [at_])
  have owner : (r.state k).arbOwner = p.owner := by simpa using owns
  have same : q = p := by
    have both := (busy_of_serving now).owner.symm.trans owner
    cases p <;> cases q <;> first | rfl | cases both
  subst same
  exact ⟨req, a, now, at_, r.rsp_of_owner owner⟩

/-- Every accepted request of either port is one transaction of the slave and
one response, in whatever order the handshakes come. -/
theorem delivers_once (r : AxiRun) : r.DeliversOnce := by
  constructor
  case apart => exact r.apart
  case readChannels =>
    intro k fires
    have states := not_idle_of_read fires
    obtain ⟨p, req, a, now⟩ := serving_of_not_idle (r := r) (k := k) (by
      rcases states with at_ | at_ <;> simp [at_])
    have busy := busy_of_serving now
    have progress := busy.progress
    refine ⟨p, req, a, now, ?_, busy.payload.1⟩
    rcases states with at_ | at_
    · rw [Progress, at_] at progress
      exact progress.1
    · rw [Progress, at_] at progress
      exact progress.1
  case writeChannels =>
    intro k fires
    have states := not_idle_of_write fires
    obtain ⟨p, req, a, now⟩ := serving_of_not_idle (r := r) (k := k) (by
      rcases states with at_ | at_ <;> simp [at_])
    have busy := busy_of_serving now
    have progress := busy.progress
    refine ⟨p, req, a, now, ?_, busy.payload⟩
    rcases states with at_ | at_
    · rw [Progress, at_] at progress
      exact progress.1
    · rw [Progress, at_] at progress
      exact progress.1
  case single => exact single_handshakes r
  case response =>
    intro k p valid
    obtain ⟨req, a, now, at_, same⟩ := rsp_of_valid valid
    have progress := (busy_of_serving now).progress
    rw [Progress, at_] at progress
    rw [same]
    exact ⟨req, a, now, progress⟩
  case held =>
    intro k p valid stalled
    obtain ⟨req, a, now, at_, same⟩ := rsp_of_valid valid
    have busy := busy_of_serving now
    have waits : ((r.state k).bridgeIn (r.inputs k)).rspReady = false := by
      change (r.state k).coreRspReady (r.inputs k) = false
      rw [AxiPath.coreRspReady, busy.owner]
      cases p <;> exact stalled
    have keeps : r.handover k = false := by
      rw [handover_eq]
      change ((r.bridge k).rsp.valid &&
        ((r.state k).bridgeIn (r.inputs k)).rspReady) = false
      rw [waits, Bool.and_false]
    have stays := busy.stays (asked_lt_of_outstanding now) keeps
    rw [same, r.rsp_of_owner stays.owner, bridge_succ,
      AxiLiteM.next_rsp _ _ at_, waits, if_neg Bool.false_ne_true]
  case once =>
    intro k l request early late atEarly atLate
    exact eq_of_handover early atEarly late atLate
  case answered =>
    intro responsive a p req accepted
    obtain ⟨k, now, at_⟩ := reaches_rsp responsive accepted
    refine ⟨k, now, ?_⟩
    rw [r.rsp_of_owner (busy_of_serving now).owner]
    simp [AxiLiteM.rsp, at_]
  case exclusive =>
    intro k
    unfold AxiLiteM.arvalid AxiLiteM.rready AxiLiteM.awvalid AxiLiteM.wvalid
      AxiLiteM.bready
    cases (r.bridge k).state <;> simp
  case arStable =>
    intro k valid stalled
    have at_ : (r.bridge k).state = .rdAddr := by
      simpa [AxiLiteM.arvalid] using valid
    have stays : r.bridge (k + 1) = r.bridge k := by
      rw [bridge_succ, AxiLiteM.next_rdAddr _ _ at_, AxiLiteM.arFire,
        stalled, Bool.and_false, if_neg Bool.false_ne_true]
    rw [stays]
    exact ⟨valid, rfl⟩
  case awStable =>
    intro k valid stalled
    obtain ⟨at_, waiting⟩ :
        (r.bridge k).state = .wrAddr ∧ (r.bridge k).awDone = false := by
      simpa [AxiLiteM.awvalid] using valid
    rw [bridge_succ, AxiLiteM.next_wrAddr _ _ at_]
    simp [AxiLiteM.awvalid, AxiLiteM.awaddr, AxiLiteM.writeSent,
      AxiLiteM.awFire, waiting, stalled]
  case wStable =>
    intro k valid stalled
    obtain ⟨at_, waiting⟩ :
        (r.bridge k).state = .wrAddr ∧ (r.bridge k).wDone = false := by
      simpa [AxiLiteM.wvalid] using valid
    rw [bridge_succ, AxiLiteM.next_wrAddr _ _ at_]
    simp [AxiLiteM.wvalid, AxiLiteM.wdata, AxiLiteM.wstrb,
      AxiLiteM.writeSent, AxiLiteM.wFire, waiting, stalled]

/-- A slave that is always ready and always answers is responsive. -/
example (inputs : ℕ → AxiPathIn)
    (ready : ∀ k, (inputs k).axi = ⟨true, true, true, 0, true, true, 0, 0⟩) :
    (AxiRun.mk inputs).Responsive := by
  constructor
  all_goals
    intro k _
    exact ⟨k, le_rfl, by simp [axi, ready k]⟩

end AxiRun

end SisRv
