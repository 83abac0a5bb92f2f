import SisRv.Lib.Trajectory
import SisRv.Plic.Arbitration

/-!
# The claim and completion protocol

What a handler expects of `sisPlic`: it claims the winner of the arbitration,
serves it and completes it.  The decoder compares the upper half of the
address, and the threshold and claim registers lie outside that half.
-/

namespace SisRv

open Sync

/-! ## Runs -/

/-- A run of `sisPlic` at its base address after reset. -/
structure PlicRun (n : ℕ) where
  inputs : ℕ → PlicIn n

namespace PlicRun

open Plic PlicState

variable {n : ℕ} (r : PlicRun n)

/-- The registers in cycle `k`. -/
def state : ℕ → PlicState n :=
  trajectory (fun s i => s.next baseAddr i) (PlicState.reset n) r.inputs

theorem state_succ (k : ℕ) :
    r.state (k + 1) = (r.state k).next baseAddr (r.inputs k) := rfl

/-- The register at an offset is accessed in cycle `k`. -/
def Accesses (k : ℕ) (offset : BitVec 32) (we : Bool) : Prop :=
  (r.state k).reqFire (r.inputs k) = true ∧ (r.inputs k).req.we = we ∧
    (r.inputs k).req.addr = baseAddr + offset

/-- The claim register is read with no source in service and one eligible,
which is the winner of the arbitration. -/
def Claims (k : ℕ) (e : Fin n) : Prop :=
  r.Accesses k offClaim false ∧ (r.state k).claimActive = false ∧
    (∃ other, (r.state k).Eligible other) ∧
    (r.state k).winnerId = sourceId e

/-- The id of the source in service is written to the claim register. -/
def Completes (k : ℕ) (e : Fin n) : Prop :=
  r.Accesses k offClaim true ∧ (r.state k).claimActive = true ∧
    (r.state k).claimedId = sourceId e ∧
    (r.inputs k).req.wdata.extractLsb' 0 4 = sourceId e

/-- The claim and completion protocol. -/
structure FollowsProtocol : Prop where
  claim : ∀ k e, r.Claims k e →
    (r.state (k + 1)).rdataReg = (sourceId e).setWidth 32 ∧
      (r.state (k + 1)).claimActive = true ∧
      (r.state (k + 1)).claimedId = sourceId e ∧
      (r.state (k + 1)).meip = false
  empty : ∀ k, r.Accesses k offClaim false →
    (r.state k).claimActive = false →
    (∀ e, ¬ (r.state k).Eligible e) →
    (r.state (k + 1)).rdataReg = 0
  complete : ∀ k e, r.Completes k e →
    (r.state (k + 1)).claimActive = false ∧
      (r.state (k + 1)).gatewayPending e = (r.inputs k).irqSrc e ∧
      ((r.state (k + 1)).meip = true ↔
        ∃ other, (r.state (k + 1)).Eligible other)
  threshold : ∀ k, r.Accesses k offThreshold true →
    (r.inputs k).req.wstrb.getLsbD 0 = true →
    (r.state (k + 1)).threshold = (r.inputs k).req.wdata.extractLsb' 0 8
  once : ∀ a b e, a < b → r.Claims a e → r.Claims b e →
    ∃ c, a < c ∧ c < b ∧ r.Completes c e
  kept : ∀ k e, (r.state k).gatewayPending e = true → ¬ r.Completes k e →
    (r.state (k + 1)).gatewayPending e = true

/-! ## The registers behind the upper half of the address -/

theorem not_addrMatch {req : BusReq} {offset : BitVec 32}
    (far : offset = offClaim ∨ offset = offThreshold)
    (named : req.addr = baseAddr + offset) :
    addrMatch baseAddr req = false := by
  rcases far with rfl | rfl <;> rw [addrMatch, named] <;> decide

theorem rel_ne {req : BusReq} {offset : BitVec 32}
    (far : offset = offClaim ∨ offset = offThreshold)
    (matches_ : addrMatch baseAddr req = true) :
    rel baseAddr req ≠ offset := by
  intro same
  have named : req.addr = baseAddr + offset := by
    rw [← same, rel, BitVec.add_comm, BitVec.sub_add_cancel]
  rw [not_addrMatch far named] at matches_
  exact absurd matches_ (by decide)

/-- The threshold and the claim registers are never assigned. -/
structure Untouched (s : PlicState n) : Prop where
  threshold : s.threshold = 0
  claimedId : s.claimedId = 0
  claimActive : s.claimActive = false

section Untouched

variable {s t : PlicState n} {offset : BitVec 32}
  (notClaim : offset ≠ offClaim) (notThreshold : offset ≠ offThreshold)
include notClaim notThreshold

theorem untouched_writeReg (req : BusReq) (quiet : Untouched t) :
    Untouched (s.writeReg offset req t) := by
  obtain ⟨threshold, claimedId, claimActive⟩ := quiet
  unfold writeReg
  rw [if_neg notThreshold, if_neg notClaim]
  by_cases enable : offset = offEnable
  · rw [if_pos enable]
    exact ⟨threshold, claimedId, claimActive⟩
  · rw [if_neg enable]
    cases prioIndex n offset with
    | none => exact ⟨threshold, claimedId, claimActive⟩
    | some idx =>
        dsimp only
        split
        · exact ⟨threshold, claimedId, claimActive⟩
        · exact ⟨threshold, claimedId, claimActive⟩

theorem untouched_readReg (quiet : Untouched t) :
    Untouched (s.readReg offset t) := by
  obtain ⟨threshold, claimedId, claimActive⟩ := quiet
  unfold readReg
  rw [if_neg notThreshold, if_neg notClaim]
  by_cases pending : offset = offPending
  · rw [if_pos pending]
    exact ⟨threshold, claimedId, claimActive⟩
  rw [if_neg pending]
  by_cases enable : offset = offEnable
  · rw [if_pos enable]
    exact ⟨threshold, claimedId, claimActive⟩
  rw [if_neg enable]
  cases prioIndex n offset with
  | none => exact ⟨threshold, claimedId, claimActive⟩
  | some idx => exact ⟨threshold, claimedId, claimActive⟩

end Untouched

theorem untouched_access
    {s : PlicState n} (i : PlicIn n) (quiet : Untouched s) :
    Untouched (s.access baseAddr i s) := by
  have armed : Untouched { s with pending := true } :=
    ⟨quiet.threshold, quiet.claimedId, quiet.claimActive⟩
  unfold access
  by_cases fire : s.reqFire i = true
  · rw [if_pos fire]
    by_cases hit : addrMatch baseAddr i.req = true
    · have notClaim := rel_ne (Or.inl rfl) hit
      have notThreshold := rel_ne (Or.inr rfl) hit
      by_cases write : i.req.we = true
      · simp only [hit, write, Bool.and_self, if_true]
        exact untouched_writeReg notClaim notThreshold i.req armed
      · simp only [hit, write, Bool.not_false, Bool.and_self, Bool.and_false,
          Bool.false_eq_true, if_false, if_true]
        exact untouched_readReg notClaim notThreshold armed
    · simp only [hit, Bool.false_and, Bool.false_eq_true, if_false]
      exact ⟨quiet.threshold, quiet.claimedId, quiet.claimActive⟩
  · rw [if_neg fire]
    split
    · exact ⟨quiet.threshold, quiet.claimedId, quiet.claimActive⟩
    · exact quiet

theorem untouched (k : ℕ) : Untouched (r.state k) := by
  induction k with
  | zero =>
      exact ⟨rfl, rfl, rfl⟩
  | succ k inductionHypothesis =>
      have kept := untouched_access (r.inputs k) inductionHypothesis
      exact ⟨kept.threshold, kept.claimedId, kept.claimActive⟩

/-- An access to one of these registers reads zero. -/
theorem rdataReg_of_far
    {k : ℕ} {offset : BitVec 32} {we : Bool}
    (far : offset = offClaim ∨ offset = offThreshold)
    (accesses : r.Accesses k offset we) :
    (r.state (k + 1)).rdataReg = 0 := by
  obtain ⟨fire, -, named⟩ := accesses
  have missed := not_addrMatch far named
  rw [r.state_succ]
  simp [next, access, fire, missed]

end PlicRun

/-- The handler's view of the controller is right if and only if the claim
register is never read while a source is eligible and the threshold is never
set to another value than zero. -/
theorem followsProtocol_iff {n : ℕ} (small : n ≤ 15) (r : PlicRun n) :
    r.FollowsProtocol ↔
      (∀ k, r.Accesses k Plic.offClaim false →
        ∀ e, ¬ (r.state k).Eligible e) ∧
      ∀ k, r.Accesses k Plic.offThreshold true →
        (r.inputs k).req.wstrb.getLsbD 0 = true →
        (r.inputs k).req.wdata.extractLsb' 0 8 = 0 := by
  constructor
  · intro follows
    constructor
    · intro k reads e eligible
      obtain ⟨-, winner, -, wins, -⟩ :=
        ((r.state k).winner_spec small).resolve_left
          fun idle => idle.2 e eligible
      have claims : r.Claims k winner :=
        ⟨reads, (r.untouched k).claimActive, ⟨e, eligible⟩, wins⟩
      have active := (follows.claim k winner claims).2.1
      rw [(r.untouched (k + 1)).claimActive] at active
      exact Bool.false_ne_true active
    · intro k writes strobe
      rw [← follows.threshold k writes strobe]
      exact (r.untouched (k + 1)).threshold
  · rintro ⟨noClaim, noThreshold⟩
    have never : ∀ k e, ¬ r.Claims k e := by
      rintro k e ⟨reads, -, ⟨other, eligible⟩, -⟩
      exact noClaim k reads other eligible
    have idle : ∀ k e, ¬ r.Completes k e := by
      rintro k e ⟨-, active, -⟩
      rw [(r.untouched k).claimActive] at active
      exact Bool.false_ne_true active
    constructor
    case claim => exact fun k e claims => absurd claims (never k e)
    case empty =>
      intro k reads _ _
      exact r.rdataReg_of_far (Or.inl rfl) reads
    case complete => exact fun k e completes => absurd completes (idle k e)
    case threshold =>
      intro k writes strobe
      rw [(r.untouched (k + 1)).threshold, noThreshold k writes strobe]
    case once => exact fun a b e _ claims => absurd claims (never a e)
    case kept =>
      intro k e waits _
      have inactive := (r.untouched k).claimActive
      rw [r.state_succ]
      simp [PlicState.next, PlicState.gatewayNext, PlicState.completes,
        inactive, waits]

/-- The claim register is read while nothing is eligible. -/
def claimNone : PlicRun 1 where
  inputs := fun k =>
    { reqValid := k == 0
      req := ⟨0x0C200004, false, 0, 0xF⟩
      rspReady := true
      irqSrc := fun _ => false }

theorem followsProtocol_iff_claimNone : claimNone.FollowsProtocol := by
  refine (followsProtocol_iff (by decide) claimNone).mpr ⟨?_, ?_⟩
  · rintro k ⟨fire, -, -⟩ e
    match k with
    | 0 =>
        revert e
        decide
    | _ + 1 => exact absurd fire Bool.false_ne_true
  · rintro k ⟨-, writes, -⟩
    exact absurd writes Bool.false_ne_true

/-- Source 1 is raised and enabled, then the claim register is read. -/
def claimOne : PlicRun 1 where
  inputs := fun k =>
    { reqValid := k == 0 || k == 2
      req :=
        if k = 0 then ⟨0x0C002000, true, 0x2, 0xF⟩
        else ⟨0x0C200004, false, 0, 0xF⟩
      rspReady := true
      irqSrc := fun _ => k == 0 }

/-- The claim returns nothing and the source is not in service. -/
theorem not_followsProtocol :
    ¬ ∀ (n : ℕ) (r : PlicRun n), n ≤ 15 → r.FollowsProtocol := by
  intro follows
  have claims : claimOne.Claims 2 0 := by
    refine ⟨⟨?_, rfl, rfl⟩, ?_, ⟨0, ?_⟩, ?_⟩ <;> decide
  have served := ((follows 1 claimOne (by decide)).claim 2 0 claims).2.1
  exact absurd served (by decide)

end SisRv
