import SisRv.Rtl.AxiLiteSlave

/-!
# Arbitration

The scan of `sisPlic`, and of its copy in the AXI slave, against the rule of
the specification: the eligible source with the highest priority, and among
equals the one with the lowest number.
-/

namespace SisRv

namespace PlicState

variable {n : ℕ} (s : PlicState n)

/-! ## Eligible sources -/

/-- An enabled source is pending with a priority above the threshold. -/
def Eligible (e : Fin n) : Prop :=
  s.enabled e = true ∧ s.gatewayPending e = true ∧
    s.threshold < s.irqPrio e

instance (e : Fin n) : Decidable (s.Eligible e) :=
  inferInstanceAs (Decidable (_ ∧ _ ∧ _))

/-- An eligible source that no eligible one exceeds. -/
def Top (e : Fin n) : Prop :=
  s.Eligible e ∧ ∀ other, s.Eligible other → s.irqPrio other ≤ s.irqPrio e

instance (e : Fin n) : Decidable (s.Top e) :=
  inferInstanceAs (Decidable (_ ∧ _))

/-- The rule for the id that is offered. -/
structure Elects (id : BitVec 4) : Prop where
  idle : id = 0 ↔ ∀ e, ¬ s.Eligible e
  lowest : id ≠ 0 →
    ∃ e, id = sourceId e ∧ s.Top e ∧ ∀ other, s.Top other → e ≤ other

/-! ## The scan -/

/-- The best of a list of sources, highest number first. -/
def best (sources : List (Fin n)) : BitVec 4 × BitVec 8 :=
  sources.foldl
    (fun best e =>
      if s.enabled e && s.gatewayPending e &&
          decide (best.2 < s.irqPrio e) &&
          decide (s.threshold < s.irqPrio e) then
        (sourceId e, s.irqPrio e)
      else best)
    (0, 0)

theorem best_concat (sources : List (Fin n)) (last : Fin n) :
    s.best (sources ++ [last]) =
      if s.Eligible last ∧ (s.best sources).2 < s.irqPrio last then
        (sourceId last, s.irqPrio last)
      else s.best sources := by
  have step : s.best (sources ++ [last]) =
      if s.enabled last && s.gatewayPending last &&
          decide ((s.best sources).2 < s.irqPrio last) &&
          decide (s.threshold < s.irqPrio last) then
        (sourceId last, s.irqPrio last)
      else s.best sources := by
    rw [best, List.foldl_append, List.foldl_cons, List.foldl_nil]
    rfl
  rw [step]
  congr 1
  generalize (s.best sources).2 = highest
  simp only [Eligible, Bool.and_eq_true, decide_eq_true_eq, eq_iff_iff]
  tauto

/-- What the arbitration keeps: nothing, as long as no source was eligible,
and else an eligible source that none exceeds and none before it equals. -/
theorem best_spec (sources : List (Fin n)) :
    (s.best sources = (0, 0) ∧ ∀ e ∈ sources, ¬ s.Eligible e) ∨
      ∃ before e after, sources = before ++ e :: after ∧ s.Eligible e ∧
        s.best sources = (sourceId e, s.irqPrio e) ∧
        (∀ other ∈ before, s.Eligible other →
          s.irqPrio other < s.irqPrio e) ∧
        ∀ other ∈ after, s.Eligible other →
          s.irqPrio other ≤ s.irqPrio e := by
  induction sources using List.reverseRecOn with
  | nil =>
      exact Or.inl ⟨rfl, by simp⟩
  | append_singleton sources last inductionHypothesis =>
      rw [best_concat]
      rcases inductionHypothesis with
        ⟨none, idle⟩ | ⟨before, e, after, rfl, eligible, found, less, most⟩
      · rw [none]
        by_cases eligible : s.Eligible last
        · have positive : (0 : BitVec 8) < s.irqPrio last := by
            have above := eligible.2.2
            rw [BitVec.lt_def] at above ⊢
            exact Nat.lt_of_le_of_lt (Nat.zero_le _) above
          rw [if_pos ⟨eligible, positive⟩]
          refine Or.inr ⟨sources, last, [], rfl, eligible, rfl, ?_, by simp⟩
          exact fun other member others => absurd others (idle other member)
        · rw [if_neg fun wins => eligible wins.1]
          refine Or.inl ⟨rfl, ?_⟩
          intro other member
          rw [List.mem_append, List.mem_singleton] at member
          rcases member with earlier | rfl
          · exact idle other earlier
          · exact eligible
      · rw [found]
        by_cases wins : s.Eligible last ∧ s.irqPrio e < s.irqPrio last
        · rw [if_pos wins]
          refine Or.inr ⟨before ++ e :: after, last, [], by simp, wins.1, rfl,
            ?_, by simp⟩
          intro other member others
          rw [List.mem_append, List.mem_cons] at member
          rcases member with early | rfl | late
          · exact BitVec.lt_trans (less other early others) wins.2
          · exact wins.2
          · have below := most other late others
            have above := wins.2
            rw [BitVec.le_def] at below
            rw [BitVec.lt_def] at above ⊢
            exact Nat.lt_of_le_of_lt below above
        · rw [if_neg wins]
          refine Or.inr ⟨before, e, after ++ [last], by simp, eligible, rfl,
            less, ?_⟩
          intro other member others
          rw [List.mem_append, List.mem_singleton] at member
          rcases member with earlier | rfl
          · exact most other earlier others
          · exact BitVec.not_lt.mp fun more => wins ⟨others, more⟩

theorem winner_eq_best : s.winner = s.best (List.finRange n).reverse := rfl

/-- The scan finds the top source with the highest number. -/
theorem winnerId_spec :
    (s.winnerId = 0 ∧ ∀ e, ¬ s.Eligible e) ∨
      ∃ e, s.winnerId = sourceId e ∧ s.Top e ∧
        ∀ other, s.Top other → other ≤ e := by
  rcases s.best_spec (List.finRange n).reverse with
    ⟨none, idle⟩ | ⟨before, e, after, split, eligible, found, less, most⟩
  · rw [← winner_eq_best] at none
    exact Or.inl ⟨by rw [winnerId, none], fun e => idle e (by simp)⟩
  · rw [← winner_eq_best] at found
    have descending : (before ++ e :: after).Pairwise (· > ·) := by
      rw [← split, List.pairwise_reverse]
      exact List.pairwise_lt_finRange n
    have cases_ : ∀ other, other ∈ before ∨ other = e ∨ other ∈ after := by
      intro other
      have member : other ∈ (List.finRange n).reverse := by simp
      rwa [split, List.mem_append, List.mem_cons] at member
    have top : s.Top e := by
      refine ⟨eligible, fun other others => ?_⟩
      rcases cases_ other with early | rfl | late
      · exact BitVec.le_of_lt (less other early others)
      · exact BitVec.le_refl _
      · exact most other late others
    refine Or.inr ⟨e, by rw [winnerId, found], top, fun other others => ?_⟩
    rcases cases_ other with early | rfl | late
    · have below := less other early others.1
      exact absurd (others.2 e eligible) (BitVec.not_le.mpr below)
    · exact le_rfl
    · rw [List.pairwise_append, List.pairwise_cons] at descending
      exact le_of_lt (descending.2.1.1 other late)

/-! ## The winner -/

section Winner

variable {s} (small : n ≤ 15)
include small

theorem toNat_sourceId (e : Fin n) : (sourceId e).toNat = e.val + 1 := by
  have bound := e.isLt
  rw [sourceId, BitVec.toNat_ofNat]
  omega

theorem sourceId_ne_zero (e : Fin n) : sourceId e ≠ 0 := by
  intro zero
  have value := toNat_sourceId small e
  rw [zero] at value
  exact absurd value (by simp)

theorem sourceId_injective : Function.Injective (sourceId (n := n)) := by
  intro e other same
  have value := congrArg BitVec.toNat same
  rw [toNat_sourceId small, toNat_sourceId small] at value
  exact Fin.ext (by omega)

variable (s)

/-- With at most 15 sources an interrupt is active exactly if a source is
eligible, and the winner is one that none exceeds. -/
theorem winner_spec :
    (s.irqActive = false ∧ ∀ e, ¬ s.Eligible e) ∨
      s.irqActive = true ∧ ∃ e, s.Eligible e ∧ s.winnerId = sourceId e ∧
        ∀ other, s.Eligible other → s.irqPrio other ≤ s.irqPrio e := by
  rcases s.winnerId_spec with ⟨none, idle⟩ | ⟨e, found, top, -⟩
  · exact Or.inl ⟨by simp [irqActive, none], idle⟩
  · have active : s.irqActive = true := by
      simpa [irqActive, found] using sourceId_ne_zero small e
    exact Or.inr ⟨active, e, top.1, found, top.2⟩

theorem irqActive_iff : s.irqActive = true ↔ ∃ e, s.Eligible e := by
  rcases s.winner_spec small with ⟨idle, none⟩ | ⟨active, e, eligible, -⟩
  · simp [idle, none]
  · exact ⟨fun _ => ⟨e, eligible⟩, fun _ => active⟩

/-- Without a tie at the top, any choice of the top is the right one. -/
theorem elects_winnerId_iff :
    s.Elects s.winnerId ↔ ∀ e other, s.Top e → s.Top other → e = other := by
  rcases s.winnerId_spec with ⟨none, idle⟩ | ⟨e, found, top, highest⟩
  · refine iff_of_true ⟨?_, fun some => absurd none some⟩ ?_
    · exact iff_of_true none idle
    · exact fun e _ top => absurd top.1 (idle e)
  · have active : s.winnerId ≠ 0 := by
      rw [found]
      exact sourceId_ne_zero small e
    constructor
    · intro elects
      obtain ⟨low, same, -, lowest⟩ := elects.lowest active
      obtain rfl := sourceId_injective small (found.symm.trans same)
      have unique : ∀ other, s.Top other → other = e := fun other others =>
        le_antisymm (highest other others) (lowest other others)
      intro left right atLeft atRight
      rw [unique left atLeft, unique right atRight]
    · intro unique
      refine ⟨?_, fun _ => ⟨e, found, top, fun other others => ?_⟩⟩
      · exact iff_of_false active fun idle => idle e top.1
      · exact le_of_eq (unique e other top others)

end Winner

end PlicState

/-! ## The copy in the AXI slave -/

/-- The interrupt controller inside the slave, without the bus. -/
def AxiLiteSlave.plic (s : AxiLiteSlave) : PlicState 8 where
  irqPrio := s.plicPrio
  gatewayPending := s.plicPending
  enabled := s.plicEnabled
  threshold := s.plicThreshold
  claimedId := s.plicClaimId
  claimActive := s.plicClaimActive
  pending := false
  rdataReg := 0

theorem AxiLiteSlave.plicWinnerId_eq (s : AxiLiteSlave) :
    s.plicWinnerId = s.plic.winnerId := rfl

/-- Both scans follow the rule of the specification if and only if no two
eligible sources share the highest priority. -/
theorem elects_iff {n : ℕ} (small : n ≤ 15) (s : PlicState n)
    (t : AxiLiteSlave) :
    (s.Elects s.winnerId ↔ ∀ e other, s.Top e → s.Top other → e = other) ∧
      (t.plic.Elects t.plicWinnerId ↔
        ∀ e other, t.plic.Top e → t.plic.Top other → e = other) := by
  refine ⟨s.elects_winnerId_iff small, ?_⟩
  rw [t.plicWinnerId_eq]
  exact t.plic.elects_winnerId_iff (by decide)

/-- Two raised sources, and the first write to the enable register. -/
def raised (enable : BitVec 32) : PlicState 2 :=
  (PlicState.reset 2).next Plic.baseAddr
    { reqValid := true
      req := ⟨0x0C002000, true, enable, 0xF⟩
      rspReady := true
      irqSrc := fun _ => true }

theorem elects_iff_raised : (raised 2).Elects (raised 2).winnerId :=
  (elects_iff (by decide) (raised 2)
    (AxiLiteSlave.reset (fun _ => 0) (fun _ => 0) 0)).1.mpr (by decide)

/-- Both sources are enabled with the priority of the reset, and source 2 is
offered. -/
theorem not_elects :
    ¬ ∀ (n : ℕ) (s : PlicState n), n ≤ 15 → s.Elects s.winnerId := by
  intro elects
  have same := ((raised 6).elects_winnerId_iff (by decide)).mp
    (elects 2 (raised 6) (by decide)) 0 1
  exact absurd (same (by decide) (by decide)) (by decide)

end SisRv
