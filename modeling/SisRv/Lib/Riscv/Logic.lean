import Mathlib.Logic.Relation
import SisRv.Lib.Riscv.Hart

/-!
# Stretches of machine code

Total correctness of stretches of a program on a hart: what leads from one
condition on harts to another one, how such stretches follow one another, and
loops with a counted invariant.
-/

namespace SisRv.Riscv.Hart

universe u

variable {σ : Type u} (m : Memory σ) (takes : Parcel → Prop)

/-- One instruction of those that are taken. -/
def Steps (h h' : Hart σ) : Prop :=
  ∃ parcel, takes parcel ∧ h.Executes m h' parcel

/-- Any number of them. -/
def Reaches : Hart σ → Hart σ → Prop :=
  Relation.ReflTransGen (Steps m takes)

/-- Every hart with `pre` gets to one with `post`. -/
def Leads (pre post : Hart σ → Prop) : Prop :=
  ∀ h, pre h → ∃ h', Reaches m takes h h' ∧ post h'

variable {m takes} {h h' : Hart σ} {pre mid post : Hart σ → Prop}

namespace Leads

theorem of_imp (weakens : ∀ h, pre h → post h) : Leads m takes pre post :=
  fun h holds => ⟨h, Relation.ReflTransGen.refl, weakens h holds⟩

theorem trans
    (first : Leads m takes pre mid) (second : Leads m takes mid post) :
    Leads m takes pre post := by
  intro h holds
  obtain ⟨h', reaches, between⟩ := first h holds
  obtain ⟨h'', goesOn, done⟩ := second h' between
  exact ⟨h'', Relation.ReflTransGen.trans reaches goesOn, done⟩

/-- A loop whose body takes the invariant from one count to the next. -/
theorem loop {inv : ℕ → Hart σ → Prop} {count : ℕ}
    (body : ∀ k < count, Leads m takes (inv k) (inv (k + 1))) :
    Leads m takes (inv 0) (inv count) := by
  induction count with
  | zero => exact of_imp fun _ holds => holds
  | succ count inductionHypothesis =>
      exact (inductionHypothesis fun k below =>
        body k (Nat.lt_succ_of_lt below)).trans (body count (Nat.lt_succ_self _))

end Leads

/-! ## x0 -/

theorem regs_zero_of_effect (e : Effect) (word : BitVec 32)
    (x : BitVec 5 → BitVec 32) : e.regs word x 0 = x 0 := by
  cases e with
  | writes rd value | loads op rd a =>
      rw [Effect.regs]
      split_ifs with zero
      · rfl
      · exact Function.update_of_ne (Ne.symm zero) _ _
  | nothing | stores | breaks => rfl

theorem regs_zero_of_perform {o : Outcome}
    (performs : h.perform m o = some h') : h'.regs 0 = h.regs 0 := by
  rw [perform] at performs
  cases effect : o.effect with
  | nothing | writes =>
      rw [effect] at performs
      rw [← Option.some.inj performs]
      simp only [regs_zero_of_effect]
  | loads =>
      rw [effect] at performs
      obtain ⟨⟨word, memory⟩, -, rfl⟩ := Option.map_eq_some_iff.mp performs
      simp only [regs_zero_of_effect]
  | stores =>
      rw [effect] at performs
      obtain ⟨_, -, rfl⟩ := Option.map_eq_some_iff.mp performs
      rfl
  | breaks =>
      rw [effect] at performs
      cases performs

theorem regs_zero_of_reaches (reaches : Reaches m takes h h') :
    h'.regs 0 = h.regs 0 := by
  induction reaches with
  | refl => rfl
  | tail _ step inductionHypothesis =>
      obtain ⟨parcel, -, executes⟩ := step
      obtain ⟨o, -, performs⟩ := Option.bind_eq_some_iff.mp executes.performs
      exact (regs_zero_of_perform performs).trans inductionHypothesis

/-! ## Sequences -/

variable (m takes) in
/-- The harts and the instructions of a stretch, one after the other. -/
structure Sequence (count : ℕ) (h h' : Hart σ) where
  hart : ℕ → Hart σ
  parcel : ℕ → Parcel
  starts : hart 0 = h
  ends : hart count = h'
  taken : ∀ k < count, takes (parcel k)
  executes : ∀ k < count, (hart k).Executes m (hart (k + 1)) (parcel k)

namespace Sequence

variable {count more : ℕ} {h'' : Hart σ}

/-- One stretch after the other. -/
def append (s : Sequence m takes count h h')
    (t : Sequence m takes more h' h'') :
    Sequence m takes (count + more) h h'' where
  hart k := if k < count then s.hart k else t.hart (k - count)
  parcel k := if k < count then s.parcel k else t.parcel (k - count)
  starts := by
    split_ifs with some_
    · exact s.starts
    · have none : count = 0 := by omega
      subst none
      rw [t.starts, ← s.ends, s.starts]
  ends := by
    rw [if_neg (by omega), Nat.add_sub_cancel_left, t.ends]
  taken := by
    intro k below
    split_ifs with early
    · exact s.taken k early
    · exact t.taken _ (by omega)
  executes := by
    intro k below
    rcases Nat.lt_trichotomy (k + 1) count with early | last | late
    · rw [if_pos (by omega), if_pos early, if_pos (by omega)]
      exact s.executes k (by omega)
    · have whole : t.hart 0 = s.hart (k + 1) := by
        rw [t.starts, last, s.ends]
      rw [if_pos (by omega), if_neg (by omega), if_pos (by omega), last,
        Nat.sub_self, whole]
      exact s.executes k (by omega)
    · have next : k + 1 - count = k - count + 1 := by omega
      rw [if_neg (by omega), if_neg (by omega), if_neg (by omega), next]
      exact t.executes _ (by omega)

theorem append_hart (s : Sequence m takes count h h')
    (t : Sequence m takes more h' h'') (k : ℕ) :
    (s.append t).hart (count + k) = t.hart k := by
  show (if count + k < count then _ else _) = _
  rw [if_neg (by omega), Nat.add_sub_cancel_left]

variable (m takes h) in
/-- No instruction. -/
def nil : Sequence m takes 0 h h :=
  ⟨fun _ => h, fun _ => .full .fencei, rfl, rfl,
    fun k below => absurd below (Nat.not_lt_zero k),
    fun k below => absurd below (Nat.not_lt_zero k)⟩

def single {parcel : Parcel} (taken : takes parcel)
    (executes : h.Executes m h' parcel) : Sequence m takes 1 h h' where
  hart k := if k = 0 then h else h'
  parcel _ := parcel
  starts := rfl
  ends := rfl
  taken _ _ := taken
  executes k below := by
    rw [Nat.lt_one_iff.mp below]
    exact executes

end Sequence

theorem exists_sequence (reaches : Reaches m takes h h') :
    ∃ count, Nonempty (Sequence m takes count h h') := by
  induction reaches with
  | refl => exact ⟨0, ⟨.nil m takes h⟩⟩
  | tail _ step inductionHypothesis =>
      obtain ⟨parcel, taken, executes⟩ := step
      obtain ⟨count, ⟨sequence⟩⟩ := inductionHypothesis
      exact ⟨count + 1, ⟨sequence.append (.single taken executes)⟩⟩

theorem exists_sequence_succ (advances : Relation.TransGen (Steps m takes) h h') :
    ∃ count, Nonempty (Sequence m takes (1 + count) h h') := by
  obtain ⟨next, ⟨parcel, taken, executes⟩, reaches⟩ :=
    Relation.TransGen.head'_iff.mp advances
  obtain ⟨count, ⟨sequence⟩⟩ := exists_sequence reaches
  exact ⟨count, ⟨(Sequence.single taken executes).append sequence⟩⟩

end SisRv.Riscv.Hart
