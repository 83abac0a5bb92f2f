import Mathlib.Order.Basic
import Mathlib.Order.Nat

/-!
# Request channels and marked cycles

A channel that holds at most one request: the request accepted last is
outstanding until its answer is handed over.  Without that limit the accepted
requests queue up.  A second part is about the cycles after the last one that
carries a mark, for example a flush.
-/

namespace Sync

universe u v

/-! ## Outstanding requests -/

section Channel

variable {Tag : Type u}

/-- The outstanding request before cycle `n`, with the cycle in which it was
accepted. -/
def outstanding (accept : ℕ → Option Tag) (handover : ℕ → Bool) :
    ℕ → Option (Tag × ℕ)
  | 0 => none
  | n + 1 =>
      match accept n with
      | some tag => some (tag, n)
      | none => if handover n then none else outstanding accept handover n

variable {accept : ℕ → Option Tag} {handover : ℕ → Bool} {n : ℕ}

theorem outstanding_of_accept {tag : Tag} (accepts : accept n = some tag) :
    outstanding accept handover (n + 1) = some (tag, n) := by
  simp [outstanding, accepts]

theorem outstanding_of_handover
    (silent : accept n = none) (hands : handover n = true) :
    outstanding accept handover (n + 1) = none := by
  simp [outstanding, silent, hands]

theorem outstanding_of_idle
    (silent : accept n = none) (keeps : handover n = false) :
    outstanding accept handover (n + 1) = outstanding accept handover n := by
  simp [outstanding, silent, keeps]

/-- An outstanding request is the one accepted last or was outstanding
before. -/
theorem outstanding_succ_cases {request : Tag × ℕ}
    (out : outstanding accept handover (n + 1) = some request) :
    request.2 = n ∨
      accept n = none ∧ handover n = false ∧
        outstanding accept handover n = some request := by
  cases accepts : accept n with
  | some tag =>
      rw [outstanding_of_accept accepts] at out
      left
      rw [← Option.some.inj out]
  | none =>
      by_cases hands : handover n = true
      · simp [outstanding_of_handover accepts hands] at out
      · have keeps : handover n = false := by simpa using hands
        rw [outstanding_of_idle accepts keeps] at out
        exact Or.inr ⟨rfl, keeps, out⟩

/-- A channel that shares another one: it sees the requests that concern it
and their answers. -/
theorem outstanding_bind {Own : Type v} {concern : Tag → Option Own}
    {own : ℕ → Bool}
    (one : ∀ n, outstanding accept handover n ≠ none → accept n = none)
    (answers : ∀ n tag asked request,
      outstanding accept handover n = some (tag, asked) →
        concern tag = some request → own n = handover n) (n : ℕ) :
    outstanding (fun n => (accept n).bind concern) own n =
      (outstanding accept handover n).bind fun request =>
        (concern request.1).map fun tag => (tag, request.2) := by
  induction n with
  | zero => rfl
  | succ n inductionHypothesis =>
      cases accepts : accept n with
      | some tag =>
          have free : outstanding accept handover n = none := by
            by_contra busy
            rw [one n busy] at accepts
            cases accepts
          rw [free] at inductionHypothesis
          rw [outstanding_of_accept accepts]
          cases concerns : concern tag with
          | some request =>
              rw [outstanding_of_accept (by rw [accepts]; exact concerns)]
              simp [concerns]
          | none =>
              simp [outstanding, accepts, concerns, inductionHypothesis]
      | none =>
          have silent : (accept n).bind concern = none := by rw [accepts]; rfl
          cases busy : outstanding accept handover n with
          | none =>
              rw [busy] at inductionHypothesis
              simp [outstanding, accepts, inductionHypothesis, busy]
          | some request =>
              obtain ⟨tag, asked⟩ := request
              rw [busy] at inductionHypothesis
              cases concerns : concern tag with
              | none =>
                  simp only [concerns, Option.bind_some, Option.map_none]
                    at inductionHypothesis
                  simp only [outstanding, accepts, busy, Option.bind_none,
                    inductionHypothesis, ite_self]
                  split_ifs <;> simp [concerns]
              | some request =>
                  have same := answers n tag asked request busy concerns
                  simp only [outstanding, accepts, busy, Option.bind_none,
                    inductionHypothesis, same]
                  split_ifs <;> rfl

theorem asked_lt_of_outstanding {tag : Tag} {asked : ℕ}
    (out : outstanding accept handover n = some (tag, asked)) :
    asked < n := by
  induction n with
  | zero =>
      simp [outstanding] at out
  | succ n inductionHypothesis =>
      rcases outstanding_succ_cases out with now | ⟨-, -, before⟩
      · exact Nat.lt_succ_of_le (le_of_eq now)
      · exact Nat.lt_succ_of_lt (inductionHypothesis before)

theorem accept_of_outstanding {tag : Tag} {asked : ℕ}
    (out : outstanding accept handover n = some (tag, asked)) :
    accept asked = some tag := by
  induction n with
  | zero =>
      simp [outstanding] at out
  | succ n inductionHypothesis =>
      cases accepts : accept n with
      | some other =>
          rw [outstanding_of_accept accepts] at out
          obtain ⟨rfl, rfl⟩ := Prod.mk.inj (Option.some.inj out)
          exact accepts
      | none =>
          rcases outstanding_succ_cases out with now | ⟨-, -, before⟩
          · rw [outstanding, accepts] at out
            split_ifs at out
            exact inductionHypothesis out
          · exact inductionHypothesis before

/-- No other request is accepted while one is outstanding. -/
theorem silent_of_outstanding {tag : Tag} {asked m : ℕ}
    (out : outstanding accept handover n = some (tag, asked))
    (later : asked < m) (before : m < n) : accept m = none := by
  induction n with
  | zero => exact absurd before (Nat.not_lt_zero m)
  | succ n inductionHypothesis =>
      rcases outstanding_succ_cases out with now | ⟨silent, -, still⟩
      · have last : asked = n := now
        omega
      · rcases Nat.lt_succ_iff_lt_or_eq.mp before with below | rfl
        · exact inductionHypothesis still below
        · exact silent

/-- A request that was handed over is not outstanding again. -/
theorem not_outstanding_of_handover {request : Tag × ℕ} {m : ℕ}
    (hands : handover m = true)
    (out : outstanding accept handover m = some request) (below : m < n) :
    outstanding accept handover n ≠ some request := by
  have asked := asked_lt_of_outstanding out
  induction n, below using Nat.le_induction with
  | base =>
      intro again
      rcases outstanding_succ_cases again with now | ⟨-, keeps, -⟩
      · omega
      · rw [hands] at keeps
        exact Bool.noConfusion keeps
  | succ n below inductionHypothesis =>
      intro again
      rcases outstanding_succ_cases again with now | ⟨-, -, before⟩
      · omega
      · exact inductionHypothesis before

/-- A request is handed over at most once. -/
theorem eq_of_handover {request : Tag × ℕ} {m : ℕ}
    (early : handover m = true)
    (atEarly : outstanding accept handover m = some request)
    (late : handover n = true)
    (atLate : outstanding accept handover n = some request) :
    m = n := by
  rcases Nat.lt_trichotomy m n with less | equal | more
  · exact absurd atLate (not_outstanding_of_handover early atEarly less)
  · exact equal
  · exact absurd atEarly (not_outstanding_of_handover late atLate more)

/-- The outstanding request of a channel that shows a part of each tag. -/
theorem outstanding_map {Part : Type v} (part : Tag → Part) :
    outstanding (fun m => (accept m).map part) handover n =
      (outstanding accept handover n).map (Prod.map part id) := by
  induction n with
  | zero => rfl
  | succ n inductionHypothesis =>
      cases accepts : accept n with
      | some tag =>
          rw [outstanding_of_accept accepts,
            outstanding_of_accept (by rw [accepts]; rfl)]
          rfl
      | none =>
          have silent : (accept n).map part = none := by rw [accepts]; rfl
          cases hands : handover n with
          | true =>
              rw [outstanding_of_handover accepts hands,
                outstanding_of_handover silent hands]
              rfl
          | false =>
              rw [outstanding_of_idle accepts hands,
                outstanding_of_idle silent hands, inductionHypothesis]

/-! ### Slots -/

/-- A register for one value: it is loaded, or emptied when its value is
taken. -/
def slot {Value : Type v} (load : Option Value) (take : Bool)
    (held : Option Value) : Option Value :=
  match load with
  | some value => some value
  | none => if take then none else held

@[simp] theorem slot_some {Value : Type v} (value : Value) (take : Bool)
    (held : Option Value) : slot (some value) take held = some value := rfl

/-- Without a value there is nothing to take. -/
theorem slot_none_held {Value : Type v} (load : Option Value) (take : Bool) :
    slot load take none = load := by
  cases load with
  | none => cases take <;> rfl
  | some value => rfl

@[simp] theorem slot_take {Value : Type v} (held : Option Value) :
    slot none true held = none := rfl

@[simp] theorem slot_keep {Value : Type v} (held : Option Value) :
    slot none false held = held := rfl

/-! ### Channels without a limit -/

/-- The accepted requests that are not answered before cycle `n`, oldest
first; an answer belongs to the oldest. -/
def pending (accept : ℕ → Option Tag) (handover : ℕ → Bool) : ℕ → List Tag
  | 0 => []
  | n + 1 =>
      (if handover n then (pending accept handover n).tail
      else pending accept handover n) ++ (accept n).toList

theorem length_pending_of_accept {tag : Tag}
    (accepts : accept n = some tag) (keeps : handover n = false) :
    (pending accept handover (n + 1)).length =
      (pending accept handover n).length + 1 := by
  simp [pending, accepts, keeps]

end Channel

/-! ## Marked cycles -/

section Marks

variable {mark : ℕ → Bool}

/-- The cycle after the last marked one before cycle `n`. -/
def since (mark : ℕ → Bool) : ℕ → ℕ
  | 0 => 0
  | n + 1 => if mark n then n + 1 else since mark n

theorem since_of_mark {n : ℕ} (marked : mark n = true) :
    since mark (n + 1) = n + 1 := by
  simp [since, marked]

theorem since_of_not_mark {n : ℕ} (unmarked : mark n = false) :
    since mark (n + 1) = since mark n := by
  simp [since, unmarked]

theorem since_le (n : ℕ) : since mark n ≤ n := by
  induction n with
  | zero =>
      exact le_rfl
  | succ n inductionHypothesis =>
      unfold since
      split_ifs
      · exact le_rfl
      · omega

/-- A marked cycle is before the start of every later stretch. -/
theorem lt_since_of_mark {c n : ℕ} (marked : mark c = true) (below : c < n) :
    c < since mark n := by
  induction n with
  | zero =>
      omega
  | succ n inductionHypothesis =>
      unfold since
      split_ifs with last
      · omega
      · apply inductionHypothesis
        rcases Nat.lt_succ_iff_lt_or_eq.mp below with less | equal
        · exact less
        · exact absurd (equal ▸ marked) last

/-- A quantity that changes only one cycle after a mark does not change in a
stretch from its second cycle on. -/
theorem eq_of_since_lt {Value : Type v} (value : ℕ → Value)
    (changes : ∀ c, value (c + 1) ≠ value c →
      ∃ b, c = b + 1 ∧ mark b = true)
    {m n : ℕ} (after : since mark n < m) (within : m ≤ n) :
    value m = value n := by
  have constant : ∀ k, m ≤ k → k ≤ n → value k = value m := by
    intro k above
    induction k, above using Nat.le_induction with
    | base => exact fun _ => rfl
    | succ k above inductionHypothesis =>
        intro below
        rw [← inductionHypothesis (by omega)]
        by_contra differs
        obtain ⟨b, rfl, marked⟩ := changes k differs
        have early := lt_since_of_mark marked (show b < n by omega)
        omega
  exact (constant n within le_rfl).symm

end Marks

/-! ## Events in a window -/

section Windows

variable {event : ℕ → Bool} {a k x : ℕ}

/-- The event does not occur between cycles `a` and `k`. -/
def Silent (event : ℕ → Bool) (a k : ℕ) : Prop :=
  ∀ z, a < z → z < k → event z = false

/-- Between cycles `a` and `k` the event occurs in cycle `x` only. -/
def OnlyAt (event : ℕ → Bool) (a k x : ℕ) : Prop :=
  a < x ∧ x < k ∧ event x = true ∧
    ∀ z, a < z → z < k → event z = true → z = x

theorem silent_start : Silent event a (a + 1) := by
  intro z after before
  omega

theorem Silent.succ (silent : Silent event a k) (quiet : event k = false) :
    Silent event a (k + 1) := by
  intro z after before
  rcases Nat.lt_succ_iff_lt_or_eq.mp before with less | rfl
  · exact silent z after less
  · exact quiet

theorem Silent.onlyAt (silent : Silent event a k) (after : a < k)
    (fires : event k = true) : OnlyAt event a (k + 1) k := by
  refine ⟨after, Nat.lt_succ_self k, fires, ?_⟩
  intro z above before occurs
  rcases Nat.lt_succ_iff_lt_or_eq.mp before with less | equal
  · rw [silent z above less] at occurs
    exact Bool.noConfusion occurs
  · exact equal

theorem OnlyAt.succ (only : OnlyAt event a k x) (quiet : event k = false) :
    OnlyAt event a (k + 1) x := by
  obtain ⟨after, before, fires, unique⟩ := only
  refine ⟨after, Nat.lt_succ_of_lt before, fires, ?_⟩
  intro z above below occurs
  rcases Nat.lt_succ_iff_lt_or_eq.mp below with less | rfl
  · exact unique z above less occurs
  · rw [quiet] at occurs
    exact Bool.noConfusion occurs

end Windows

end Sync
