/-
A piece of work, a deadline and a cancellation: which of them ends a call, and when.

At one moment the cancellation counts before the work and the work before the
deadline. Work is not even begun where the cancellation has come already.
-/
set_option autoImplicit false

namespace SymbolQuery

/-- What ends a race. -/
inductive RaceEnd
  | cancelled
  | done
  | timedOut
  deriving DecidableEq, Repr

/-- Whether a time, if there is one, is at or before another. -/
def byTime (t : Option Nat) (limit : Nat) : Bool :=
  match t with
  | some t => decide (t ≤ limit)
  | none => false

/-- Whether work begins at `start`: not if the cancellation has come. -/
def begins (cancelAt : Option Nat) (start : Nat) : Bool := !byTime cancelAt start

/-- The end of a race that begins at `start` with work that takes `work` milliseconds, or never
ends; and the time of that end. -/
def race (start deadline : Nat) (work cancelAt : Option Nat) : RaceEnd × Nat :=
  let limit := start + deadline
  let (end_, time) :=
    match work with
    | some w => if w ≤ deadline then (RaceEnd.done, start + w) else (RaceEnd.timedOut, limit)
    | none => (RaceEnd.timedOut, limit)
  match cancelAt with
  | some c => if c ≤ time then (.cancelled, max start c) else (end_, time)
  | none => (end_, time)

/-! ## When a race ends -/

@[simp] theorem begins_none (start : Nat) : begins none start = true := rfl

@[simp] theorem begins_some (c start : Nat) : begins (some c) start = true ↔ start < c := by
  simp only [begins, byTime, Bool.not_eq_true', decide_eq_false_iff_not, Nat.not_le]

/-- A cancellation ends a race that would not have ended before. -/
theorem race_some (start deadline : Nat) (work : Option Nat) (c : Nat) :
    race start deadline work (some c)
      = if c ≤ (race start deadline work none).2 then (.cancelled, max start c)
        else race start deadline work none := rfl

/-- Work ends a race if it ends by the deadline and before the cancellation. -/
theorem race_eq_done_iff (start deadline : Nat) (work cancelAt : Option Nat) (time : Nat) :
    race start deadline work cancelAt = (.done, time)
      ↔ (∃ d, work = some d ∧ d ≤ deadline ∧ time = start + d)
        ∧ ∀ c, cancelAt = some c → time < c := by
  have hfree : race start deadline work none = (.done, time)
      ↔ ∃ d, work = some d ∧ d ≤ deadline ∧ time = start + d := by
    cases work with
    | none => simp [race]
    | some d => by_cases hd : d ≤ deadline <;> simp [race, hd, eq_comm]
  cases cancelAt with
  | none => simp [hfree]
  | some c =>
    rw [race_some, ← hfree]
    by_cases hcut : c ≤ (race start deadline work none).2
    · rw [if_pos hcut]
      constructor
      · intro h
        cases h
      · rintro ⟨h, hlate⟩
        rw [h] at hcut
        exact absurd (hlate c rfl) (Nat.not_lt.mpr hcut)
    · rw [if_neg hcut]
      constructor
      · intro h
        rw [h] at hcut
        refine ⟨h, ?_⟩
        rintro _ ⟨⟩
        exact Nat.not_le.mp hcut
      · exact And.left

/-- Without a cancellation a race ends between its start and its deadline. -/
theorem race_none_bounds (start deadline : Nat) (work : Option Nat) :
    start ≤ (race start deadline work none).2
      ∧ (race start deadline work none).2 ≤ start + deadline := by
  cases work with
  | none => exact ⟨Nat.le_add_right _ _, Nat.le_refl _⟩
  | some d =>
    by_cases hd : d ≤ deadline
    · simp only [race, if_pos hd]
      omega
    · simp only [race, if_neg hd]
      omega

/-- A race that begins ends by its deadline, whatever else ends it. -/
theorem race_le (start deadline : Nat) (work cancelAt : Option Nat)
    (hbegins : begins cancelAt start = true) :
    (race start deadline work cancelAt).2 ≤ start + deadline := by
  have hfree := (race_none_bounds start deadline work).2
  cases cancelAt with
  | none => exact hfree
  | some c =>
    have hc : start < c := (begins_some c start).mp hbegins
    rw [race_some]
    by_cases hcut : c ≤ (race start deadline work none).2
    · rw [if_pos hcut]
      dsimp only
      omega
    · rw [if_neg hcut]
      exact hfree

end SymbolQuery
