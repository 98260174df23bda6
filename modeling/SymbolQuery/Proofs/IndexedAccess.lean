/-
Elements and pieces of a list by number.

Here a list is read by the index of an element or by the two ends of a piece. A reading fails at
an index or an end that the list does not have, and where a difference would be below zero, so a
reading that gives a result has stayed within its list all the way. Sums are not limited: those
that are taken here are no greater than the list is long.
-/
import Mathlib.Data.List.DropRight

set_option autoImplicit false

namespace SymbolQuery.Indexed

/-! ## Readings -/

/-- Why a reading by number fails. -/
inductive IndexFault
  /-- A difference below zero. -/
  | negative
  /-- An element or a piece that the list does not have. -/
  | outside
  deriving DecidableEq, Repr

/-- A result, unless a number was wrong. -/
abbrev Reading := Except IndexFault

section

variable {α β : Type}

@[simp] theorem ok_bind (a : α) (f : α → Reading β) : (Except.ok a >>= f) = f a := rfl

/-- The difference of two numbers. -/
def less (n k : Nat) : Reading Nat := if k ≤ n then .ok (n - k) else .error .negative

/-- The element at an index. -/
def item (s : List α) (i : Nat) : Reading α :=
  match s[i]? with
  | some a => .ok a
  | none => .error .outside

/-- The piece from one index up to another, which is the first one behind it. -/
def slice (s : List α) (start stop : Nat) : Reading (List α) :=
  if start ≤ stop ∧ stop ≤ s.length then .ok ((s.take stop).drop start) else .error .outside

/-- The piece from one index through another. -/
def through (s : List α) (first last : Nat) : Reading (List α) := slice s first (last + 1)

theorem less_eq_ok_iff {n k d : Nat} : less n k = .ok d ↔ n = d + k := by
  unfold less
  split
  case isTrue h =>
    rw [Except.ok.injEq]
    omega
  case isFalse h =>
    refine ⟨nofun, fun hd => ?_⟩
    omega

theorem item_eq_ok_iff {s : List α} {i : Nat} {a : α} : item s i = .ok a ↔ s[i]? = some a := by
  unfold item
  cases s[i]? with
  | none => exact ⟨nofun, nofun⟩
  | some b => rw [Except.ok.injEq, Option.some.injEq]

theorem slice_eq_ok_iff {s piece : List α} {start stop : Nat} :
    slice s start stop = .ok piece
      ↔ start ≤ stop ∧ stop ≤ s.length ∧ (s.take stop).drop start = piece := by
  unfold slice
  split
  case isTrue h => rw [Except.ok.injEq, ← and_assoc, and_iff_right h]
  case isFalse h => exact ⟨nofun, fun hpiece => absurd ⟨hpiece.1, hpiece.2.1⟩ h⟩

/-! ## Searches -/

/-- The index of the last element that satisfies `p`. -/
def lastIdx? (p : α → Bool) (s : List α) : Option Nat :=
  (s.reverse.findIdx? p).map fun i => s.length - 1 - i

theorem length_takeWhile (p : α → Bool) (s : List α) :
    (s.takeWhile p).length = s.findIdx fun a => !p a := by
  rw [List.takeWhile_eq_take_findIdx_not, List.length_take,
    Nat.min_eq_left List.findIdx_le_length]

/-- The elements of the kind at the front end at the first one that is not of the kind. -/
theorem elim_findIdx? (p : α → Bool) (s : List α) (n : Nat) :
    (s.findIdx? fun a => !p a).elim (n + s.length) (n + ·) = n + (s.takeWhile p).length := by
  rw [length_takeWhile]
  cases hfirst : s.findIdx? fun a => !p a with
  | none => rw [List.findIdx?_eq_none_iff_findIdx_eq.mp hfirst, Option.elim_none]
  | some i => rw [(List.findIdx?_eq_some_iff_findIdx_eq.mp hfirst).2, Option.elim_some]

/-- The elements of the kind at the end begin behind the last one that is not of the kind. -/
theorem elim_lastIdx? (p : α → Bool) (s : List α) :
    (lastIdx? (fun a => !p a) s).elim 0 (· + 1) = (s.rdropWhile p).length := by
  have hsplit : (s.reverse.takeWhile p).length + (s.rdropWhile p).length = s.length := by
    rw [List.rdropWhile, List.length_reverse, ← List.length_append,
      List.takeWhile_append_dropWhile, List.length_reverse]
  rw [length_takeWhile] at hsplit
  rw [lastIdx?]
  cases hlast : s.reverse.findIdx? fun a => !p a with
  | none =>
    rw [List.findIdx?_eq_none_iff_findIdx_eq.mp hlast, List.length_reverse] at hsplit
    rw [Option.map_none, Option.elim_none]
    omega
  | some i =>
    obtain ⟨hlt, hi⟩ := List.findIdx?_eq_some_iff_findIdx_eq.mp hlast
    rw [hi] at hsplit
    rw [List.length_reverse] at hlt
    rw [Option.map_some, Option.elim_some]
    omega

end

end SymbolQuery.Indexed
