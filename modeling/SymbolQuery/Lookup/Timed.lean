/-
Lookups on a simulated clock.

The world of a lookup is a provider without memory, which to each question has an
answer and the time it takes, and the moment of a cancellation. A timed action turns
a start time into a value, a finish time, the questions that were begun with their
times, and the warnings. The clock moves only where an action waits, so an action is
an ordinary function.
-/
import SymbolQuery.Lookup.Question
import SymbolQuery.Lookup.Race

set_option autoImplicit false

namespace SymbolQuery

/-! ## The world -/

/-- How a provider takes a question: after how long it answers, if ever, and what. -/
structure Behaviour (β : Type) where
  delay : Option Nat
  result : Except ServiceFault β

/-- A provider without memory. -/
abbrev Provider := (q : Question) → Behaviour q.Reply

/-- What a lookup meets. -/
structure World where
  provider : Provider
  /-- When the cancellation comes, if ever. -/
  cancelAt : Option Nat

/-! ## Timed actions -/

/-- What an action did. -/
structure Run (α : Type) where
  value : α
  finish : Nat
  /-- The questions begun, with their times. -/
  calls : List (Nat × Question)
  warnings : List Warning

/-- An action in a world, begun at a time. -/
def Timed (α : Type) := World → Nat → Run α

namespace Timed

/-- The action that only has a value. -/
def pure {α : Type} (a : α) : Timed α := fun _ t => ⟨a, t, [], []⟩

/-- One action, and then another that depends on its value. -/
def bind {α β : Type} (x : Timed α) (f : α → Timed β) : Timed β := fun w t =>
  let r := x w t
  let s := f r.value w r.finish
  ⟨s.value, s.finish, r.calls ++ s.calls, r.warnings ++ s.warnings⟩

instance : Monad Timed where
  pure := Timed.pure
  bind := Timed.bind

/-- Asks under a deadline. -/
def ask (deadline : Nat) (q : Question) : Timed (Answer q.Reply) := fun w t =>
  if begins w.cancelAt t then
    let b := w.provider q
    match race t deadline b.delay w.cancelAt with
    | (.cancelled, time) => ⟨.error .cancelled, time, [(t, q)], []⟩
    | (.done, time) => ⟨.ok b.result, time, [(t, q)], []⟩
    | (.timedOut, time) => ⟨.error (.timedOut deadline), time, [(t, q)], []⟩
  else ⟨.error .cancelled, t, [], []⟩

/-- Two actions begun together; the later finish counts. -/
def both {α β : Type} (x : Timed α) (y : Timed β) : Timed (α × β) := fun w t =>
  let r := x w t
  let s := y w t
  ⟨(r.value, s.value), max r.finish s.finish, r.calls ++ s.calls, r.warnings ++ s.warnings⟩

/-- Runs actions of which each starts when its slot is free. `slots` are the times at which results
are taken that free a slot, `last` is when the last result so far is taken. -/
def windowFrom {α : Type} (w : World) : List Nat → Nat → List (Timed α) → Run (List α)
  | _, last, [] => ⟨[], last, [], []⟩
  | slots, last, x :: rest =>
    let r := x w (slots.headD last)
    let taken := max last r.finish
    let s := windowFrom w (slots.tail ++ [taken]) taken rest
    ⟨r.value :: s.value, s.finish, r.calls ++ s.calls, r.warnings ++ s.warnings⟩

/-- Many actions of which at most `width` run at a time. -/
def window {α : Type} (width : Nat) (actions : List (Timed α)) : Timed (List α) := fun w t =>
  windowFrom w (List.replicate width t) t actions

/-- Notes a warning. -/
def warn (warning : Warning) : Timed Unit := fun _ t => ⟨(), t, [], [warning]⟩

instance : Asking Timed where
  ask := Timed.ask
  both := Timed.both
  window := Timed.window
  warn := Timed.warn

/-! ## What comes of a question -/

/-- The answer to a question by what ended its race. -/
def outcome {β : Type} (deadline : Nat) (result : Except ServiceFault β) : RaceEnd → Answer β
  | .cancelled => .error .cancelled
  | .done => .ok result
  | .timedOut => .error (.timedOut deadline)

theorem ask_of_begins {w : World} {t : Nat} (h : begins w.cancelAt t = true) (deadline : Nat)
    (q : Question) :
    ask deadline q w t
      = ⟨outcome deadline (w.provider q).result
            (race t deadline (w.provider q).delay w.cancelAt).1,
          (race t deadline (w.provider q).delay w.cancelAt).2, [(t, q)], []⟩ := by
  simp only [ask, if_pos h]
  rcases race t deadline (w.provider q).delay w.cancelAt with ⟨_ | _ | _, _⟩ <;> rfl

theorem ask_of_not_begins {w : World} {t : Nat} (h : ¬ begins w.cancelAt t = true)
    (deadline : Nat) (q : Question) :
    ask deadline q w t = ⟨.error .cancelled, t, [], []⟩ := if_neg h

end Timed

/-- The questions of a run in the order of their times. -/
def Run.log {α : Type} (r : Run α) : List Question :=
  (r.calls.mergeSort fun a b => decide (a.1 ≤ b.1)).map Prod.snd

end SymbolQuery
