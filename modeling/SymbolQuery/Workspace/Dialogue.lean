/-
Lookups against the servers of a workspace.

A lookup asks under a deadline, which here is the patience of the one who asks. What a
lookup does at once begins at one moment and in one round.
-/
import SymbolQuery.Workspace.Provider

set_option autoImplicit false

namespace SymbolQuery

/-- Something done in a workspace. -/
abbrev Dialogue := StateM Workspace

namespace Dialogue

/-- A moment: the time, and the round. -/
structure Moment where
  clock : Nat
  round : Nat
  deriving DecidableEq, Repr, Inhabited

namespace Moment

/-- The moment that a workspace has reached. -/
def of (ws : Workspace) : Moment := ⟨ws.clock, ws.round⟩

/-- Puts a workspace at a moment. -/
def enter (t : Moment) (ws : Workspace) : Workspace :=
  { ws with clock := t.clock, round := t.round }

/-- The later of two moments. -/
def later (s t : Moment) : Moment := ⟨max s.clock t.clock, max s.round t.round⟩

end Moment

/-- Asks under a deadline. -/
def ask (deadline : Nat) (q : Question) : Dialogue (Answer q.Reply) := fun ws =>
  let (r, ws) := (Workspace.answer q).run.run { ws with giveUpAt := some (ws.clock + deadline) }
  let ws := { ws with giveUpAt := none, round := ws.round + 1 }
  match r with
  | .ok a => (.ok (.ok a), ws)
  | .error (.fault fault) => (.ok (.error fault), ws)
  | .error .abandoned => (.error (.timedOut deadline), ws)

/-- Does two things at once. -/
def both {α β : Type} (x : Dialogue α) (y : Dialogue β) : Dialogue (α × β) := fun ws =>
  let (a, after) := x ws
  let (b, done) := y ((Moment.of ws).enter after)
  ((a, b), ((Moment.of after).later (Moment.of done)).enter done)

/-- Does things of which each begins when its slot is free. `slots` are the moments at which results
are taken that free a slot, `last` is when the last result so far is taken. -/
def windowFrom {α : Type} : List Moment → Moment → List (Dialogue α) → Dialogue (List α)
  | _, last, [] => fun ws => ([], last.enter ws)
  | slots, last, x :: rest => fun ws =>
    let (a, ws) := x ((slots.headD last).enter ws)
    let taken := last.later (Moment.of ws)
    let (as, ws) := windowFrom (slots.tail ++ [taken]) taken rest ws
    (a :: as, ws)

/-- Does many things of which at most `width` run at a time. -/
def window {α : Type} (width : Nat) (actions : List (Dialogue α)) : Dialogue (List α) := fun ws =>
  windowFrom (List.replicate width (Moment.of ws)) (Moment.of ws) actions ws

/-- Notes a warning. -/
def warn (w : Warning) : Dialogue Unit := fun ws => ((), { ws with warnings := ws.warnings ++ [w] })

instance : Asking Dialogue where
  ask := Dialogue.ask
  both := Dialogue.both
  window := Dialogue.window
  warn := Dialogue.warn

end Dialogue

end SymbolQuery
