/-
One who wants the client of a language.

A caller looks first. A client that is alive it takes; one that is gone it puts away,
and looks again. If the language is being started by another, the caller listens for
the bell of that start, makes sure that some start is still under way, and waits for
the bell. If there is nothing, it claims the start. The bell of a start rings once,
for those who listen at that moment, and after the outcome has been noted.
-/
import SymbolQuery.Fault
import SymbolQuery.Pool.Basic

set_option autoImplicit false

namespace SymbolQuery

/-- How far a caller is. -/
inductive Caller
  /-- It is about to look. -/
  | looking
  /-- It saw a client and is about to see whether that is alive. -/
  | inspecting (client : Nat)
  /-- It saw a client that is gone and is about to put it away. -/
  | evicting (client : Nat)
  /-- It saw a start under way and is about to listen for its bell. -/
  | arriving (ticket : Nat)
  /-- It listens, and is about to see whether a start is still under way; `rung` says that the bell
  has rung meanwhile. -/
  | checking (ticket : Nat) (rung : Bool)
  /-- It waits for the bell. -/
  | waiting (ticket : Nat) (rung : Bool)
  /-- It saw nothing and is about to claim the start. -/
  | claiming
  /-- Its own start is under way. -/
  | starting (ticket : Nat)
  /-- It has the client. -/
  | served (client : Nat)
  /-- Its start has failed. -/
  | refused (fault : ServiceFault)
  deriving DecidableEq, Repr, Inhabited

namespace Caller

/-- What a caller does next, where `gone` tells which clients are gone. One who waits for a bell
that has not rung, or for its own start, and one who has its answer, does nothing. -/
def step (l : Language) (gone : Nat → Bool) (p : Pool) : Caller → Caller × Pool
  | .looking =>
    match p.find? l with
    | some (.ready client) => (.inspecting client, p)
    | some (.starting ticket) => (.arriving ticket, p)
    | none => (.claiming, p)
  | .inspecting client => (if gone client then .evicting client else .served client, p)
  | .evicting client => (.looking, p.evict l client)
  | .arriving ticket => (.checking ticket false, p)
  | .checking ticket rung => (if p.isStarting l then .waiting ticket rung else .looking, p)
  | .waiting _ true => (.looking, p)
  | .claiming =>
    match p.claim? l with
    | some (ticket, p) => (.starting ticket, p)
    | none => (.looking, p)
  | c => (c, p)

/-- The bell of a start rings: who listens for it hears it. -/
def hear (ticket : Nat) : Caller → Caller
  | .checking t rung => .checking t (rung || t == ticket)
  | .waiting t rung => .waiting t (rung || t == ticket)
  | c => c

/-- The start of a ticket has come to its end: the caller that made it has its answer. -/
def learn (ticket : Nat) (outcome : Except ServiceFault Nat) (c : Caller) : Caller :=
  if c = .starting ticket then
    match outcome with
    | .ok client => .served client
    | .error fault => .refused fault
  else c

end Caller

end SymbolQuery
