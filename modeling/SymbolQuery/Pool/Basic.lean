/-
The clients in use: at most one for a language.

A language is being started, has a client, or has neither. A start carries a ticket,
so that those who wait for it can be told from those who wait for another one. Each
operation is one step that nothing interrupts.
-/
import SymbolQuery.Language

set_option autoImplicit false

namespace SymbolQuery

/-- How far a language is. -/
inductive PoolEntry
  /-- A start is under way. -/
  | starting (ticket : Nat)
  /-- A client is in use. -/
  | ready (client : Nat)
  deriving DecidableEq, Repr, Inhabited

/-- The languages in use. -/
structure Pool where
  entries : List (Language × PoolEntry) := []
  nextTicket : Nat := 0
  deriving DecidableEq, Repr, Inhabited

namespace Pool

/-- How far a language is. -/
def find? (p : Pool) (l : Language) : Option PoolEntry := p.entries.lookup l

/-- Forgets a language. -/
def remove (p : Pool) (l : Language) : Pool :=
  { p with entries := p.entries.filter fun e => e.1 != l }

/-- Notes how far a language is. -/
def put (p : Pool) (l : Language) (e : PoolEntry) : Pool :=
  { p with entries := (l, e) :: (p.remove l).entries }

/-- Whether a start of a language is under way, whichever it is. -/
def isStarting (p : Pool) (l : Language) : Bool :=
  match p.find? l with
  | some (.starting _) => true
  | _ => false

/-- Claims the start of a language under a new ticket, unless the language is taken. -/
def claim? (p : Pool) (l : Language) : Option (Nat × Pool) :=
  match p.find? l with
  | some _ => none
  | none =>
    some (p.nextTicket, { p.put l (.starting p.nextTicket) with nextTicket := p.nextTicket + 1 })

/-- Forgets a language if it still has the given client. -/
def evict (p : Pool) (l : Language) (client : Nat) : Pool :=
  if p.find? l = some (.ready client) then p.remove l else p

/-- Notes the outcome of a start: the new client, or none. -/
def publish (p : Pool) (l : Language) : Option Nat → Pool
  | some client => p.put l (.ready client)
  | none => p.remove l

/-- Takes all clients out, and forgets the starts under way. -/
def drain (p : Pool) : List Nat × Pool :=
  (p.entries.filterMap fun
    | (_, .ready client) => some client
    | (_, .starting _) => none, { p with entries := [] })

/-! ## What is found -/

@[simp] theorem nextTicket_evict (p : Pool) (l : Language) (client : Nat) :
    (p.evict l client).nextTicket = p.nextTicket := by
  unfold evict
  split <;> rfl

@[simp] theorem nextTicket_publish (p : Pool) (l : Language) (outcome : Option Nat) :
    (p.publish l outcome).nextTicket = p.nextTicket := by
  cases outcome <;> rfl

theorem find?_remove (p : Pool) (l k : Language) :
    (p.remove l).find? k = if k = l then none else p.find? k := by
  change (p.entries.filter fun e => e.1 != l).lookup k = if k = l then none else p.entries.lookup k
  induction p.entries with
  | nil => simp
  | cons e es ih =>
    by_cases hl : e.1 = l
    · rw [List.filter_cons_of_neg (by simp [hl]), ih]
      by_cases hk : k = l
      · rw [if_pos hk, if_pos hk]
      · have hne : (k == e.1) = false := by simpa [hl] using hk
        rw [if_neg hk, if_neg hk, List.lookup_cons, hne]
    · rw [List.filter_cons_of_pos (by simp [hl]), List.lookup_cons, List.lookup_cons, ih]
      by_cases hk : k = e.1
      · simp [hk, hl]
      · have hne : (k == e.1) = false := by simpa using hk
        simp only [hne]

theorem find?_put (p : Pool) (l k : Language) (e : PoolEntry) :
    (p.put l e).find? k = if k = l then some e else p.find? k := by
  change ((l, e) :: (p.remove l).entries).lookup k = _
  rw [List.lookup_cons]
  by_cases hk : k = l
  · simp [hk]
  · have hne : (k == l) = false := by simpa using hk
    have hrest := find?_remove p l k
    rw [if_neg hk] at hrest ⊢
    rw [hne]
    exact hrest

/-- Eviction forgets a language that has the client, and nothing else. -/
theorem find?_evict (p : Pool) (l k : Language) (client : Nat) :
    (p.evict l client).find? k
      = if k = l ∧ p.find? l = some (.ready client) then none else p.find? k := by
  unfold evict
  by_cases hready : p.find? l = some (.ready client)
  · rw [if_pos hready, find?_remove]
    simp only [hready, and_true]
  · rw [if_neg hready, if_neg fun h => hready h.2]

theorem find?_publish (p : Pool) (l k : Language) (outcome : Option Nat) :
    (p.publish l outcome).find? k = if k = l then outcome.map .ready else p.find? k := by
  cases outcome with
  | none => exact find?_remove p l k
  | some client => exact find?_put p l k (.ready client)

end Pool

end SymbolQuery
