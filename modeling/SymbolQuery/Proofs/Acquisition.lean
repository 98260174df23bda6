/-
Any number of callers of one pool, the starts that they make, and the clients that come
of them.

A caller is driven by `Caller.step`, and may give up wherever it stands. The start that
it makes goes on without it. When the server is there, or is known not to come, the
start notes that in the pool, and then rings its bell. A client may be gone at any time.
Each of these is an event, and a run is any list of events: one that can not happen where
it stands changes nothing.

`step_move` says once what an event can do; the invariants are derived from that.
-/
import Mathlib.Logic.Function.Basic
import SymbolQuery.Pool.Caller

set_option autoImplicit false

namespace SymbolQuery

namespace Acquisition

/-! ## Starts and events -/

/-- How far a start has come. -/
inductive Stage
  /-- The server is being started. -/
  | underway
  /-- The outcome is known and is about to be noted. -/
  | settled (outcome : Except ServiceFault Nat)
  /-- The outcome is noted and the bell is about to ring. -/
  | noted (outcome : Except ServiceFault Nat)
  /-- The bell has rung. -/
  | over (outcome : Except ServiceFault Nat)

/-- The outcome that a start has noted. -/
def Stage.noted? : Stage → Option (Except ServiceFault Nat)
  | .underway | .settled _ => none
  | .noted outcome | .over outcome => some outcome

/-- The outcome of a start, whether it has noted it or not. -/
def Stage.outcome? : Stage → Option (Except ServiceFault Nat)
  | .underway => none
  | .settled outcome | .noted outcome | .over outcome => some outcome

/-- A start of a language. -/
structure Start where
  language : Language
  stage : Stage

/-- What may happen next. -/
inductive Event
  /-- Somebody asks for the client of a language. -/
  | call (l : Language)
  /-- A caller does what it does next. -/
  | act (i : Nat)
  | giveUp (i : Nat)
  /-- A start has a new client, or has failed. -/
  | settle (t : Nat) (fault? : Option ServiceFault)
  | note (t : Nat)
  | ring (t : Nat)
  /-- The caller that made a start has its answer from it. -/
  | learn (i : Nat)
  | die (client : Nat)

end Acquisition

/-- A pool, its callers by their numbers, the starts by their tickets, and the clients. -/
structure Acquisition where
  pool : Pool := {}
  caller : Nat → Option (Language × Caller) := fun _ => none
  /-- How many have called. -/
  called : Nat := 0
  start : Nat → Option Acquisition.Start := fun _ => none
  /-- How many clients there have been. -/
  clients : Nat := 0
  gone : Nat → Bool := fun _ => false

namespace Acquisition

/-! ## Steps -/

/-- A caller comes to stand somewhere. -/
def setCaller (s : Acquisition) (i : Nat) (l : Language) (c : Caller) : Acquisition :=
  { s with caller := Function.update s.caller i (some (l, c)) }

/-- A start comes to a stage. -/
def setStart (s : Acquisition) (t : Nat) (l : Language) (stage : Stage) : Acquisition :=
  { s with start := Function.update s.start t (some ⟨l, stage⟩) }

theorem caller_setCaller (s : Acquisition) (i j : Nat) (l : Language) (c : Caller) :
    (s.setCaller i l c).caller j = if j = i then some (l, c) else s.caller j := by
  change Function.update s.caller i (some (l, c)) j = _
  rw [Function.update_apply]

/-- Who stands somewhere where one caller has come to stand is that caller, or stood there
before. -/
theorem of_caller_setCaller {s : Acquisition} {i j : Nat} {l k : Language} {c d : Caller}
    (h : (s.setCaller i l c).caller j = some (k, d)) :
    (j = i ∧ k = l ∧ d = c) ∨ s.caller j = some (k, d) := by
  rw [caller_setCaller] at h
  by_cases hj : j = i
  · rw [if_pos hj] at h
    cases h
    exact Or.inl ⟨hj, rfl, rfl⟩
  · rw [if_neg hj] at h
    exact Or.inr h

theorem caller_setCaller_of_ne (s : Acquisition) {i j : Nat} (h : j ≠ i) (l : Language)
    (c : Caller) : (s.setCaller i l c).caller j = s.caller j := by
  rw [caller_setCaller, if_neg h]

theorem start_setStart (s : Acquisition) (t u : Nat) (l : Language) (stage : Stage) :
    (s.setStart t l stage).start u = if u = t then some ⟨l, stage⟩ else s.start u := by
  change Function.update s.start t (some ⟨l, stage⟩) u = _
  rw [Function.update_apply]

/-- What a start is where one has come to a stage is that one, or was so before. -/
theorem of_start_setStart {s : Acquisition} {t u : Nat} {l : Language} {stage : Stage} {x : Start}
    (h : (s.setStart t l stage).start u = some x) :
    (u = t ∧ x = ⟨l, stage⟩) ∨ s.start u = some x := by
  rw [start_setStart] at h
  by_cases hu : u = t
  · rw [if_pos hu] at h
    cases h
    exact Or.inl ⟨hu, rfl⟩
  · rw [if_neg hu] at h
    exact Or.inr h

/-- Everyone hears the bell of a start. -/
def tollFor (s : Acquisition) (t : Nat) : Acquisition :=
  { s with caller := fun i => (s.caller i).map fun p => (p.1, p.2.hear t) }

/-- What a caller does next. Who claims the start of a language begins it. -/
def act (s : Acquisition) (i : Nat) (l : Language) (c : Caller) : Acquisition :=
  let (next, pool) := c.step l s.gone s.pool
  let s := { s with pool := pool }.setCaller i l next
  match c, next with
  | .claiming, .starting t => s.setStart t l .underway
  | _, _ => s

/-- What an event does. -/
def step (s : Acquisition) : Event → Acquisition
  | .call l => { s with called := s.called + 1 }.setCaller s.called l .looking
  | .act i =>
    match s.caller i with
    | some (l, c) => s.act i l c
    | none => s
  | .giveUp i =>
    match s.caller i with
    | some (_, .served _) | some (_, .refused _) => s
    | _ => { s with caller := Function.update s.caller i none }
  | .settle t fault? =>
    match s.start t with
    | some ⟨l, .underway⟩ =>
      match fault? with
      | some fault => s.setStart t l (.settled (.error fault))
      | none => { s with clients := s.clients + 1 }.setStart t l (.settled (.ok s.clients))
    | _ => s
  | .note t =>
    match s.start t with
    | some ⟨l, .settled outcome⟩ =>
      { s with pool := s.pool.publish l outcome.toOption }.setStart t l (.noted outcome)
    | _ => s
  | .ring t =>
    match s.start t with
    | some ⟨l, .noted outcome⟩ => (s.setStart t l (.over outcome)).tollFor t
    | _ => s
  | .learn i =>
    match s.caller i with
    | some (l, .starting t) =>
      match s.start t with
      | some ⟨_, .over outcome⟩ => s.setCaller i l ((Caller.starting t).learn t outcome)
      | _ => s
    | _ => s
  | .die client =>
    if client < s.clients then { s with gone := Function.update s.gone client true } else s

/-- What a list of events makes of an empty pool that nobody has called. -/
def run (es : List Event) : Acquisition := es.foldl step {}

theorem run_concat (es : List Event) (e : Event) : run (es ++ [e]) = (run es).step e := by
  rw [run, List.foldl_append]
  rfl

/-! ## What an event can do -/

/-- What a caller may become without touching the pool, by what it finds there. -/
inductive Turn (s : Acquisition) (l : Language) : Caller → Caller → Prop
  | seeClient {client : Nat} (h : s.pool.find? l = some (.ready client)) :
    Turn s l .looking (.inspecting client)
  | seeStart {t : Nat} (h : s.pool.find? l = some (.starting t)) :
    Turn s l .looking (.arriving t)
  | seeNothing : Turn s l .looking .claiming
  | findGone {client : Nat} (h : s.gone client = true) :
    Turn s l (.inspecting client) (.evicting client)
  | take {client : Nat} (h : s.gone client = false) :
    Turn s l (.inspecting client) (.served client)
  | listen (t : Nat) : Turn s l (.arriving t) (.checking t false)
  | wait (t : Nat) (rung : Bool) : Turn s l (.checking t rung) (.waiting t rung)
  | lookAgain (t : Nat) (rung : Bool) : Turn s l (.checking t rung) .looking
  | wakeUp (t : Nat) : Turn s l (.waiting t true) .looking
  | comeLate : Turn s l .claiming .looking

/-- **What an event can do.** -/
inductive Move (s : Acquisition) : Event → Acquisition → Prop
  | stay (e : Event) : Move s e s
  | call (l : Language) :
    Move s (.call l) ({ s with called := s.called + 1 }.setCaller s.called l .looking)
  | turn {i : Nat} {l : Language} {c d : Caller} (hi : s.caller i = some (l, c))
      (h : Turn s l c d) : Move s (.act i) (s.setCaller i l d)
  | evict {i : Nat} {l : Language} {client : Nat} (hi : s.caller i = some (l, .evicting client)) :
    Move s (.act i) ({ s with pool := s.pool.evict l client }.setCaller i l .looking)
  | claim {i : Nat} {l : Language} (hi : s.caller i = some (l, .claiming))
      (hfree : s.pool.find? l = none) {p : Pool}
      (hfind : ∀ k, p.find? k = if k = l then some (.starting s.pool.nextTicket)
        else s.pool.find? k)
      (hnext : p.nextTicket = s.pool.nextTicket + 1) :
    Move s (.act i)
      (({ s with pool := p }.setCaller i l (.starting s.pool.nextTicket)).setStart
        s.pool.nextTicket l .underway)
  | giveUp (i : Nat) : Move s (.giveUp i) { s with caller := Function.update s.caller i none }
  | settleFailed {t : Nat} {l : Language} (ht : s.start t = some ⟨l, .underway⟩)
      (fault : ServiceFault) :
    Move s (.settle t (some fault)) (s.setStart t l (.settled (.error fault)))
  | settleConnected {t : Nat} {l : Language} (ht : s.start t = some ⟨l, .underway⟩) :
    Move s (.settle t none)
      ({ s with clients := s.clients + 1 }.setStart t l (.settled (.ok s.clients)))
  | note {t : Nat} {l : Language} {outcome : Except ServiceFault Nat}
      (ht : s.start t = some ⟨l, .settled outcome⟩) :
    Move s (.note t)
      ({ s with pool := s.pool.publish l outcome.toOption }.setStart t l (.noted outcome))
  | ring {t : Nat} {l : Language} {outcome : Except ServiceFault Nat}
      (ht : s.start t = some ⟨l, .noted outcome⟩) :
    Move s (.ring t) ((s.setStart t l (.over outcome)).tollFor t)
  | serve {i : Nat} {l k : Language} {t client : Nat} (hi : s.caller i = some (l, .starting t))
      (ht : s.start t = some ⟨k, .over (.ok client)⟩) :
    Move s (.learn i) (s.setCaller i l (.served client))
  | refuse {i : Nat} {l k : Language} {t : Nat} {fault : ServiceFault}
      (hi : s.caller i = some (l, .starting t)) (ht : s.start t = some ⟨k, .over (.error fault)⟩) :
    Move s (.learn i) (s.setCaller i l (.refused fault))
  | die {client : Nat} (h : client < s.clients) :
    Move s (.die client) { s with gone := Function.update s.gone client true }

/-- To be where one is, is to stay. -/
theorem setCaller_self {s : Acquisition} {i : Nat} {l : Language} {c : Caller}
    (hi : s.caller i = some (l, c)) : s.setCaller i l c = s := by
  have hsame : Function.update s.caller i (some (l, c)) = s.caller := by
    rw [← hi, Function.update_eq_self]
  change { s with caller := Function.update s.caller i (some (l, c)) } = s
  rw [hsame]

theorem act_move {s : Acquisition} {i : Nat} {l : Language} {c : Caller}
    (hi : s.caller i = some (l, c)) : Move s (.act i) (s.act i l c) := by
  cases c with
  | looking =>
    simp only [act, Caller.step]
    cases hfind : s.pool.find? l with
    | none => exact .turn hi .seeNothing
    | some entry =>
      cases entry with
      | starting t => exact .turn hi (.seeStart hfind)
      | ready client => exact .turn hi (.seeClient hfind)
  | inspecting client =>
    simp only [act, Caller.step]
    cases hgone : s.gone client with
    | true => exact .turn hi (.findGone hgone)
    | false => exact .turn hi (.take hgone)
  | evicting client => exact .evict hi
  | arriving t => exact .turn hi (.listen t)
  | checking t rung =>
    simp only [act, Caller.step]
    cases s.pool.isStarting l with
    | true => exact .turn hi (.wait t rung)
    | false => exact .turn hi (.lookAgain t rung)
  | waiting t rung =>
    cases rung with
    | true => exact .turn hi (.wakeUp t)
    | false =>
      simp only [act, Caller.step, setCaller_self hi]
      exact .stay _
  | claiming =>
    cases hfind : s.pool.find? l with
    | some entry =>
      simp only [act, Caller.step, Pool.claim?, hfind]
      exact .turn hi .comeLate
    | none =>
      simp only [act, Caller.step, Pool.claim?, hfind]
      exact .claim hi hfind (fun k => Pool.find?_put s.pool l k _) rfl
  | starting _ | served _ | refused _ =>
    simp only [act, Caller.step, setCaller_self hi]
    exact .stay _

/-- **Every event makes a move.** -/
theorem step_move (s : Acquisition) (e : Event) : Move s e (s.step e) := by
  cases e with
  | call l => exact .call l
  | act i =>
    cases hi : s.caller i with
    | none =>
      simp only [step, hi]
      exact .stay _
    | some p =>
      simp only [step, hi]
      exact act_move hi
  | giveUp i =>
    simp only [step]
    split
    · exact .stay _
    · exact .stay _
    · exact .giveUp i
  | settle t fault? =>
    simp only [step]
    split
    · next l ht =>
      cases fault? with
      | some fault => exact .settleFailed ht fault
      | none => exact .settleConnected ht
    · exact .stay _
  | note t =>
    simp only [step]
    split
    · next ht => exact .note ht
    · exact .stay _
  | ring t =>
    simp only [step]
    split
    · next ht => exact .ring ht
    · exact .stay _
  | learn i =>
    simp only [step]
    split
    · next l t hi =>
      split
      · next k outcome ht =>
        cases outcome with
        | ok client =>
          simp only [Caller.learn, if_true]
          exact .serve hi ht
        | error fault =>
          simp only [Caller.learn, if_true]
          exact .refuse hi ht
      · exact .stay _
    · exact .stay _
  | die client =>
    simp only [step]
    split
    · next h => exact .die h
    · exact .stay _

/-! ## What becomes of one caller, and of one client -/

/-- How a caller has come to where it stands after an event. -/
inductive Arrival (s : Acquisition) (e : Event) (j : Nat) (l : Language) : Caller → Prop
  | same {c : Caller} (h : s.caller j = some (l, c)) : Arrival s e j l c
  | turn {c d : Caller} (he : e = .act j) (h : s.caller j = some (l, c)) (ht : Turn s l c d) :
    Arrival s e j l d
  /-- It has just called, or has just put a client away. -/
  | begin_ : Arrival s e j l .looking
  | claim (h : s.caller j = some (l, .claiming)) : Arrival s e j l (.starting s.pool.nextTicket)
  | hear (t : Nat) {c : Caller} (h : s.caller j = some (l, c)) : Arrival s e j l (c.hear t)
  | serve {k : Language} {t client : Nat} (h : s.caller j = some (l, .starting t))
      (ht : s.start t = some ⟨k, .over (.ok client)⟩) : Arrival s e j l (.served client)
  | refuse (fault : ServiceFault) : Arrival s e j l (.refused fault)

variable {s s' : Acquisition} {e : Event}

theorem Move.arrival (hm : Move s e s') {j : Nat} {k : Language} {d : Caller}
    (hj : s'.caller j = some (k, d)) : Arrival s e j k d := by
  cases hm with
  | call l =>
    obtain ⟨_, _, rfl⟩ | hold := of_caller_setCaller hj
    · exact .begin_
    · exact .same hold
  | turn hi hturn =>
    obtain ⟨rfl, rfl, rfl⟩ | hold := of_caller_setCaller hj
    · exact .turn rfl hi hturn
    · exact .same hold
  | evict _ =>
    obtain ⟨_, _, rfl⟩ | hold := of_caller_setCaller hj
    · exact .begin_
    · exact .same hold
  | claim hi _ _ _ =>
    obtain ⟨rfl, rfl, rfl⟩ | hold := of_caller_setCaller hj
    · exact .claim hi
    · exact .same hold
  | giveUp i =>
    change Function.update s.caller i none j = _ at hj
    rw [Function.update_apply] at hj
    split at hj
    · cases hj
    · exact .same hj
  | ring _ =>
    obtain ⟨p, hp, hheard⟩ := Option.map_eq_some_iff.mp hj
    cases hheard
    exact .hear _ hp
  | serve hi ht =>
    obtain ⟨rfl, rfl, rfl⟩ | hold := of_caller_setCaller hj
    · exact .serve hi ht
    · exact .same hold
  | refuse _ _ =>
    obtain ⟨_, _, rfl⟩ | hold := of_caller_setCaller hj
    · exact .refuse _
    · exact .same hold
  | stay _ | settleFailed _ _ | settleConnected _ | note _ | die _ => exact .same hj

/-- How a start has come to where it stands after an event. -/
inductive Course (s s' : Acquisition) (t : Nat) : Start → Prop
  | same {x : Start} (h : s.start t = some x) : Course s s' t x
  | begin_ (l : Language) : Course s s' t ⟨l, .underway⟩
  | fail {l : Language} (h : s.start t = some ⟨l, .underway⟩) (fault : ServiceFault) :
    Course s s' t ⟨l, .settled (.error fault)⟩
  | connect {l : Language} (h : s.start t = some ⟨l, .underway⟩) :
    Course s s' t ⟨l, .settled (.ok s.clients)⟩
  | note {l : Language} {outcome : Except ServiceFault Nat}
      (h : s.start t = some ⟨l, .settled outcome⟩) : Course s s' t ⟨l, .noted outcome⟩
  /-- Everyone has heard its bell. -/
  | ring {l : Language} {outcome : Except ServiceFault Nat}
      (h : s.start t = some ⟨l, .noted outcome⟩)
      (hall : ∀ j, s'.caller j = (s.caller j).map fun p => (p.1, p.2.hear t)) :
    Course s s' t ⟨l, .over outcome⟩

theorem Move.course (hm : Move s e s') {t : Nat} {x : Start} (ht : s'.start t = some x) :
    Course s s' t x := by
  cases hm with
  | claim _ _ _ _ =>
    obtain ⟨_, rfl⟩ | hold := of_start_setStart ht
    · exact .begin_ _
    · exact .same hold
  | settleFailed hu fault =>
    obtain ⟨rfl, rfl⟩ | hold := of_start_setStart ht
    · exact .fail hu fault
    · exact .same hold
  | settleConnected hu =>
    obtain ⟨rfl, rfl⟩ | hold := of_start_setStart ht
    · exact .connect hu
    · exact .same hold
  | note hu =>
    obtain ⟨rfl, rfl⟩ | hold := of_start_setStart ht
    · exact .note hu
    · exact .same hold
  | ring hu =>
    obtain ⟨rfl, rfl⟩ | hold := of_start_setStart ht
    · exact .ring hu fun _ => rfl
    · exact .same hold
  | stay _ | call _ | turn _ _ | evict _ | giveUp _ | serve _ _ | refuse _ _ | die _ =>
    exact .same ht

/-- Who is gone stays gone. -/
theorem Move.gone (hm : Move s e s') {client : Nat} (h : s.gone client = true) :
    s'.gone client = true := by
  cases hm with
  | @die dead _ =>
    change Function.update s.gone dead true client = true
    rw [Function.update_apply, h, ite_self]
  | stay _ | call _ | turn _ _ | evict _ | claim _ _ _ _ | giveUp _ | settleFailed _ _
  | settleConnected _ | note _ | ring _ | serve _ _ | refuse _ _ => exact h

end Acquisition

end SymbolQuery
