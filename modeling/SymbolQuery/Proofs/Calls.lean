/-
The calls of one client, cut where they wait.

`Client` has each operation as one step. A call is not one step: it takes a number, is
entered among those that wait, writes, waits, and may have to give up, and between any
two of these everything else may happen. Here each of them is an event of its own, made
of the same pieces as the operations of the client, and a run is any list of events. An
event that can not happen where it stands changes nothing. A write is one event, that of
its end: while it lasts, nobody else's octets can come between its own.

Who gives up is one of two. A call that is late does it itself. Behind a call that ends
in any other way before it has looked at its answer, a cleanup is left that does it,
some time later and next to everything else.

`effect_step` says once what an event does and where it can happen; what is kept by every
event is derived from that. `step_move` reads off it what an event can do to the state as
far as the settling of requests goes.
-/
import Mathlib.Logic.Function.Basic
import SymbolQuery.Client.Basic

set_option autoImplicit false

namespace SymbolQuery

namespace Client

/-- How a write ends. -/
inductive WriteEnd
  | whole
  /-- It fails, or is given up, behind some octets. -/
  | short (fault : ServiceFault) (octets : Nat)
  deriving DecidableEq, Repr

/-- Writes at most the given number of octets of a message. -/
def sendPart (c : Client) (message : Json) (octets : Nat) : Client :=
  { c with outgoing := c.outgoing.writePart message octets }

/-- Writes a message, which ends in the given way. -/
def sendUntil (c : Client) (message : Json) : WriteEnd → Except ServiceFault Unit × Client
  | .whole => c.send message
  | .short fault octets => (.error fault, c.sendPart message octets)

end Client

namespace Calls

/-! ## Calls and their stages -/

/-- What a call asks, and how long it waits. -/
structure Query where
  method : String
  params : Option Json
  limit : Nat

/-- Who acts for a request. -/
inductive Task
  | call (id : Nat)
  | cleanup (id : Nat)
  deriving DecidableEq, Repr

/-- The number of the request. -/
def Task.id : Task → Nat
  | .call id => id
  | .cleanup id => id

/-- What comes of a task; `none` where nobody waits for it. -/
abbrev Outcome := Option (Except ServiceFault Json)

/-- How far a task has come. -/
inductive Stage
  | absent
  /-- It has a number and is about to be entered among those that wait. -/
  | numbered (q : Query)
  | writing (q : Query)
  | waiting (q : Query)
  /-- It is about to give the number up. -/
  | cancelling (outcome : Outcome)
  /-- It has given the number up and is about to tell the server. -/
  | telling (outcome : Outcome)
  | ended (outcome : Outcome)

/-- What may happen next. -/
inductive Event
  | begin_ (q : Query)
  | enlist (id : Nat)
  | write (id : Nat) (w : Client.WriteEnd)
  /-- A call looks whether it has its answer. -/
  | wake (id : Nat)
  | expire (id : Nat)
  | cancel (t : Task)
  | tell (t : Task) (w : Client.WriteEnd)
  /-- A caller goes away; where his call was writing, some octets are out. -/
  | abandon (id octets : Nat)
  | receive (m : Rpc.Message)
  | lose (fault : Rpc.FrameFault)
  /-- All who wait learn that the server was lost. -/
  | failPending
  | hangUp
  /-- The server stops listening. -/
  | breakOff

end Calls

/-- A client and the tasks on it. -/
structure Calls where
  client : Client
  stage : Calls.Task → Calls.Stage := fun _ => .absent
  /-- Whether those who wait have yet to learn that the server was lost. -/
  failing : Bool := false

namespace Calls

/-! ## Steps -/

/-- A task comes to a stage. -/
def put (s : Calls) (t : Task) (stage : Stage) : Calls :=
  { s with stage := Function.update s.stage t stage }

theorem put_self (s : Calls) (t : Task) (stage : Stage) : (s.put t stage).stage t = stage := by
  change Function.update s.stage t stage t = stage
  rw [Function.update_self]

theorem put_of_ne (s : Calls) {t u : Task} (h : u ≠ t) (stage : Stage) :
    (s.put t stage).stage u = s.stage u := by
  change Function.update s.stage t stage u = s.stage u
  rw [Function.update_of_ne h]

/-- A call ends before it has looked at its answer, and leaves a cleanup behind. -/
def endEarly (s : Calls) (id : Nat) (outcome : Outcome) : Calls :=
  (s.put (.call id) (.ended outcome)).put (.cleanup id) (.cancelling none)

/-- What an event does. -/
def step (s : Calls) : Event → Calls
  | .begin_ q =>
    if s.client.terminated then s
    else
      let (id, c) := s.client.takeNumber
      { s with client := c }.put (.call id) (.numbered q)
  | .enlist id =>
    match s.stage (.call id) with
    | .numbered q => { s with client := s.client.enlist id }.put (.call id) (.writing q)
    | _ => s
  | .write id w =>
    match s.stage (.call id) with
    | .writing q =>
      match s.client.sendUntil (Client.numberedRequest id q.method q.params).toJson w with
      | (.ok _, c) => { s with client := c }.put (.call id) (.waiting q)
      | (.error fault, c) => { s with client := c }.endEarly id (some (.error fault))
    | _ => s
  | .wake id =>
    match s.stage (.call id) with
    | .waiting _ =>
      match s.client.collect id with
      | some (r, c) =>
        { s with client := c }.put (.call id) (.ended (some (Client.verdict c.language r)))
      | none =>
        if s.client.pending.contains id then s
        else s.put (.call id) (.ended (some (.error .requestCancelled)))
    | _ => s
  | .expire id =>
    match s.stage (.call id) with
    | .waiting q =>
      -- an answer that is there counts before the deadline
      if s.client.pending.contains id then
        s.put (.call id)
          (.cancelling (some (.error (Client.lateFault s.client.language q.method q.limit))))
      else s
    | _ => s
  | .cancel t =>
    match s.stage t with
    | .cancelling outcome =>
      if s.client.pending.contains t.id then
        { s with client := s.client.forget t.id }.put t (.telling outcome)
      else s.put t (.ended outcome)
    | _ => s
  | .tell t w =>
    match s.stage t with
    | .telling outcome =>
      { s with client := (s.client.sendUntil (Client.cancelNotice t.id).toJson w).2 }.put t
        (.ended outcome)
    | _ => s
  | .abandon id octets =>
    match s.stage (.call id) with
    | .numbered _ | .cancelling _ => s.put (.call id) (.ended none)
    | .writing q =>
      let request := (Client.numberedRequest id q.method q.params).toJson
      { s with client := s.client.sendPart request octets }.endEarly id none
    | .waiting _ => s.endEarly id none
    | .telling _ =>
      { s with client := s.client.sendPart (Client.cancelNotice id).toJson octets }.put (.call id)
        (.ended none)
    | .absent | .ended _ => s
  | .receive m => if s.client.listening then { s with client := s.client.receive m } else s
  | .lose fault =>
    if s.client.listening then
      let c := { s.client with listening := false }
      match fault with
      | .unbufferable => { s with client := c }
      | _ => { s with client := c.loseServer fault, failing := true }
    else s
  | .failPending =>
    if s.failing then { s with client := s.client.failTerminated, failing := false } else s
  | .hangUp => { s with client := s.client.hangUp }
  | .breakOff => { s with client := { s.client with outgoing := s.client.outgoing.breakOff } }

/-- What a list of events does. -/
def run (s : Calls) (es : List Event) : Calls := es.foldl step s

/-- A new client that nobody has called. -/
def start (language : Language) : Calls := { client := { language := language } }

/-! ## What an event does -/

/-- Whether an event is one that reading the server's stream makes. -/
def Event.ofReader : Event → Bool
  | .receive _ | .lose _ | .failPending => true
  | _ => false

/-- **What an event does** where it can happen, and the state to which that leads. -/
inductive Effect (s : Calls) : Event → Calls → Prop
  /-- It can not happen where it stands. -/
  | stuck {e : Event} (he : e.ofReader = false) : Effect s e s
  | begun {q : Query} (hlive : s.client.terminated = false) :
    Effect s (.begin_ q)
      ({ s with client := s.client.takeNumber.2 }.put (.call s.client.nextId) (.numbered q))
  | enlisted {id : Nat} {q : Query} (hstage : s.stage (.call id) = .numbered q) :
    Effect s (.enlist id) ({ s with client := s.client.enlist id }.put (.call id) (.writing q))
  | written {id : Nat} {q : Query} {w : Client.WriteEnd} (hstage : s.stage (.call id) = .writing q)
      (hsent : (s.client.sendUntil (Client.numberedRequest id q.method q.params).toJson w).1
        = .ok ()) :
    Effect s (.write id w)
      ({ s with
        client := (s.client.sendUntil (Client.numberedRequest id q.method q.params).toJson w).2
        }.put (.call id) (.waiting q))
  | unwritten {id : Nat} {q : Query} {w : Client.WriteEnd} {fault : ServiceFault}
      (hstage : s.stage (.call id) = .writing q)
      (hfault : (s.client.sendUntil (Client.numberedRequest id q.method q.params).toJson w).1
        = .error fault) :
    Effect s (.write id w)
      ({ s with
        client := (s.client.sendUntil (Client.numberedRequest id q.method q.params).toJson w).2
        }.endEarly id (some (.error fault)))
  | answered {id : Nat} {q : Query} {r : Rpc.Response} (hstage : s.stage (.call id) = .waiting q)
      (hr : s.client.replies.lookup id = some r) :
    Effect s (.wake id)
      ({ s with
        client := { s.client with replies := s.client.replies.filter fun a => a.1 != id }
        }.put (.call id) (.ended (some (Client.verdict s.client.language r))))
  | unanswered {id : Nat} {q : Query} (hstage : s.stage (.call id) = .waiting q)
      (hr : s.client.replies.lookup id = none) :
    Effect s (.wake id) (s.put (.call id) (.ended (some (.error .requestCancelled))))
  | late {id : Nat} {q : Query} (hstage : s.stage (.call id) = .waiting q) :
    Effect s (.expire id)
      (s.put (.call id)
        (.cancelling (some (.error (Client.lateFault s.client.language q.method q.limit)))))
  | forgotten {t : Task} {outcome : Outcome} (hstage : s.stage t = .cancelling outcome)
      (hid : t.id ∈ s.client.pending) :
    Effect s (.cancel t) ({ s with client := s.client.forget t.id }.put t (.telling outcome))
  /-- There is nothing to give up any more. -/
  | settled {t : Task} {outcome : Outcome} (hstage : s.stage t = .cancelling outcome) :
    Effect s (.cancel t) (s.put t (.ended outcome))
  | told {t : Task} {outcome : Outcome} {w : Client.WriteEnd}
      (hstage : s.stage t = .telling outcome) :
    Effect s (.tell t w)
      ({ s with client := (s.client.sendUntil (Client.cancelNotice t.id).toJson w).2 }.put t
        (.ended outcome))
  /-- The caller goes away before his request is entered, or before it is given up. -/
  | leftEarly {id octets : Nat} (hnumber : s.stage (.call id) ≠ .absent) :
    Effect s (.abandon id octets) (s.put (.call id) (.ended none))
  | leftWriting {id octets : Nat} {q : Query} (hstage : s.stage (.call id) = .writing q) :
    Effect s (.abandon id octets)
      ({ s with
        client := s.client.sendPart (Client.numberedRequest id q.method q.params).toJson octets
        }.endEarly id none)
  | leftWaiting {id octets : Nat} {q : Query} (hstage : s.stage (.call id) = .waiting q) :
    Effect s (.abandon id octets) (s.endEarly id none)
  | leftTelling {id octets : Nat} {outcome : Outcome}
      (hstage : s.stage (.call id) = .telling outcome) :
    Effect s (.abandon id octets)
      ({ s with client := s.client.sendPart (Client.cancelNotice id).toJson octets }.put (.call id)
        (.ended none))
  | received {m : Rpc.Message} (hlistening : s.client.listening = true) :
    Effect s (.receive m) { s with client := s.client.receive m }
  | unread {m : Rpc.Message} (hlistening : s.client.listening = false) : Effect s (.receive m) s
  /-- Reading breaks off, and nobody learns it. -/
  | stopped (hlistening : s.client.listening = true) :
    Effect s (.lose .unbufferable) { s with client := { s.client with listening := false } }
  | lost {fault : Rpc.FrameFault} (hlistening : s.client.listening = true)
      (hfault : fault ≠ .unbufferable) :
    Effect s (.lose fault)
      { s with
        client := { s.client with listening := false }.loseServer fault
        failing := true }
  | unlost {fault : Rpc.FrameFault} (hlistening : s.client.listening = false) :
    Effect s (.lose fault) s
  | failed (hfailing : s.failing = true) :
    Effect s .failPending { s with client := s.client.failTerminated, failing := false }
  | unfailed (hfailing : s.failing = false) : Effect s .failPending s
  | hungUp : Effect s .hangUp { s with client := s.client.hangUp }
  | brokenOff :
    Effect s .breakOff { s with client := { s.client with outgoing := s.client.outgoing.breakOff } }

/-- **Every event has its effect.** -/
theorem effect_step (s : Calls) (e : Event) : Effect s e (s.step e) := by
  cases e with
  | begin_ q =>
    simp only [step]
    split
    · exact .stuck rfl
    · next hlive => exact .begun (eq_false_of_ne_true hlive)
  | enlist id =>
    simp only [step]
    split
    · next q hstage => exact .enlisted hstage
    · exact .stuck rfl
  | write id w =>
    simp only [step]
    split
    · next q hstage =>
      split
      · next c hsend =>
        have hwritten := @Effect.written s id q w hstage (by rw [hsend])
        rwa [hsend] at hwritten
      · next fault c hsend =>
        have hunwritten := @Effect.unwritten s id q w fault hstage (by rw [hsend])
        rwa [hsend] at hunwritten
    · exact .stuck rfl
  | wake id =>
    simp only [step]
    split
    · next q hstage =>
      split
      · next r c hcollect =>
        obtain ⟨r', hr, heq⟩ := Option.map_eq_some_iff.mp hcollect
        cases heq
        exact .answered hstage hr
      · next hcollect =>
        split
        · exact .stuck rfl
        · exact .unanswered hstage (Option.map_eq_none_iff.mp hcollect)
    · exact .stuck rfl
  | expire id =>
    simp only [step]
    split
    · next q hstage =>
      split
      · exact .late hstage
      · exact .stuck rfl
    · exact .stuck rfl
  | cancel t =>
    simp only [step]
    split
    · next outcome hstage =>
      split
      · next hpending => exact .forgotten hstage (List.contains_iff_mem.mp hpending)
      · exact .settled hstage
    · exact .stuck rfl
  | tell t w =>
    simp only [step]
    split
    · next outcome hstage => exact .told hstage
    · exact .stuck rfl
  | abandon id octets =>
    cases hstage : s.stage (.call id) with
    | numbered _ | cancelling _ =>
      simp only [step, hstage]
      exact .leftEarly (by simp [hstage])
    | writing q =>
      simp only [step, hstage]
      exact .leftWriting hstage
    | waiting q =>
      simp only [step, hstage]
      exact .leftWaiting hstage
    | telling outcome =>
      simp only [step, hstage]
      exact .leftTelling hstage
    | absent | ended _ =>
      simp only [step, hstage]
      exact .stuck rfl
  | receive m =>
    simp only [step]
    split
    · next hlistening => exact .received hlistening
    · next hlistening => exact .unread (eq_false_of_ne_true hlistening)
  | lose fault =>
    simp only [step]
    split
    · next hlistening =>
      split
      · exact .stopped hlistening
      · next hfault => exact .lost hlistening hfault
    · next hlistening => exact .unlost (eq_false_of_ne_true hlistening)
  | failPending =>
    simp only [step]
    split
    · next hfailing => exact .failed hfailing
    · next hfailing => exact .unfailed (eq_false_of_ne_true hfailing)
  | hangUp => exact .hungUp
  | breakOff => exact .brokenOff

/-! ## The operations of the client as runs -/

/-- Giving a request up is to forget it and to tell the server, with nothing in between. -/
theorem run_cancel {s : Calls} {t : Task} {outcome : Outcome}
    (h : s.stage t = .cancelling outcome) :
    (s.run [.cancel t, .tell t .whole]).client = s.client.cancel t.id := by
  simp only [run, List.foldl_cons, List.foldl_nil, step, h, Client.cancel]
  by_cases hpending : s.client.pending.contains t.id
  · simp only [hpending, if_true, put_self]
    rfl
  · simp only [hpending, Bool.false_eq_true, if_false, put_self]
    rfl

/-- To register a request is to take a number and to enter it. -/
theorem run_register {s : Calls} (q : Query) (hs : s.client.terminated = false) :
    s.run [.begin_ q, .enlist s.client.nextId]
      = ({ s with client := s.client.register.2 }.put (.call s.client.nextId) (.numbered q)).put
          (.call s.client.nextId) (.writing q) := by
  have hbegin : s.step (.begin_ q)
      = { s with client := s.client.takeNumber.2 }.put (.call s.client.nextId) (.numbered q) := by
    simp only [step, hs, Bool.false_eq_true, if_false]
    rfl
  simp only [run, List.foldl_cons, List.foldl_nil, hbegin]
  rw [step, put_self]
  rfl

/-- Beginning a request is to register it, to write it and, where that fails, to give it up, with
nothing in between. -/
theorem run_request {s : Calls} (q : Query) (hs : s.client.terminated = false)
    (hfree : s.stage (.cleanup s.client.nextId) = .absent) :
    (s.run ([.begin_ q, .enlist s.client.nextId] ++ .write s.client.nextId .whole
        :: [.cancel (.cleanup s.client.nextId), .tell (.cleanup s.client.nextId) .whole])).client
      = (s.client.request q.method q.params).2 := by
  have hne : Task.cleanup s.client.nextId ≠ .call s.client.nextId := by simp
  rw [run, List.foldl_append, List.foldl_cons]
  change Calls.client (Calls.run ((s.run _).step _) _) = _
  rw [run_register q hs]
  generalize hu : ({ s with client := s.client.register.2 }.put (.call s.client.nextId)
    (.numbered q)).put (.call s.client.nextId) (.writing q) = u
  have hwriting : u.stage (.call s.client.nextId) = .writing q := by rw [← hu, put_self]
  have hcleanup : u.stage (.cleanup s.client.nextId) = .absent := by
    rw [← hu, put_of_ne _ hne, put_of_ne _ hne, hfree]
  have hclient : s.client.register = (s.client.nextId, u.client) := by rw [← hu]; rfl
  simp only [Client.request, hs, Bool.false_eq_true, if_false, hclient]
  cases hsend : u.client.send (Client.numberedRequest s.client.nextId q.method q.params).toJson with
  | mk result c =>
    cases result with
    | ok _ =>
      simp only [run, List.foldl_cons, List.foldl_nil, step, hwriting, Client.sendUntil, hsend,
        put_of_ne _ hne, hcleanup]
      rfl
    | error fault =>
      have hwrite : u.step (.write s.client.nextId .whole)
          = { u with client := c }.endEarly s.client.nextId (some (.error fault)) := by
        simp only [step, hwriting, Client.sendUntil, hsend]
      rw [hwrite]
      exact run_cancel (put_self _ _ _)

/-- To stop reading is to lose the server and to tell all who wait, with nothing in between. -/
theorem run_stopReading {s : Calls} (hs : s.client.listening = true) (hfailing : s.failing = false)
    (fault : Rpc.FrameFault) :
    (s.run [.lose fault, .failPending]).client = s.client.stopReading fault := by
  simp only [run, List.foldl_cons, List.foldl_nil, step, hs, if_true, Client.stopReading]
  cases fault <;> simp [hfailing]

/-! ## What settling rests on -/

/-- The request that a message gives up, if it is a notification that gives one up. -/
def cancelledId? (message : Json) : Option Nat :=
  match message.get? "method", message.get? "id" with
  | some (.str "$/cancelRequest"), none => (message.path? ["params", "id"]).bind Json.nat?
  | _, _ => none

theorem cancelledId?_cancelNotice (id : Nat) :
    cancelledId? (Client.cancelNotice id).toJson = some id := rfl

/-- A request gives nothing up, whatever its method: it has an id. -/
theorem cancelledId?_numberedRequest (id : Nat) (method : String) (params : Option Json) :
    cancelledId? (Client.numberedRequest id method params).toJson = none := by
  have hid : (Client.numberedRequest id method params).toJson.get? "id" = some (.ofNat id) := rfl
  rw [cancelledId?, hid]
  -- whatever the method is, the case without an id is not met
  split <;> simp_all

/-- A response gives nothing up: it has no method. -/
theorem cancelledId?_response (r : Rpc.Response) : cancelledId? r.toJson = none := by
  have hmethod : r.toJson.get? "method" = none := by
    cases hresult : r.result <;> cases herror : r.error <;>
      simp [Rpc.Response.toJson, Json.get?, List.lookup_cons, Json.field?, hresult, herror]
  rw [cancelledId?, hmethod]

/-- A stage as far as settling depends on it. -/
inductive Phase
  | absent
  | numbered
  | busy
  | telling
  deriving DecidableEq, Repr

/-- The phase of a stage. -/
def Stage.phase : Stage → Phase
  | .absent => .absent
  | .numbered _ => .numbered
  | .telling _ => .telling
  | .writing _ | .waiting _ | .cancelling _ | .ended _ => .busy

/-- The part of a state that settling depends on. -/
structure View where
  nextId : Nat
  pending : List Nat
  replies : List (Nat × Rpc.Response)
  phase : Task → Phase
  /-- The requests of which the server was told, or begun to be told, that they are given up. -/
  told : List Nat

/-- The view of a state. -/
def view (s : Calls) : View where
  nextId := s.client.nextId
  pending := s.client.pending
  replies := s.client.replies
  phase t := (s.stage t).phase
  told := s.client.outgoing.begun.filterMap cancelledId?

/-- Tasks come to phases of work in which they neither take a number, nor enter one, nor have one
to give up. A call does not come out of nothing. -/
def Shift (p q : Task → Phase) : Prop :=
  ∀ t, q t = p t ∨ (q t = .busy ∧ ∀ id, t = .call id → p t ≠ .absent)

/-- The answer that a request gets when the client gives all of them up. -/
def failure (code : Int) (reason : String) (id : Nat) : Nat × Rpc.Response :=
  (id, .failure (.number id) { code := code, message := reason })

/-- **What an event can do** to what settling depends on. -/
inductive Move (v : View) : Event → View → Prop
  | shift {e : Event} {q : Task → Phase} (hq : Shift v.phase q) : Move v e { v with phase := q }
  | number (query : Query) :
    Move v (.begin_ query)
      { v with
        nextId := v.nextId + 1
        phase := Function.update v.phase (.call v.nextId) .numbered }
  | enlist {id : Nat} (hid : v.phase (.call id) = .numbered) :
    Move v (.enlist id)
      { v with
        pending := v.pending ++ [id]
        phase := Function.update v.phase (.call id) .busy }
  | answer {id : Nat} {r : Rpc.Response} (hr : r.id.bind Rpc.Id.number? = some id)
      (hid : id ∈ v.pending) :
    Move v (.receive (.response r))
      { v with pending := v.pending.erase id, replies := v.replies ++ [(id, r)] }
  | failAll {e : Event} (he : e = .failPending ∨ e = .hangUp) (code : Int) (reason : String) :
    Move v e
      { v with pending := [], replies := v.replies ++ v.pending.map (failure code reason) }
  | cancel {t : Task} (ht : v.phase t = .busy) (hid : t.id ∈ v.pending) :
    Move v (.cancel t)
      { v with
        pending := v.pending.erase t.id
        phase := Function.update v.phase t .telling }
  | tell {e : Event} {t : Task} (ht : v.phase t = .telling) {told : List Nat}
      (htold : told = v.told ∨ told = v.told ++ [t.id]) :
    Move v e { v with phase := Function.update v.phase t .busy, told := told }
  | collect {id : Nat} (hid : v.phase (.call id) = .busy) :
    Move v (.wake id) { v with replies := v.replies.filter fun a => a.1 != id }

/-! ## Moves -/

/-- A client has sent a message, or the beginning of it, or could not; nothing else has changed. -/
def Sends (c : Client) (message : Json) (c' : Client) : Prop :=
  ∃ o : Outgoing, c' = { c with outgoing := o } ∧ o.Idle
    ∧ (o.begun = c.outgoing.begun ∨ o.begun = c.outgoing.begun ++ [message])

theorem sends_sendPart {c : Client} (hc : c.outgoing.Idle) (message : Json) (octets : Nat) :
    Sends c message (c.sendPart message octets) :=
  ⟨c.outgoing.writePart message octets, rfl, Outgoing.idle_writePart _ _ _,
    Or.inr (Outgoing.begun_writePart hc message octets)⟩

theorem sends_send {c : Client} (hc : c.outgoing.Idle) (message : Json) :
    Sends c message (c.send message).2 := by
  cases hfault : c.outgoing.channel.fault? with
  | none =>
    have hintact : c.outgoing.channel = .intact := by
      cases hk : c.outgoing.channel <;> simp [hk, Channel.fault?] at hfault ⊢
    rw [Client.send_of_intact hintact]
    exact sends_sendPart hc message _
  | some fault =>
    rw [Client.send_of_fault hfault]
    exact ⟨c.outgoing, rfl, hc, Or.inl rfl⟩

theorem sends_sendUntil {c : Client} (hc : c.outgoing.Idle) (message : Json)
    (w : Client.WriteEnd) : Sends c message (c.sendUntil message w).2 := by
  cases w with
  | whole => exact sends_send hc message
  | short fault octets => exact sends_sendPart hc message octets

theorem Sends.idle {c c' : Client} {message : Json} (h : Sends c message c') :
    c'.outgoing.Idle := by
  obtain ⟨o, rfl, ho, _⟩ := h
  exact ho

/-- A message that gives nothing up changes nothing that settling depends on. -/
theorem view_of_sends {s : Calls} {c' : Client} {message : Json} (h : Sends s.client message c')
    (hm : cancelledId? message = none) : ({ s with client := c' } : Calls).view = s.view := by
  obtain ⟨o, rfl, _, hb⟩ := h
  have htold : o.begun.filterMap cancelledId? = s.view.told := by
    rcases hb with hb | hb
    · rw [hb]
      rfl
    · rw [hb, List.filterMap_append, List.filterMap_cons, hm]
      exact List.append_nil _
  change { s.view with told := o.begun.filterMap cancelledId? } = s.view
  rw [htold]

/-- Telling that a request is given up adds it to what was told, unless nothing can be sent. -/
theorem view_of_sends_cancel {s : Calls} {c' : Client} {message : Json} {id : Nat}
    (h : Sends s.client message c') (hm : cancelledId? message = some id) :
    ∃ told, (told = s.view.told ∨ told = s.view.told ++ [id])
      ∧ ({ s with client := c' } : Calls).view = { s.view with told := told } := by
  obtain ⟨o, rfl, _, hb⟩ := h
  refine ⟨o.begun.filterMap cancelledId?, ?_, rfl⟩
  rcases hb with hb | hb
  · rw [hb]
    exact Or.inl rfl
  · rw [hb, List.filterMap_append, List.filterMap_cons, hm]
    exact Or.inr rfl

/-- The phases behind a task that comes to a stage. -/
theorem view_put (s : Calls) (t : Task) (stage : Stage) :
    (s.put t stage).view
      = { s.view with phase := Function.update s.view.phase t stage.phase } := by
  have hphase : (s.put t stage).view.phase = Function.update s.view.phase t stage.phase := by
    funext u
    change ((s.put t stage).stage u).phase = _
    by_cases hu : u = t
    · subst hu
      rw [put_self, Function.update_self]
    · rw [put_of_ne s hu, Function.update_of_ne hu]
      rfl
  rw [← hphase]
  rfl

theorem view_endEarly (s : Calls) (id : Nat) (outcome : Outcome) :
    (s.endEarly id outcome).view
      = { s.view with
          phase := Function.update (Function.update s.view.phase (.call id) .busy)
            (.cleanup id) .busy } := by
  rw [endEarly, view_put, view_put]
  rfl

theorem Shift.refl (p : Task → Phase) : Shift p p := fun _ => Or.inl rfl

/-- One more task comes to a phase of work. -/
theorem Shift.update {p q : Task → Phase} (h : Shift p q) {t : Task}
    (ht : ∀ id, t = .call id → p t ≠ .absent) : Shift p (Function.update q t .busy) := by
  intro u
  by_cases hu : u = t
  · subst hu
    rw [Function.update_self]
    exact Or.inr ⟨rfl, ht⟩
  · rw [Function.update_of_ne hu]
    exact h u

/-- A call that is there comes to a phase of work. -/
theorem Shift.call {p : Task → Phase} {id : Nat} (hid : p (.call id) ≠ .absent) :
    Shift p (Function.update p (.call id) .busy) :=
  (Shift.refl p).update fun _ _ => hid

/-- A call that is there ends early. -/
theorem Shift.endEarly {p : Task → Phase} {id : Nat} (hid : p (.call id) ≠ .absent) :
    Shift p (Function.update (Function.update p (.call id) .busy) (.cleanup id) .busy) :=
  (Shift.call hid).update fun _ h => absurd h (by simp)

/-- Nothing changes. -/
theorem Move.stay (v : View) (e : Event) : Move v e v := .shift (Shift.refl v.phase)

/-- What an event does makes a move, and nobody is left writing. -/
theorem Effect.move {s s' : Calls} {e : Event} (h : Effect s e s')
    (hidle : s.client.outgoing.Idle) : s'.client.outgoing.Idle ∧ Move s.view e s'.view := by
  -- what a task has come to says in which phase it was
  have hphase {t : Task} {stage : Stage} (hstage : s.stage t = stage) :
      s.view.phase t = stage.phase := congrArg Stage.phase hstage
  have hthere {t : Task} {stage : Stage} (hstage : s.stage t = stage)
      (hbusy : stage.phase = .busy) : s.view.phase t ≠ .absent := by
    rw [hphase hstage, hbusy]
    decide
  cases h with
  | stuck _ | unread _ | stopped _ | lost _ _ | unlost _ | unfailed _ | brokenOff =>
    exact ⟨hidle, .stay _ _⟩
  | begun _ =>
    rw [view_put]
    exact ⟨hidle, .number _⟩
  | enlisted hstage =>
    rw [view_put]
    exact ⟨hidle, .enlist (hphase hstage)⟩
  | @written id q w hstage _ =>
    have hsend := sends_sendUntil hidle (Client.numberedRequest id q.method q.params).toJson w
    rw [view_put, view_of_sends hsend (cancelledId?_numberedRequest _ _ _)]
    exact ⟨hsend.idle, .shift (Shift.call (hthere hstage rfl))⟩
  | @unwritten id q w fault hstage _ =>
    have hsend := sends_sendUntil hidle (Client.numberedRequest id q.method q.params).toJson w
    rw [view_endEarly, view_of_sends hsend (cancelledId?_numberedRequest _ _ _)]
    exact ⟨hsend.idle, .shift (Shift.endEarly (hthere hstage rfl))⟩
  | @answered id q r hstage _ =>
    have hbusy : s.view.phase (.call id) = .busy := hphase hstage
    -- the call was at work and still counts as such, so only the responses change
    have hsame : Function.update s.view.phase (.call id) .busy = s.view.phase := by
      rw [← hbusy, Function.update_eq_self]
    rw [view_put]
    change _ ∧ Move s.view (.wake id)
      { s.view with
        replies := s.view.replies.filter fun a => a.1 != id
        phase := Function.update s.view.phase (.call id) .busy }
    rw [hsame]
    exact ⟨hidle, .collect hbusy⟩
  | unanswered hstage _ | late hstage =>
    rw [view_put]
    exact ⟨hidle, .shift (Shift.call (hthere hstage rfl))⟩
  | forgotten hstage hid =>
    rw [view_put]
    exact ⟨hidle, .cancel (hphase hstage) hid⟩
  | settled hstage =>
    rw [view_put]
    exact ⟨hidle, .shift ((Shift.refl _).update fun _ _ => hthere hstage rfl)⟩
  | @told t outcome w hstage =>
    have hsend := sends_sendUntil hidle (Client.cancelNotice t.id).toJson w
    obtain ⟨told, htold, hview⟩ := view_of_sends_cancel hsend (cancelledId?_cancelNotice t.id)
    rw [view_put, hview]
    exact ⟨hsend.idle, .tell (hphase hstage) htold⟩
  | @leftEarly id octets hnumber =>
    have hcall : s.view.phase (.call id) ≠ .absent := by
      intro habsent
      change (s.stage (.call id)).phase = .absent at habsent
      cases hstage : s.stage (.call id) <;> simp [hstage, Stage.phase] at hnumber habsent
    rw [view_put]
    exact ⟨hidle, .shift (Shift.call hcall)⟩
  | @leftWriting id octets q hstage =>
    have hsend := sends_sendPart hidle (Client.numberedRequest id q.method q.params).toJson octets
    rw [view_endEarly, view_of_sends hsend (cancelledId?_numberedRequest _ _ _)]
    exact ⟨hsend.idle, .shift (Shift.endEarly (hthere hstage rfl))⟩
  | leftWaiting hstage =>
    rw [view_endEarly]
    exact ⟨hidle, .shift (Shift.endEarly (hthere hstage rfl))⟩
  | @leftTelling id octets outcome hstage =>
    have hsend := sends_sendPart hidle (Client.cancelNotice id).toJson octets
    obtain ⟨told, htold, hview⟩ := view_of_sends_cancel hsend (cancelledId?_cancelNotice id)
    rw [view_put, hview]
    exact ⟨hsend.idle, .tell (hphase hstage) htold⟩
  | @received m hlistening =>
    cases m with
    | response r =>
      simp only [Client.receive]
      cases hid : r.id.bind Rpc.Id.number? with
      | none => exact ⟨hidle, .stay _ _⟩
      | some id =>
        simp only [Client.settle]
        split
        · next hpending => exact ⟨hidle, .answer hid (List.contains_iff_mem.mp hpending)⟩
        · exact ⟨hidle, .stay _ _⟩
    | request r =>
      have hsend := sends_send hidle (Client.answerTo r).toJson
      simp only [Client.receive]
      rw [view_of_sends hsend (cancelledId?_response _)]
      exact ⟨hsend.idle, .stay _ _⟩
    | notification n => exact ⟨hidle, .stay _ _⟩
  | failed _ => exact ⟨hidle, .failAll (Or.inl rfl) _ _⟩
  | hungUp => exact ⟨hidle, .failAll (Or.inr rfl) _ _⟩

/-- **Every event makes a move**, and nobody is left writing. -/
theorem step_move {s : Calls} (hidle : s.client.outgoing.Idle) (e : Event) :
    (s.step e).client.outgoing.Idle ∧ Move s.view e (s.step e).view :=
  (effect_step s e).move hidle

end Calls

end SymbolQuery
