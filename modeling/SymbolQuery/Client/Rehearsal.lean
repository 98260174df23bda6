/-
A client against a server that follows cues, on a simulated clock.

A rehearsal goes in steps. In a step the client begins one or more acts; then the server
plays its cues, one after the other; then time passes until every act has its outcome.
The clock moves only where the server waits and where nothing but waiting is left.
Whatever falls on one moment happens in this order: answers that have arrived, then
deadlines, then callers who lose patience. The server reads whenever it can, so that a
write is over before anything else happens, also where the caller has no patience at all.
-/
import SymbolQuery.Client.Basic
import SymbolQuery.Location

set_option autoImplicit false

namespace SymbolQuery.Rehearsal

/-! ## Acts, cues and outcomes -/

/-- What a client is made to do. -/
inductive Act
  | request (method : String) (params : Option Json) (abandonAfter : Option Nat)
  | requestLocations (method : String)
  | notify (method : String) (params : Option Json)
  | sync (uri text : String)
  | greet (root : String) (deadline : Nat)
  | shutdown
  | supports (pick : Answer.Capabilities → Option Json)
  | idle

/-- What the server does. -/
inductive Cue
  /-- Answers a request of this step, by its place among them, with the given fields. -/
  | reply (place : Nat) (body : List (String × Json)) (idAsText : Bool)
  | send (message : Json)
  | octets (octets : List UInt8)
  | wait (time : Nat)
  | closeOutput
  | closeInput

/-- What comes of an act. -/
inductive Outcome
  | done
  | flag (holds : Bool)
  | value (v : Json)
  | locations (places : List Location)
  | failed (fault : ServiceFault)
  | abandoned

/-! ## Waiting -/

/-- What an answer is awaited for. -/
inductive Purpose
  | value
  | locations
  | greeting
  | farewell
  deriving DecidableEq, Repr

/-- An act that waits for the answer to a request. -/
structure Waiter where
  /-- The place of the act in its step. -/
  place : Nat
  id : Nat
  method : String
  purpose : Purpose
  since : Nat
  limit : Nat
  abandonAt : Option Nat := none
  deriving DecidableEq, Repr

namespace Waiter

/-- When the request is late. -/
def deadline (w : Waiter) : Nat := w.since + w.limit

/-- When the wait ends without an answer. -/
def ends (w : Waiter) : Nat :=
  match w.abandonAt with
  | some t => min t w.deadline
  | none => w.deadline

/-- The waiter of a list that is the first to give up; of several the one that began first. -/
def earliest : List Waiter → Option Waiter
  | [] => none
  | w :: rest =>
    match earliest rest with
    | some v => if v.ends < w.ends then some v else some w
    | none => some w

end Waiter

/-- The state of a rehearsal. -/
structure Stage where
  client : Client
  clock : Nat := 0
  /-- How long a plain request may take. -/
  limit : Nat
  waiters : List Waiter := []
  /-- The outcomes of the acts of this step, by their places. -/
  outcomes : List (Nat × Outcome) := []

namespace Stage

/-- Notes the outcome of an act. -/
def note (s : Stage) (place : Nat) (o : Outcome) : Stage :=
  { s with outcomes := s.outcomes ++ [(place, o)] }

/-- Notes how something that only may fail came out. -/
def noteResult (s : Stage) (place : Nat) : Except ServiceFault Unit → Stage
  | .ok _ => s.note place .done
  | .error fault => s.note place (.failed fault)

/-- Ends an act whose request has come to an end. -/
def conclude (s : Stage) (w : Waiter) (r : Except ServiceFault Json) : Stage :=
  match w.purpose, r with
  | .farewell, r => { s with client := s.client.finishShutdown r.isOk }.note w.place .done
  | _, .error fault => s.note w.place (.failed fault)
  | .value, .ok v => s.note w.place (.value v)
  | .locations, .ok v =>
    match Client.decodeAs (Json.asList Location.ofJson) v with
    | .ok places => s.note w.place (.locations places)
    | .error fault => s.note w.place (.failed fault)
  | .greeting, .ok v =>
    match Client.decodeAs Answer.Handshake.ofJson v with
    | .error fault => s.note w.place (.failed fault)
    | .ok h =>
      let (result, c) := s.client.welcome h
      { s with client := c }.noteResult w.place result

/-- Ends the acts whose answers have arrived, at most the given number of them. -/
def wake : Nat → Stage → Stage
  | 0, s => s
  | fuel + 1, s =>
    match s.waiters.find? fun w => (s.client.replies.lookup w.id).isSome with
    | none => s
    | some w =>
      match s.client.collect w.id with
      | none => s
      | some (r, c) =>
        wake fuel ({ s with client := c, waiters := s.waiters.erase w }.conclude w
          (Client.verdict s.client.language r))

/-- Ends the wait of an act that has no answer in time. -/
def giveUp (s : Stage) (w : Waiter) : Stage :=
  let s :=
    { s with
      clock := max s.clock w.ends
      client := s.client.cancel w.id
      waiters := s.waiters.erase w }
  if w.deadline ≤ w.ends then
    s.conclude w (.error (Client.lateFault s.client.language w.method w.limit))
  else s.note w.place .abandoned

/-- Lets everything happen up to a time, or to the end of all waiting if none is given. -/
def passUpTo (time : Option Nat) : Nat → Stage → Stage
  | 0, s => s
  | fuel + 1, s =>
    let s := s.wake (s.waiters.length + 1)
    match Waiter.earliest s.waiters with
    | none => s
    | some w =>
      if (time.map fun t => decide (w.ends ≤ t)).getD true then passUpTo time fuel (s.giveUp w)
      else s

/-- Lets time pass; every round ends the wait of one act, so there are enough of them. -/
def pass (s : Stage) (time : Option Nat) : Stage :=
  let s := passUpTo time (s.waiters.length + 1) s
  { s with clock := max s.clock (time.getD s.clock) }

/-- Lets everything happen that needs no time. -/
def settle (s : Stage) : Stage := s.pass (some s.clock)

/-! ## Acting -/

/-- Begins a request for an act. -/
def ask (s : Stage) (place : Nat) (purpose : Purpose) (method : String) (params : Option Json)
    (limit : Nat) (abandonAt : Option Nat) : Stage :=
  match s.client.request method params with
  | (.ok id, c) =>
    { s with
      client := c
      waiters := s.waiters ++ [⟨place, id, method, purpose, s.clock, limit, abandonAt⟩] }
  | (.error fault, c) =>
    { s with client := c }.conclude ⟨place, 0, method, purpose, s.clock, limit, abandonAt⟩
      (.error fault)

/-- The number of the process that a client names in a rehearsal. -/
def processId : Nat := 1

/-- Begins an act. -/
def begin_ (s : Stage) (place : Nat) : Act → Stage
  | .request method params abandonAfter =>
    s.ask place .value method params s.limit (abandonAfter.map (s.clock + ·))
  | .requestLocations method => s.ask place .locations method none s.limit none
  | .notify method params =>
    let (result, c) := s.client.notify method params
    { s with client := c }.noteResult place result
  | .sync uri text =>
    let (result, c) := s.client.sync uri text
    { s with client := c }.noteResult place result
  | .greet root deadline =>
    s.ask place .greeting "initialize" (some (Client.greeting processId root)) deadline none
  | .shutdown =>
    { s with client := s.client.beginShutdown }.ask place .farewell "shutdown" none
      Client.farewellLimit none
  | .supports pick => s.note place (.flag (s.client.supports pick))
  | .idle => s.note place .done

/-- Begins acts, each when the one before it can go no further. -/
def beginAll : Nat → List Act → Stage → Stage
  | _, [], s => s
  | place, a :: rest, s => beginAll (place + 1) rest (s.begin_ place a).settle

/-! ## Cues -/

/-- The requests among messages: those that have an id and a method. -/
def requestIds (messages : List Json) : List Json :=
  messages.filterMap fun m => if (m.get? "method").isSome then m.get? "id" else none

/-- An id as a text. -/
def idText : Json → Json
  | .num (.int i) => .str (toString i)
  | v => v

/-- Plays a cue in a step before which the server had read `before` messages. -/
def play (s : Stage) (before : Nat) : Cue → Stage
  | .reply place body idAsText =>
    match (requestIds (s.client.outgoing.messages.drop before))[place]? with
    | none => s
    | some id =>
      let id := if idAsText then idText id else id
      let message := Json.obj ([("jsonrpc", .str "2.0"), ("id", id)] ++ body)
      { s with client := s.client.feed (Rpc.frame message) }
  | .send message => { s with client := s.client.feed (Rpc.frame message) }
  | .octets octets => { s with client := s.client.feed octets }
  | .wait time => s.pass (some (s.clock + time))
  | .closeOutput => { s with client := s.client.endInput }
  | .closeInput => { s with client := { s.client with outgoing := s.client.outgoing.breakOff } }

/-- Plays cues, each when the one before it has had its effects. -/
def playAll (before : Nat) : List Cue → Stage → Stage
  | [], s => s
  | cue :: rest, s => playAll before rest (s.play before cue).settle

end Stage

/-! ## Steps -/

/-- What a step showed. -/
structure Report where
  outcomes : List Outcome
  received : List Json
  terminated : Bool
  elapsed : Nat
  notices : List Notice

/-- Goes through a step. -/
def Stage.step (s : Stage) (acts : List Act) (cues : List Cue) : Report × Stage :=
  let sent := s.client.outgoing.messages.length
  let noted := s.client.notices.length
  let t := ((beginAll 0 acts { s with outcomes := [] }).playAll sent cues).pass none
  let outcome (place : Nat) : Outcome := (t.outcomes.lookup place).getD .done
  ({ outcomes := (List.range acts.length).map outcome
     received := t.client.outgoing.messages.drop sent
     terminated := t.client.terminated
     elapsed := t.clock - s.clock
     notices := t.client.notices.drop noted }, t)

end SymbolQuery.Rehearsal
