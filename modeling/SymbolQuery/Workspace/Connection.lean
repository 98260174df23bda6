/-
A client together with the server at its other end.

The server takes each message as soon as it is sent and has answered it, if it ever
will, before the client goes on. So an answer that is not there after an exchange is
never going to come.
-/
import SymbolQuery.Client.Basic
import SymbolQuery.Workspace.ScriptedServer

set_option autoImplicit false

namespace SymbolQuery

/-- A client and its server. -/
structure Connection where
  client : Client
  server : ScriptedServer
  /-- How many messages the server has taken. -/
  heard : Nat := 0
  /-- The round in which the client learnt that its server is gone. -/
  lostIn : Option Nat := none
  deriving Inhabited

namespace Connection

/-- The server takes one message. -/
def pass (k : Connection) (m : Json) : Connection :=
  let k := { k with heard := k.heard + 1 }
  if k.server.running then
    let (sent, s) := k.server.hear m
    let c := sent.foldl (fun c m => c.feed (Rpc.frame m)) k.client
    if s.running then { k with server := s, client := c }
    else
      { k with
        server := s
        client := { c with outgoing := c.outgoing.breakOff }.endInput }
  else k

/-- The server takes all that has been sent to it. -/
def passAll (k : Connection) : Connection :=
  (k.client.outgoing.messages.drop k.heard).foldl pass k

/-- An exchange: what the client sends in answer to its server is taken too, and answered no
more. -/
def exchange (k : Connection) : Connection := k.passAll.passAll

/-- What a request has brought. -/
inductive Echo
  | come (answer : Except ServiceFault Json)
  /-- No answer will ever come to the request of this number. -/
  | silence (id : Nat)

/-- Sends a request and takes the answer to it. -/
def ask (k : Connection) (method : String) (params : Option Json) : Echo × Connection :=
  match k.client.request method params with
  | (.error fault, c) => (.come (.error fault), { k with client := c })
  | (.ok id, c) =>
    let k := { k with client := c }.exchange
    match k.client.collect id with
    | some (r, c) => (.come (Client.verdict c.language r), { k with client := c })
    | none => (.silence id, k)

/-- Gives up a request. -/
def cancel (k : Connection) (id : Nat) : Connection :=
  { k with client := k.client.cancel id }.exchange

/-- Tears the connection down without a word; the server ends. -/
def abort (k : Connection) : Connection :=
  let c := k.client.beginShutdown
  { k with
    client := { c with outgoing := c.outgoing.close }.endInput
    server := { k.server with running := false } }

/-- Whether the server has answered the first request of a client; what it can do is noted. -/
def greeted (k : Connection) : Except ServiceFault Json → Except ServiceFault Unit × Connection
  | .error fault => (.error fault, k.abort)
  | .ok v =>
    match Client.decodeAs Answer.Handshake.ofJson v with
    | .error fault => (.error fault, k.abort)
    | .ok h =>
      match k.client.welcome h with
      | (.error fault, c) => (.error fault, { k with client := c }.abort)
      | (.ok _, c) => (.ok (), { k with client := c }.exchange)

/-- Greets the server, which may take the given time. Returns the outcome, and the time after which
it is known. -/
def greet (k : Connection) (greeting : Json) (limit : Nat) :
    (Except ServiceFault Unit × Nat) × Connection :=
  match k.ask "initialize" (some greeting) with
  | (.come answer, k) =>
    let (r, k) := k.greeted answer
    ((r, 0), k)
  | (.silence id, k) =>
    ((.error (Client.lateFault k.client.language "initialize" limit), limit), (k.cancel id).abort)

/-- Shuts the connection down. Returns the time that takes. -/
def shutdown (k : Connection) : Nat × Connection :=
  let (echo, k) := { k with client := k.client.beginShutdown }.ask "shutdown" none
  let (time, answered, k) :=
    match echo with
    | .come answer => (0, answer.isOk, k)
    | .silence id => (Client.farewellLimit, false, k.cancel id)
  let k := { k with client := k.client.finishShutdown answered }.exchange
  (time, { k with server := { k.server with running := false } })

end Connection

end SymbolQuery
