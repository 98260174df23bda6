/-
A client of one language server.

Requests go out under numbers. An answer comes back under the number of its request,
in any order; it is handed to the one who waits for it, and the number is forgotten.
A number is also forgotten when its waiter gives up, and then the server is told; and
all of them are when the stream of the server ends.

Each operation here is one step that nothing interrupts. What happens in between, such
as the wait for an answer, belongs to those who call them.
-/
import SymbolQuery.Client.Documents
import SymbolQuery.Client.Greeting
import SymbolQuery.Client.Notice
import SymbolQuery.Client.Outgoing

set_option autoImplicit false

namespace SymbolQuery

/-- The state of a client. -/
structure Client where
  language : Language
  outgoing : Outgoing := {}
  /-- The number of the next request. Here numbers have no bound; a counter of 64 bits gives the
  same ones to the first `2 ^ 64 - 1` requests, and repeats itself behind them. -/
  nextId : Nat := 1
  /-- The numbers of the requests that wait for an answer, the oldest first. -/
  pending : List Nat := []
  /-- Responses that were handed out and that their waiters have not yet looked at. -/
  replies : List (Nat × Rpc.Response) := []
  documents : Documents := []
  /-- What the server can do, once it has said so. -/
  capabilities : Option Answer.Capabilities := none
  /-- Set when the stream of the server has ended. -/
  terminated : Bool := false
  /-- Set when the client is about to hang up. -/
  shuttingDown : Bool := false
  /-- Whether the stream of the server is still read. -/
  listening : Bool := true
  /-- Octets of the server that make no whole message yet. -/
  unread : List UInt8 := []
  notices : List Notice := []
  deriving Inhabited

namespace Client

/-! ## Sending -/

/-- Writes a message. -/
def send (c : Client) (message : Json) : Except ServiceFault Unit × Client :=
  let (result, o) := c.outgoing.write message
  (result, { c with outgoing := o })

/-- A message goes out whole where the way to the server is intact. -/
theorem send_of_intact {c : Client} (h : c.outgoing.channel = .intact) (message : Json) :
    c.send message
      = (.ok (), { c with
          outgoing := c.outgoing.writePart message (Writing.size ⟨message, 0⟩) }) := by
  rw [send, Outgoing.write_of_intact h]

/-- A message that can not be sent changes nothing. -/
theorem send_of_fault {c : Client} {fault : ServiceFault}
    (h : c.outgoing.channel.fault? = some fault) (message : Json) :
    c.send message = (.error fault, c) := by
  rw [send, Outgoing.write_of_fault h]

/-- Sends a notification. -/
def notify (c : Client) (method : String) (params : Option Json) :
    Except ServiceFault Unit × Client :=
  c.send (Rpc.Notification.toJson { method := method, params := params })

/-- Sees to it that the server knows a text of a document. -/
def sync (c : Client) (uri text : String) : Except ServiceFault Unit × Client :=
  match c.documents.news uri text with
  | none => (.ok (), c)
  | some news =>
    let (result, c) := c.send (news.notification c.language.id).toJson
    (result, { c with documents := c.documents.note news result.isOk })

/-! ## Requests that wait -/

/-- Takes the next number for a request. -/
def takeNumber (c : Client) : Nat × Client := (c.nextId, { c with nextId := c.nextId + 1 })

/-- A request waits under its number from now on. -/
def enlist (c : Client) (id : Nat) : Client := { c with pending := c.pending ++ [id] }

/-- Takes the next number for a request, which waits from now on. -/
def register (c : Client) : Nat × Client :=
  let (id, c) := c.takeNumber
  (id, c.enlist id)

/-- Hands a response to the one who waits under the number; without one it is dropped. -/
def settle (c : Client) (id : Nat) (r : Rpc.Response) : Client :=
  if c.pending.contains id then
    { c with pending := c.pending.erase id, replies := c.replies ++ [(id, r)] }
  else c

/-- Forgets a request that waits. -/
def forget (c : Client) (id : Nat) : Client := { c with pending := c.pending.erase id }

/-- What tells the server that a request is no longer waited for. -/
def cancelNotice (id : Nat) : Rpc.Notification :=
  { method := "$/cancelRequest", params := some (.obj [("id", .ofNat id)]) }

/-- Forgets a request that still waits and tells the server so. -/
def cancel (c : Client) (id : Nat) : Client :=
  if c.pending.contains id then ((c.forget id).send (cancelNotice id).toJson).2 else c

/-- Answers all requests that wait with an error. -/
def failAll (c : Client) (code : Int) (reason : String) : Client :=
  let failure (id : Nat) : Nat × Rpc.Response :=
    (id, .failure (.number id) { code := code, message := reason })
  { c with pending := [], replies := c.replies ++ c.pending.map failure }

/-- Takes the response that was handed to the one who waits under a number. -/
def collect (c : Client) (id : Nat) : Option (Rpc.Response × Client) :=
  (c.replies.lookup id).map fun r =>
    (r, { c with replies := c.replies.filter fun e => e.1 != id })

/-- A request as it is sent. -/
def numberedRequest (id : Nat) (method : String) (params : Option Json) : Rpc.Request :=
  { id := .number id, method := method, params := params }

/-- Begins a request: it waits under the number that is returned. To a server that is gone none is
sent, and one that could not be written waits for nothing. -/
def request (c : Client) (method : String) (params : Option Json) :
    Except ServiceFault Nat × Client :=
  if c.terminated then (.error (.serverTerminated c.language), c)
  else
    let (id, c) := c.register
    match c.send (numberedRequest id method params).toJson with
    | (.error fault, c) => (.error fault, c.cancel id)
    | (.ok _, c) => (.ok id, c)

/-- What a response means to the one who waited for it. -/
def verdict (language : Language) (r : Rpc.Response) : Except ServiceFault Json :=
  match r.outcome with
  | .ok v => .ok v
  | .error e =>
    if e.code = ServerError.serverTerminated then .error (.serverTerminated language)
    else .error (.friendly e.code e.message)

/-- The fault of a request that waited too long. -/
def lateFault (language : Language) (method : String) (limit : Nat) : ServiceFault :=
  .timeout s!"{language.id} '{method}' timed out after {limit}ms"

/-- Reads a result as what was asked for. -/
def decodeAs {α : Type} (read : Json → Json.Decoded α) (v : Json) : Except ServiceFault α :=
  match read v with
  | .ok a => .ok a
  | .error fault => .error (.protocol fault.message)

/-! ## What the server sends -/

/-- The number of settings that a server asks for. -/
def askedItems (params : Option Json) : Nat :=
  (((params.bind (·.get? "items")).bind Json.items?).getD []).length

/-- The answer to a request of the server: one empty object for each setting it asks for, null to
what needs no action, and an error to anything else. -/
def answerTo (r : Rpc.Request) : Rpc.Response :=
  match r.method with
  | "workspace/configuration" =>
    .success r.id (.arr (List.replicate (askedItems r.params) emptyObject))
  | "client/registerCapability" | "client/unregisterCapability"
  | "window/workDoneProgress/create" => .success r.id .null
  | method =>
    .failure r.id { code := ServerError.methodNotFound, message := s!"Method not found: {method}" }

/-- What a notification of the server is worth noting for: an error that it wants shown. -/
def noticeOf (language : Language) (n : Rpc.Notification) : Option Notice :=
  if n.method = "window/logMessage" ∨ n.method = "window/showMessage" then
    match n.params.map Answer.ServerMessage.ofJson with
    | some (.ok { severity := .error, text := text }) => some (.serverSaid language text)
    | _ => none
  else none

/-- Takes a message of the server. -/
def receive (c : Client) : Rpc.Message → Client
  | .response r =>
    match r.id.bind Rpc.Id.number? with
    | some id => c.settle id r
    | none => c
  | .request r => (c.send (answerTo r).toJson).2
  | .notification n => { c with notices := c.notices ++ (noticeOf c.language n).toList }

/-- The server counts as gone, since its stream can not be read on. -/
def loseServer (c : Client) (fault : Rpc.FrameFault) : Client :=
  let noted := if c.shuttingDown then [] else [Notice.unreadable c.language fault]
  { c with terminated := true, notices := c.notices ++ noted }

/-- All who wait learn that the server is gone. -/
def failTerminated (c : Client) : Client :=
  c.failAll ServerError.serverTerminated s!"{c.language.id} language server terminated"

/-- The stream of the server can not be read on: the server counts as gone, and all who wait learn
it. Where an announced length fits no buffer, reading breaks off without any of that. -/
def stopReading (c : Client) (fault : Rpc.FrameFault) : Client :=
  let c := { c with listening := false }
  match fault with
  | .unbufferable => c
  | _ => (c.loseServer fault).failTerminated

/-- Takes at most the given number of messages off what has been sent. -/
def readUpTo : Nat → Client → Client
  | 0, c => c
  | fuel + 1, c =>
    match Rpc.scan c.unread with
    | .message m rest => readUpTo fuel ({ c with unread := rest }.receive m)
    | .fault fault => c.stopReading fault
    | .incomplete _ => c

/-- Takes octets of the server. A message has at least one octet, so all whole messages are read. -/
def feed (c : Client) (octets : List UInt8) : Client :=
  if c.listening then
    let unread := c.unread ++ octets
    readUpTo (unread.length + 1) { c with unread := unread }
  else c

/-- The stream of the server ends. -/
def endInput (c : Client) : Client :=
  if c.listening then
    match Rpc.readMessage c.unread with
    | .error fault => c.stopReading fault
    | .ok _ => c
  else c

/-! ## Beginning and end -/

/-- Notes what the server can do and tells it that the client is ready. -/
def welcome (c : Client) (h : Answer.Handshake) : Except ServiceFault Unit × Client :=
  { c with capabilities := some h.capabilities }.notify "initialized" (some emptyObject)

/-- Whether the server has a capability; one that has not said what it can do may have any. -/
def supports (c : Client) (pick : Answer.Capabilities → Option Json) : Bool :=
  match c.capabilities with
  | some known => Answer.Capabilities.supports (pick known)
  | none => true

/-- How long a server may take to answer that it is about to end, in milliseconds. -/
def farewellLimit : Nat := 2000

/-- The client is about to hang up. -/
def beginShutdown (c : Client) : Client := { c with shuttingDown := true }

/-- The client hangs up; who still waits learns that it was cancelled. -/
def hangUp (c : Client) : Client :=
  { c with outgoing := c.outgoing.close }.failAll ServerError.requestCancelled "Server shutdown"

/-- The end of a shutdown: a server that answered is told to leave, and the client hangs up. -/
def finishShutdown (c : Client) (answered : Bool) : Client :=
  (if answered then (c.notify "exit" none).2 else c).hangUp

end Client

end SymbolQuery
