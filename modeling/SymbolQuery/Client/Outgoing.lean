/-
The octets that a client sends to its server.

A message is written as one frame, and a frame may go out in pieces: whoever writes it
starts it, delivers some octets at a time, and lets go of the channel when it is done
or gives up. What the server has been sent is the concatenation of the delivered parts,
in the order in which the writes began.
-/
import SymbolQuery.Fault
import SymbolQuery.Rpc.Frame

set_option autoImplicit false

namespace SymbolQuery

/-! ## One write -/

/-- A message on its way, of whose frame some octets have been delivered. -/
structure Writing where
  message : Json
  delivered : Nat := 0
  deriving Repr, Inhabited

namespace Writing

/-- How many octets the frame of a message has. -/
def size (w : Writing) : Nat := (Rpc.frameText w.message.compact).utf8ByteSize

/-- The delivered octets. -/
def octets (w : Writing) : List UInt8 := (Rpc.frame w.message).take w.delivered

/-- Whether the whole frame has been delivered. -/
def isWhole (w : Writing) : Bool := decide (w.size ≤ w.delivered)

/-- Delivers at most the given number of further octets. -/
def advance (w : Writing) (n : Nat) : Writing :=
  { w with delivered := min w.size (w.delivered + n) }

/-- A frame is out once as many octets have been delivered as it has. -/
theorem isWhole_advance (message : Json) (n : Nat) :
    (advance ⟨message, 0⟩ n).isWhole = decide (size ⟨message, 0⟩ ≤ n) := by
  have hle : size ⟨message, 0⟩ ≤ min (size ⟨message, 0⟩) (0 + n) ↔ size ⟨message, 0⟩ ≤ n := by
    omega
  exact decide_eq_decide.mpr hle

end Writing

/-! ## The channel -/

/-- The state of the way to a server. -/
inductive Channel
  | intact
  /-- The server no longer listens. -/
  | broken
  /-- The client has hung up. -/
  | closed
  deriving DecidableEq, Repr, Inhabited

/-- Why a message can not be written, if it can not. -/
def Channel.fault? : Channel → Option ServiceFault
  | .intact => none
  | .broken => some (.io "broken pipe")
  | .closed => some .notConnected

/-- All that a client has written, the first write first. -/
structure Outgoing where
  channel : Channel := .intact
  past : List Writing := []
  current : Option Writing := none
  deriving Repr, Inhabited

namespace Outgoing

/-- Begins to write a message. -/
def start (o : Outgoing) (message : Json) : Outgoing := { o with current := some ⟨message, 0⟩ }

/-- Delivers at most the given number of octets of the current write. -/
def deliver (o : Outgoing) (n : Nat) : Outgoing :=
  { o with current := o.current.map (·.advance n) }

/-- Ends the current write, whether its frame is out or not. -/
def release (o : Outgoing) : Outgoing :=
  { o with past := o.past ++ o.current.toList, current := none }

/-- The octets that the server has been sent. -/
def octets (o : Outgoing) : List UInt8 := (o.past ++ o.current.toList).flatMap Writing.octets

/-- The messages that the server has been sent whole. -/
def messages (o : Outgoing) : List Json :=
  ((o.past ++ o.current.toList).filter Writing.isWhole).map Writing.message

/-- The messages that the server has been sent at least the beginning of. -/
def begun (o : Outgoing) : List Json := (o.past ++ o.current.toList).map Writing.message

/-- Writes at most the given number of octets of a message and then lets go of the channel. -/
def writePart (o : Outgoing) (message : Json) (n : Nat) : Outgoing :=
  ((o.start message).deliver n).release

/-- Writes a whole message, or says why it can not. -/
def write (o : Outgoing) (message : Json) : Except ServiceFault Unit × Outgoing :=
  match o.channel.fault? with
  | some fault => (.error fault, o)
  | none => (.ok (), o.writePart message (Writing.size ⟨message, 0⟩))

/-- The server stops listening. -/
def breakOff (o : Outgoing) : Outgoing :=
  { o with channel := if o.channel = .closed then .closed else .broken }

/-- The client hangs up. -/
def close (o : Outgoing) : Outgoing := { o with channel := .closed }

/-! ## Between writes -/

/-- Nobody is writing. -/
def Idle (o : Outgoing) : Prop := o.current = none

theorem idle_writePart (o : Outgoing) (message : Json) (n : Nat) :
    (o.writePart message n).Idle := rfl

/-- Each write begins one message. -/
theorem begun_writePart {o : Outgoing} (ho : o.Idle) (message : Json) (n : Nat) :
    (o.writePart message n).begun = o.begun ++ [message] := by
  have hpast : (o.writePart message n).past = o.past ++ [Writing.advance ⟨message, 0⟩ n] := rfl
  have hidle : (o.writePart message n).current = none := rfl
  have hcurrent : o.current = none := ho
  rw [begun, begun, hpast, hidle, hcurrent, Option.toList_none, List.append_nil, List.append_nil,
    List.map_append]
  rfl

/-- A part of a frame is a message only if it is the whole frame. -/
theorem messages_writePart {o : Outgoing} (ho : o.Idle) (message : Json) (n : Nat) :
    (o.writePart message n).messages
      = o.messages ++ if Writing.size ⟨message, 0⟩ ≤ n then [message] else [] := by
  have hpast : (o.writePart message n).past = o.past ++ [Writing.advance ⟨message, 0⟩ n] := rfl
  have hidle : (o.writePart message n).current = none := rfl
  have hcurrent : o.current = none := ho
  simp only [messages, hpast, hidle, hcurrent, Option.toList_none, List.append_nil,
    List.filter_append, List.map_append, List.filter_cons, List.filter_nil,
    Writing.isWhole_advance]
  by_cases hn : Writing.size ⟨message, 0⟩ ≤ n
  · simp only [hn, decide_true, if_true, List.map_cons, List.map_nil]
    rfl
  · simp only [hn, decide_false, if_false, Bool.false_eq_true, List.map_nil]

/-- Once a message is out, the server has been sent all of it and nothing else. -/
theorem write_of_intact {o : Outgoing} (h : o.channel = .intact) (message : Json) :
    o.write message = (.ok (), o.writePart message (Writing.size ⟨message, 0⟩)) := by
  rw [write, h]
  rfl

/-- A message that can not be written leaves no trace. -/
theorem write_of_fault {o : Outgoing} {fault : ServiceFault} (h : o.channel.fault? = some fault)
    (message : Json) : o.write message = (.error fault, o) := by
  rw [write, h]

end Outgoing

end SymbolQuery
