/-
Messages on a stream of octets.

A message is preceded by header lines and an empty line. One header counts: the one
that gives the length of the message in octets; of several the last one holds. Header
lines are compared after blanks are trimmed off both ends, so a line of blanks ends
the header too.

`readMessage` takes one message off the front of a stream that has ended. Where the
stream may still grow, `scan` says instead that more octets are needed.
-/
import SymbolQuery.Rpc.Message
import SymbolQuery.Text.Utf8

set_option autoImplicit false

namespace SymbolQuery.Rpc

/-! ## Faults -/

/-- Why no message could be taken off a stream. -/
inductive FrameFault
  /-- The stream ends where a header line should begin. -/
  | closed
  /-- The stream ends inside a message. -/
  | bodyEnds
  /-- A header line is no text. -/
  | headerNotText (fault : Text.Utf8Fault)
  | badLength (fault : Text.IntegerFault)
  | missingLength
  /-- No buffer of the announced length exists: it would be larger than memory can address. -/
  | unbufferable
  | bodyNotText (fault : Text.Utf8Fault)
  | badMessage (fault : MessageFault)

namespace FrameFault

/-- The wording of a fault. -/
def message : FrameFault → String
  | .closed => "Server closed connection"
  | .bodyEnds => "early eof"
  | .headerNotText fault => fault.message
  | .badLength fault => fault.message
  | .missingLength => "Missing Content-Length"
  | .unbufferable => "capacity overflow"
  | .bodyNotText fault => fault.message
  | .badMessage fault => fault.message

/-- Whether the stream ended too early, rather than holding something wrong. -/
def isEnd : FrameFault → Bool
  | .closed => true
  | .bodyEnds => true
  | _ => false

end FrameFault

/-! ## Header lines -/

/-- The octets up to the first line feed, that octet included, and those after it; `none` for the
rest if there is no line feed. -/
def takeLine : List UInt8 → List UInt8 × Option (List UInt8)
  | [] => ([], none)
  | b :: rest =>
    if b = 0x0A then ([b], some rest)
    else
      let (line, after) := takeLine rest
      (b :: line, after)

/-- A line is never longer than what it is taken from. -/
theorem takeLine_length {octets line rest : List UInt8}
    (h : takeLine octets = (line, some rest)) : rest.length < octets.length := by
  induction octets generalizing line with
  | nil => simp [takeLine] at h
  | cons b more ih =>
    unfold takeLine at h
    split at h
    · simp only [Prod.mk.injEq, Option.some.injEq] at h
      simp [h.2]
    · simp only [Prod.mk.injEq] at h
      have hm : takeLine more = ((takeLine more).1, some rest) := by
        rw [← h.2]
      have := ih hm
      simp only [List.length_cons]
      omega

/-- The name of the header that counts, with its colon. -/
def lengthHeader : List Char := "Content-Length:".toList

/-- What a header line says. -/
inductive HeaderLine
  | blank
  | length (n : Nat)
  | other
  deriving DecidableEq, Repr

/-- Reads a header line. -/
def readHeaderLine (line : List UInt8) : Except FrameFault HeaderLine :=
  match Text.decode line with
  | .error fault => .error (.headerNotText fault)
  | .ok chars =>
    match Text.trimChars chars with
    | [] => .ok .blank
    | trimmed =>
      match Text.dropLead? lengthHeader trimmed with
      | none => .ok .other
      | some value =>
        match Text.readUnsigned Text.max64 (Text.trimChars value) with
        | .ok n => .ok (.length n)
        | .error fault => .error (.badLength fault)

/-! ## Reading -/

/-- What looking for a message in a growing stream gives. -/
inductive Scan
  /-- A message and the octets after it. -/
  | message (m : Message) (rest : List UInt8)
  | fault (f : FrameFault)
  /-- The octets end before the message does; `atEnd` is the fault if no more follow. -/
  | incomplete (atEnd : FrameFault)

/-- The largest buffer that can be addressed. -/
def maxBuffer : Nat := 9223372036854775807

/-- Reads a message of `length` octets. -/
def scanBody (length : Nat) (octets : List UInt8) : Scan :=
  if maxBuffer < length then .fault .unbufferable
  else if octets.length < length then .incomplete .bodyEnds
  else
    match Text.decode (octets.take length) with
    | .error fault => .fault (.bodyNotText fault)
    | .ok text =>
      match Message.parseChars text with
      | .error fault => .fault (.badMessage fault)
      | .ok m => .message m (octets.drop length)

/-- Reads header lines and the message after them; `length` is the last length given. -/
def scanHeader (length : Option Nat) (octets : List UInt8) : Scan :=
  match h : takeLine octets with
  | ([], _) => .incomplete .closed
  | (line, none) =>
    -- a last line without a line feed is read where the stream ends
    match readHeaderLine line with
    | .error fault => .incomplete fault
    | .ok .blank =>
      .incomplete (match length with
        | none => .missingLength
        | some 0 => .badMessage (.notJson [] ⟨.valueEnds, [], true⟩)
        | some n => if maxBuffer < n then .unbufferable else .bodyEnds)
    | .ok _ => .incomplete .closed
  | (line, some rest) =>
    have : rest.length < octets.length := takeLine_length h
    match readHeaderLine line with
    | .error fault => .fault fault
    | .ok .blank =>
      match length with
      | none => .fault .missingLength
      | some n => scanBody n rest
    | .ok (.length n) => scanHeader (some n) rest
    | .ok .other => scanHeader length rest
termination_by octets.length

/-- Looks for a message at the front of a stream. -/
def scan (octets : List UInt8) : Scan := scanHeader none octets

/-- Takes a message off the front of a stream that has ended. -/
def readMessage (octets : List UInt8) : Except FrameFault (Message × List UInt8) :=
  match scan octets with
  | .message m rest => .ok (m, rest)
  | .fault f => .error f
  | .incomplete atEnd => .error atEnd

/-- Takes at most `fuel` messages off a stream that has ended. -/
def readUpTo : Nat → List UInt8 → List Message × Option FrameFault
  | 0, _ => ([], none)
  | fuel + 1, octets =>
    match readMessage octets with
    | .error f => ([], some f)
    | .ok (m, rest) =>
      let (more, f) := readUpTo fuel rest
      (m :: more, f)

/-- All messages of a stream that has ended, and what ended the reading. A message takes at least
one octet, so reading always ends with a fault. -/
def readStream (octets : List UInt8) : List Message × Option FrameFault :=
  readUpTo (octets.length + 1) octets

/-! ## Writing -/

/-- The octets of a text behind a header with its length. -/
def frameText (text : String) : String :=
  "Content-Length: " ++ toString text.utf8ByteSize ++ "\r\n\r\n" ++ text

/-- The octets of a JSON value as a message. -/
def frame (v : Json) : List UInt8 := Text.encode (frameText v.compact)

/-- The octets of a message. -/
def Message.frame (m : Message) : List UInt8 := Rpc.frame m.toJson

end SymbolQuery.Rpc
