/-
Lookup requests: which symbol a caller means.

A request names a document and, in it, a position or a symbol name. On the wire it
has two shapes, one nested as in the language server protocol and one flat. Both
become the same request, and `target` says what is to be looked up or why nothing
can be.
-/
import SymbolQuery.Position

set_option autoImplicit false

namespace SymbolQuery

/-! ## Requests and targets -/

/-- What a caller gave. -/
structure LookupRequest where
  uri : String := ""
  line : Option Nat := none
  character : Option Nat := none
  name : Option String := none
  deriving DecidableEq, Repr, Inhabited

/-- What is to be looked up. A name may come with a position that the caller had in mind. -/
inductive LookupTarget
  | position (p : Position)
  | name (name : String) (hint : Option Position)
  deriving DecidableEq, Repr

/-- Why a request can not be answered at all. -/
inductive MalformedInput
  | missingUri
  | missingTarget
  | unrecognizedShape (fault : Json.ReadFault)
  deriving DecidableEq, Repr

namespace MalformedInput

/-- The reason alone. -/
def reason : MalformedInput → String
  | .missingUri => "Request is missing a document uri"
  | .missingTarget => "Provide either both line and character, or a non-empty symbol name"
  | .unrecognizedShape fault => s!"Unrecognized request shape: {fault.message}"

/-- The wording of the error. -/
def message (m : MalformedInput) : String := s!"Malformed input: {m.reason}"

end MalformedInput

namespace LookupRequest

/-- A request for a position. -/
def atPosition (uri : String) (p : Position) : LookupRequest :=
  { uri := uri, line := some p.line, character := some p.character }

/-- A request for a name. -/
def named (uri name : String) : LookupRequest := { uri := uri, name := some name }

/-- The request with a position added. -/
def withHint (r : LookupRequest) (p : Position) : LookupRequest :=
  { r with line := some p.line, character := some p.character }

/-- The position of a request that gives both coordinates. -/
def position? (r : LookupRequest) : Option Position :=
  match r.line, r.character with
  | some line, some character => some ⟨line, character⟩
  | _, _ => none

/-- The name of a request, unless it is blank. -/
def name? (r : LookupRequest) : Option String := r.name.filter fun n => !Text.isBlankText n

/-- What the request asks for: its name, else its position. -/
def target (r : LookupRequest) : Except MalformedInput LookupTarget :=
  if Text.isBlankText r.uri then .error .missingUri
  else
    match r.name?, r.position? with
    | some name, hint => .ok (.name name hint)
    | none, some p => .ok (.position p)
    | none, none => .error .missingTarget

/-! ## JSON -/

/-- The JSON object of a request. -/
def toJson (r : LookupRequest) : Json :=
  .obj (("uri", .str r.uri) :: Json.field? "line" (r.line.map .ofNat)
    ++ Json.field? "character" (r.character.map .ofNat) ++ Json.field? "name" (r.name.map .str))

/-- The record type of requests. -/
def record : Json.RecordType := ⟨"struct LookupRequest", 4⟩

/-- Reads a request written with its own fields. -/
def ofFields : Json → Json.Decoded LookupRequest :=
  Json.readRecord record fun s =>
    LookupRequest.mk <$> Json.required record s 0 "uri" Json.asText
      <*> Json.optionalTail record s 1 ["line"] Json.asU32
      <*> Json.optionalTail record s 2 ["character"] Json.asU32
      <*> Json.optionalTail record s 3 ["name"] Json.asText

end LookupRequest

/-! ## The two shapes -/

/-- A request as it arrives: nested or flat. -/
inductive WireRequest
  | nested (uri : String) (position : Position) (name : Option String)
  | flat (uri : String) (line character : Option Nat) (name : Option String)
  deriving DecidableEq, Repr

namespace WireRequest

/-- The record type of a document reference. -/
def documentRecord : Json.RecordType := ⟨"struct TextDocumentRef", 1⟩

/-- Reads a document reference. -/
def readDocument : Json → Json.Decoded String :=
  Json.readRecord documentRecord fun s =>
    id <$> Json.required documentRecord s 0 "uri" Json.asText

/-- The record type of the nested shape. -/
def nestedRecord : Json.RecordType := ⟨"struct NestedLookup", 3⟩

/-- Reads the nested shape. -/
def readNested : Json → Json.Decoded WireRequest :=
  Json.readRecord nestedRecord fun s =>
    WireRequest.nested <$> Json.required nestedRecord s 0 "textDocument" readDocument
      <*> Json.required nestedRecord s 1 "position" Position.ofJson
      <*> Json.optionalTail nestedRecord s 2 ["symbolName"] Json.asText

/-- The record type of the flat shape. -/
def flatRecord : Json.RecordType := ⟨"struct FlatLookup", 4⟩

/-- Reads the flat shape. -/
def readFlat : Json → Json.Decoded WireRequest :=
  Json.readRecord flatRecord fun s =>
    WireRequest.flat <$> Json.required flatRecord s 0 "uri" Json.asText
      <*> Json.optionalTail flatRecord s 1 ["line"] Json.asU32
      <*> Json.optionalTail flatRecord s 2 ["character"] Json.asU32
      <*> Json.optionalTail flatRecord s 3 ["symbolName", "name"] Json.asText

/-- Reads a request in either shape. -/
def ofJson : Json → Json.Decoded WireRequest :=
  Json.firstOf "WireLookupRequest" [readNested, readFlat]

/-- The request that a shape stands for. -/
def toRequest : WireRequest → LookupRequest
  | .nested uri position name =>
    { uri := uri, line := some position.line, character := some position.character, name := name }
  | .flat uri line character name =>
    { uri := uri, line := line, character := character, name := name }

/-- The JSON object of a shape. -/
def toJson : WireRequest → Json
  | .nested uri position name =>
    .obj ([("textDocument", .obj [("uri", .str uri)]), ("position", position.toJson)]
      ++ Json.field? "symbolName" (name.map .str))
  | .flat uri line character name =>
    .obj (("uri", .str uri) :: Json.field? "line" (line.map .ofNat)
      ++ Json.field? "character" (character.map .ofNat)
      ++ Json.field? "symbolName" (name.map .str))

end WireRequest

/-- Reads a request in either shape. -/
def LookupRequest.ofJson (v : Json) : Except MalformedInput LookupRequest :=
  match WireRequest.ofJson v with
  | .ok w => .ok w.toRequest
  | .error fault => .error (.unrecognizedShape fault)

end SymbolQuery
