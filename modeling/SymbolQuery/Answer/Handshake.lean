/-
What client and server tell each other about themselves, the messages that a server
wants shown, and how a document position is written.
-/
import SymbolQuery.Position

set_option autoImplicit false

namespace SymbolQuery.Answer

/-! ## Capabilities -/

/-- What a server can do, as far as anyone asks here. -/
structure Capabilities where
  hover : Option Json := none
  definition : Option Json := none
  references : Option Json := none
  documentSymbol : Option Json := none
  callHierarchy : Option Json := none
  typeHierarchy : Option Json := none
  deriving Repr, Inhabited

namespace Capabilities

/-- An entry stands for a capability unless it is missing, null or false. -/
def supports : Option Json → Bool
  | none => false
  | some .null => false
  | some (.bool false) => false
  | some _ => true

/-- The JSON object of capabilities. -/
def toJson (c : Capabilities) : Json :=
  .obj (Json.field? "hoverProvider" c.hover
    ++ Json.field? "definitionProvider" c.definition
    ++ Json.field? "referencesProvider" c.references
    ++ Json.field? "documentSymbolProvider" c.documentSymbol
    ++ Json.field? "callHierarchyProvider" c.callHierarchy
    ++ Json.field? "typeHierarchyProvider" c.typeHierarchy)

/-- The record type of capabilities. -/
def record : Json.RecordType := ⟨"struct ServerCapabilities", 6⟩

/-- Reads capabilities. -/
def ofJson : Json → Json.Decoded Capabilities :=
  Json.readRecord record fun s =>
    Capabilities.mk <$> Json.optional record s 0 "hoverProvider" Json.asValue
      <*> Json.optional record s 1 "definitionProvider" Json.asValue
      <*> Json.optional record s 2 "referencesProvider" Json.asValue
      <*> Json.optional record s 3 "documentSymbolProvider" Json.asValue
      <*> Json.optional record s 4 "callHierarchyProvider" Json.asValue
      <*> Json.optional record s 5 "typeHierarchyProvider" Json.asValue

end Capabilities

/-- The name of a program and its version. -/
structure ProgramInfo where
  name : String
  version : Option String := none
  deriving DecidableEq, Repr, Inhabited

namespace ProgramInfo

/-- The JSON object of a program. -/
def toJson (i : ProgramInfo) : Json :=
  .obj (("name", .str i.name) :: Json.field? "version" (i.version.map .str))

/-- The record type of programs. -/
def record : Json.RecordType := ⟨"struct ServerInfo", 2⟩

/-- Reads a program. -/
def ofJson : Json → Json.Decoded ProgramInfo :=
  Json.readRecord record fun s =>
    ProgramInfo.mk <$> Json.required record s 0 "name" Json.asText
      <*> Json.optional record s 1 "version" Json.asText

end ProgramInfo

/-- What a server answers to the first request. -/
structure Handshake where
  capabilities : Capabilities
  program : Option ProgramInfo := none
  deriving Repr, Inhabited

namespace Handshake

/-- The JSON object of an answer. -/
def toJson (h : Handshake) : Json :=
  .obj (("capabilities", h.capabilities.toJson)
    :: Json.field? "serverInfo" (h.program.map ProgramInfo.toJson))

/-- The record type of answers. -/
def record : Json.RecordType := ⟨"struct InitializeResult", 2⟩

/-- Reads an answer. -/
def ofJson : Json → Json.Decoded Handshake :=
  Json.readRecord record fun s =>
    Handshake.mk <$> Json.required record s 0 "capabilities" Capabilities.ofJson
      <*> Json.optional record s 1 "serverInfo" ProgramInfo.ofJson

end Handshake

/-! ## Messages to be shown -/

/-- How serious a message is. -/
inductive Severity
  | error
  | warning
  | info
  | log
  | debug
  deriving DecidableEq, Repr, Inhabited

namespace Severity

/-- The number of a severity. -/
def code : Severity → Nat
  | .error => 1
  | .warning => 2
  | .info => 3
  | .log => 4
  | .debug => 5

/-- The severity of a number. -/
def ofCode? : Nat → Option Severity
  | 1 => some .error
  | 2 => some .warning
  | 3 => some .info
  | 4 => some .log
  | 5 => some .debug
  | _ => none

/-- Reads a severity. -/
def ofJson (v : Json) : Json.Decoded Severity :=
  match Json.asU8 v with
  | .error e => .error e
  | .ok n =>
    match ofCode? n with
    | some s => .ok s
    | none => .error (.other s!"invalid value: {n}, expected one of: 1, 2, 3, 4, 5")

end Severity

/-- A message that a server wants logged or shown. -/
structure ServerMessage where
  severity : Severity
  text : String
  deriving DecidableEq, Repr, Inhabited

namespace ServerMessage

/-- The JSON object of a message. -/
def toJson (m : ServerMessage) : Json :=
  .obj [("type", .ofNat m.severity.code), ("message", .str m.text)]

/-- The record type of messages. -/
def record : Json.RecordType := ⟨"struct LogMessageParams", 2⟩

/-- Reads a message. -/
def ofJson : Json → Json.Decoded ServerMessage :=
  Json.readRecord record fun s =>
    ServerMessage.mk <$> Json.required record s 0 "type" Severity.ofJson
      <*> Json.required record s 1 "message" Json.asText

end ServerMessage

/-! ## Positions in documents -/

/-- A position in a named document. -/
structure DocumentPosition where
  uri : String
  position : Position
  deriving DecidableEq, Repr, Inhabited

namespace DocumentPosition

/-- The JSON object of a document reference. -/
def documentJson (uri : String) : Json := .obj [("uri", .str uri)]

/-- The JSON object of a document position. -/
def toJson (p : DocumentPosition) : Json :=
  .obj [("textDocument", documentJson p.uri), ("position", p.position.toJson)]

/-- The record type of document references. -/
def documentRecord : Json.RecordType := ⟨"struct TextDocumentIdentifier", 1⟩

/-- Reads a document reference. -/
def readDocument : Json → Json.Decoded String :=
  Json.readRecord documentRecord fun s =>
    id <$> Json.required documentRecord s 0 "uri" Json.asText

/-- The record type of document positions. -/
def record : Json.RecordType := ⟨"struct TextDocumentPositionParams", 2⟩

/-- Reads a document position. -/
def ofJson : Json → Json.Decoded DocumentPosition :=
  Json.readRecord record fun s =>
    DocumentPosition.mk <$> Json.required record s 0 "textDocument" readDocument
      <*> Json.required record s 1 "position" Position.ofJson

end DocumentPosition

end SymbolQuery.Answer
