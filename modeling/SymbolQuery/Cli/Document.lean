/-
From what stands on the command line to a request or a document.

A text that begins with a brace is a request in JSON. Any other is a reference, whose
file has to exist and is named by its real path.
-/
import SymbolQuery.Cli.Reference
import SymbolQuery.Files
import SymbolQuery.Json.Parser
import SymbolQuery.Request
import SymbolQuery.Uri

set_option autoImplicit false

namespace SymbolQuery.Cli

/-- Where a program runs: its files, its current directory and the root of the project. -/
structure Place where
  files : Files
  directory : String
  root : String

/-- Why a text names no document or request. -/
inductive DocumentFault
  | reference (fault : Reference.Fault)
  | fileNotFound (path : String)
  | notJson
  | malformed (e : MalformedInput)
  deriving DecidableEq, Repr

/-- The wording of a fault. -/
def DocumentFault.message : DocumentFault → String
  | .reference fault => fault.message
  | .fileNotFound path => s!"File not found: {path}"
  | .notJson => "Request is not valid JSON"
  | .malformed e => e.message

/-- The identifier of an existing file. -/
def documentUri (p : Place) (path : String) : Except DocumentFault String :=
  match p.files.realPath path with
  | .ok real => .ok (Uri.ofPath real)
  | .error _ => .error (.fileNotFound path)

/-- The request of a reference. -/
def requestOf (p : Place) (r : Reference) : Except DocumentFault LookupRequest :=
  (documentUri p (Path.join p.root r.file)).map fun uri =>
    { uri := uri
      line := r.position.map Position.line
      character := r.position.map Position.character
      name := r.name }

/-- Reads a request in JSON; a document may be given by its path. -/
def jsonRequest (p : Place) (text : String) : Except DocumentFault LookupRequest :=
  match Json.parse text with
  | .error _ => .error .notJson
  | .ok v =>
    match LookupRequest.ofJson v with
    | .error e => .error (.malformed e)
    | .ok r =>
      if Text.contains r.uri "://" then .ok r
      else .ok { r with uri := Uri.ofPath (Path.join p.directory r.uri) }

/-- Reads a request: JSON, or a reference. -/
def readRequest (p : Place) (input : String) : Except DocumentFault LookupRequest :=
  let trimmed := Text.trim input
  if trimmed.toList.head? == some '\x7b' then jsonRequest p trimmed
  else
    match Reference.parse input with
    | .error fault => .error (.reference fault)
    | .ok r => requestOf p r

/-- Reads a document: an identifier, or a file. -/
def readDocument (p : Place) (input : String) : Except DocumentFault String :=
  let trimmed := Text.trim input
  if Text.contains trimmed "://" then .ok trimmed
  else documentUri p (Path.join p.root trimmed)

end SymbolQuery.Cli
