/-
Providers written down as data.

A script lists documents, symbols, places, hover texts and hierarchies, and for each
question, or for all of one subject, how long it takes and whether it fails. What it
does not list is empty, except that a document it does not list can not be read.
-/
import SymbolQuery.Lookup.Timed

set_option autoImplicit false

namespace SymbolQuery

/-! ## Scripts -/

/-- A provider as data. -/
structure Script where
  documents : List (String × String) := []
  symbols : List (String × List Symbol) := []
  locations : List (String × List Location) := []
  hovers : List (String × HoverInfo) := []
  roots : HierarchyKind → List HierarchyItem := fun _ => []
  edges : HierarchyKind → Direction → List Edge := fun _ _ => []
  delays : List (String × Nat) := []
  failures : List (String × ServiceFault) := []

namespace Script

/-- What is listed under the line of a question, else under its subject. -/
def lookupFor {α : Type} (q : Question) (entries : List (String × α)) : Option α :=
  match entries.lookup q.line with
  | some a => some a
  | none => entries.lookup q.subject

/-- The answer to a question that does not fail. -/
def reply (s : Script) : (q : Question) → Except ServiceFault q.Reply
  | .symbols uri => .ok ((s.symbols.lookup uri).getD [])
  | .document uri =>
    match s.documents.lookup uri with
    | some text => .ok text
    | none => .error (.io "no such document")
  | .locations query _ _ => .ok ((s.locations.lookup query.label).getD [])
  | .hover _ p => .ok (s.hovers.lookup p.text)
  | .prepare kind _ _ => .ok (s.roots kind)
  | .neighbours kind direction _ => .ok (s.edges kind direction)

/-- The provider of a script. -/
def provider (s : Script) : Provider := fun q =>
  { delay := some ((lookupFor q s.delays).getD 0)
    result :=
      match lookupFor q s.failures with
      | some fault => .error fault
      | none => s.reply q }

/-! ## Reading -/

/-- Reads every field of an object under a key; nothing if the key is missing. -/
def readEntries {α : Type} (key : String) (read : Json → Json.Decoded α) (v : Json) :
    Json.Decoded (List (String × α)) :=
  match v.get? key with
  | some (.obj fields) =>
    fields.mapM fun (k, v) => (read v).map fun a => (k, a)
  | _ => .ok []

/-- Reads every item of an array under a key; nothing if the key is missing. -/
def readItems {α : Type} (key : String) (read : Json → Json.Decoded α) (v : Json) :
    Json.Decoded (List α) :=
  match v.get? key with
  | some items => Json.asList read items
  | none => .ok []

/-- The record type of edges. -/
def edgeRecord : Json.RecordType := ⟨"struct Edge", 2⟩

/-- Reads an edge. -/
def readEdge : Json → Json.Decoded Edge :=
  Json.readRecord edgeRecord fun s =>
    Edge.mk <$> Json.required edgeRecord s 0 "counterpart" HierarchyItem.ofJson
      <*> Json.defaulted edgeRecord s 1 "callSites" (Json.asList Range.ofJson) []

/-- The text under a key; the empty text if there is none. -/
def textOf (key : String) (v : Json) : String := ((v.get? key).bind Json.text?).getD ""

/-- Reads a failure. -/
def readFault (v : Json) : Json.Decoded ServiceFault :=
  let message := textOf "message" v
  let code := ((v.get? "code").bind Json.int?).getD 0
  match textOf "kind" v with
  | "ServerStart" => .ok (.serverStart message)
  | "NotConnected" => .ok .notConnected
  | "ServerNotInstalled" => .ok (.serverNotInstalled (textOf "name" v) (textOf "hint" v))
  | "UnsupportedLanguage" => .ok (.unsupportedLanguage message)
  | "ServerTerminated" =>
    match v.get? "language" with
    | some l => (Language.ofJson l).map ServiceFault.serverTerminated
    | none => .error (.missingField "language")
  | "Timeout" => .ok (.timeout message)
  | "RequestCancelled" => .ok .requestCancelled
  | "ServerError" => .ok (.serverError code message)
  | "Friendly" => .ok (ServiceFault.friendly code message)
  | "Protocol" => .ok (.protocol message)
  | "Io" => .ok (.io message)
  | other => .error (.unknownVariant other [])

/-- Reads a script. -/
def ofJson (v : Json) : Json.Decoded Script := do
  let documents ← readEntries "documents" Json.asText v
  let symbols ← readEntries "symbols" (Json.asList Symbol.ofJson) v
  let locations ← readEntries "locations" (Json.asList Location.ofJson) v
  let hovers ← readEntries "hovers" HoverInfo.ofJson v
  let callRoots ← readItems "callRoots" HierarchyItem.ofJson v
  let typeRoots ← readItems "typeRoots" HierarchyItem.ofJson v
  let incoming ← readItems "incoming" readEdge v
  let outgoing ← readItems "outgoing" readEdge v
  let supertypes ← readItems "supertypes" HierarchyItem.ofJson v
  let subtypes ← readItems "subtypes" HierarchyItem.ofJson v
  let delays ← readEntries "delays" Json.asU64 v
  let failures ← readEntries "failures" readFault v
  let bare (i : HierarchyItem) : Edge := { counterpart := i }
  return {
    documents := documents
    symbols := symbols
    locations := locations
    hovers := hovers
    roots := fun kind => match kind with
      | .call => callRoots
      | .type => typeRoots
    edges := fun kind direction => match kind, direction with
      | .call, .incoming => incoming
      | .call, .outgoing => outgoing
      | .type, .incoming => supertypes.map bare
      | .type, .outgoing => subtypes.map bare
    delays := delays
    failures := failures }

end Script

end SymbolQuery
