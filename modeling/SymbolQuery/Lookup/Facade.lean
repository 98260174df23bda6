/-
The lookups that callers make, each answered with a table.

A request names a position or a symbol; a name is resolved first. Where a provider
fails, is too slow or is cancelled, the answer is the empty table of its kind and a
warning is noted. Only a request that says nothing usable is an error.
-/
import SymbolQuery.Lookup.Locator
import SymbolQuery.Lookup.Preview
import SymbolQuery.Lookup.Traversal
import SymbolQuery.Table.Basic

set_option autoImplicit false

namespace SymbolQuery.Lookup

variable {m : Type → Type} [Asking m]

/-! ## Where to ask -/

/-- The position to ask about, and the symbol that stands there if the request named one. -/
structure QueryPoint where
  position : Position
  symbol : Option Symbol
  deriving Repr, Inhabited

/-- The symbol of a resolution; a miss and an ambiguous name are noted. -/
def accept (target : LookupTarget) (r : Resolution) : m (Option Symbol) :=
  match r.error?, target with
  | some text, _ => do
    Asking.warn (.notFound text)
    return none
  | none, .position _ => return r.symbol?
  | none, .name name _ =>
    if r.isUnique then return r.symbol?
    else do
      Asking.warn (.ambiguous name (r.alternativeCount + 1))
      return r.symbol?

/-- The position to ask about for a target. -/
def queryPoint (t : Timeouts) (uri : String) : LookupTarget → m (Option QueryPoint)
  | .position p => return some ⟨p, none⟩
  | .name name hint => do
    let r ← resolveTarget t.symbols uri (.name name hint)
    let s ← accept (.name name hint) r
    return s.map fun s => ⟨s.anchor, some s⟩

/-- An empty table in place of an answer; the reason is noted. -/
def degrade (kind : TableKind) (fault : CallFault) : m Table := do
  Asking.warn (.call fault)
  return Table.empty kind

/-- Runs a lookup on the target of a request. -/
def withTarget {α : Type} (request : LookupRequest) (f : LookupTarget → m α) :
    m (Except MalformedInput α) :=
  match request.target with
  | .error e => return .error e
  | .ok target => do
    let a ← f target
    return .ok a

/-! ## Places -/

/-- The deadline of a query for places. -/
def locationDeadline (t : Timeouts) : LocationQuery → Nat
  | .references => t.references
  | _ => t.definition

/-- Whether the answer to a query is sampled where it is very long. -/
def isSampled : LocationQuery → Bool
  | .references => true
  | _ => false

/-- The row of a place. -/
def locationRow (l : Location) (preview : String) : Row := [l.uri, l.range.text, preview]

/-- The table of places with the text around each. -/
def locationTable (o : OutputLimits) (query : LocationQuery) (rows : List Row) : Table :=
  if isSampled query then Table.encodeSampled o .locations rows
  else Table.encodeBounded o .locations rows

/-- The places for a target. -/
def locationsAt (c : Config) (query : LocationQuery) (uri : String) (target : LookupTarget) :
    m Table := do
  match ← queryPoint c.timeouts uri target with
  | none => return Table.empty .locations
  | some point => do
    let a ← Asking.ask (locationDeadline c.timeouts query) (.locations query uri point.position)
    match Answer.reply query.label a with
    | .error fault => degrade .locations fault
    | .ok found => do
      let visible := Table.visibleRows c.output found.length (isSampled query)
      let shown ← previews c.timeouts.preview found visible
      return locationTable c.output query (List.zipWith locationRow found shown)

/-- The places for a request. -/
def locations (c : Config) (query : LocationQuery) (request : LookupRequest) :
    m (Except MalformedInput Table) :=
  withTarget request (locationsAt c query request.uri)

/-! ## Hover texts -/

/-- The hover text at a position; empty where there is none for any reason. -/
def hoverText (c : Config) (uri : String) (p : Position) : m String := do
  match ← Asking.ask c.timeouts.hover (.hover uri p) with
  | .ok (.ok (some h)) => return h.contents
  | _ => return ""

/-- The hover text for a target. -/
def hoverAt (c : Config) (uri : String) (target : LookupTarget) : m Table := do
  match ← queryPoint c.timeouts uri target with
  | none => return Table.empty .hover
  | some point => do
    let a ← Asking.ask c.timeouts.hover (.hover uri point.position)
    match Answer.reply "hover" a with
    | .error fault => degrade .hover fault
    | .ok none => return Table.empty .hover
    | .ok (some h) => do
      let name ←
        match point.symbol with
        | some s => Pure.pure s.name
        | none => do
          let word ← wordAt c.timeouts.preview uri point.position
          Pure.pure (word.getD "")
      let range :=
        match h.range, point.symbol with
        | some r, _ => r
        | none, some s => s.selectionRange
        | none, none => Range.point point.position
      return Table.encode c.output .hover [[name, range.text, h.contents]]

/-- The hover text for a request. -/
def hover (c : Config) (request : LookupRequest) : m (Except MalformedInput Table) :=
  withTarget request (hoverAt c request.uri)

/-! ## Symbols -/

/-- How many hover texts are asked for at a time. -/
def hoverWidth : Nat := 8

/-- The row of a symbol of a document. -/
def symbolRow (entry : Symbol × Option Symbol) (hover : String) : Row :=
  let s := entry.1
  [s.name, s.kind.text, s.range.text, s.selectionRange.text,
    (entry.2.map Symbol.name).getD "", hover]

/-- The rows of symbols; those beyond the hover texts have none. -/
def symbolRows : List (Symbol × Option Symbol) → List String → List Row
  | [], _ => []
  | e :: rest, [] => symbolRow e "" :: symbolRows rest []
  | e :: rest, h :: hovers => symbolRow e h :: symbolRows rest hovers

/-- The symbols of a document, each shown one with its hover text. -/
def documentSymbolsIn (c : Config) (uri : String) : m Table := do
  match ← fetchSymbols c.timeouts.symbols uri with
  | .error fault => degrade .documentSymbols fault
  | .ok forest => do
    let walked := Symbol.walk forest
    let hovers ← Asking.window hoverWidth
      ((walked.take c.output.maxRows).map fun e => hoverText c uri e.1.anchor)
    return Table.encodeBounded c.output .documentSymbols (symbolRows walked hovers)

/-- The symbols of a document. -/
def documentSymbols (c : Config) (uri : String) : m (Except MalformedInput Table) :=
  if Text.isBlankText uri then return .error .missingUri
  else do
    let t ← documentSymbolsIn c uri
    return .ok t

/-- The row of a symbol below another. -/
def childRow (n : NestedSymbol) : Row :=
  [n.symbol.name, n.symbol.kind.text, toString n.depth, n.symbol.range.text,
    n.symbol.selectionRange.text, n.parent]

/-- The symbols below the one that a target means. -/
def childrenOf (c : Config) (uri : String) (depth : ChildDepth) (target : LookupTarget) :
    m Table := do
  let r ← resolveTarget c.timeouts.symbols uri target
  match ← accept target r with
  | none => return Table.empty .children
  | some s =>
    return Table.encodeBounded c.output .children ((s.descendants depth).map childRow)

/-- The symbols below the one that a request means. -/
def children (c : Config) (request : LookupRequest) (depth : Option ChildDepth) :
    m (Except MalformedInput Table) :=
  withTarget request (childrenOf c request.uri (depth.getD c.defaultDepth))

/-! ## Hierarchies -/

/-- The tables of both sides of a hierarchy. -/
structure HierarchyTables where
  incoming : Table
  outgoing : Table
  deriving DecidableEq, Repr, Inhabited

/-- The kinds of the tables of a hierarchy. -/
def sideKinds : HierarchyKind → TableKind × TableKind
  | .call => (.incomingCalls, .outgoingCalls)
  | .type => (.supertypes, .subtypes)

namespace HierarchyTables

/-- Two empty tables. -/
def empty (kind : HierarchyKind) : HierarchyTables :=
  ⟨Table.empty (sideKinds kind).1, Table.empty (sideKinds kind).2⟩

/-- The text of both tables with an empty line between. -/
def render (t : HierarchyTables) : String := t.incoming.render ++ "\n" ++ t.outgoing.render

/-- The JSON object of both tables. -/
def toJson (t : HierarchyTables) : Json :=
  .obj [("incoming", t.incoming.toJson), ("outgoing", t.outgoing.toJson)]

end HierarchyTables

/-- The last field of an edge's row: where it calls, or what it says of a type. -/
def edgeDetail (kind : HierarchyKind) (e : Edge) : String :=
  match kind with
  | .call => String.intercalate ", " (e.callSites.map Range.text)
  | .type => e.counterpart.detail.getD ""

/-- The row of an edge. -/
def edgeRow (kind : HierarchyKind) (e : Edge) : Row :=
  let i := e.counterpart
  [i.name, i.kind.text, i.uri, i.range.text, edgeDetail kind e]

/-- The tables of a result. -/
def hierarchyTables (o : OutputLimits) (r : HierarchyResult) : HierarchyTables :=
  ⟨Table.encodeBounded o (sideKinds r.kind).1 (r.incoming.map (edgeRow r.kind)),
    Table.encodeBounded o (sideKinds r.kind).2 (r.outgoing.map (edgeRow r.kind))⟩

/-- The hierarchy for a target. -/
def hierarchyAt (c : Config) (kind : HierarchyKind) (uri : String) (target : LookupTarget) :
    m HierarchyTables := do
  match ← queryPoint c.timeouts uri target with
  | none => return HierarchyTables.empty kind
  | some point => do
    match ← traverse c.timeouts uri point.position kind with
    | some r => return hierarchyTables c.output r
    | none => return HierarchyTables.empty kind

/-- The hierarchy for a request. -/
def hierarchy (c : Config) (kind : HierarchyKind) (request : LookupRequest) :
    m (Except MalformedInput HierarchyTables) :=
  withTarget request (hierarchyAt c kind request.uri)

end SymbolQuery.Lookup
