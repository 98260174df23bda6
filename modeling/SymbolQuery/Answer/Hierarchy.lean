/-
What a server answers to questions about call and type hierarchies.

The number of a kind is kept as it comes; it becomes a kind only where the item
becomes an item of the library.
-/
import SymbolQuery.Hierarchy

set_option autoImplicit false

namespace SymbolQuery.Answer

/-! ## Items -/

/-- An item of a hierarchy as servers write it. -/
structure HierarchyEntry where
  name : String
  kind : Nat
  uri : String
  range : Range
  selectionRange : Range
  detail : Option String := none
  data : Option Json := none
  deriving Repr, Inhabited

namespace HierarchyEntry

/-- The item that is meant. -/
def toItem (e : HierarchyEntry) : HierarchyItem :=
  { name := e.name
    kind := SymbolKind.ofCode e.kind
    uri := e.uri
    range := e.range
    selectionRange := e.selectionRange
    detail := e.detail
    data := e.data }

/-- The JSON object of an entry. -/
def toJson (e : HierarchyEntry) : Json :=
  .obj ([("name", .str e.name), ("kind", .ofNat e.kind), ("uri", .str e.uri),
      ("range", e.range.toJson), ("selectionRange", e.selectionRange.toJson)]
    ++ Json.field? "detail" (e.detail.map .str) ++ Json.field? "data" e.data)

/-- The record type of entries. -/
def record : Json.RecordType := ⟨"struct LspHierarchyItem", 7⟩

/-- Reads an entry. -/
def ofJson : Json → Json.Decoded HierarchyEntry :=
  Json.readRecord record fun s =>
    HierarchyEntry.mk <$> Json.required record s 0 "name" Json.asText
      <*> Json.required record s 1 "kind" Json.asU32
      <*> Json.required record s 2 "uri" Json.asText
      <*> Json.required record s 3 "range" Range.ofJson
      <*> Json.required record s 4 "selectionRange" Range.ofJson
      <*> Json.optionalTail record s 5 ["detail"] Json.asText
      <*> Json.optionalTail record s 6 ["data"] Json.asValue

end HierarchyEntry

/-! ## Calls -/

/-- Which side of a call hierarchy a call is on; the entry's key on the wire tells it. -/
inductive Side
  | incoming
  | outgoing
  deriving DecidableEq, Repr

/-- The key of the other function of a call. -/
def Side.key : Side → String
  | .incoming => "from"
  | .outgoing => "to"

/-- The record type of calls on a side. -/
def Side.record : Side → Json.RecordType
  | .incoming => ⟨"struct CallHierarchyIncomingCall", 2⟩
  | .outgoing => ⟨"struct CallHierarchyOutgoingCall", 2⟩

/-- A call from or to another function, with its places. -/
structure Call where
  entry : HierarchyEntry
  ranges : List Range := []
  deriving Repr, Inhabited

namespace Call

/-- The edge of a call. -/
def toEdge (c : Call) : Edge := ⟨c.entry.toItem, c.ranges⟩

/-- The JSON object of a call. -/
def toJson (side : Side) (c : Call) : Json :=
  .obj [(side.key, c.entry.toJson), ("fromRanges", .arr (c.ranges.map Range.toJson))]

/-- Reads a call. -/
def ofJson (side : Side) : Json → Json.Decoded Call :=
  Json.readRecord side.record fun s =>
    Call.mk <$> Json.required side.record s 0 side.key HierarchyEntry.ofJson
      <*> Json.defaulted side.record s 1 "fromRanges" (Json.asList Range.ofJson) []

end Call

end SymbolQuery.Answer
