/-
Call and type hierarchies, one level around a root.

An item is what a server names in a hierarchy; it is sent back unchanged when the
server is asked about its neighbours, with the opaque value that came with it. An
edge leads to a neighbour and, in a call hierarchy, holds the places of the calls.
-/
import SymbolQuery.Position
import SymbolQuery.Symbol.Kind

set_option autoImplicit false

namespace SymbolQuery

/-! ## Kinds -/

/-- Which hierarchy is meant. -/
inductive HierarchyKind
  | call
  | type
  deriving DecidableEq, Repr, Inhabited

namespace HierarchyKind

/-- The name of a kind. -/
def text : HierarchyKind → String
  | .call => "call"
  | .type => "type"

/-- The JSON text of a kind. -/
def toJson (k : HierarchyKind) : Json := .str k.text

/-- Reads a kind. -/
def ofJson : Json → Json.Decoded HierarchyKind :=
  Json.asVariant [("call", .call), ("type", .type)]

end HierarchyKind

/-! ## Items -/

/-- A function, method or type in a hierarchy. -/
structure HierarchyItem where
  name : String
  kind : SymbolKind
  uri : String
  range : Range
  selectionRange : Range
  detail : Option String := none
  data : Option Json := none
  deriving Repr, Inhabited

namespace HierarchyItem

/-- The JSON object of an item. -/
def toJson (i : HierarchyItem) : Json :=
  .obj ([("name", .str i.name), ("kind", i.kind.toJson), ("uri", .str i.uri),
      ("range", i.range.toJson), ("selectionRange", i.selectionRange.toJson)]
    ++ Json.field? "detail" (i.detail.map .str) ++ Json.field? "data" i.data)

/-- The record type of items. -/
def record : Json.RecordType := ⟨"struct HierarchyItem", 7⟩

/-- Reads an item. -/
def ofJson : Json → Json.Decoded HierarchyItem :=
  Json.readRecord record fun s =>
    HierarchyItem.mk <$> Json.required record s 0 "name" Json.asText
      <*> Json.required record s 1 "kind" SymbolKind.ofJson
      <*> Json.required record s 2 "uri" Json.asText
      <*> Json.required record s 3 "range" Range.ofJson
      <*> Json.required record s 4 "selectionRange" Range.ofJson
      <*> Json.optionalTail record s 5 ["detail"] Json.asText
      <*> Json.optionalTail record s 6 ["data"] Json.asValue

end HierarchyItem

/-! ## Edges and results -/

/-- A neighbour in a hierarchy, and where it calls or is called. -/
structure Edge where
  counterpart : HierarchyItem
  callSites : List Range := []
  deriving Repr, Inhabited

namespace Edge

/-- The JSON object of an edge. -/
def toJson (e : Edge) : Json :=
  .obj [("counterpart", e.counterpart.toJson), ("callSites", .arr (e.callSites.map Range.toJson))]

end Edge

/-- The neighbours of a root on both sides. -/
structure HierarchyResult where
  kind : HierarchyKind
  root : Option HierarchyItem := none
  incoming : List Edge := []
  outgoing : List Edge := []
  deriving Repr, Inhabited

namespace HierarchyResult

/-- The result where nothing was found. -/
def empty (kind : HierarchyKind) : HierarchyResult := { kind := kind }

/-- Whether there is no neighbour on either side. -/
def isEmpty (r : HierarchyResult) : Bool := r.incoming.isEmpty && r.outgoing.isEmpty

/-- The JSON object of a result. -/
def toJson (r : HierarchyResult) : Json :=
  .obj [("kind", r.kind.toJson),
    ("root", match r.root with | some i => i.toJson | none => .null),
    ("incoming", .arr (r.incoming.map Edge.toJson)),
    ("outgoing", .arr (r.outgoing.map Edge.toJson))]

end HierarchyResult

/-- The root of a result together with its edges. -/
structure HierarchyNode where
  item : HierarchyItem
  edgesIn : List Edge
  edgesOut : List Edge
  deriving Repr, Inhabited

/-- The node of a result that has a root. -/
def HierarchyResult.node? (r : HierarchyResult) : Option HierarchyNode :=
  r.root.map fun item => ⟨item, r.incoming, r.outgoing⟩

/-- The JSON object of a node. -/
def HierarchyNode.toJson (n : HierarchyNode) : Json :=
  .obj [("item", n.item.toJson), ("edgesIn", .arr (n.edgesIn.map Edge.toJson)),
    ("edgesOut", .arr (n.edgesOut.map Edge.toJson))]

end SymbolQuery
