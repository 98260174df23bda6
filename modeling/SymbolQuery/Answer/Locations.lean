/-
What a server answers to a question for places: links or plain locations, one of
them or a list.

The four forms are tried in a fixed order, so a value that fits several counts as
the first. Some servers leave out the range of a location; it is then the empty range
at the start of the document.
-/
import SymbolQuery.Location

set_option autoImplicit false

namespace SymbolQuery.Answer

/-! ## Elements -/

/-- A location as servers write it. -/
structure Place where
  uri : String
  range : Range
  deriving DecidableEq, Repr, Inhabited

namespace Place

/-- The location of a place. -/
def toLocation (p : Place) : Location := ⟨p.uri, p.range⟩

/-- The JSON object of a place. -/
def toJson (p : Place) : Json := .obj [("uri", .str p.uri), ("range", p.range.toJson)]

/-- The record type of places. -/
def record : Json.RecordType := ⟨"struct LspLocation", 2⟩

/-- Reads a place. -/
def ofJson : Json → Json.Decoded Place :=
  Json.readRecord record fun s =>
    Place.mk <$> Json.required record s 0 "uri" Json.asText
      <*> Json.defaulted record s 1 "range" Range.ofJson Range.zero

end Place

/-- A link from a range to a range in another document. -/
structure Link where
  targetUri : String
  targetRange : Range
  targetSelectionRange : Range
  originSelectionRange : Option Range := none
  deriving DecidableEq, Repr, Inhabited

namespace Link

/-- The location that a link leads to: where the name of its target stands. -/
def toLocation (l : Link) : Location := ⟨l.targetUri, l.targetSelectionRange⟩

/-- The JSON object of a link. -/
def toJson (l : Link) : Json :=
  .obj ([("targetUri", .str l.targetUri), ("targetRange", l.targetRange.toJson),
      ("targetSelectionRange", l.targetSelectionRange.toJson)]
    ++ Json.field? "originSelectionRange" (l.originSelectionRange.map Range.toJson))

/-- The record type of links. -/
def record : Json.RecordType := ⟨"struct LocationLink", 4⟩

/-- Reads a link. -/
def ofJson : Json → Json.Decoded Link :=
  Json.readRecord record fun s =>
    Link.mk <$> Json.required record s 0 "targetUri" Json.asText
      <*> Json.required record s 1 "targetRange" Range.ofJson
      <*> Json.required record s 2 "targetSelectionRange" Range.ofJson
      <*> Json.optional record s 3 "originSelectionRange" Range.ofJson

end Link

/-! ## The whole answer -/

/-- An answer in one of its four forms. -/
inductive Locations
  | links (items : List Link)
  | many (items : List Place)
  | link (item : Link)
  | single (item : Place)
  deriving DecidableEq, Repr

namespace Locations

/-- The name of a form. -/
def shape : Locations → String
  | .links _ => "Links"
  | .many _ => "Many"
  | .link _ => "Link"
  | .single _ => "Single"

/-- The JSON value of an answer. -/
def toJson : Locations → Json
  | .links items => .arr (items.map Link.toJson)
  | .many items => .arr (items.map Place.toJson)
  | .link item => item.toJson
  | .single item => item.toJson

/-- Reads an answer. -/
def ofJson : Json → Json.Decoded Locations :=
  Json.firstOf "LocationResponse"
    [fun v => (Json.asList Link.ofJson v).map Locations.links,
      fun v => (Json.asList Place.ofJson v).map Locations.many,
      fun v => (Link.ofJson v).map Locations.link,
      fun v => (Place.ofJson v).map Locations.single]

/-- The locations of an answer. -/
def toList : Locations → List Location
  | .links items => items.map Link.toLocation
  | .many items => items.map Place.toLocation
  | .link item => [item.toLocation]
  | .single item => [item.toLocation]

end Locations

end SymbolQuery.Answer
