/-
Locations, a range in a named document, and hover texts, what a server says about a
range.
-/
import SymbolQuery.Position

set_option autoImplicit false

namespace SymbolQuery

/-! ## Locations -/

/-- A range in the document `uri`. -/
structure Location where
  uri : String
  range : Range
  deriving DecidableEq, Repr, Inhabited

namespace Location

/-- The text `uri:range`. -/
def text (l : Location) : String := s!"{l.uri}:{l.range.text}"

/-- The JSON object of a location. -/
def toJson (l : Location) : Json := .obj [("uri", .str l.uri), ("range", l.range.toJson)]

/-- The record type of locations. -/
def record : Json.RecordType := ⟨"struct Location", 2⟩

/-- Reads a location. -/
def ofJson : Json → Json.Decoded Location :=
  Json.readRecord record fun s =>
    Location.mk <$> Json.required record s 0 "uri" Json.asText
      <*> Json.required record s 1 "range" Range.ofJson

end Location

/-! ## Hover texts -/

/-- A hover text, with the range it describes when that is known. -/
structure HoverInfo where
  contents : String := ""
  range : Option Range := none
  deriving DecidableEq, Repr, Inhabited

namespace HoverInfo

/-- The JSON object of a hover text. -/
def toJson (h : HoverInfo) : Json :=
  .obj (("contents", .str h.contents) :: Json.field? "range" (h.range.map Range.toJson))

/-- The record type of hover texts. -/
def record : Json.RecordType := ⟨"struct HoverInfo", 2⟩

/-- Reads a hover text. -/
def ofJson : Json → Json.Decoded HoverInfo :=
  Json.readRecord record fun s =>
    HoverInfo.mk <$> Json.required record s 0 "contents" Json.asText
      <*> Json.optionalTail record s 1 ["range"] Range.ofJson

end HoverInfo

end SymbolQuery
