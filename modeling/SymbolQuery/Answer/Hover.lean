/-
What a server answers to a question for a hover text: marked-up text, one marked
string, or a list of them.
-/
import SymbolQuery.Location

set_option autoImplicit false

namespace SymbolQuery.Answer

/-! ## Contents -/

/-- A plain string, or a piece of code with its language. -/
inductive MarkedString
  | plain (text : String)
  | code (language value : String)
  deriving DecidableEq, Repr, Inhabited

namespace MarkedString

/-- The text of a string, without its language. -/
def value : MarkedString → String
  | .plain text => text
  | .code _ value => value

/-- The JSON value of a string. -/
def toJson : MarkedString → Json
  | .plain text => .str text
  | .code language value => .obj [("language", .str language), ("value", .str value)]

/-- The record type of pieces of code; they are written as objects only. -/
def record : Json.RecordType := ⟨"struct variant MarkedString::LanguageString", 2⟩

/-- Reads a string. -/
def ofJson : Json → Json.Decoded MarkedString :=
  Json.firstOf "MarkedString"
    [fun v => (Json.asText v).map MarkedString.plain,
      Json.readNamed record fun s =>
        MarkedString.code <$> Json.required record s 0 "language" Json.asText
          <*> Json.required record s 1 "value" Json.asText]

end MarkedString

/-- The contents of a hover text. -/
inductive HoverContents
  | markup (kind value : String)
  | array (items : List MarkedString)
  | single (item : MarkedString)
  deriving DecidableEq, Repr, Inhabited

namespace HoverContents

/-- The name of a form. -/
def shape : HoverContents → String
  | .markup _ _ => "Markup"
  | .array _ => "Array"
  | .single _ => "Single"

/-- The plain text; the pieces of a list that are not blank are set apart by an empty line. -/
def text : HoverContents → String
  | .markup _ value => value
  | .single item => item.value
  | .array items =>
    String.intercalate "\n\n" ((items.map MarkedString.value).filter fun v => !Text.isBlankText v)

/-- The JSON value of contents. -/
def toJson : HoverContents → Json
  | .markup kind value => .obj [("kind", .str kind), ("value", .str value)]
  | .array items => .arr (items.map MarkedString.toJson)
  | .single item => item.toJson

/-- The record type of marked-up text. -/
def markupRecord : Json.RecordType := ⟨"struct MarkupContent", 2⟩

/-- Reads contents. -/
def ofJson : Json → Json.Decoded HoverContents :=
  Json.firstOf "HoverContents"
    [Json.readRecord markupRecord fun s =>
        HoverContents.markup <$> Json.required markupRecord s 0 "kind" Json.asText
          <*> Json.required markupRecord s 1 "value" Json.asText,
      fun v => (Json.asList MarkedString.ofJson v).map HoverContents.array,
      fun v => (MarkedString.ofJson v).map HoverContents.single]

end HoverContents

/-! ## The whole answer -/

/-- A hover answer. -/
structure Hover where
  contents : HoverContents
  range : Option Range := none
  deriving DecidableEq, Repr, Inhabited

namespace Hover

/-- The JSON object of an answer. -/
def toJson (h : Hover) : Json :=
  .obj (("contents", h.contents.toJson) :: Json.field? "range" (h.range.map Range.toJson))

/-- The record type of hover answers. -/
def record : Json.RecordType := ⟨"struct Hover", 2⟩

/-- Reads an answer. -/
def ofJson : Json → Json.Decoded Hover :=
  Json.readRecord record fun s =>
    Hover.mk <$> Json.required record s 0 "contents" HoverContents.ofJson
      <*> Json.optional record s 1 "range" Range.ofJson

/-- The hover text of an answer, without blanks around it; a blank text counts as none. -/
def toInfo? (h : Hover) : Option HoverInfo :=
  if Text.isBlankText h.contents.text then none
  else some { contents := Text.trim h.contents.text, range := h.range }

end Hover

end SymbolQuery.Answer
