/-
What a server answers to a question for the symbols of a document: a forest, or the
flat list that older servers give.

A flat symbol has one range, which also stands for the range of its name, and what it
says about its container is not used.
-/
import SymbolQuery.Answer.Locations
import SymbolQuery.Symbol.Basic

set_option autoImplicit false

namespace SymbolQuery.Answer

/-! ## Nested symbols -/

/-- A symbol with the symbols inside it, as servers write it. -/
structure DocumentSymbol where
  name : String
  detail : Option String := none
  kind : Nat
  range : Range
  selectionRange : Range
  children : Option (List DocumentSymbol) := none
  deriving Repr, Inhabited

namespace DocumentSymbol

mutual

/-- The JSON object of a symbol. -/
def toJson : DocumentSymbol → Json
  | ⟨name, detail, kind, range, selectionRange, children⟩ =>
    .obj ([("name", .str name)] ++ Json.field? "detail" (detail.map .str)
      ++ [("kind", .ofNat kind), ("range", range.toJson),
        ("selectionRange", selectionRange.toJson)]
      ++ (match children with
        | none => []
        | some l => [("children", .arr (toJsonList l))]))

/-- The JSON objects of symbols. -/
def toJsonList : List DocumentSymbol → List Json
  | [] => []
  | s :: rest => toJson s :: toJsonList rest

end

/-- The record type of nested symbols. -/
def record : Json.RecordType := ⟨"struct DocumentSymbol", 6⟩

/-- Reads a symbol of at most the given nesting. -/
def ofJsonUpTo : Nat → Json → Json.Decoded DocumentSymbol
  | 0 => fun v => .error (.wrongType v.found record.name)
  | levels + 1 =>
    Json.readRecord record fun s =>
      DocumentSymbol.mk <$> Json.required record s 0 "name" Json.asText
        <*> Json.optionalTail record s 1 ["detail"] Json.asText
        <*> Json.required record s 2 "kind" Json.asU32
        <*> Json.required record s 3 "range" Range.ofJson
        <*> Json.required record s 4 "selectionRange" Range.ofJson
        <*> Json.optionalTail record s 5 ["children"] (Json.asList (ofJsonUpTo levels))

/-- Reads a symbol; a value nested `n` deep holds symbols nested at most that deep. -/
def ofJson (v : Json) : Json.Decoded DocumentSymbol := ofJsonUpTo (v.depth + 1) v

mutual

/-- The symbol that is meant; an empty detail counts as none. -/
def toSymbol : DocumentSymbol → Symbol
  | ⟨name, detail, kind, range, selectionRange, children⟩ =>
    { name := name
      kind := SymbolKind.ofCode kind
      range := range
      selectionRange := selectionRange
      detail := detail.filter fun d => !d.isEmpty
      children := match children with
        | none => []
        | some l => toSymbols l }

/-- The symbols that are meant. -/
def toSymbols : List DocumentSymbol → List Symbol
  | [] => []
  | s :: rest => toSymbol s :: toSymbols rest

end

end DocumentSymbol

/-! ## Flat symbols -/

/-- A symbol with its location, as older servers write it. -/
structure SymbolInformation where
  name : String
  kind : Nat
  location : Place
  containerName : Option String := none
  deriving DecidableEq, Repr, Inhabited

namespace SymbolInformation

/-- The JSON object of a symbol. -/
def toJson (s : SymbolInformation) : Json :=
  .obj ([("name", .str s.name), ("kind", .ofNat s.kind), ("location", s.location.toJson)]
    ++ Json.field? "containerName" (s.containerName.map .str))

/-- The record type of flat symbols. -/
def record : Json.RecordType := ⟨"struct SymbolInformation", 4⟩

/-- Reads a symbol. -/
def ofJson : Json → Json.Decoded SymbolInformation :=
  Json.readRecord record fun s =>
    SymbolInformation.mk <$> Json.required record s 0 "name" Json.asText
      <*> Json.required record s 1 "kind" Json.asU32
      <*> Json.required record s 2 "location" Place.ofJson
      <*> Json.optionalTail record s 3 ["containerName"] Json.asText

/-- The symbol that is meant. -/
def toSymbol (s : SymbolInformation) : Symbol :=
  { name := s.name
    kind := SymbolKind.ofCode s.kind
    range := s.location.range
    selectionRange := s.location.range }

end SymbolInformation

/-! ## The whole answer -/

/-- An answer in one of its two forms. -/
inductive Symbols
  | nested (items : List DocumentSymbol)
  | flat (items : List SymbolInformation)
  deriving Repr

namespace Symbols

/-- The name of a form. -/
def shape : Symbols → String
  | .nested _ => "Nested"
  | .flat _ => "Flat"

/-- The JSON value of an answer. -/
def toJson : Symbols → Json
  | .nested items => .arr (DocumentSymbol.toJsonList items)
  | .flat items => .arr (items.map SymbolInformation.toJson)

/-- Reads an answer. -/
def ofJson : Json → Json.Decoded Symbols :=
  Json.firstOf "DocumentSymbolResponse"
    [fun v => (Json.asList DocumentSymbol.ofJson v).map Symbols.nested,
      fun v => (Json.asList SymbolInformation.ofJson v).map Symbols.flat]

/-- The forest of an answer. -/
def toForest : Symbols → List Symbol
  | .nested items => DocumentSymbol.toSymbols items
  | .flat items => items.map SymbolInformation.toSymbol

end Symbols

end SymbolQuery.Answer
