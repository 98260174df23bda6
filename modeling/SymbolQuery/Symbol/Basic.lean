/-
The symbols of a document: named ranges, each with the symbols inside it.

A list of symbols is a forest. `walk` lists it from the outside in, every symbol
before those inside it, and tells for each which symbol it stands in.
-/
import SymbolQuery.Position
import SymbolQuery.Symbol.Kind

set_option autoImplicit false

namespace SymbolQuery

/-- A named range of a document. `selectionRange` is where its name stands. -/
structure Symbol where
  name : String
  kind : SymbolKind
  range : Range
  selectionRange : Range
  detail : Option String := none
  children : List Symbol := []
  deriving Repr, Inhabited

namespace Symbol

/-- Where a server is asked about the symbol. -/
def anchor (s : Symbol) : Position := s.selectionRange.start

/-! ## The forest as a list -/

mutual

/-- The symbols of a tree, each with the symbol that it stands in. -/
def walkTree (parent : Option Symbol) : Symbol → List (Symbol × Option Symbol)
  | ⟨name, kind, range, selectionRange, detail, children⟩ =>
    let s : Symbol := ⟨name, kind, range, selectionRange, detail, children⟩
    (s, parent) :: walkForest (some s) children

/-- The symbols of a forest, each with the symbol that it stands in. -/
def walkForest (parent : Option Symbol) : List Symbol → List (Symbol × Option Symbol)
  | [] => []
  | s :: rest => walkTree parent s ++ walkForest parent rest

end

/-- The symbols of a forest from the outside in, each with the symbol that it stands in. -/
def walk (forest : List Symbol) : List (Symbol × Option Symbol) := walkForest none forest

/-- The symbols of a forest from the outside in. -/
def flatten (forest : List Symbol) : List Symbol := (walk forest).map Prod.fst

/-! ## JSON -/

mutual

/-- The JSON object of a symbol. -/
def toJson : Symbol → Json
  | ⟨name, kind, range, selectionRange, detail, children⟩ =>
    .obj ([("name", .str name), ("kind", kind.toJson), ("range", range.toJson),
        ("selectionRange", selectionRange.toJson)]
      ++ Json.field? "detail" (detail.map .str)
      ++ (match children with
        | [] => []
        | c :: rest => [("children", .arr (toJsonList (c :: rest)))]))

/-- The JSON objects of symbols. -/
def toJsonList : List Symbol → List Json
  | [] => []
  | s :: rest => toJson s :: toJsonList rest

end

/-- The record type of symbols. -/
def record : Json.RecordType := ⟨"struct Symbol", 6⟩

/-- Reads a symbol of at most the given nesting. -/
def ofJsonUpTo : Nat → Json → Json.Decoded Symbol
  | 0 => fun v => .error (.wrongType v.found record.name)
  | levels + 1 =>
    Json.readRecord record fun s =>
      Symbol.mk <$> Json.required record s 0 "name" Json.asText
        <*> Json.required record s 1 "kind" SymbolKind.ofJson
        <*> Json.required record s 2 "range" Range.ofJson
        <*> Json.required record s 3 "selectionRange" Range.ofJson
        <*> Json.optionalTail record s 4 ["detail"] Json.asText
        <*> Json.defaulted record s 5 "children" (Json.asList (ofJsonUpTo levels)) []

/-- Reads a symbol; a value nested `n` deep holds symbols nested at most that deep. -/
def ofJson (v : Json) : Json.Decoded Symbol := ofJsonUpTo (v.depth + 1) v

end Symbol

end SymbolQuery
