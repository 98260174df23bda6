/-
The kinds of symbols, their numbers on the wire and their names in tables.

The numbers run from 1 to 26 in the order in which the kinds are declared. Any other
number is read as a variable.
-/
import SymbolQuery.Json.Record

set_option autoImplicit false

namespace SymbolQuery

/-- What a symbol is. -/
inductive SymbolKind
  | file | module | namespaceKind | package | classKind | method | property | field | constructor
  | enum | interface | function | variable | constant | string | number | boolean | array
  | object | key | null | enumMember | struct | event | operator | typeParameter
  deriving DecidableEq, Repr, Inhabited

namespace SymbolKind

/-- The number of a kind. -/
def code : SymbolKind → Nat
  | .file => 1
  | .module => 2
  | .namespaceKind => 3
  | .package => 4
  | .classKind => 5
  | .method => 6
  | .property => 7
  | .field => 8
  | .constructor => 9
  | .enum => 10
  | .interface => 11
  | .function => 12
  | .variable => 13
  | .constant => 14
  | .string => 15
  | .number => 16
  | .boolean => 17
  | .array => 18
  | .object => 19
  | .key => 20
  | .null => 21
  | .enumMember => 22
  | .struct => 23
  | .event => 24
  | .operator => 25
  | .typeParameter => 26

/-- The kind of a number. -/
def ofCode : Nat → SymbolKind
  | 1 => .file
  | 2 => .module
  | 3 => .namespaceKind
  | 4 => .package
  | 5 => .classKind
  | 6 => .method
  | 7 => .property
  | 8 => .field
  | 9 => .constructor
  | 10 => .enum
  | 11 => .interface
  | 12 => .function
  | 13 => .variable
  | 14 => .constant
  | 15 => .string
  | 16 => .number
  | 17 => .boolean
  | 18 => .array
  | 19 => .object
  | 20 => .key
  | 21 => .null
  | 22 => .enumMember
  | 23 => .struct
  | 24 => .event
  | 25 => .operator
  | 26 => .typeParameter
  | _ => .variable

/-- The name of a kind. -/
def text : SymbolKind → String
  | .file => "file"
  | .module => "module"
  | .namespaceKind => "namespace"
  | .package => "package"
  | .classKind => "class"
  | .method => "method"
  | .property => "property"
  | .field => "field"
  | .constructor => "constructor"
  | .enum => "enum"
  | .interface => "interface"
  | .function => "function"
  | .variable => "variable"
  | .constant => "constant"
  | .string => "string"
  | .number => "number"
  | .boolean => "boolean"
  | .array => "array"
  | .object => "object"
  | .key => "key"
  | .null => "null"
  | .enumMember => "enum_member"
  | .struct => "struct"
  | .event => "event"
  | .operator => "operator"
  | .typeParameter => "type_parameter"

/-- The number of a kind in JSON. -/
def toJson (k : SymbolKind) : Json := .ofNat k.code

/-- Reads a kind from its number. -/
def ofJson (v : Json) : Json.Decoded SymbolKind := (Json.asU32 v).map ofCode

/-- Every kind comes back from its number. -/
theorem ofCode_code (k : SymbolKind) : ofCode k.code = k := by cases k <;> rfl

end SymbolKind

end SymbolQuery
