/-
JSON values to JSON text: on one line without blanks, or spread over lines with two
spaces for each level. Fields are written in the order in which the value holds
them. In a string only the quote, the backslash and control characters are escaped.
-/
import SymbolQuery.Json.Basic
import SymbolQuery.Json.Real

set_option autoImplicit false

namespace SymbolQuery.Json

/-! ## Strings and numbers -/

/-- A lower-case hexadecimal digit. -/
def hexDigit (n : Nat) : Char := Nat.digitChar n

/-- How a character is written inside a string. -/
def escapeChar (c : Char) : List Char :=
  if c = '"' then ['\\', '"']
  else if c = '\\' then ['\\', '\\']
  else if c = '\n' then ['\\', 'n']
  else if c = '\r' then ['\\', 'r']
  else if c = '\t' then ['\\', 't']
  else if c.toNat = 8 then ['\\', 'b']
  else if c.toNat = 12 then ['\\', 'f']
  else if c.toNat < 0x20 then
    ['\\', 'u', '0', '0', hexDigit (c.toNat / 16), hexDigit (c.toNat % 16)]
  else [c]

/-- A string in quotes. -/
def quote (s : String) : String :=
  String.ofList ('"' :: s.toList.flatMap escapeChar ++ ['"'])

/-- The text of a number. -/
def Number.text : Number → String
  | .int i => toString i
  | .real bits => Real.text bits

/-! ## One line -/

mutual

/-- The text of a value on one line. -/
def compact : Json → String
  | .null => "null"
  | .bool true => "true"
  | .bool false => "false"
  | .num n => n.text
  | .str s => quote s
  | .arr items => "[" ++ compactItems true items ++ "]"
  | .obj fields => "\x7b" ++ compactFields true fields ++ "\x7d"

/-- The items with a comma before each but the first. -/
def compactItems : Bool → List Json → String
  | _, [] => ""
  | first, v :: rest => (if first then "" else ",") ++ compact v ++ compactItems false rest

/-- The fields with a comma before each but the first. -/
def compactFields : Bool → List (String × Json) → String
  | _, [] => ""
  | first, (k, v) :: rest =>
    (if first then "" else ",") ++ quote k ++ ":" ++ compact v ++ compactFields false rest

end

/-! ## Many lines -/

/-- A line break and the indentation of a level. -/
def newLine (level : Nat) : String := "\n" ++ String.ofList (List.replicate (2 * level) ' ')

mutual

/-- The text of a value over many lines; `level` is the level that it stands on. -/
def prettyAt (level : Nat) : Json → String
  | .arr [] => "[]"
  | .arr items => "[" ++ prettyItems level true items ++ newLine level ++ "]"
  | .obj [] => "\x7b\x7d"
  | .obj fields => "\x7b" ++ prettyFields level true fields ++ newLine level ++ "\x7d"
  | .null => "null"
  | .bool true => "true"
  | .bool false => "false"
  | .num n => n.text
  | .str s => quote s

/-- The items, each on lines of its own. -/
def prettyItems (level : Nat) : Bool → List Json → String
  | _, [] => ""
  | first, v :: rest =>
    (if first then "" else ",") ++ newLine (level + 1) ++ prettyAt (level + 1) v
      ++ prettyItems level false rest

/-- The fields, each on lines of its own. -/
def prettyFields (level : Nat) : Bool → List (String × Json) → String
  | _, [] => ""
  | first, (k, v) :: rest =>
    (if first then "" else ",") ++ newLine (level + 1) ++ quote k ++ ": "
      ++ prettyAt (level + 1) v ++ prettyFields level false rest

end

/-- The text of a value over many lines. -/
def pretty (v : Json) : String := prettyAt 0 v

end SymbolQuery.Json
