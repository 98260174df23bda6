/-
Rows of a table as lines.

A row is its cells with a delimiter between them and an end mark behind the last. A
cell holds a field of which at most a given number of characters is kept; after that
backslashes, bars and line breaks are escaped, so a row is always one line and a bar
in a line always belongs to a delimiter. `decode` undoes this, up to the spelling of
line breaks.
-/
import SymbolQuery.Text.Blank
import SymbolQuery.Text.Lines

set_option autoImplicit false

namespace SymbolQuery.Table

/-! ## Writing -/

/-- What stands between cells. -/
def delimiter : List Char := [' ', '|', ' ']

/-- The last cell of every line. -/
def endMark : List Char := ['E', 'O', 'L']

/-- Escapes backslashes and bars, and writes each line break as one escape. -/
def escape : List Char → List Char
  | [] => []
  | '\\' :: rest => '\\' :: '\\' :: escape rest
  | '|' :: rest => '\\' :: '|' :: escape rest
  | '\r' :: '\n' :: rest => '\\' :: 'n' :: escape rest
  | '\r' :: rest => '\\' :: 'n' :: escape rest
  | '\n' :: rest => '\\' :: 'n' :: escape rest
  | c :: rest => c :: escape rest

/-- The cell of a field: its first `cap` characters, escaped. -/
def cell (cap : Nat) (field : List Char) : List Char := escape (field.take cap)

/-- Cells with delimiters between them. -/
def joinCells : List (List Char) → List Char
  | [] => []
  | [c] => c
  | c :: d :: rest => c ++ delimiter ++ joinCells (d :: rest)

/-- Puts the end mark behind a line. -/
def terminate (line : List Char) : List Char := line ++ delimiter ++ endMark

/-- The line of a row. -/
def encodeChars (cap : Nat) (fields : List (List Char)) : List Char :=
  terminate (joinCells (fields.map (cell cap)))

/-- The cell of a field. -/
def escapeField (cap : Nat) (field : String) : String := String.ofList (cell cap field.toList)

/-- The line of a row. -/
def encodeRow (cap : Nat) (fields : List String) : String :=
  String.ofList (encodeChars cap (fields.map String.toList))

/-- A line of its own text, not capped. -/
def noticeLine (text : String) : String := String.ofList (terminate (escape text.toList))

/-! ## Reading -/

/-- Undoes `escape`; a line break comes back as a line feed. -/
def unescape : List Char → List Char
  | [] => []
  | '\\' :: '\\' :: rest => '\\' :: unescape rest
  | '\\' :: 'n' :: rest => '\n' :: unescape rest
  | '\\' :: '|' :: rest => '|' :: unescape rest
  | c :: rest => c :: unescape rest

/-- The pieces of a line between delimiters, from left to right. -/
def splitCells : List Char → List (List Char)
  | [] => [[]]
  | ' ' :: '|' :: ' ' :: rest => [] :: splitCells rest
  | c :: rest =>
    match splitCells rest with
    | [] => [[c]]
    | piece :: more => (c :: piece) :: more

/-- A text with every line break written as a line feed. -/
def normalBreaks : List Char → List Char
  | [] => []
  | '\r' :: '\n' :: rest => '\n' :: normalBreaks rest
  | '\r' :: rest => '\n' :: normalBreaks rest
  | c :: rest => c :: normalBreaks rest

/-- The fields of a line, or `none` if its last cell is not the end mark. -/
def decode (line : List Char) : Option (List (List Char)) :=
  match (splitCells line).reverse with
  | [] => none
  | last :: cells => if last = endMark then some ((cells.reverse).map unescape) else none

/-- Whether a line ends as every line of a table does. -/
def isTerminated (line : String) : Bool :=
  (delimiter ++ endMark).reverse.isPrefixOf line.toList.reverse

end SymbolQuery.Table
