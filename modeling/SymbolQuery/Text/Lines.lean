/-
The lines of a text.

A line ends at a line feed, and a carriage return directly before that line feed
belongs to the ending. A carriage return anywhere else is an ordinary character of
its line. A text that ends with a line feed has no empty line after it.
-/
set_option autoImplicit false

namespace SymbolQuery.Text

/-- The lines of a text, without their endings. -/
def lineChars : List Char → List (List Char)
  | [] => []
  | '\n' :: rest => [] :: lineChars rest
  | '\r' :: '\n' :: rest => [] :: lineChars rest
  | c :: rest =>
    match lineChars rest with
    | [] => [[c]]
    | line :: more => (c :: line) :: more

/-- The lines of a text, without their endings. -/
def lines (s : String) : List String := (lineChars s.toList).map String.ofList

end SymbolQuery.Text
