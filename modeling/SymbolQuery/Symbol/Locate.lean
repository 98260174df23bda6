/-
Finding a symbol in a forest: by position or by name.

By position the innermost symbol wins. Ranges of names count before whole ranges: if
the position stands on any name, only symbols with such a name are looked at. Among
several the least extent wins, and of equal ones the first in the walk.
-/
import SymbolQuery.Symbol.Basic

set_option autoImplicit false

namespace SymbolQuery.Symbol

/-- The first symbol with the least extent of `range`. -/
def innermost (range : Symbol → Range) : List Symbol → Option Symbol
  | [] => none
  | s :: rest =>
    match innermost range rest with
    | none => some s
    | some t => if Range.extentLess (range t).extent (range s).extent then some t else some s

/-- The innermost of the symbols whose `range` contains a position. -/
def innermostAt (range : Symbol → Range) (symbols : List Symbol) (p : Position) : Option Symbol :=
  innermost range (symbols.filter fun s => (range s).contains p)

/-- The innermost symbol at a position. -/
def locateAt (forest : List Symbol) (p : Position) : Option Symbol :=
  match innermostAt selectionRange (flatten forest) p with
  | some s => some s
  | none => innermostAt range (flatten forest) p

/-- All symbols of a name, in the order of the walk. -/
def named (forest : List Symbol) (name : String) : List Symbol :=
  (flatten forest).filter fun s => s.name == name

end SymbolQuery.Symbol
