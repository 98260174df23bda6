/-
The symbols below a symbol, down to a chosen depth.

The depth is one, two or three levels, or all of them. A level that is not wanted is
pruned with everything below it.
-/
import SymbolQuery.Symbol.Basic
import SymbolQuery.Text.Integer
import SymbolQuery.Text.LowerCase

set_option autoImplicit false

namespace SymbolQuery

/-! ## Depths -/

/-- How far below a symbol a listing goes. -/
inductive ChildDepth
  | limited (levels : Nat)
  | all
  deriving DecidableEq, Repr

namespace ChildDepth

instance : Inhabited ChildDepth := ⟨.limited 1⟩

/-- The largest limit that can be asked for. -/
def maxLimit : Nat := 3

/-- Whether symbols at a depth are listed; direct children have depth 1. -/
def allows : ChildDepth → Nat → Bool
  | .limited levels, depth => decide (depth ≤ levels)
  | .all, _ => true

/-- The text of a depth. -/
def text : ChildDepth → String
  | .limited levels => toString levels
  | .all => "all"

/-- What a text that is no depth is answered with. -/
def invalidMessage (given : String) : String :=
  "Invalid depth '" ++ given ++ "': expected 1, 2, 3 or \"all\""

/-- Reads a depth; the error holds the text without the blanks around it. -/
def ofText (s : String) : Except String ChildDepth :=
  let s := Text.trim s
  if Text.sameUpToCase s "all" then .ok .all
  else
    match Text.unsigned? Text.max32 s with
    | some n => if 1 ≤ n ∧ n ≤ maxLimit then .ok (.limited n) else .error s
    | none => .error s

/-- The JSON text of a depth. -/
def toJson (d : ChildDepth) : Json := .str d.text

/-- Reads a depth from JSON. -/
def ofJson (v : Json) : Json.Decoded ChildDepth :=
  match Json.asText v with
  | .error e => .error e
  | .ok s => (ofText s).mapError fun given => .other (invalidMessage given)

end ChildDepth

/-! ## Listings -/

/-- A symbol below another one, with its depth and the name of the symbol it stands in. -/
structure NestedSymbol where
  symbol : Symbol
  depth : Nat
  parent : String
  deriving Repr, Inhabited

namespace Symbol

mutual

/-- A symbol at `level` and those inside it, as far as `depth` allows. -/
def descendTree (depth : ChildDepth) (level : Nat) (parent : String) : Symbol → List NestedSymbol
  | ⟨name, kind, range, selectionRange, detail, children⟩ =>
    ⟨⟨name, kind, range, selectionRange, detail, children⟩, level, parent⟩
      :: (if depth.allows (level + 1) then descendForest depth (level + 1) name children else [])

/-- The symbols at `level` and those inside them, as far as `depth` allows. -/
def descendForest (depth : ChildDepth) (level : Nat) (parent : String) :
    List Symbol → List NestedSymbol
  | [] => []
  | s :: rest => descendTree depth level parent s ++ descendForest depth level parent rest

end

/-- The symbols below `s`, each before those inside it. -/
def descendants (s : Symbol) (depth : ChildDepth) : List NestedSymbol :=
  if depth.allows 1 then descendForest depth 1 s.name s.children else []

end Symbol

end SymbolQuery
