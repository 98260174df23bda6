/-
Positions and ranges in a document.

Lines and columns count from zero. A range contains both its ends. Its extent, line
span before column span, is what "innermost" means where several ranges enclose a
position.
-/
import SymbolQuery.Json.Record
import SymbolQuery.Text.Integer

set_option autoImplicit false

namespace SymbolQuery

/-! ## Positions -/

/-- A place in a document. -/
structure Position where
  line : Nat
  character : Nat
  deriving DecidableEq, Repr, Inhabited

namespace Position

/-- Both coordinates have 32 bits. -/
def Fits (p : Position) : Prop := p.line ≤ Text.max32 ∧ p.character ≤ Text.max32

instance (p : Position) : Decidable p.Fits := inferInstanceAs (Decidable (_ ∧ _))

/-- Whether `p` stands at or before `q`, lines first. -/
def before (p q : Position) : Bool :=
  decide (p.line < q.line) || (p.line == q.line && decide (p.character ≤ q.character))

/-- The order of two positions: `lt`, `eq` or `gt`. -/
def order (p q : Position) : Ordering :=
  (compare p.line q.line).then (compare p.character q.character)

/-- The text `line:character`. -/
def text (p : Position) : String := s!"{p.line}:{p.character}"

/-- The JSON object of a position. -/
def toJson (p : Position) : Json :=
  .obj [("line", .ofNat p.line), ("character", .ofNat p.character)]

/-- The record type of positions. -/
def record : Json.RecordType := ⟨"struct Position", 2⟩

/-- Reads a position. -/
def ofJson : Json → Json.Decoded Position :=
  Json.readRecord record fun s =>
    Position.mk <$> Json.required record s 0 "line" Json.asU32
      <*> Json.required record s 1 "character" Json.asU32

end Position

/-! ## Ranges -/

/-- A stretch of a document, both ends included. -/
structure Range where
  start : Position
  stop : Position
  deriving DecidableEq, Repr, Inhabited

namespace Range

/-- Both ends have coordinates of 32 bits. -/
def Fits (r : Range) : Prop := r.start.Fits ∧ r.stop.Fits

instance (r : Range) : Decidable r.Fits := inferInstanceAs (Decidable (_ ∧ _))

/-- The range of a single position. -/
def point (p : Position) : Range := ⟨p, p⟩

/-- The empty range at the start of a document. -/
def zero : Range := point ⟨0, 0⟩

/-- Whether a position lies in the range. -/
def contains (r : Range) (p : Position) : Bool := r.start.before p && p.before r.stop

/-- The line span, zero if the range runs backwards, and the column span. -/
def extent (r : Range) : Nat × Int :=
  (r.stop.line - r.start.line, (r.stop.character : Int) - (r.start.character : Int))

/-- Whether an extent is smaller than another: fewer lines, or as many and fewer columns. -/
def extentLess (a b : Nat × Int) : Bool :=
  decide (a.1 < b.1) || (a.1 == b.1 && decide (a.2 < b.2))

/-- The text `start-stop`. -/
def text (r : Range) : String := s!"{r.start.text}-{r.stop.text}"

/-- The JSON object of a range. -/
def toJson (r : Range) : Json :=
  .obj [("start", r.start.toJson), ("end", r.stop.toJson)]

/-- The record type of ranges. -/
def record : Json.RecordType := ⟨"struct Range", 2⟩

/-- Reads a range. -/
def ofJson : Json → Json.Decoded Range :=
  Json.readRecord record fun s =>
    Range.mk <$> Json.required record s 0 "start" Position.ofJson
      <*> Json.required record s 1 "end" Position.ofJson

end Range

end SymbolQuery
