/-
Tables: a header, rows, and what is known of rows that are not shown.

An encoder cuts a table to a number of rows, or shows a sample where there are very
many, and then says in a last row how many there are. `truncate` cuts any table,
also one that was cut before. The number of rows that were given is kept.
-/
import SymbolQuery.Config
import SymbolQuery.Table.Row

set_option autoImplicit false

namespace SymbolQuery

/-! ## Kinds -/

/-- What the rows of a table stand for. -/
inductive TableKind
  | locations
  | documentSymbols
  | children
  | incomingCalls
  | outgoingCalls
  | supertypes
  | subtypes
  | hover
  deriving DecidableEq, Repr, Inhabited

namespace TableKind

/-- The name of a kind. -/
def name : TableKind → String
  | .locations => "Locations"
  | .documentSymbols => "DocumentSymbols"
  | .children => "Children"
  | .incomingCalls => "IncomingCalls"
  | .outgoingCalls => "OutgoingCalls"
  | .supertypes => "Supertypes"
  | .subtypes => "Subtypes"
  | .hover => "Hover"

/-- All kinds. -/
def all : List TableKind :=
  [.locations, .documentSymbols, .children, .incomingCalls, .outgoingCalls, .supertypes, .subtypes,
    .hover]

/-- The names of the columns. -/
def columns : TableKind → List String
  | .locations => ["URI", "RANGE", "PREVIEW"]
  | .documentSymbols => ["NAME", "KIND", "RANGE", "SELECTION", "PARENT", "HOVER_INFO"]
  | .children => ["NAME", "KIND", "DEPTH", "RANGE", "SELECTION", "PARENT"]
  | .incomingCalls => ["FROM_NAME", "FROM_KIND", "FROM_URI", "FROM_RANGE", "CALL_SITES"]
  | .outgoingCalls => ["TO_NAME", "TO_KIND", "TO_URI", "TO_RANGE", "CALL_SITES"]
  | .supertypes => ["SUPER_NAME", "SUPER_KIND", "SUPER_URI", "SUPER_RANGE", "DETAIL"]
  | .subtypes => ["SUB_NAME", "SUB_KIND", "SUB_URI", "SUB_RANGE", "DETAIL"]
  | .hover => ["NAME", "RANGE", "HOVER_INFO"]

/-- The first line of a table. -/
def header (k : TableKind) : String :=
  String.ofList (Table.terminate (Table.joinCells (k.columns.map String.toList)))

end TableKind

/-- The fields of a row. -/
abbrev Row := List String

/-! ## Tables -/

/-- A table as it is shown. -/
structure Table where
  kind : TableKind
  rows : List String
  /-- Whether the last row tells of rows that are not shown. -/
  truncated : Bool
  /-- The number of rows that were given. -/
  originalRowCount : Nat
  deriving DecidableEq, Repr, Inhabited

namespace Table

/-- The table without rows. -/
def empty (kind : TableKind) : Table := ⟨kind, [], false, 0⟩

/-- The first line. -/
def header (t : Table) : String := t.kind.header

/-- Whether there is no row. -/
def isEmpty (t : Table) : Bool := t.rows.isEmpty

/-- All lines, each with a line feed. -/
def render (t : Table) : String :=
  (t.header :: t.rows).foldl (fun text line => text ++ line ++ "\n") ""

/-- The JSON object of a table. -/
def toJson (t : Table) : Json :=
  .obj [("kind", .str t.kind.name), ("header", .str t.header),
    ("rows", .arr (t.rows.map .str)), ("truncated", .bool t.truncated),
    ("originalRowCount", .ofNat t.originalRowCount)]

/-! ## Cutting -/

/-- The row that tells of hidden rows. -/
def hiddenNotice (hidden total : Nat) : String :=
  String.ofList (terminate (s!"{hidden} rows truncated out of {total} total").toList)

/-- Whether a table shows no more than `max` rows. -/
def fits (t : Table) (max : Nat) : Bool :=
  if t.truncated then decide (t.rows.length - 1 ≤ max) else decide (t.originalRowCount ≤ max)

/-- Keeps at most `max` rows and tells of the others. -/
def truncate (t : Table) (max : Nat) : Table :=
  if t.fits max then t
  else
    { t with
      rows := t.rows.take max ++ [hiddenNotice (t.originalRowCount - max) t.originalRowCount]
      truncated := true }

/-! ## Encoding -/

/-- The table of all rows. -/
def encode (o : OutputLimits) (kind : TableKind) (rows : List Row) : Table :=
  ⟨kind, rows.map (encodeRow o.fieldCharCap), false, rows.length⟩

/-- The table of rows, cut to the limit. -/
def encodeBounded (o : OutputLimits) (kind : TableKind) (rows : List Row) : Table :=
  (encode o kind rows).truncate o.maxRows

/-- How many of `total` rows are shown. -/
def visibleRows (o : OutputLimits) (total : Nat) (sampled : Bool) : Nat :=
  if sampled && decide (o.samplingCeiling < total) then min o.sampleSize total
  else min total o.maxRows

/-- The row that tells of a sample. -/
def sampleNotice (total kept : Nat) : String :=
  noticeLine
    (s!"{total} results found, showing the first {kept}. Narrow the query (a more specific "
      ++ "symbol, or a definition lookup) to see the rest")

/-- The table of rows, or a sample of them where there are more than the ceiling. -/
def encodeSampled (o : OutputLimits) (kind : TableKind) (rows : List Row) : Table :=
  if rows.length ≤ o.samplingCeiling then encodeBounded o kind rows
  else
    let kept := min o.sampleSize rows.length
    let t := encode o kind (rows.take kept)
    { t with
      rows := t.rows ++ [sampleNotice rows.length kept]
      truncated := true
      originalRowCount := rows.length }

/-! ## When a table is cut -/

section

variable {o : OutputLimits} {rows : List Row}

theorem encodeBounded_of_le (h : rows.length ≤ o.maxRows) (kind : TableKind) :
    encodeBounded o kind rows = encode o kind rows := if_pos (decide_eq_true h)

theorem encodeBounded_of_lt (h : o.maxRows < rows.length) (kind : TableKind) :
    encodeBounded o kind rows
      = ⟨kind, (rows.take o.maxRows).map (encodeRow o.fieldCharCap)
          ++ [hiddenNotice (rows.length - o.maxRows) rows.length], true, rows.length⟩ := by
  have hfits : ¬ (encode o kind rows).fits o.maxRows = true := by
    change ¬ decide (rows.length ≤ o.maxRows) = true
    rw [decide_eq_true_eq]
    omega
  rw [encodeBounded, truncate, if_neg hfits, encode, List.map_take]

theorem encodeSampled_of_le (h : rows.length ≤ o.samplingCeiling) (kind : TableKind) :
    encodeSampled o kind rows = encodeBounded o kind rows := if_pos h

theorem encodeSampled_of_lt (h : o.samplingCeiling < rows.length) (kind : TableKind) :
    encodeSampled o kind rows
      = ⟨kind, (rows.take (min o.sampleSize rows.length)).map (encodeRow o.fieldCharCap)
          ++ [sampleNotice rows.length (min o.sampleSize rows.length)], true, rows.length⟩ :=
  if_neg (Nat.not_le.mpr h)

theorem visibleRows_unsampled (o : OutputLimits) (total : Nat) :
    visibleRows o total false = min total o.maxRows := rfl

theorem visibleRows_of_le {total : Nat} (h : total ≤ o.samplingCeiling) (sampled : Bool) :
    visibleRows o total sampled = min total o.maxRows := by
  unfold visibleRows
  rw [if_neg (by simp [h])]

theorem visibleRows_of_lt {total : Nat} (h : o.samplingCeiling < total) :
    visibleRows o total true = min o.sampleSize total := by
  unfold visibleRows
  rw [if_pos (by simp [h])]

end

/-! ## Counting -/

/-- The number of rows in the text of a table: its terminated lines without the header. -/
def countRows (text : String) : Nat := ((Text.lines text).filter isTerminated).length - 1

end Table

end SymbolQuery
