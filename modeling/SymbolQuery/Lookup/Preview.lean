/-
The text around a place: the line before, the line itself and the line after, and the
word at a column.

Documents are read under a deadline, and a document that can not be read has no text.
For a list of places each document is read once, and only those places are looked at
that are going to be shown.
-/
import SymbolQuery.Lookup.Question
import SymbolQuery.Text.Lines
import SymbolQuery.Text.Word

set_option autoImplicit false

namespace SymbolQuery.Lookup

/-! ## Text around a line -/

/-- The line with its neighbours, joined by line feeds; empty beyond the last line. -/
def contextLines (text : String) (line : Nat) : String :=
  let all := Text.lines text
  if all.length ≤ line then ""
  else
    let first := line - 1
    let last := min (line + 1) (all.length - 1)
    String.intercalate "\n" ((all.drop first).take (last + 1 - first))

/-- The word that a position of a text touches. -/
def wordIn (text : String) (p : Position) : Option String :=
  match (Text.lines text)[p.line]? with
  | none => none
  | some line => (Text.wordTouching line.toList p.character).map String.ofList

/-! ## Reading -/

variable {m : Type → Type} [Asking m]

/-- The text of a document, or `none` for any reason. -/
def document (deadline : Nat) (uri : String) : m (Option String) := do
  match ← Asking.ask deadline (.document uri) with
  | .ok (.ok text) => return some text
  | _ => return none

/-- The text around a line of a document; empty if it can not be read. -/
def preview (deadline : Nat) (uri : String) (line : Nat) : m String := do
  match ← document deadline uri with
  | some text => return contextLines text line
  | none => return ""

/-- The text around a place in a document that was read. -/
def previewIn (text : Option String) (l : Location) : String :=
  match text with
  | some text => contextLines text l.range.start.line
  | none => ""

/-- The text around each place; `read` holds the documents read before. -/
def previewsFrom (deadline : Nat) :
    List (String × Option String) → List Location → m (List String)
  | _, [] => return []
  | read, l :: rest =>
    match read.lookup l.uri with
    | some text => do
      let more ← previewsFrom deadline read rest
      return previewIn text l :: more
    | none => do
      let text ← document deadline l.uri
      let more ← previewsFrom deadline ((l.uri, text) :: read) rest
      return previewIn text l :: more

/-- The text around each of the first `limit` places, and nothing for the others. -/
def previews (deadline : Nat) (locations : List Location) (limit : Nat) : m (List String) := do
  let shown ← previewsFrom deadline [] (locations.take limit)
  return shown ++ List.replicate (locations.length - limit) ""

/-- The word at a position of a document. -/
def wordAt (deadline : Nat) (uri : String) (p : Position) : m (Option String) := do
  match ← document deadline uri with
  | some text => return wordIn text p
  | none => return none

end SymbolQuery.Lookup
