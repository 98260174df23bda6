/-
Reading TOML documents.

A document is a sequence of lines: each one is blank, holds an entry, or opens a table
with a header. Entries belong to the table opened last, and to the root before the
first header.
-/
import SymbolQuery.Toml.Number
import SymbolQuery.Toml.Section
import SymbolQuery.Toml.Text

set_option autoImplicit false

namespace SymbolQuery.Toml

/-! ## Values -/

/-- Takes a value, or an entry, off the front of a text. -/
abbrev Reader (α : Type) := List Char → Option (α × List Char)

/-- Takes items between commas up to a closing bracket; a comma may stand behind the last one. -/
def readItems (item : Reader Toml) : Nat → Reader (List Toml)
  | 0, _ => none
  | fuel + 1, s =>
    match skipLines s with
    | ']' :: rest => some ([], rest)
    | s => do
      let (v, rest) ← item s
      match skipLines rest with
      | ',' :: rest =>
        let (vs, rest) ← readItems item fuel rest
        return (v :: vs, rest)
      | ']' :: rest => return ([v], rest)
      | _ => none

/-- Takes a key, an equals sign and a value. -/
def readEntry (value : Reader Toml) : Reader (List String × Toml) := fun s => do
  let (path, s) ← readKey s
  match s with
  | '=' :: s =>
    let (v, s) ← value (skipSpace s)
    return ((path, v), s)
  | _ => none

/-- Takes entries between commas up to a closing brace; at least one. -/
def readEntries (value : Reader Toml) : Nat → Nodes → Reader Nodes
  | 0, _, _ => none
  | fuel + 1, nodes, s => do
    let ((path, v), s) ← readEntry value s
    let nodes ← Node.assignAt path v nodes
    match skipSpace s with
    | ',' :: s => readEntries value fuel nodes s
    | '\x7d' :: s => return (nodes, s)
    | _ => none

/-- Takes a value that has no other values in it. -/
def readScalar : Reader Toml
  | 't' :: 'r' :: 'u' :: 'e' :: rest => some (.bool true, rest)
  | 'f' :: 'a' :: 'l' :: 's' :: 'e' :: rest => some (.bool false, rest)
  | s =>
    match s with
    | '"' :: _ | '\'' :: _ => (readString s).map fun (t, rest) => (.str (String.ofList t), rest)
    | _ =>
      match readMoment s with
      | some found => some found
      | none => readNumber s

/-- Takes a value with at most the given number of levels of arrays and inline tables. -/
def readValue : Nat → Reader Toml
  | 0, s => readScalar s
  | depth + 1, '[' :: rest =>
    (readItems (readValue depth) (rest.length + 1) rest).map fun (vs, rest) => (.arr vs, rest)
  | depth + 1, '\x7b' :: rest =>
    match skipSpace rest with
    | '\x7d' :: rest => some (.table [], rest)
    | rest =>
      (readEntries (readValue depth) (rest.length + 1) [] rest).map fun (nodes, rest) =>
        (.table (Node.entriesToToml nodes), rest)
  | _ + 1, s => readScalar s

/-! ## Lines -/

/-- A document while it is read: its root, and the way to the table opened last. -/
structure Draft where
  root : Nodes := []
  path : List String := []

namespace Draft

/-- Opens a table with the given way of opening. -/
def openAt (d : Draft) (path : List String) (how : String → Nodes → Option Nodes) : Option Draft :=
  match path.getLast? with
  | some key => (Node.within (how key) path.dropLast d.root).map fun root => ⟨root, path⟩
  | none => none

/-- Takes a header; the opening brackets are gone. -/
def readHeader (d : Draft) (isItem : Bool) (s : List Char) : Option (Draft × List Char) := do
  let (path, s) ← readKey s
  match isItem, s with
  | true, ']' :: ']' :: s => return (← d.openAt path Node.openItem, ← readLineEnd s)
  | false, ']' :: s => return (← d.openAt path Node.openTable, ← readLineEnd s)
  | _, _ => none

/-- Takes an entry. -/
def readLine (d : Draft) (s : List Char) : Option (Draft × List Char) := do
  let ((path, v), s) ← readEntry (readValue maxDepth) s
  let s ← readLineEnd s
  let root ← Node.within (Node.assignAt path v) d.path d.root
  return ({ d with root := root }, s)

/-- Takes at most the given number of lines. -/
def readLines : Nat → Draft → List Char → Option Draft
  | 0, _, _ => none
  | fuel + 1, d, s =>
    match skipSpace s with
    | [] => some d
    | '#' :: s => (readLineEnd ('#' :: s)).bind (readLines fuel d)
    | '\n' :: s => readLines fuel d s
    | '\r' :: '\n' :: s => readLines fuel d s
    | '[' :: '[' :: s => (d.readHeader true s).bind fun (d, s) => readLines fuel d s
    | '[' :: s => (d.readHeader false s).bind fun (d, s) => readLines fuel d s
    | s => (d.readLine s).bind fun (d, s) => readLines fuel d s

end Draft

/-- Drops the mark that may stand before a document. -/
def dropMark : List Char → List Char
  | c :: rest => if c.toNat = 0xFEFF then rest else c :: rest
  | [] => []

/-- Reads a document: the entries of its root, or `none` if it is not one. A line has at least one
character, so all lines are read. -/
def parse (text : String) : Option (List (String × Toml)) :=
  let s := dropMark text.toList
  (Draft.readLines (s.length + 1) {} s).map fun d => Node.entriesToToml d.root

end SymbolQuery.Toml
