/-
Slash-separated paths as text.

A path is kept as the text it was given in, since that text is what messages show.
Its components are what counts where two paths are compared: empty pieces and single
dots stand for nothing, except for a dot that begins a relative path, and two dots
are a component of their own.
-/
import SymbolQuery.Text.Blank

set_option autoImplicit false

namespace SymbolQuery.Path

/-! ## Pieces and components -/

/-- The pieces of a text between slashes. -/
def pieces (s : List Char) : List (List Char) := Text.splitAll (· = '/') s

/-- A piece that stands for no component. -/
def isVoid (piece : List Char) : Bool := piece == [] || piece == ['.']

/-- How a path begins. -/
inductive Lead
  | root
  | here
  | none
  deriving DecidableEq, Repr

/-- The beginning of a path and the pieces after it. -/
def parts (s : List Char) : Lead × List (List Char) :=
  match s with
  | [] => (.none, [])
  | '/' :: rest => (.root, pieces rest)
  | ['.'] => (.here, [])
  | '.' :: '/' :: rest => (.here, pieces ('/' :: rest))
  | _ => (.none, pieces s)

/-- Whether a path begins at the root. -/
def isAbsolute (path : String) : Bool :=
  match path.toList with
  | '/' :: _ => true
  | _ => false

/-- The components of a path that begins at the root, two dots not resolved. -/
def components (path : String) : List String :=
  ((parts path.toList).2.filter (fun p => !isVoid p)).map String.ofList

/-- The pieces with slashes between them. -/
def glue : List (List Char) → List Char
  | [] => []
  | [p] => p
  | p :: q :: rest => p ++ '/' :: glue (q :: rest)

/-- The absolute path of components. -/
def ofComponents (names : List String) : String := "/" ++ String.intercalate "/" names

/-! ## Joining and relating -/

/-- `path` seen from the directory `base`. -/
def join (base path : String) : String :=
  if isAbsolute path then path
  else if base.isEmpty then path
  else if base.toList.getLast? == some '/' then base ++ path
  else base ++ "/" ++ path

/-- Drops void pieces at the end. -/
def dropVoidEnd (ps : List (List Char)) : List (List Char) :=
  (ps.reverse.dropWhile isVoid).reverse

/-- Takes the components `names` off the front of pieces, with the void pieces between. -/
def takeOff : List (List Char) → List (List Char) → Option (List (List Char))
  | [], ps => some ps
  | name :: names, ps =>
    match ps.dropWhile isVoid with
    | [] => none
    | p :: rest => if p = name then takeOff names rest else none

/-- The part of `path` below the directory `base`, or `none` if it does not lie there. The text in
between is kept as it is, apart from void pieces at its ends. -/
def below? (base path : String) : Option String :=
  let (baseLead, basePieces) := parts base.toList
  let baseNames := basePieces.filter (fun p => !isVoid p)
  let (lead, ps) := parts path.toList
  if baseLead = .none ∧ baseNames = [] then
    let front : List Char :=
      match lead with
      | .root => ['/']
      | .here => ['.']
      | .none => []
    some (String.ofList (front ++ glue (dropVoidEnd ps)))
  else if baseLead = lead then
    (takeOff baseNames ps).map fun rest =>
      String.ofList (glue (dropVoidEnd (rest.dropWhile isVoid)))
  else none

/-- The part of `path` below `base`, or all of it. -/
def relativeTo (base path : String) : String := (below? base path).getD path

/-! ## Names -/

/-- The last component of a path, if it is a name. -/
def fileName? (path : String) : Option (List Char) :=
  match ((parts path.toList).2.filter (fun p => !isVoid p)).getLast? with
  | some name => if name = ['.', '.'] then none else some name
  | none => none

/-- What follows the last dot of the file name, unless that dot begins the name. -/
def extension? (path : String) : Option String :=
  (fileName? path).bind fun name =>
    match Text.splitFirst? (· = '.') name.reverse with
    | none => none
    | some (_, []) => none
    | some (after, _ :: _) => some (String.ofList after.reverse)

/-! ## Dots -/

/-- The components of an absolute path where no links are on the way: two dots go back one. -/
def resolved (path : String) : List String :=
  (((pieces path.toList).filter fun piece => !isVoid piece).foldl
    (fun done piece => if piece = ['.', '.'] then done.tail else String.ofList piece :: done)
    []).reverse

/-- A path and the paths on the way to it, the shortest first. -/
def onTheWay (path : String) : List String :=
  let ps := pieces path.toList
  (List.range ps.length).map fun n => String.ofList (glue (ps.take (n + 1)))

end SymbolQuery.Path
