/-
Files and directories as a value.

An entry is an absolute path, as its components, with the octets of a file or nothing
for a directory. The directories on the way to an entry need no entries of their
own. There are no links, so the real path of a file is what remains after dots are
resolved, one component after the other; every component on the way has to be a
directory.
-/
import SymbolQuery.Path
import SymbolQuery.Text.Utf8

set_option autoImplicit false

namespace SymbolQuery

/-- Why a file can not be read or written. -/
inductive FileFault
  | notFound
  | isDirectory
  | notDirectory
  | exists
  | denied
  | invalidName
  | notText
  deriving DecidableEq, Repr

/-- The wording of a fault. -/
def FileFault.message : FileFault → String
  | .notFound => "No such file or directory (os error 2)"
  | .isDirectory => "Is a directory (os error 21)"
  | .notDirectory => "Not a directory (os error 20)"
  | .exists => "File exists (os error 17)"
  | .denied => "Permission denied (os error 13)"
  | .invalidName => "file name contained an unexpected NUL byte"
  | .notText => "stream did not contain valid UTF-8"

/-- Files and directories by the components of their absolute paths. -/
structure Files where
  entries : List (List String × Option (List UInt8)) := []
  deriving Repr, Inhabited

namespace Files

/-- What stands at a path. -/
inductive Node
  | file (content : List UInt8)
  | directory
  deriving Repr, Inhabited

/-- What stands at the given components. -/
def find? (f : Files) (names : List String) : Option Node :=
  match f.entries.lookup names with
  | some (some content) => some (.file content)
  | some none => some .directory
  | none =>
    if names.isEmpty || f.entries.any (fun e => names.isPrefixOf e.1) then some .directory else none

/-- Whether a directory stands there. -/
def isDirectory (f : Files) (names : List String) : Bool :=
  match f.find? names with
  | some .directory => true
  | _ => false

/-- Follows the pieces of a path from the components `done`, the last first. -/
def follow (f : Files) : List String → List (List Char) → Except FileFault (List String)
  | done, [] => .ok done
  | done, piece :: rest =>
    if !f.isDirectory done.reverse then .error .notDirectory
    else if Path.isVoid piece then follow f done rest
    else if piece = ['.', '.'] then follow f done.tail rest
    else
      let next := String.ofList piece :: done
      if (f.find? next.reverse).isSome then follow f next rest else .error .notFound

/-- The components of the real path of an absolute path. -/
def realComponents (f : Files) (path : String) : Except FileFault (List String) :=
  if path.toList.contains '\x00' then .error .invalidName
  else (f.follow [] (Path.parts path.toList).2).map List.reverse

/-- The real path of an absolute path. -/
def realPath (f : Files) (path : String) : Except FileFault String :=
  (f.realComponents path).map Path.ofComponents

/-- Whether anything stands at a path. -/
def isThere (f : Files) (path : String) : Bool :=
  match f.realComponents path with
  | .ok _ => true
  | .error _ => false

/-- The octets of a file. -/
def read (f : Files) (path : String) : Except FileFault (List UInt8) :=
  match f.realComponents path with
  | .error e => .error e
  | .ok names =>
    match f.find? names with
    | some (.file content) => .ok content
    | some .directory => .error .isDirectory
    | none => .error .notFound

/-- The text of a file. -/
def readText (f : Files) (path : String) : Except FileFault String :=
  match f.read path with
  | .error e => .error e
  | .ok content =>
    match Text.decode? content with
    | some text => .ok text
    | none => .error .notText

/-- Puts a file or a directory at the given components. -/
def put (f : Files) (names : List String) (content : Option (List UInt8)) : Files :=
  ⟨(names, content) :: f.entries.filter fun e => e.1 != names⟩

/-- Makes a directory with those on the way to it. -/
def makeDirectory (f : Files) (names : List String) : Except FileFault Files :=
  let blocked := (List.range (names.length + 1)).find? fun n =>
    match f.find? (names.take n) with
    | some (.file _) => true
    | _ => false
  match blocked with
  | some n => if n = names.length then .error .exists else .error .notDirectory
  | none => if f.isDirectory names then .ok f else .ok (f.put names none)

/-- Writes a file into a directory that exists. -/
def write (f : Files) (names : List String) (content : List UInt8) : Except FileFault Files :=
  if f.isDirectory names then .error .isDirectory
  else
    match f.find? names.dropLast with
    | some .directory => .ok (f.put names (some content))
    | some (.file _) => .error .notDirectory
    | none => .error .notFound

end Files

end SymbolQuery
