/-
What the program prints.

An answer is a table as text, or JSON. In JSON an answer says whether it is a success;
an error is always JSON.
-/
import SymbolQuery.Cli.Arguments
import SymbolQuery.Lookup.Facade

set_option autoImplicit false

namespace SymbolQuery.Cli

/-- What comes of an invocation: the text that is printed, and the exit code. -/
structure Report where
  text : String
  exitCode : Nat := 0
  deriving DecidableEq, Repr, Inhabited

namespace Report

/-- A JSON value with ordered keys, on lines of its own. -/
def json (v : Json) : Report := { text := v.canonical.pretty ++ "\n" }

/-- The fields of an answer next to the mark of success. -/
def flat (v : Json) : Report := json (.obj ((v.fields?).getD [] ++ [("success", .bool true)]))

/-- An answer under a key of its own. -/
def data (v : Json) : Report := json (.obj [("data", v), ("success", .bool true)])

/-- An error that is an answer. -/
def error (message : String) : Report :=
  json (.obj [("error", .str message), ("success", .bool false)])

/-- The exit code of a program that could not do what it was asked. -/
def failureCode : Nat := 2

/-- An error that ends the program. -/
def fatal (message : String) : Report := { error message with exitCode := failureCode }

/-- An answer that has a text of its own. -/
def answer (format : Format) (text : String) (v : Json) : Report :=
  match format with
  | .table => { text := text }
  | .json => data v

/-- A table. -/
def table (format : Format) (t : Table) : Report := answer format t.render t.toJson

/-- The tables of a hierarchy. -/
def tables (format : Format) (t : Lookup.HierarchyTables) : Report :=
  answer format t.render t.toJson

/-- The answer to a request, or the error of one that says nothing usable. -/
def ofResult {α : Type} (print : α → Report) : Except MalformedInput α → Report
  | .ok a => print a
  | .error e => error e.message

end Report

end SymbolQuery.Cli
