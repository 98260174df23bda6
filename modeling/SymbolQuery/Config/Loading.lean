/-
Settings out of tables, variables of the environment, and the rules that settings obey.

The settings of a project are laid over those of the user. Variables count more than
both. What comes out is checked last, so nothing that passes can make a table
impossible to write.
-/
import SymbolQuery.Config
import SymbolQuery.Files
import SymbolQuery.Toml.Parser

set_option autoImplicit false

namespace SymbolQuery

/-! ## Faults -/

/-- Why there are no settings. -/
inductive ConfigFault
  /-- A file is no TOML document. -/
  | notToml (path : String)
  /-- A value is not what is wanted at its place. -/
  | wrongForm (fault : Json.ReadFault)
  /-- The depth is a text that names none; `place` are the keys that lead to it. -/
  | badDepth (text : String) (place : List String)
  | invalidValue (key message : String)
  | unreadable (fault : FileFault)
  deriving DecidableEq, Repr

namespace ConfigFault

/-- The name of the kind of fault. -/
def kind : ConfigFault → String
  | .notToml _ => "Parse"
  | .wrongForm _ => "Parse"
  | .badDepth _ _ => "Parse"
  | .invalidValue _ _ => "InvalidValue"
  | .unreadable _ => "Io"

/-- The wording of a fault. -/
def message : ConfigFault → String
  | .notToml path => s!"Config parse error: {path}: TOML parse error"
  | .wrongForm fault => s!"Config parse error: {fault.message}\n"
  | .badDepth text place =>
    s!"Config parse error: {text}\n" ++ "in " ++ Json.accented (String.intercalate "." place)
      ++ "\n"
  | .invalidValue key message => s!"Invalid value for '{key}': {message}"
  | .unreadable fault => fault.message

end ConfigFault

namespace Config

/-! ## Out of tables -/

/-- The keys that lead to the depth: a part that is a list of values has no keys. -/
def depthPlace (v : Json) : List String :=
  match v.get? "children" with
  | some (.obj _) => ["children", "default_depth"]
  | _ => ["children"]

/-- The settings of a table. -/
def ofTable (entries : List (String × Toml)) : Except ConfigFault Config :=
  let v := (Toml.table entries).toJson
  match Config.ofJson v with
  | .ok c => .ok c
  | .error (.other text) => .error (.badDepth text (depthPlace v))
  | .error fault => .error (.wrongForm fault)

/-! ## Variables -/

/-- The variables that count more than settings. -/
structure Overrides where
  maxRows : Option String := none
  samplingCeiling : Option String := none
  defaultDepth : Option String := none
  deriving DecidableEq, Repr, Inhabited

/-- The size that a variable gives, blanks aside; the given one if there is no variable. -/
def overrideSize (key : String) (value : Option String) (size : Nat) : Except ConfigFault Nat :=
  match value with
  | none => .ok size
  | some text =>
    match Text.readUnsigned Text.max64 (Text.trimChars text.toList) with
    | .ok n => .ok n
    | .error fault => .error (.invalidValue key fault.message)

/-- The depth that a variable gives; the given one if there is no variable. -/
def overrideDepth (key : String) (value : Option String) (depth : ChildDepth) :
    Except ConfigFault ChildDepth :=
  match value with
  | none => .ok depth
  | some text =>
    match ChildDepth.ofText text with
    | .ok d => .ok d
    | .error given => .error (.invalidValue key (ChildDepth.invalidMessage given))

/-- The settings with what variables say. -/
def override (c : Config) (o : Overrides) : Except ConfigFault Config := do
  let rows ← overrideSize "SYMLENS_MAX_ROWS" o.maxRows c.output.maxRows
  let ceiling ← overrideSize "SYMLENS_SAMPLING_CEILING" o.samplingCeiling c.output.samplingCeiling
  let depth ← overrideDepth "SYMLENS_CHILDREN_DEPTH" o.defaultDepth c.defaultDepth
  return { c with
    output := { c.output with maxRows := rows, samplingCeiling := ceiling }
    defaultDepth := depth }

/-! ## Rules -/

/-- The rule that settings break first, if they break one: a table shows at least one row, a sample
has at least one row and no more than are listed without sampling, and a field has room for at
least one character. -/
def broken? (c : Config) : Option ConfigFault :=
  if c.output.maxRows = 0 then some (.invalidValue "output.max_rows" "must be at least 1")
  else if c.output.sampleSize = 0 then
    some (.invalidValue "output.sample_size" "must be at least 1")
  else if c.output.samplingCeiling < c.output.sampleSize then
    some (.invalidValue "output.sample_size" "must not exceed output.sampling_ceiling")
  else if c.output.fieldCharCap = 0 then
    some (.invalidValue "output.field_char_cap" "must be at least 1")
  else none

/-- The settings, if they break no rule. -/
def checked (c : Config) : Except ConfigFault Config :=
  match c.broken? with
  | some fault => .error fault
  | none => .ok c

/-- The settings of a project's table laid over the user's, with what variables say. -/
def load (user project : List (String × Toml)) (o : Overrides) : Except ConfigFault Config := do
  let c ← ofTable (Toml.overlay user project)
  let c ← c.override o
  c.checked

/-! ## As a document -/

/-- A line that sets a key to a number. -/
def numberLine (key : String) (n : Nat) : String := key ++ " = " ++ toString n ++ "\n"

/-- The lines of a table behind its header. -/
def section_ (name : String) (lines : List String) : String :=
  "[" ++ name ++ "]\n" ++ String.join lines

/-- The document of the settings that hold where nothing is set. -/
def defaultDocument : String :=
  let c : Config := {}
  String.intercalate "\n" [
    section_ "timeouts" (List.zipWith numberLine Timeouts.keys c.timeouts.toList),
    section_ "output" [
      numberLine "max_rows" c.output.maxRows,
      numberLine "sampling_ceiling" c.output.samplingCeiling,
      numberLine "sample_size" c.output.sampleSize,
      numberLine "field_char_cap" c.output.fieldCharCap],
    section_ "children" ["default_depth = \"" ++ c.defaultDepth.text ++ "\"\n"],
    section_ "lsp.servers" []]

end Config

end SymbolQuery
