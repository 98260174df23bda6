/-
The settings of the program, their defaults and what makes them acceptable.

Every part and every entry may be missing and then has its default. Deadlines are in
milliseconds. Settings that were read are checked before they are used, in a fixed
order, and the first entry that is out of bounds is reported.
-/
import SymbolQuery.Language
import SymbolQuery.Symbol.Children

set_option autoImplicit false

namespace SymbolQuery

/-! ## Deadlines -/

/-- The deadline of each kind of question, in milliseconds. -/
structure Timeouts where
  callPrepare : Nat := 2000
  callBranch : Nat := 10000
  typePrepare : Nat := 10000
  typeBranch : Nat := 10000
  references : Nat := 30000
  definition : Nat := 10000
  symbols : Nat := 10000
  hover : Nat := 2000
  preview : Nat := 2000
  deriving DecidableEq, Repr, Inhabited

namespace Timeouts

/-- All deadlines in the order of their declaration. -/
def toList (t : Timeouts) : List Nat :=
  [t.callPrepare, t.callBranch, t.typePrepare, t.typeBranch, t.references, t.definition, t.symbols,
    t.hover, t.preview]

/-- The longest deadline, which bounds every request to a server. -/
def longest (t : Timeouts) : Nat := t.toList.foldl max 0

/-- The names of the deadlines in settings. -/
def keys : List String :=
  ["call_prepare", "call_branch", "type_prepare", "type_branch", "references", "definition",
    "symbols", "hover", "preview"]

/-- The JSON object of deadlines. -/
def toJson (t : Timeouts) : Json := .obj (keys.zip (t.toList.map .ofNat))

/-- The record type of deadlines. -/
def record : Json.RecordType := ⟨"struct TimeoutConfig", 9⟩

/-- Reads deadlines. -/
def ofJson : Json → Json.Decoded Timeouts :=
  let d : Timeouts := {}
  Json.readRecord record fun s =>
    Timeouts.mk <$> Json.defaulted record s 0 "call_prepare" Json.asU64 d.callPrepare
      <*> Json.defaulted record s 1 "call_branch" Json.asU64 d.callBranch
      <*> Json.defaulted record s 2 "type_prepare" Json.asU64 d.typePrepare
      <*> Json.defaulted record s 3 "type_branch" Json.asU64 d.typeBranch
      <*> Json.defaulted record s 4 "references" Json.asU64 d.references
      <*> Json.defaulted record s 5 "definition" Json.asU64 d.definition
      <*> Json.defaulted record s 6 "symbols" Json.asU64 d.symbols
      <*> Json.defaulted record s 7 "hover" Json.asU64 d.hover
      <*> Json.defaulted record s 8 "preview" Json.asU64 d.preview

end Timeouts

/-! ## Limits of tables -/

/-- How much a table shows. -/
structure OutputLimits where
  /-- The rows kept before the row that tells of the others. -/
  maxRows : Nat := 200
  /-- More references than this are sampled instead of listed. -/
  samplingCeiling : Nat := 500
  sampleSize : Nat := 5
  /-- The characters kept of a field. -/
  fieldCharCap : Nat := 200
  deriving DecidableEq, Repr, Inhabited

namespace OutputLimits

/-- The JSON object of limits. -/
def toJson (o : OutputLimits) : Json :=
  .obj [("max_rows", .ofNat o.maxRows), ("sampling_ceiling", .ofNat o.samplingCeiling),
    ("sample_size", .ofNat o.sampleSize), ("field_char_cap", .ofNat o.fieldCharCap)]

/-- The record type of limits. -/
def record : Json.RecordType := ⟨"struct OutputConfig", 4⟩

/-- Reads limits. -/
def ofJson : Json → Json.Decoded OutputLimits :=
  let d : OutputLimits := {}
  Json.readRecord record fun s =>
    OutputLimits.mk <$> Json.defaulted record s 0 "max_rows" Json.asSize d.maxRows
      <*> Json.defaulted record s 1 "sampling_ceiling" Json.asSize d.samplingCeiling
      <*> Json.defaulted record s 2 "sample_size" Json.asSize d.sampleSize
      <*> Json.defaulted record s 3 "field_char_cap" Json.asSize d.fieldCharCap

end OutputLimits

/-! ## Servers -/

/-- Commands that replace those of the built-in servers, by language. -/
structure ServerCommands where
  entries : List (Language × String) := []
  deriving DecidableEq, Repr, Inhabited

namespace ServerCommands

/-- The command for a language, without the blanks around it; a blank one counts as none. -/
def commandFor (c : ServerCommands) (language : Language) : Option String :=
  ((c.entries.find? fun e => e.1 == language).map fun e => Text.trim e.2).filter
    fun command => !command.isEmpty

/-- The JSON object of commands. -/
def toJson (c : ServerCommands) : Json := .obj (c.entries.map fun e => (e.1.key, .str e.2))

/-- The record type of commands. -/
def record : Json.RecordType := ⟨"struct LspServerCommands", 12⟩

/-- Reads commands. -/
def ofJson : Json → Json.Decoded ServerCommands :=
  Json.readRecord record fun s =>
    (fun given => ServerCommands.mk
      ((Language.all.zip given).filterMap fun e => e.2.map fun command => (e.1, command)))
    <$> Json.Fields.all (Language.all.mapIdx fun i l =>
      Json.optionalTail record s i [l.key] Json.asText)

end ServerCommands

/-! ## All settings -/

/-- The settings of the program. -/
structure Config where
  timeouts : Timeouts := {}
  output : OutputLimits := {}
  defaultDepth : ChildDepth := .limited 1
  servers : ServerCommands := {}
  deriving DecidableEq, Repr, Inhabited

namespace Config

/-- The JSON object of settings. -/
def toJson (c : Config) : Json :=
  .obj [("timeouts", c.timeouts.toJson), ("output", c.output.toJson),
    ("children", .obj [("default_depth", c.defaultDepth.toJson)]),
    ("lsp", .obj [("servers", c.servers.toJson)])]

/-- The record type of the part on children. -/
def childrenRecord : Json.RecordType := ⟨"struct ChildrenConfig", 1⟩

/-- Reads the part on children. -/
def readChildren : Json → Json.Decoded ChildDepth :=
  Json.readRecord childrenRecord fun s =>
    id <$> Json.defaulted childrenRecord s 0 "default_depth" ChildDepth.ofJson (.limited 1)

/-- The record type of the part on servers. -/
def serversRecord : Json.RecordType := ⟨"struct LspConfig", 1⟩

/-- Reads the part on servers. -/
def readServers : Json → Json.Decoded ServerCommands :=
  Json.readRecord serversRecord fun s =>
    id <$> Json.defaulted serversRecord s 0 "servers" ServerCommands.ofJson {}

/-- The record type of settings. -/
def record : Json.RecordType := ⟨"struct SymlensConfig", 4⟩

/-- Reads settings. -/
def ofJson : Json → Json.Decoded Config :=
  Json.readRecord record fun s =>
    Config.mk <$> Json.defaulted record s 0 "timeouts" Timeouts.ofJson {}
      <*> Json.defaulted record s 1 "output" OutputLimits.ofJson {}
      <*> Json.defaulted record s 2 "children" readChildren (.limited 1)
      <*> Json.defaulted record s 3 "lsp" readServers {}

end Config

end SymbolQuery
