/-
Where settings are kept: in one file of the user and one file of the project.
-/
import SymbolQuery.Config.Loading

set_option autoImplicit false

namespace SymbolQuery

/-- Variables of the environment with their values. -/
abbrev Environment := List (String × String)

/-- A project, the files around it, and the environment. -/
structure ConfigStore where
  root : String
  /-- The directory that relative paths start from. -/
  directory : String
  files : Files
  environment : Environment

namespace ConfigStore

/-! ## Paths -/

/-- The directory of the user's settings: the one that a variable names, else one in the home. -/
def userDirectory (s : ConfigStore) : String :=
  match s.environment.lookup "XDG_CONFIG_HOME" with
  | some directory => directory
  | none =>
    match s.environment.lookup "HOME" with
    | some home => Path.join home ".config"
    | none => "."

/-- The path of a settings file. -/
def path (s : ConfigStore) (ofUser : Bool) : String :=
  if ofUser then Path.join (Path.join s.userDirectory "symlens") "config.toml"
  else Path.join (Path.join s.root ".symlens") "config.toml"

/-- The path of a settings file from the root of all files. -/
def fullPath (s : ConfigStore) (ofUser : Bool) : String := Path.join s.directory (s.path ofUser)

/-- Whether a settings file is there. -/
def isThere (s : ConfigStore) (ofUser : Bool) : Bool := s.files.isThere (s.fullPath ofUser)

/-! ## Loading -/

/-- The table of a settings file; a file that is not there has an empty one. -/
def table (s : ConfigStore) (ofUser : Bool) : Except ConfigFault (List (String × Toml)) :=
  if s.isThere ofUser then
    match s.files.readText (s.fullPath ofUser) with
    | .error fault => .error (.unreadable fault)
    | .ok text =>
      match Toml.parse text with
      | some entries => .ok entries
      | none => .error (.notToml (s.path ofUser))
  else .ok []

/-- What variables say. -/
def overrides (s : ConfigStore) : Config.Overrides :=
  { maxRows := s.environment.lookup "SYMLENS_MAX_ROWS"
    samplingCeiling := s.environment.lookup "SYMLENS_SAMPLING_CEILING"
    defaultDepth := s.environment.lookup "SYMLENS_CHILDREN_DEPTH" }

/-- The settings: those of the user alone, or those of the project laid over them. -/
def load (s : ConfigStore) (ofUserOnly : Bool) : Except ConfigFault Config := do
  let user ← s.table true
  let project ← if ofUserOnly then pure [] else s.table false
  Config.load user project s.overrides

/-! ## Writing -/

/-- Writes the settings that hold where nothing is set into a file, which must not be there yet
unless `force` says so. Returns its path and the files after that. -/
def init (s : ConfigStore) (ofUser force : Bool) : Except ConfigFault (String × Files) :=
  let path := s.path ofUser
  if s.isThere ofUser && !force then
    .error (.invalidValue "config" s!"Config already exists: {path}. Use --force to overwrite.")
  else
    let names := Path.components (s.fullPath ofUser)
    let written := do
      let files ← s.files.makeDirectory names.dropLast
      files.write names (Text.encode Config.defaultDocument)
    match written with
    | .ok files => .ok (path, files)
    | .error fault => .error (.unreadable fault)

end ConfigStore

end SymbolQuery
