/-
The program, from its arguments to what it prints.

The program finds its root, loads its settings, does what one command says and shuts
its servers down. Settings that can not be loaded are as good as none. A request that
can not be read is fatal; whatever goes wrong later is part of an answer.
-/
import SymbolQuery.Cli.Document
import SymbolQuery.Cli.Output
import SymbolQuery.Client.Greeting
import SymbolQuery.Config.Store
import SymbolQuery.Workspace.Dialogue

set_option autoImplicit false

namespace SymbolQuery.Cli

/-! ## Surroundings -/

/-- What the program finds where it runs. -/
structure Surroundings where
  directory : String
  files : Files
  environment : Environment
  /-- The programs that can be started. -/
  programs : List String := []
  /-- What the servers do, in the order of their starts; the last script repeats. -/
  scripts : List ServerScript := []

namespace Surroundings

/-- The surroundings after a number of servers have been started. -/
def afterStarts (s : Surroundings) (count : Nat) : Surroundings :=
  { s with scripts := s.scripts.drop (min count (s.scripts.length - 1)) }

/-- The root that is asked for, by its real path; without one, the current directory. -/
def root (s : Surroundings) : Option String → Except FileFault String
  | some path => s.files.realPath (Path.join s.directory path)
  | none => .ok s.directory

/-- The settings files of a root. -/
def store (s : Surroundings) (root : String) : ConfigStore :=
  ⟨root, s.directory, s.files, s.environment⟩

/-- The file that a command is about, if it names one. -/
def documentOf : Command → Option String
  | .resolve r | .locations _ r | .hover r | .hierarchy _ r | .children r _ =>
    match Reference.parse r with
    | .ok r => some r.file
    | .error _ => none
  | .symbols file => some (Text.trim file)
  | .configInit _ _ | .configShow _ | .configPath _ => none

/-- The paths that can matter to a run: the root, the settings, the document, and all directories
on the way to them. -/
def paths (s : Surroundings) (arguments : List String) : List String :=
  match parseArguments (s.environment.lookup "SYMLENS_ROOT") arguments with
  | .error _ => []
  | .ok i =>
    let root := Path.join s.directory (i.root.getD "")
    let store := s.store root
    let document := (documentOf i.command).map (Path.join root)
    ([root, store.fullPath true, store.fullPath false] ++ document.toList).flatMap Path.onTheWay

end Surroundings

/-! ## Lookups -/

/-- What a lookup needs to know. -/
structure Session where
  place : Place
  config : Config
  format : Format

namespace Session

/-- Does something with the request of a reference. -/
def withRequest (s : Session) (reference : String) (f : LookupRequest → Dialogue Report) :
    Dialogue Report :=
  match readRequest s.place reference with
  | .ok r => f r
  | .error fault => return .fatal fault.message

/-- Resolves a reference. -/
def resolve (s : Session) (reference : String) : Dialogue Report :=
  s.withRequest reference fun r => do
    let found ← Lookup.resolve s.config.timeouts.symbols r
    return Report.ofResult (fun found => .flat found.toJson) found

/-- Looks places up. -/
def locations (s : Session) (query : LocationQuery) (reference : String) : Dialogue Report :=
  s.withRequest reference fun r => do
    let found ← Lookup.locations s.config query r
    return Report.ofResult (.table s.format) found

/-- Looks a hover text up. -/
def hover (s : Session) (reference : String) : Dialogue Report :=
  s.withRequest reference fun r => do
    let found ← Lookup.hover s.config r
    return Report.ofResult (.table s.format) found

/-- Looks a hierarchy up. -/
def hierarchy (s : Session) (kind : HierarchyKind) (reference : String) : Dialogue Report :=
  s.withRequest reference fun r => do
    let found ← Lookup.hierarchy s.config kind r
    return Report.ofResult (.tables s.format) found

/-- Lists the symbols below another. -/
def children (s : Session) (reference : String) (depth : Option ChildDepth) : Dialogue Report :=
  s.withRequest reference fun r => do
    let found ← Lookup.children s.config r depth
    return Report.ofResult (.table s.format) found

/-- Lists the symbols of a document. -/
def symbols (s : Session) (file : String) : Dialogue Report :=
  match readDocument s.place file with
  | .ok uri => do
    let found ← Lookup.documentSymbols s.config uri
    return Report.ofResult (.table s.format) found
  | .error fault => return .fatal fault.message

end Session

/-! ## Settings -/

/-- The name of the settings that are meant. -/
def levelName (ofUser : Bool) : String := if ofUser then "global" else "project"

/-- How the path of settings is shown: those of a project below its root. -/
def shownPath (root : String) (ofUser : Bool) (path : String) : String :=
  if ofUser then path else Path.relativeTo root path

/-- Writes settings. -/
def initSettings (s : ConfigStore) (ofUser force : Bool) : Report × Files :=
  match s.init ofUser force with
  | .ok (path, files) =>
    (.flat (.obj [("status", .str "created"), ("path", .str (shownPath s.root ofUser path)),
      ("level", .str (levelName ofUser))]), files)
  | .error fault => (.error fault.message, s.files)

/-- Shows settings. -/
def showSettings (s : ConfigStore) (ofUser : Bool) : Report :=
  match s.load ofUser with
  | .ok c =>
    .flat (.obj [("level", .str (if ofUser then "global" else "merged")), ("config", c.toJson)])
  | .error fault => .error fault.message

/-- Shows where settings are kept. -/
def showPath (s : ConfigStore) (ofUser : Bool) : Report :=
  .flat (.obj [("level", .str (levelName ofUser)),
    ("path", .str (shownPath s.root ofUser (s.path ofUser))),
    ("exists", .bool (s.isThere ofUser))])

/-! ## The program -/

/-- Does what a command says that asks servers. -/
def lookUp (s : Session) : Command → Dialogue Report
  | .resolve reference => s.resolve reference
  | .locations query reference => s.locations query reference
  | .hover reference => s.hover reference
  | .hierarchy kind reference => s.hierarchy kind reference
  | .symbols file => s.symbols file
  | .children reference depth => s.children reference depth
  | .configInit _ _ | .configShow _ | .configPath _ => return { text := "" }

/-- The workspace of a root with its settings. -/
def workspace (s : Surroundings) (root : String) (c : Config) : Workspace :=
  { root := root
    directory := s.directory
    files := s.files
    commands := c.servers
    requestLimit := c.timeouts.longest
    programs := s.programs
    scripts := s.scripts }

/-- Does what a command says. -/
def execute (s : Surroundings) (i : Invocation) (root : String) : Report × Surroundings :=
  let store := s.store root
  match i.command with
  | .configInit ofUser force =>
    let (report, files) := initSettings store ofUser force
    (report, { s with files := files })
  | .configShow ofUser => (showSettings store ofUser, s)
  | .configPath ofUser => (showPath store ofUser, s)
  | command =>
    let config := (store.load false).toOption.getD {}
    let session : Session := ⟨⟨s.files, s.directory, root⟩, config, i.format⟩
    let (report, ws) := lookUp session command (workspace s root config)
    (report, s.afterStarts ws.shutdownAll.connections.length)

/-- The version of the program, under the name of the command that was asked for it. -/
def versionText (path : List String) : String :=
  String.intercalate "-" path ++ " " ++ (Client.programInfo.version.getD "") ++ "\n"

/-- What arguments that are no invocation come to. -/
def refusal : ArgumentFault → Report
  | .displayVersion path => { text := versionText path }
  | .displayHelp => { text := "" }
  | _ => { text := "", exitCode := Report.failureCode }

/-- Runs the program with the arguments behind its name. -/
def run (s : Surroundings) (arguments : List String) : Report × Surroundings :=
  match parseArguments (s.environment.lookup "SYMLENS_ROOT") arguments with
  | .error fault => (refusal fault, s)
  | .ok i =>
    match s.root i.root with
    | .error fault => (.fatal s!"Failed to initialize: {fault.message}", s)
    | .ok root => execute s i root

end SymbolQuery.Cli
